import Inspectah.Refine.SessionLaws

/-!
A batch against its operations one by one: those are also dropped when their target is refused
or nothing would change.
-/
namespace Inspectah

open UndoHistory

variable (env : Env) (disk : Disk)

/-- The operations one after the other; a refused one leaves the session. -/
def RefineSession.applyAll (ops : List RefinementOp) (s : RefineSession) : RefineSession :=
  ops.foldl (fun s op => (s.apply env disk op).session) s

/-- Whether applying the operation records it. -/
def RefineSession.records (s : RefineSession) (op : RefinementOp) : Bool :=
  (validateTarget env.toHashing s.toSessionCore op).isOk && !isLockedInclusion s.original op &&
    (checkNoop env.toHashing s.toSessionCore s.cachedView op).isOk &&
    !isOpNoop env.toHashing s.toSessionCore op

/-- The operations recorded one by one, each checked in the state before it. -/
def RefineSession.recordedOps : List RefinementOp → RefineSession → List RefinementOp
  | [], _ => []
  | op :: ops, s =>
    let rest := recordedOps ops (s.apply env disk op).session
    if s.records env op then op :: rest else rest

def RefineSession.RecordedInTurn : List RefinementOp → RefineSession → Prop
  | [], _ => True
  | op :: ops, s => (isLockedInclusion s.original op = true ∨ s.records env op = true) ∧
      RecordedInTurn ops (s.apply env disk op).session

/-- What was recorded since `before`, as one entry on it. -/
def collapseInto (before after : History TimelineEntry) : History TimelineEntry :=
  match timelineOps (after.active.drop before.cursor) with
  | [] => before
  | op :: ops => before.record (.batch (op :: ops))

structure BatchIsSequence (ops : List RefinementOp) (s : RefineSession) : Prop where
  shown : (s.applyBatch env disk ops).session.projected env.toHashing =
    (s.applyAll env disk ops).projected env.toHashing
  undoStep : (s.applyBatch env disk ops).session.history =
    collapseInto s.history (s.applyAll env disk ops).history
  idle : s.recordedOps env disk ops = [] →
    (s.applyBatch env disk ops).session.history = s.history ∧
      (s.applyBatch env disk ops).session.generation = s.generation

theorem apply_session (s : RefineSession) (op : RefinementOp) : (s.apply env disk op).session =
    if s.records env op then s.record env disk (.op op) else s := by
  unfold RefineSession.apply RefineSession.records
  cases validateTarget env.toHashing s.toSessionCore op with
  | error e => rfl
  | ok _ =>
    cases isLockedInclusion s.original op with
    | true => rfl
    | false =>
      cases checkNoop env.toHashing s.toSessionCore s.cachedView op with
      | error e => rfl
      | ok _ => cases isOpNoop env.toHashing s.toSessionCore op <;> rfl

section Sequence

variable {env disk} {s : RefineSession}

theorem original_apply (op : RefinementOp) : (s.apply env disk op).session.original = s.original := by
  rw [apply_session]
  split
  · exact original_moveTo _
  · rfl

theorem repoIndex_record (entry : TimelineEntry) :
    (s.record env disk entry).repoIndex = s.repoIndex := by
  obtain ⟨_, moved⟩ := moveTo_eq env disk s (s.history.record entry)
  rw [RefineSession.record, moved]
  rfl

theorem repoIndex_apply (op : RefinementOp) :
    (s.apply env disk op).session.repoIndex = s.repoIndex := by
  rw [apply_session]
  split
  · exact repoIndex_record _
  · rfl

theorem original_applyAll (s : RefineSession) (ops : List RefinementOp) :
    (s.applyAll env disk ops).original = s.original := by
  induction ops generalizing s with
  | nil => rfl
  | cons op ops ih => exact (ih _).trans (original_apply op)

theorem repoIndex_applyAll (s : RefineSession) (ops : List RefinementOp) :
    (s.applyAll env disk ops).repoIndex = s.repoIndex := by
  induction ops generalizing s with
  | nil => rfl
  | cons op ops ih => exact (ih _).trans (repoIndex_apply op)

/-- In sequence, exactly the recorded operations join the active timeline. -/
theorem active_applyAll (ops : List RefinementOp) : (s.applyAll env disk ops).history.active =
    s.history.active ++ (s.recordedOps env disk ops).map .op := by
  induction ops generalizing s with
  | nil => simp [RefineSession.applyAll, RefineSession.recordedOps]
  | cons op ops ih =>
    have rest := ih (s := (s.apply env disk op).session)
    have head := apply_session env disk s op
    unfold RefineSession.recordedOps
    change ((s.apply env disk op).session.applyAll env disk ops).history.active = _
    rw [rest]
    cases recorded : s.records env op with
    | true =>
      rw [recorded, if_pos rfl] at head
      rw [head, RefineSession.record, history_moveTo, History.active_record]
      simp
    | false =>
      rw [recorded, if_neg Bool.false_ne_true] at head
      rw [head]
      simp

theorem timelineOps_map_op (ops : List RefinementOp) : timelineOps (ops.map .op) = ops := by
  induction ops with
  | nil => rfl
  | cons op ops ih =>
    rw [List.map_cons, ← List.singleton_append, timelineOps_append, ih]
    rfl

theorem collapse_applyAll (ops : List RefinementOp) :
    collapseInto s.history (s.applyAll env disk ops).history =
      match s.recordedOps env disk ops with
      | [] => s.history
      | op :: rest => s.history.record (.batch (op :: rest)) := by
  have since : (s.applyAll env disk ops).history.active.drop s.history.cursor =
      (s.recordedOps env disk ops).map .op := by
    rw [active_applyAll, ← s.history.active_length, List.drop_left]
  rw [collapseInto, since, timelineOps_map_op]

theorem records_unlocked {op : RefinementOp} (recorded : s.records env op = true) :
    isLockedInclusion s.original op = false := by
  simp only [RefineSession.records, Bool.and_eq_true, Bool.not_eq_true'] at recorded
  exact recorded.1.1.2

theorem recordedOps_sublist (env : Env) (disk : Disk) (s : RefineSession)
    (ops : List RefinementOp) : List.Sublist (s.recordedOps env disk ops)
      (ops.filter fun op => !isLockedInclusion s.original op) := by
  induction ops generalizing s with
  | nil => exact .slnil
  | cons op ops ih =>
    have rest := ih (s.apply env disk op).session
    rw [original_apply] at rest
    unfold RefineSession.recordedOps
    dsimp only
    cases recorded : s.records env op with
    | true =>
      rw [if_pos rfl, List.filter_cons_of_pos (by simp [records_unlocked recorded])]
      exact rest.cons_cons op
    | false =>
      rw [if_neg Bool.false_ne_true]
      exact rest.trans ((List.sublist_cons_self op ops).filter _)

theorem recordedInTurn_iff (ops : List RefinementOp) : s.RecordedInTurn env disk ops ↔
    ops.filter (fun op => !isLockedInclusion s.original op) = s.recordedOps env disk ops := by
  induction ops generalizing s with
  | nil => simp [RefineSession.RecordedInTurn, RefineSession.recordedOps]
  | cons op ops ih =>
    have rest := ih (s := (s.apply env disk op).session)
    rw [original_apply] at rest
    unfold RefineSession.RecordedInTurn RefineSession.recordedOps
    dsimp only
    rw [rest]
    cases recorded : s.records env op with
    | true => simp [records_unlocked recorded]
    | false =>
      cases locked : isLockedInclusion s.original op with
      | true => simp [locked]
      | false =>
        -- The batch keeps an operation that was not recorded, so it is longer.
        have fewer := (recordedOps_sublist env disk (s.apply env disk op).session ops).length_le
        rw [original_apply] at fewer
        simp only [Bool.false_eq_true, or_self, false_and, if_false, locked, Bool.not_false,
          List.filter_cons_of_pos, false_iff]
        intro same
        rw [← same] at fewer
        exact Nat.not_succ_le_self _ fewer

end Sequence

section Projected

variable {env disk} {s : RefineSession}

theorem applyBatch_session (ops : List RefinementOp) : (s.applyBatch env disk ops).session =
    match ops.filter fun op => !isLockedInclusion s.original op with
    | [] => s
    | op :: rest => s.record env disk (.batch (op :: rest)) := by
  unfold RefineSession.applyBatch
  cases ops.filter fun op => !isLockedInclusion s.original op <;> rfl

theorem history_applyBatch (ops : List RefinementOp) :
    (s.applyBatch env disk ops).session.history =
      match ops.filter fun op => !isLockedInclusion s.original op with
      | [] => s.history
      | op :: rest => s.history.record (.batch (op :: rest)) := by
  rw [applyBatch_session]
  cases ops.filter fun op => !isLockedInclusion s.original op with
  | nil => rfl
  | cons op rest => exact history_moveTo _

theorem projected_applyBatch (ops : List RefinementOp) :
    (s.applyBatch env disk ops).session.projected env.toHashing =
      projectSnapshot env.toHashing s.original s.repoIndex
        (s.applyBatch env disk ops).session.history.active := by
  rw [applyBatch_session]
  cases ops.filter fun op => !isLockedInclusion s.original op with
  | nil => rfl
  | cons op rest =>
    simp only [RefineSession.record, projected_moveTo, history_moveTo]

theorem projectSnapshot_congr {original : InspectionSnapshot} {index : RepoIndex} (h : Hashing)
    {a b : List TimelineEntry} (same : timelineOps a = timelineOps b) :
    projectSnapshot h original index a = projectSnapshot h original index b := by
  unfold projectSnapshot
  rw [same]

end Projected

theorem record_ne (history : History TimelineEntry) (entry : TimelineEntry) :
    history.record entry ≠ history := by
  intro same
  have cursor := congrArg History.cursor same
  exact absurd cursor (Nat.succ_ne_self _)

theorem record_injective {history : History TimelineEntry} {a b : TimelineEntry}
    (same : history.record a = history.record b) : a = b := by
  have entries : history.active ++ [a] = history.active ++ [b] := congrArg History.entries same
  simpa using entries

theorem batch_is_sequence_iff (s : RefineSession) (ops : List RefinementOp) :
    BatchIsSequence env disk ops s ↔ s.RecordedInTurn env disk ops := by
  rw [recordedInTurn_iff]
  constructor
  · intro sequence
    have step := sequence.undoStep
    rw [history_applyBatch, collapse_applyAll] at step
    cases kept : ops.filter fun op => !isLockedInclusion s.original op with
    | nil =>
      cases recorded : s.recordedOps env disk ops with
      | nil => rfl
      | cons op rest =>
        rw [kept, recorded] at step
        exact absurd step.symm (record_ne _ _)
    | cons op rest =>
      cases recorded : s.recordedOps env disk ops with
      | nil =>
        rw [kept, recorded] at step
        exact absurd step (record_ne _ _)
      | cons op' rest' =>
        rw [kept, recorded] at step
        exact TimelineEntry.batch.inj (record_injective step)
  · intro kept
    have step : (s.applyBatch env disk ops).session.history =
        collapseInto s.history (s.applyAll env disk ops).history := by
      rw [history_applyBatch, collapse_applyAll, kept]
    refine ⟨?_, step, ?_⟩
    · have all : (s.applyAll env disk ops).projected env.toHashing =
          projectSnapshot env.toHashing s.original s.repoIndex
            (s.applyAll env disk ops).history.active := by
        rw [SessionCore.projected, original_applyAll, repoIndex_applyAll]
      rw [projected_applyBatch, all, step]
      apply projectSnapshot_congr
      rw [collapse_applyAll, active_applyAll]
      cases s.recordedOps env disk ops with
      | nil => simp
      | cons op rest =>
        rw [History.active_record, timelineOps_append, timelineOps_append, timelineOps_map_op,
          timelineOps_singleton]
        rfl
    · intro none
      rw [applyBatch_session, kept, none]
      exact ⟨rfl, rfl⟩

def distroPackageHost : InspectionSnapshot :=
  { rpm := some
      { packagesAdded := [{ name := "htop", arch := "x86_64", sourceRepo := "baseos" }] } }

/-- A distribution repository cannot be toggled; in a batch it is. -/
theorem batch_toggles_distro_repo :
    let s := RefineSession.new sampleEnv sampleDisk distroPackageHost
    let ops : List RefinementOp := [.setInclude (.repo "baseos") true]
    s.recordedOps sampleEnv sampleDisk ops = [] ∧
      ¬ BatchIsSequence sampleEnv sampleDisk ops s ∧
      (s.applyBatch sampleEnv sampleDisk ops).session.projected sampleEnv.toHashing ≠
        (s.applyAll sampleEnv sampleDisk ops).projected sampleEnv.toHashing := by
  have idle : (RefineSession.new sampleEnv sampleDisk distroPackageHost).recordedOps
      sampleEnv sampleDisk [.setInclude (.repo "baseos") true] = [] := by decide
  refine ⟨idle, fun sequence => ?_, fun same => ?_⟩
  · have kept := congrArg (fun h => h.cursor) (sequence.idle idle).1
    revert kept
    decide
  · have shown := congrArg (fun snap => (rpmPackages snap).map (·.disposition)) same
    revert shown
    decide

end Inspectah
