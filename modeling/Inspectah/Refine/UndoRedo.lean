import Inspectah.Refine.Generation

/-!
Undo and redo over what a session shows. An undo recomputes the caches, so it gives back what
was cached exactly when that was current.
-/
namespace Inspectah

open UndoHistory

/-- Opened or resumed, given a tarball or an upload directory, and served requests. -/
inductive Reachable (env : Env) : RefineSession → Prop where
  | opened (disk : Disk) (snap : InspectionSnapshot) : Reachable env (.new env disk snap)
  | resumed (disk : Disk) (snap : InspectionSnapshot) (tarball : String)
      (timeline : List TimelineEntry) (cursor : Nat) :
      Reachable env (.resume env disk snap tarball timeline cursor)
  | tarball {s : RefineSession} (path : String) (earlier : Reachable env s) :
      Reachable env { s with tarballPath := some path }
  | uploadDir {s : RefineSession} (dir : String) (earlier : Reachable env s) :
      Reachable env { s with uploadDir := some dir }
  | served {s : RefineSession} (served : Served) (earlier : Reachable env s) :
      Reachable env (serve env served s)

section Definitions

variable (env : Env) (disk : Disk)

def UploadsCurrent (s : RefineSession) : Prop :=
  s.cachedRenderContext.verifiedUploads =
    (computeRenderContext env.toHashing disk s.toSessionCore).verifiedUploads

/-- The requests that record an entry when they do anything. -/
def Request.isEdit : Request → Bool
  | .apply _ => true
  | .applyDirective _ => true
  | .applyBatch _ => true
  | _ => false

def Records (request : Request) (s : RefineSession) : Prop :=
  request.isEdit = true ∧
    ∃ entry, (serve env (disk, request) s).history = s.history.record entry

/-- Refused, or accepted as an edit that would change nothing. -/
def Request.IsIdle (request : Request) (s : RefineSession) : Prop :=
  (∃ e, (s.handle env disk request).result = .error e) ∨
    match request with
    | .apply op => isLockedInclusion s.original op = true ∨
        isOpNoop env.toHashing s.toSessionCore op = true
    | .applyDirective directive => isDirectiveNoop s.toSessionCore directive = true
    | _ => False

/-- Timeline, cursor, redo tail, generation, projection and both caches stay. -/
structure Unchanged (s after : RefineSession) : Prop where
  history : after.history = s.history
  generation : after.generation = s.generation
  projected : after.projected env.toHashing = s.projected env.toHashing
  view : after.cachedView = s.cachedView
  renderContext : after.cachedRenderContext = s.cachedRenderContext

structure ShowsSame (a b : RefineSession) : Prop where
  projected : a.projected env.toHashing = b.projected env.toHashing
  renderContext : a.cachedRenderContext = b.cachedRenderContext
  decisions : a.cachedDecisions = b.cachedDecisions

structure UndoRestores (s after : RefineSession) : Prop where
  undone : (after.undo env disk).result = .ok ()
  before : ShowsSame env (after.undo env disk).session s
  redone : ((after.undo env disk).session.redo env disk).result = .ok ()
  later : ShowsSame env ((after.undo env disk).session.redo env disk).session after

def RefineSession.undoEach (env : Env) : List Disk → RefineSession → Option RefineSession
  | [], s => some s
  | disk :: disks, s =>
    if s.history.cursor = 0 then none else undoEach env disks (s.undo env disk).session

structure DiscardsUndone (s back after : RefineSession) (k : Nat) : Prop where
  undone : ∃ undone, undone.length = k ∧ s.history.active = back.history.active ++ undone ∧
    back.history.redoTail = undone ++ s.history.redoTail
  kept : ∃ entry, after.history.entries = back.history.active ++ [entry]
  tail : after.history.redoTail = []

structure UndoRedoLaws (request : Request) (s : RefineSession) : Prop where
  bound : 0 ≤ s.history.cursor ∧ s.history.cursor ≤ s.history.entries.length
  idle : request.IsIdle env disk s → Unchanged env s (serve env (disk, request) s)
  restored : Records env disk request s →
    UndoRestores env disk s (serve env (disk, request) s)
  discarded : ∀ disks back, s.undoEach env disks = some back → Records env disk request back →
    DiscardsUndone s back (serve env (disk, request) back) disks.length

end Definitions

variable {env : Env} {disk : Disk} {s : RefineSession}

structure Coherent (env : Env) (s : RefineSession) : Prop where
  groups : s.cachedRenderContext.groupStates = groupStates s.toSessionCore
    (effectivePackages (viewParts env.toHashing s.toSessionCore).shown)
  decisions : s.cachedDecisions = projectDecisions env s.toSessionCore
    (viewParts env.toHashing s.toSessionCore).packages

theorem coherent_of_recomputed (fresh : Recomputed env s) : Coherent env s := by
  obtain ⟨_, _, _, _, rfl⟩ := fresh
  exact ⟨rfl, rfl⟩

theorem Coherent.serve (coherent : Coherent env s) (served : Served) :
    Coherent env (serve env served s) := by
  rcases serve_effect env s served with
    ⟨_, after, _⟩ | ⟨_, fresh, _⟩ | ⟨_, _, _, _, _, _, _, after⟩
  · rw [after]
    exact ⟨coherent.groups, coherent.decisions⟩
  · exact coherent_of_recomputed fresh
  · rw [after]
    exact ⟨coherent.groups, coherent.decisions⟩

theorem Reachable.coherent (reached : Reachable env s) : Coherent env s := by
  induction reached with
  | opened disk snap => exact coherent_of_recomputed (recomputed_view env disk _)
  | resumed disk snap tarball timeline cursor =>
    apply coherent_of_recomputed
    obtain ⟨degraded, saved⟩ := tryAutosave_eq disk.autosaveFails _
    exact ⟨disk, _, _, degraded, saved⟩
  | tarball path earlier ih => exact ⟨ih.groups, ih.decisions⟩
  | uploadDir dir earlier ih => exact ⟨ih.groups, ih.decisions⟩
  | served served earlier ih => exact ih.serve served

def SessionCore.onHistory (c : SessionCore) (history : History TimelineEntry) : SessionCore :=
  { c with history := history }

theorem toSessionCore_moveTo (env : Env) (disk : Disk) (s : RefineSession)
    (history : History TimelineEntry) : ∃ degraded, (s.moveTo env disk history).toSessionCore =
      { s.toSessionCore with
        history := history
        generation := s.generation + 1
        durabilityDegraded := degraded } := by
  obtain ⟨degraded, moved⟩ := moveTo_eq env disk s history
  exact ⟨degraded, by rw [moved]; rfl⟩

theorem renderContext_moveTo (history : History TimelineEntry) :
    (s.moveTo env disk history).cachedRenderContext =
      computeRenderContext env.toHashing disk (s.toSessionCore.onHistory history) := by
  obtain ⟨_, moved⟩ := moveTo_eq env disk s history
  rw [moved]
  rfl

def decisionsOf (env : Env) (c : SessionCore) : DecisionProjection :=
  projectDecisions env c (viewParts env.toHashing c).packages

theorem decisions_moveTo (history : History TimelineEntry) :
    (s.moveTo env disk history).cachedDecisions =
      decisionsOf env (s.toSessionCore.onHistory history) := by
  obtain ⟨_, moved⟩ := moveTo_eq env disk s history
  rw [moved]
  rfl

section Congruence

variable {c : SessionCore} {a b : History TimelineEntry} (same : a.active = b.active)
include same

theorem viewParts_at (h : Hashing) : viewParts h (c.onHistory a) = viewParts h (c.onHistory b) := by
  simp only [viewParts, SessionCore.projected, SessionCore.onHistory, same]

theorem renderContext_at (h : Hashing) (disk : Disk) :
    computeRenderContext h disk (c.onHistory a) = computeRenderContext h disk (c.onHistory b) := by
  unfold computeRenderContext
  rw [viewParts_at same]
  simp only [groupStates, SessionCore.onHistory, same]

theorem decisions_at (env : Env) : decisionsOf env (c.onHistory a) = decisionsOf env (c.onHistory b) := by
  unfold decisionsOf
  rw [viewParts_at same]
  simp only [projectDecisions, buildRepoGroups, SessionCore.reposExcluded, SessionCore.repoChanges,
    SessionCore.isSensitive, SessionCore.activeOps, SessionCore.projected, SessionCore.onHistory, same]

end Congruence

theorem records_session {request : Request} (records : Records env disk request s) :
    ∃ entry, serve env (disk, request) s = s.record env disk entry := by
  obtain ⟨edit, entry, recorded⟩ := records
  -- An edit that left the session as it was has recorded nothing.
  have moves : serve env (disk, request) s = s ∨
      ∃ entry, serve env (disk, request) s = s.record env disk entry := by
    cases request with
    | apply op =>
      change (s.apply env disk op).session = s ∨ ∃ entry, (s.apply env disk op).session = _
      rw [apply_session]
      split
      · exact .inr ⟨_, rfl⟩
      · exact .inl rfl
    | applyDirective directive =>
      exact (applyDirective_session directive).imp_right fun moved => ⟨_, moved⟩
    | applyBatch ops =>
      change (s.applyBatch env disk ops).session = s ∨ ∃ entry, (s.applyBatch env disk ops).session = _
      rw [applyBatch_session]
      cases ops.filter fun op => !isLockedInclusion s.original op with
      | nil => exact .inl rfl
      | cons op rest => exact .inr ⟨_, rfl⟩
    | _ => cases edit
  rcases moves with same | recorded'
  · rw [same] at recorded
    exact absurd recorded.symm (record_ne _ _)
  · exact recorded'

theorem undo_moveTo (env : Env) (disk : Disk) (s : RefineSession)
    {history earlier : History TimelineEntry} (step : history.undo = some earlier) :
    (s.moveTo env disk history).undo env disk =
      ⟨.ok (), (s.moveTo env disk history).moveTo env disk earlier⟩ := by
  unfold RefineSession.undo
  rw [history_moveTo, step]

theorem redo_moveTo (env : Env) (disk : Disk) (s : RefineSession)
    {history later : History TimelineEntry} (step : history.redo = some later) :
    (s.moveTo env disk history).redo env disk =
      ⟨.ok (), (s.moveTo env disk history).moveTo env disk later⟩ := by
  unfold RefineSession.redo
  rw [history_moveTo, step]

theorem moveTo_moveTo (env : Env) (disk : Disk) (s : RefineSession)
    (first last : History TimelineEntry) :
    ShowsSame env ((s.moveTo env disk first).moveTo env disk last) (s.moveTo env disk last) := by
  obtain ⟨_, core⟩ := toSessionCore_moveTo env disk s first
  refine ⟨?_, ?_, ?_⟩
  · rw [projected_moveTo, projected_moveTo, core]
  · rw [renderContext_moveTo, renderContext_moveTo, core]
    rfl
  · rw [decisions_moveTo, decisions_moveTo, core]
    rfl

theorem ShowsSame.trans {a b c : RefineSession} (ab : ShowsSame env a b) (bc : ShowsSame env b c) :
    ShowsSame env a c :=
  ⟨ab.projected.trans bc.projected, ab.renderContext.trans bc.renderContext,
    ab.decisions.trans bc.decisions⟩

theorem ShowsSame.symm {a b : RefineSession} (ab : ShowsSame env a b) : ShowsSame env b a :=
  ⟨ab.projected.symm, ab.renderContext.symm, ab.decisions.symm⟩

theorem moveTo_shows_iff (coherent : Coherent env s) {history : History TimelineEntry}
    (same : history.active = s.history.active) :
    ShowsSame env (s.moveTo env disk history) s ↔ UploadsCurrent env disk s := by
  have context : (s.moveTo env disk history).cachedRenderContext =
      computeRenderContext env.toHashing disk s.toSessionCore := by
    rw [renderContext_moveTo, renderContext_at same]
    rfl
  constructor
  · intro shown
    rw [UploadsCurrent, ← context, shown.renderContext]
  · intro current
    refine ⟨?_, ?_, ?_⟩
    · rw [projected_moveTo, same]
      rfl
    · rw [context]
      have groups := coherent.groups
      unfold UploadsCurrent at current
      generalize s.cachedRenderContext = cached at groups current ⊢
      cases cached
      subst groups current
      rfl
    · rw [decisions_moveTo, decisions_at same, coherent.decisions]
      rfl

theorem undoRestores_iff (coherent : Coherent env s) (entry : TimelineEntry) :
    UndoRestores env disk s (s.record env disk entry) ↔ UploadsCurrent env disk s := by
  obtain ⟨earlier, undo, same, redo⟩ := s.history.undo_record entry
  have undone := undo_moveTo env disk s undo
  have redone := redo_moveTo env disk (s.record env disk entry) redo
  have back := moveTo_moveTo env disk s (s.history.record entry) earlier
  rw [← moveTo_shows_iff coherent same]
  constructor
  · intro restores
    have before := restores.before
    rw [RefineSession.record, undone] at before
    exact back.symm.trans before
  · intro shown
    have forth := (moveTo_moveTo env disk (s.record env disk entry) earlier
      (s.history.record entry)).trans (moveTo_moveTo env disk s _ (s.history.record entry))
    unfold RefineSession.record at redone forth ⊢
    constructor
    · rw [undone]
    · rw [undone]
      exact back.trans shown
    · rw [undone, redone]
    · rw [undone, redone]
      exact forth

theorem unchanged_of_generation {served : Served}
    (same : (serve env served s).generation = s.generation) :
    Unchanged env s (serve env served s) := by
  rcases serve_effect env s served with
    ⟨_, after, _⟩ | ⟨next, _, _⟩ | ⟨_, _, _, _, _, _, _, after⟩
  · rw [after]
    exact ⟨rfl, rfl, rfl, rfl, rfl⟩
  · omega
  · rw [after]
    exact ⟨rfl, rfl, rfl, rfl, rfl⟩

theorem apply_recorded_ok {op : RefinementOp} (recorded : s.records env op = true) :
    (s.apply env disk op).result = .ok () := by
  have unlocked := records_unlocked recorded
  unfold RefineSession.records at recorded
  unfold RefineSession.apply
  cases valid : validateTarget env.toHashing s.toSessionCore op with
  | error e => simp [valid, Except.isOk, Except.toBool] at recorded
  | ok _ =>
    cases decides : checkNoop env.toHashing s.toSessionCore s.cachedView op with
    | error e => simp [decides, Except.isOk, Except.toBool] at recorded
    | ok _ =>
      dsimp only
      rw [unlocked, if_neg Bool.false_ne_true]
      split <;> rfl

theorem unmarkUploadedRpm_outcome (env : Env) (disk : Disk) (s : RefineSession)
    (name arch : String) : (∃ e, s.unmarkUploadedRpm env disk name arch = ⟨.error e, s⟩) ∨
      ∃ outcome after, s.unmarkUploadedRpm env disk name arch = ⟨.ok outcome, after⟩ := by
  unfold RefineSession.unmarkUploadedRpm
  split
  · exact .inr ⟨_, _, rfl⟩
  · split
    · exact .inr ⟨_, _, rfl⟩
    · split
      · exact .inl ⟨_, rfl⟩
      · exact .inr ⟨_, _, rfl⟩

theorem ensureUploadDir_outcome (env : Env) (disk : Disk) (s : RefineSession) :
    (∃ e after, s.ensureUploadDir env disk = ⟨.error e, after⟩ ∧
      after.generation = s.generation) ∨
      ∃ paths after, s.ensureUploadDir env disk = ⟨.ok paths, after⟩ := by
  unfold RefineSession.ensureUploadDir RefineSession.rescanUploadDir
  split
  · exact .inr ⟨_, _, rfl⟩
  · split
    · exact .inl ⟨_, _, rfl, rfl⟩
    · rename_i dir canon _
      cases disk.readDir canon with
      | error e => exact .inl ⟨_, _, rfl, rfl⟩
      | ok names =>
        right
        dsimp only
        split
        · rename_i gone
          split at gone <;> cases gone
        · exact ⟨_, _, rfl⟩

theorem generation_of_error {request : Request} {e : RefineError}
    (refused : (s.handle env disk request).result = .error e) :
    (s.handle env disk request).session.generation = s.generation := by
  cases request with
  | apply op =>
    change (s.apply env disk op).session.generation = _
    rw [apply_session]
    split
    · rename_i recorded
      have accepted : (s.apply env disk op).result = .ok () := apply_recorded_ok recorded
      cases accepted.symm.trans refused
    · rfl
  | applyDirective directive =>
    obtain ⟨name⟩ := directive
    change (s.applyDirective env disk _).result = _ at refused
    change (s.applyDirective env disk _).session.generation = _
    unfold RefineSession.applyDirective at refused ⊢
    dsimp only at refused ⊢
    split
    · rfl
    · rename_i known
      rw [if_neg known] at refused
      split
      · rfl
      · rename_i fresh
        rw [if_neg fresh] at refused
        cases refused
  | applyBatch ops =>
    change (s.applyBatch env disk ops).result = _ at refused
    unfold RefineSession.applyBatch at refused
    cases kept : ops.filter fun op => !isLockedInclusion s.original op with
    | nil => rw [kept] at refused; cases refused
    | cons op rest => rw [kept] at refused; cases refused
  | undo =>
    change (s.undo env disk).result = _ at refused
    change (s.undo env disk).session.generation = _
    unfold RefineSession.undo at refused ⊢
    cases step : s.history.undo with
    | none => rfl
    | some history => rw [step] at refused; cases refused
  | redo =>
    change (s.redo env disk).result = _ at refused
    change (s.redo env disk).session.generation = _
    unfold RefineSession.redo at refused ⊢
    cases step : s.history.redo with
    | none => rfl
    | some history => rw [step] at refused; cases refused
  | reset =>
    change (s.reset env disk).result = _ at refused
    change (s.reset env disk).session.generation = _
    unfold RefineSession.reset at refused ⊢
    split
    · rfl
    · rename_i recorded
      rw [if_neg recorded] at refused
      cases refused
  | setUploaded canonical path version => cases refused
  | unmarkUploadedRpm name arch =>
    change (s.unmarkUploadedRpm env disk name arch).void.result = _ at refused
    change (s.unmarkUploadedRpm env disk name arch).session.generation = _
    rcases unmarkUploadedRpm_outcome env disk s name arch with ⟨e', same⟩ | ⟨_, _, accepted⟩
    · rw [same]
    · rw [accepted] at refused
      cases refused
  | ensureUploadDir =>
    change (s.ensureUploadDir env disk).void.result = _ at refused
    change (s.ensureUploadDir env disk).session.generation = _
    rcases ensureUploadDir_outcome env disk s with ⟨_, _, failed, same⟩ | ⟨_, _, accepted⟩
    · rw [failed, same]
    · rw [accepted] at refused
      cases refused
  | markViewed id =>
    change (s.markViewed id).session.generation = _
    unfold RefineSession.markViewed
    split <;> rfl

theorem unchanged_of_idle {request : Request} (idle : request.IsIdle env disk s) :
    Unchanged env s (serve env (disk, request) s) := by
  apply unchanged_of_generation
  rcases idle with ⟨e, refused⟩ | nothing
  · exact generation_of_error refused
  · cases request with
    | apply op =>
      change (s.apply env disk op).session.generation = _
      rw [apply_session, if_neg]
      intro recorded
      simp only [RefineSession.records, Bool.and_eq_true, Bool.not_eq_true'] at recorded
      rcases nothing with locked | noop
      · rw [locked] at recorded
        cases recorded.1.1.2
      · rw [noop] at recorded
        cases recorded.2
    | applyDirective directive =>
      obtain ⟨name⟩ := directive
      change (s.applyDirective env disk _).session.generation = _
      unfold RefineSession.applyDirective
      dsimp only
      have noop : isDirectiveNoop s.toSessionCore (.ungroupGroup name) = true := nothing
      rw [if_pos noop]
      split <;> rfl
    | _ => cases nothing

theorem history_undo_session (h : s.history.cursor ≠ 0) :
    s.history.undo = some (s.undo env disk).session.history := by
  unfold RefineSession.undo
  cases step : s.history.undo with
  | none => exact absurd (History.undo_eq_none.mp step) h
  | some history => rw [history_moveTo]

theorem history_undoEach {disks : List Disk} {back : RefineSession}
    (undone : s.undoEach env disks = some back) :
    History.undoMany disks.length s.history = some back.history := by
  induction disks generalizing s with
  | nil => cases undone; rfl
  | cons disk disks ih =>
    unfold RefineSession.undoEach at undone
    split at undone
    · cases undone
    · rename_i moved
      rw [List.length_cons, History.undoMany, history_undo_session moved]
      exact ih undone

theorem discardsUndone {request : Request} {disks : List Disk} {back : RefineSession}
    (undone : s.undoEach env disks = some back) (records : Records env disk request back) :
    DiscardsUndone s back (serve env (disk, request) back) disks.length := by
  obtain ⟨entry, recorded⟩ := records_session records
  rw [recorded, RefineSession.record]
  refine ⟨History.undoMany_split (history_undoEach undone), ⟨entry, ?_⟩, ?_⟩
  · rw [history_moveTo]
    rfl
  · rw [history_moveTo, History.redoTail_record]

/-- The laws hold of a request exactly when it records nothing or finds the uploads current. -/
theorem undo_redo_laws_iff (reached : Reachable env s) (disk : Disk) (request : Request) :
    UndoRedoLaws env disk request s ↔ (Records env disk request s → UploadsCurrent env disk s) := by
  have coherent := reached.coherent
  constructor
  · intro laws records
    have restored := laws.restored records
    obtain ⟨entry, recorded⟩ := records_session records
    rw [recorded] at restored
    exact (undoRestores_iff coherent entry).mp restored
  · intro current
    refine ⟨⟨Nat.zero_le _, s.history.bound⟩, unchanged_of_idle, fun records => ?_, ?_⟩
    · obtain ⟨entry, recorded⟩ := records_session records
      rw [recorded]
      exact (undoRestores_iff coherent entry).mpr (current records)
    · exact fun disks back undone records => discardsUndone undone records

def stagedPackageHost : InspectionSnapshot :=
  { rpm := some
      { packagesAdded :=
          [{ name := "tool", version := "1", release := "1", arch := "noarch"
             repolessAnnotation := "No repo source", repolessCached := true, uploaded := true
             cachePath := some "/srv/host-uploads/tool-1-1.noarch.rpm" }] } }

def stagedDisk : Disk :=
  { sampleDisk with
    parentOf := fun _ => some "/srv/host-uploads"
    readDir := fun _ => .ok ["tool-1-1.noarch.rpm"]
    probeFile := fun _ => .regular }

def toggleTool (incl : Bool) : Request := .apply (.setInclude (.package "tool" "noarch") incl)

theorem undo_redo_laws_fresh :
    UndoRedoLaws sampleEnv stagedDisk (toggleTool true)
      (.new sampleEnv stagedDisk stagedPackageHost) :=
  (undo_redo_laws_iff (.opened stagedDisk stagedPackageHost) stagedDisk (toggleTool true)).mpr
    fun _ => rfl

/-- The package included, then the directory prepared: the file is claimed, so nothing is
    recomputed. -/
def stagedSession : RefineSession :=
  serve sampleEnv (stagedDisk, .ensureUploadDir)
    (serve sampleEnv (stagedDisk, toggleTool true)
      { RefineSession.new sampleEnv stagedDisk stagedPackageHost with
        tarballPath := some "/srv/host.tar.gz" })

/-- Excluding the package and undoing that shows an upload not shown before. -/
theorem undo_shows_unmarked_upload : Reachable sampleEnv stagedSession ∧
    ¬ UndoRedoLaws sampleEnv stagedDisk (toggleTool false) stagedSession := by
  have reached : Reachable sampleEnv stagedSession :=
    .served _ (.served _ (.tarball _ (.opened stagedDisk stagedPackageHost)))
  refine ⟨reached, fun laws => ?_⟩
  have session : serve sampleEnv (stagedDisk, toggleTool false) stagedSession =
      stagedSession.record sampleEnv stagedDisk
        (.op (.setInclude (.package "tool" "noarch") false)) := by
    have recorded : stagedSession.records sampleEnv
        (.setInclude (.package "tool" "noarch") false) = true := by decide
    exact (apply_session sampleEnv stagedDisk stagedSession _).trans (if_pos recorded)
  have records : Records sampleEnv stagedDisk (toggleTool false) stagedSession :=
    ⟨rfl, _, by rw [session, RefineSession.record, history_moveTo]⟩
  have restored := laws.restored records
  rw [session, undoRestores_iff reached.coherent] at restored
  have shown := congrArg (fun m => (m.lookup "tool.noarch").isSome) restored
  revert shown
  decide

end Inspectah
