import Inspectah.Refine.Frame
import Inspectah.Refine.Session

/-!
What each operation of a session can do. An operation either leaves the session
as it was or moves it to another history, one generation later.
-/
namespace Inspectah

open UndoHistory

variable {env : Env} {disk : Disk} {s : RefineSession}

theorem tryAutosave_eq (fails : Bool) (s : RefineSession) :
    ∃ degraded, tryAutosave fails s = { s with durabilityDegraded := degraded } := by
  unfold tryAutosave
  split
  · exact ⟨true, rfl⟩
  · exact ⟨s.durabilityDegraded, rfl⟩

def RefineSession.atHistory (env : Env) (disk : Disk) (s : RefineSession)
    (history : History TimelineEntry) : RefineSession :=
  recomputeView env disk
    { s.toSessionCore with
      history := history
      generation := s.generation + 1 }

theorem moveTo_eq (env : Env) (disk : Disk) (s : RefineSession) (history : History TimelineEntry) :
    ∃ degraded, s.moveTo env disk history =
      { s.atHistory env disk history with durabilityDegraded := degraded } :=
  tryAutosave_eq disk.autosaveFails _

@[simp] theorem original_moveTo (history : History TimelineEntry) :
    (s.moveTo env disk history).original = s.original := by
  obtain ⟨_, moved⟩ := moveTo_eq env disk s history
  rw [moved]
  rfl

@[simp] theorem history_moveTo (history : History TimelineEntry) :
    (s.moveTo env disk history).history = history := by
  obtain ⟨_, moved⟩ := moveTo_eq env disk s history
  rw [moved]
  rfl

@[simp] theorem generation_moveTo (history : History TimelineEntry) :
    (s.moveTo env disk history).generation = s.generation + 1 := by
  obtain ⟨_, moved⟩ := moveTo_eq env disk s history
  rw [moved]
  rfl

@[simp] theorem projected_moveTo (h : Hashing) (history : History TimelineEntry) :
    (s.moveTo env disk history).projected h =
      projectSnapshot h s.original s.repoIndex history.active := by
  obtain ⟨_, moved⟩ := moveTo_eq env disk s history
  rw [moved]
  rfl

theorem projected_record (h : Hashing) (entry : TimelineEntry) :
    (s.record env disk entry).projected h =
      projectSnapshot h s.original s.repoIndex (s.history.active ++ [entry]) := by
  rw [RefineSession.record, projected_moveTo, History.active_record]

theorem valid_of_accepted {op : RefinementOp}
    (accepted : (s.apply env disk op).result = .ok ()) :
    validateTarget env.toHashing s.toSessionCore op = .ok () := by
  unfold RefineSession.apply at accepted
  split at accepted
  · cases accepted
  · assumption

theorem apply_accepted {op : RefinementOp} (accepted : (s.apply env disk op).result = .ok ()) :
    ((isLockedInclusion s.original op = true ∨ isOpNoop env.toHashing s.toSessionCore op = true) ∧
      (s.apply env disk op).session = s) ∨
    (isLockedInclusion s.original op = false ∧
      isOpNoop env.toHashing s.toSessionCore op = false ∧
      (s.apply env disk op).session = s.record env disk (.op op)) := by
  unfold RefineSession.apply at accepted ⊢
  cases valid : validateTarget env.toHashing s.toSessionCore op with
  | error e => rw [valid] at accepted; cases accepted
  | ok _ =>
    rw [valid] at accepted
    dsimp only at accepted ⊢
    cases locked : isLockedInclusion s.original op with
    | true => exact .inl ⟨.inl rfl, by rw [if_pos rfl]⟩
    | false =>
      rw [locked, if_neg Bool.false_ne_true] at accepted
      rw [if_neg Bool.false_ne_true]
      cases decides : checkNoop env.toHashing s.toSessionCore s.cachedView op with
      | error e => rw [decides] at accepted; cases accepted
      | ok _ =>
        dsimp only
        cases noop : isOpNoop env.toHashing s.toSessionCore op with
        | true => exact .inl ⟨.inr rfl, by rw [if_pos rfl]⟩
        | false => exact .inr ⟨rfl, rfl, by rw [if_neg Bool.false_ne_true]⟩

/-- SHA-256 of the empty text and of `a`; no run below hashes another text. -/
def sampleDigest (s : String) : String :=
  if s = "" then "e3b0c44298fc1c149afbf4c8996fb92427ae41e4649b934ca495991b7852b855"
  else if s = "a" then "ca978112ca1bbdcafac231b39a23dc4da786eff8147c4e72b9807785afee48bb"
  else s

def sampleEnv : Env where
  digest := sampleDigest
  imagesJson _ := "[]"
  order := .insertion
  preview _ _ _ := ""
  decodeUser _ := none

/-- An empty directory the session's user owns. -/
def sampleDisk : Disk where
  euid := 1000
  probeDir _ := .directory 1000 0o755
  createDir _ := none
  canonicalize := .ok
  parentOf _ := none
  sweepPartFiles _ := none
  readDir _ := .ok []
  probeFile _ := .missing
  removeFile _ := none
  autosaveFails := false

end Inspectah
