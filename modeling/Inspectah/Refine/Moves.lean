import Inspectah.Library.Runs
import Inspectah.Refine.UndoRedo
import Inspectah.Refine.VariantState

/-!
Runs of applied operations, undos, redos and resets. A history moves over its
own prefixes and only a recorded operation makes a new one, so what is kept from
one prefix to the next by every accepted operation holds in every state of a run.
-/
namespace Inspectah

open UndoHistory Runs

inductive Move where
  | apply (op : RefinementOp)
  | undo
  | redo
  | reset

def Move.request : Move → Request
  | .apply op => .apply op
  | .undo => .undo
  | .redo => .redo
  | .reset => .reset

/-- A move with the answers of the file system while it is made. -/
abbrev Moved := Disk × Move

def play (env : Env) (moved : Moved) (s : RefineSession) : RefineSession :=
  serve env (moved.1, moved.2.request) s

def Accepted (env : Env) (s : RefineSession) (moved : Moved) : Prop :=
  (s.handle env moved.1 moved.2.request).result = .ok ()

def Fits (env : Env) (fits : RefineSession → RefinementOp → Prop) (s : RefineSession)
    (moved : Moved) : Prop :=
  ∀ op, moved.2 = .apply op → (s.apply env moved.1 op).result = .ok () → fits s op

section Run

variable {env : Env} {disk : Disk} {s : RefineSession}

variable (env disk s) in
theorem apply_cases (op : RefinementOp) : (s.apply env disk op).session = s ∨
    ((s.apply env disk op).result = .ok () ∧
      validateTarget env.toHashing s.toSessionCore op = .ok () ∧
      isLockedInclusion s.original op = false ∧
      (s.apply env disk op).session = s.record env disk (.op op)) := by
  cases result : (s.apply env disk op).result with
  | error e =>
    left
    unfold RefineSession.apply at result ⊢
    split
    · rfl
    · rename_i valid
      rw [valid] at result
      dsimp only at result
      split at result
      · cases result
      · rename_i unlocked
        rw [if_neg unlocked]
        split
        · rfl
        · rename_i decides
          rw [decides] at result
          dsimp only at result
          split at result <;> cases result
  | ok _ =>
    rcases apply_accepted result with ⟨_, same⟩ | ⟨unlocked, _, recorded⟩
    · exact .inl same
    · exact .inr ⟨rfl, valid_of_accepted result, unlocked, recorded⟩

theorem replay_variant {original : InspectionSnapshot} {index : RepoIndex} {op : RefinementOp}
    {path : String} (at_ : op.variantPath = some path) (ops : List RefinementOp) :
    replay original index (ops ++ [op]) = replay original index ops := by
  have sections : excludedSectionsAt (ops ++ [op]) = excludedSectionsAt ops := by
    rw [excludedSectionsAt, List.foldl_append, List.foldl_cons, List.foldl_nil]
    cases op <;> first | rfl | cases at_
  rw [replay, sections, List.foldl_append, List.foldl_cons, List.foldl_nil]
  cases op <;> first | rfl | cases at_

theorem repoIndex_moveTo (history : History TimelineEntry) :
    (s.moveTo env disk history).repoIndex = s.repoIndex := by
  obtain ⟨_, core⟩ := toSessionCore_moveTo env disk s history
  rw [core]

structure EveryPrefix (P : List RefinementOp → Prop) (opened s : RefineSession) : Prop where
  original : s.original = opened.original
  repoIndex : s.repoIndex = opened.repoIndex
  holds : ∀ before, before <+: s.history.entries → P (timelineOps before)

variable {P : List RefinementOp → Prop} {opened : RefineSession}

theorem EveryPrefix.active (every : EveryPrefix P opened s) : P s.activeOps :=
  every.holds _ (List.take_prefix _ _)

theorem EveryPrefix.moveTo (every : EveryPrefix P opened s) {history : History TimelineEntry}
    (holds : ∀ before, before <+: history.entries → P (timelineOps before)) :
    EveryPrefix P opened (s.moveTo env disk history) where
  original := (original_moveTo history).trans every.original
  repoIndex := (repoIndex_moveTo history).trans every.repoIndex
  holds := by
    rw [history_moveTo]
    exact holds

variable {fits : RefineSession → RefinementOp → Prop}
variable (grow : ∀ s op, EveryPrefix P opened s →
  validateTarget env.toHashing s.toSessionCore op = .ok () →
  isLockedInclusion s.original op = false → fits s op → P (s.activeOps ++ [op]))
include grow

theorem EveryPrefix.play (every : EveryPrefix P opened s) {moved : Moved}
    (admitted : Fits env fits s moved) : EveryPrefix P opened (play env moved s) := by
  obtain ⟨disk, move⟩ := moved
  cases move with
  | apply op =>
    change EveryPrefix P opened (s.apply env disk op).session
    rcases apply_cases env disk s op with
      same | ⟨accepted, valid, unlocked, recorded⟩
    · rw [same]
      exact every
    · rw [recorded]
      refine every.moveTo fun before split => ?_
      rcases List.prefix_concat_iff.mp split with whole | earlier
      · rw [whole, timelineOps_append, timelineOps_singleton]
        exact grow s op every valid unlocked (admitted op rfl accepted)
      · exact every.holds before (earlier.trans (List.take_prefix _ _))
  | undo =>
    change EveryPrefix P opened (s.undo env disk).session
    unfold RefineSession.undo
    cases back : s.history.undo with
    | none => exact every
    | some history =>
      refine every.moveTo ?_
      rw [(History.undo_fields back).1]
      exact every.holds
  | redo =>
    change EveryPrefix P opened (s.redo env disk).session
    unfold RefineSession.redo
    cases forth : s.history.redo with
    | none => exact every
    | some history =>
      refine every.moveTo ?_
      rw [(History.redo_fields forth).1]
      exact every.holds
  | reset =>
    change EveryPrefix P opened (s.reset env disk).session
    unfold RefineSession.reset
    split
    · exact every
    · refine every.moveTo fun before split => every.holds before ?_
      exact (List.prefix_nil.mp split) ▸ List.nil_prefix

theorem run_prefixes (start : EveryPrefix P opened opened) {moves : List Moved}
    (along : Along (play env) (Fits env fits) opened moves) :
    ∀ s ∈ visited (play env) opened moves, EveryPrefix P opened s :=
  along_invariant (P := EveryPrefix P opened)
    (fun _ _ admitted every => EveryPrefix.play grow every admitted) start along

end Run

theorem everyPrefix_new {P : List RefinementOp → Prop} (nil : P []) (env : Env) (disk : Disk)
    (snap : InspectionSnapshot) :
    EveryPrefix P (RefineSession.new env disk snap) (RefineSession.new env disk snap) where
  original := rfl
  repoIndex := rfl
  holds before split := by
    rw [List.prefix_nil.mp split]
    exact nil

def soleFile : InspectionSnapshot :=
  { config := some { files := [{ path := "/etc/a.conf", content := "a" }] } }

def letterEnv : Env where
  toHashing := letterHashing
  preview _ _ _ := ""
  decodeUser _ := none

def rewriteA (content : String) : Moved :=
  (sampleDisk, .apply (.editVariant (.config "/etc/a.conf") content none))

def discardA (content : String) : Moved :=
  (sampleDisk, .apply (.discardVariant (.config "/etc/a.conf") (letterHashing.ofContent content)))

end Inspectah
