import Mathlib.Algebra.GroupWithZero.Nat
import Mathlib.Data.List.Perm.Basic
import Mathlib.Logic.Relation

/-!
A wave of scoped threads, spawned and joined in order; in between every thread begins and
returns when it likes. The joins hand over what the spawned tasks return in order, and no task
before it began.
-/
namespace ForkJoin

variable {τ ρ : Type}

inductive Thread (ρ : Type) where
  | ready
  | running
  | returned (result : ρ)

def Thread.hasBegun : Thread ρ → Bool
  | .ready => false
  | _ => true

structure Wave (τ ρ : Type) where
  waiting : List τ
  handles : List (τ × Thread ρ)

def Wave.empty : Wave τ ρ := ⟨[], []⟩

inductive Note (τ ρ : Type) where
  | began (task : τ)
  | settled (task : τ) (result : ρ)

/-- A task is launched when the spawning thread itself notes that it began. -/
inductive Turn where
  | spawn | launch | drop | start | finish | join
  deriving DecidableEq

inductive Step (work : τ → ρ) : Turn → Wave τ ρ → List (Note τ ρ) → Wave τ ρ → Prop where
  | spawn (t : τ) (waiting : List τ) (handles : List (τ × Thread ρ)) :
      Step work .spawn ⟨t :: waiting, handles⟩ [] ⟨waiting, handles ++ [(t, .ready)]⟩
  | launch (t : τ) (waiting : List τ) (handles : List (τ × Thread ρ)) :
      Step work .launch ⟨t :: waiting, handles⟩ [.began t] ⟨waiting, handles ++ [(t, .running)]⟩
  | drop (t : τ) (waiting : List τ) (handles : List (τ × Thread ρ)) :
      Step work .drop ⟨t :: waiting, handles⟩ [] ⟨waiting, handles⟩
  | start (waiting : List τ) (before : List (τ × Thread ρ)) (t : τ) (after : List (τ × Thread ρ)) :
      Step work .start ⟨waiting, before ++ (t, .ready) :: after⟩ [.began t]
        ⟨waiting, before ++ (t, .running) :: after⟩
  | finish (waiting : List τ) (before : List (τ × Thread ρ)) (t : τ) (after : List (τ × Thread ρ)) :
      Step work .finish ⟨waiting, before ++ (t, .running) :: after⟩ []
        ⟨waiting, before ++ (t, .returned (work t)) :: after⟩
  | join (t : τ) (result : ρ) (handles : List (τ × Thread ρ)) :
      Step work .join ⟨[], (t, .returned result) :: handles⟩ [.settled t result] ⟨[], handles⟩

def settlements (notes : List (Note τ ρ)) : List (τ × ρ) :=
  notes.filterMap fun
    | .began _ => none
    | .settled t r => some (t, r)

def beginnings (notes : List (Note τ ρ)) : List τ :=
  notes.filterMap fun
    | .began t => some t
    | .settled _ _ => none

def settledTasks (notes : List (Note τ ρ)) : List τ := (settlements notes).map (·.1)

def Turn.takes (w : Wave τ ρ) : Turn → List τ
  | .spawn | .launch => w.waiting.take 1
  | _ => []

/-- At no time has a task been settled that had not begun. -/
def Ordered (notes : List (Note τ ρ)) : Prop :=
  ∀ seen, seen <+: notes → (settledTasks seen).Subperm (beginnings seen)

def begun (handles : List (τ × Thread ρ)) : List τ :=
  (handles.filter (·.2.hasBegun)).map (·.1)

structure Accounts (work : τ → ρ) (taken : List τ) (notes : List (Note τ ρ)) (w : Wave τ ρ) :
    Prop where
  tasks : settledTasks notes ++ w.handles.map (·.1) = taken
  settled : ∀ s ∈ settlements notes, s.2 = work s.1
  returned : ∀ h ∈ w.handles, ∀ r, h.2 = .returned r → r = work h.1
  began : (beginnings notes).Perm (settledTasks notes ++ begun w.handles)
  ordered : Ordered notes

/-- What is noted of a wave in which these tasks were spawned, when it is over. -/
structure Attended (work : τ → ρ) (tasks : List τ) (notes : List (Note τ ρ)) : Prop where
  settled : settlements notes = tasks.map fun t => (t, work t)
  began : (beginnings notes).Perm tasks
  ordered : Ordered notes

def Thread.weight : Thread ρ → Nat
  | .ready => 3
  | .running => 2
  | .returned _ => 1

/-- The moves a wave still has in it. -/
def Wave.weight (w : Wave τ ρ) : Nat :=
  4 * w.waiting.length + (w.handles.map (·.2.weight)).sum

section

variable {work : τ → ρ} {taken : List τ} {notes more : List (Note τ ρ)} {w w' : Wave τ ρ}
  {move : Turn}

@[simp] theorem hasBegun_ready : (Thread.ready : Thread ρ).hasBegun = false := rfl

@[simp] theorem hasBegun_running : (Thread.running : Thread ρ).hasBegun = true := rfl

@[simp] theorem hasBegun_returned (r : ρ) : (Thread.returned r).hasBegun = true := rfl

@[simp] theorem settlements_append (a b : List (Note τ ρ)) :
    settlements (a ++ b) = settlements a ++ settlements b := List.filterMap_append

@[simp] theorem beginnings_append (a b : List (Note τ ρ)) :
    beginnings (a ++ b) = beginnings a ++ beginnings b := List.filterMap_append

@[simp] theorem settledTasks_append (a b : List (Note τ ρ)) :
    settledTasks (a ++ b) = settledTasks a ++ settledTasks b := by simp [settledTasks]

@[simp] theorem begun_append (a b : List (τ × Thread ρ)) : begun (a ++ b) = begun a ++ begun b := by
  simp [begun]

@[simp] theorem begun_nil : begun ([] : List (τ × Thread ρ)) = [] := rfl

@[simp] theorem begun_cons (t : τ) (thread : Thread ρ) (handles : List (τ × Thread ρ)) :
    begun ((t, thread) :: handles) =
      if thread.hasBegun then t :: begun handles else begun handles := by
  rw [begun, List.filter_cons]
  split <;> rfl

@[simp] theorem settlements_nil : settlements ([] : List (Note τ ρ)) = [] := rfl

@[simp] theorem settlements_began (t : τ) : settlements [(.began t : Note τ ρ)] = [] := rfl

@[simp] theorem settlements_settled (t : τ) (r : ρ) : settlements [.settled t r] = [(t, r)] := rfl

@[simp] theorem beginnings_nil : beginnings ([] : List (Note τ ρ)) = [] := rfl

@[simp] theorem beginnings_began (t : τ) : beginnings [(.began t : Note τ ρ)] = [t] := rfl

@[simp] theorem beginnings_settled (t : τ) (r : ρ) : beginnings [.settled t r] = [] := rfl

theorem Accounts.begin (tasks : List τ) : Accounts work [] [] ⟨tasks, []⟩ where
  tasks := rfl
  settled := by simp
  returned := by simp
  began := .nil
  ordered seen within := by
    rw [List.prefix_nil.mp within]
    exact .refl _

theorem Ordered.note {note : Note τ ρ} (ordered : Ordered notes)
    (settled : (settledTasks (notes ++ [note])).Subperm (beginnings (notes ++ [note]))) :
    Ordered (notes ++ [note]) := by
  intro seen within
  rcases List.prefix_concat_iff.mp within with rfl | before
  · exact settled
  · exact ordered seen before

/-- What was settled has begun, and with it the threads that are under way. -/
theorem subperm_of_began {begins settled running : List τ}
    (began : begins.Perm (settled ++ running)) : settled.Subperm begins :=
  (List.sublist_append_left settled running).subperm.trans began.symm.subperm

theorem Accounts.step (accounts : Accounts work taken notes w) (step : Step work move w more w') :
    Accounts work (taken ++ move.takes w) (notes ++ more) w' := by
  obtain ⟨tasks, settled, returned, began, ordered⟩ := accounts
  cases step with
  | spawn t waiting handles =>
    refine ⟨?_, by simpa using settled, ?_, ?_, by simpa using ordered⟩
    · simp [← tasks, Turn.takes, settledTasks]
    · simpa [or_imp, forall_and] using returned
    · simpa [begun, Thread.hasBegun, settledTasks] using began
  | launch t waiting handles =>
    have after : (beginnings (notes ++ [.began t])).Perm
        (settledTasks (notes ++ [.began t]) ++ begun (handles ++ [(t, .running)])) := by
      simpa [settledTasks] using began.append_right [t]
    refine ⟨?_, by simpa using settled, ?_, after, ordered.note (subperm_of_began after)⟩
    · simp [← tasks, Turn.takes, settledTasks]
    · simpa [or_imp, forall_and] using returned
  | drop t waiting handles =>
    refine ⟨?_, by simpa using settled, returned, by simpa using began, by simpa using ordered⟩
    simpa [Turn.takes] using tasks
  | start waiting before t after =>
    have begins : (beginnings (notes ++ [.began t])).Perm
        (settledTasks (notes ++ [.began t]) ++ begun (before ++ (t, .running) :: after)) := by
      have moved := (began.append_right [t]).trans
        (show (settledTasks notes ++ begun (before ++ (t, .ready) :: after) ++ [t]).Perm
          (settledTasks notes ++ begun (before ++ (t, .running) :: after)) from ?_)
      · simpa [settledTasks] using moved
      · rw [List.append_assoc]
        refine List.Perm.append_left _ ?_
        simpa using (@List.perm_append_comm _ (begun after) [t]).append_left (begun before)
    refine ⟨?_, by simpa using settled, ?_, begins, ordered.note (subperm_of_began begins)⟩
    · simpa [Turn.takes, settledTasks] using tasks
    · simpa [or_imp, forall_and] using returned
  | finish waiting before t after =>
    refine ⟨?_, by simpa using settled, ?_, ?_, by simpa using ordered⟩
    · simpa [Turn.takes, settledTasks] using tasks
    · simpa [or_imp, forall_and] using returned
    · simpa [begun, Thread.hasBegun, settledTasks] using began
  | join t result handles =>
    have after : (beginnings (notes ++ [.settled t result])).Perm
        (settledTasks (notes ++ [.settled t result]) ++ begun handles) := by
      simpa [settledTasks] using began
    refine ⟨?_, ?_, ?_, after, ordered.note (subperm_of_began after)⟩
    · simpa [Turn.takes, settledTasks] using tasks
    · intro s mem
      rw [settlements_append, List.mem_append, settlements_settled, List.mem_singleton] at mem
      rcases mem with earlier | rfl
      · exact settled s earlier
      · exact returned (t, .returned result) List.mem_cons_self result rfl
    · exact fun h mem => returned h (List.mem_cons_of_mem _ mem)

theorem Accounts.attended (accounts : Accounts work taken notes .empty) :
    Attended work taken notes where
  settled := by
    have tasks : settledTasks notes = taken := by simpa [Wave.empty] using accounts.tasks
    have own : ∀ s ∈ settlements notes, (s.1, work s.1) = id s := fun s mem => by
      rw [← accounts.settled s mem, id]
    rw [← tasks, settledTasks, List.map_map]
    exact (List.map_id _).symm.trans (List.map_congr_left fun s mem => (own s mem).symm)
  began := by
    have tasks : settledTasks notes = taken := by simpa [Wave.empty] using accounts.tasks
    simpa [← tasks, Wave.empty] using accounts.began
  ordered := accounts.ordered

theorem Step.waiting_eq (step : Step work move w more w') (kept : move ≠ .drop) :
    move.takes w ++ w'.waiting = w.waiting := by
  cases step <;> first | rfl | exact absurd rfl kept

theorem Step.begun (step : Step work move w more w') (kept : move ≠ .spawn)
    (begun : ∀ h ∈ w.handles, h.2.hasBegun = true) : ∀ h ∈ w'.handles, h.2.hasBegun = true := by
  cases step with
  | spawn => exact absurd rfl kept
  | join => exact fun h mem => begun h (List.mem_cons_of_mem _ mem)
  | drop => exact begun
  | start => simp [or_imp, forall_and] at begun
  | _ => simpa [or_imp, forall_and] using begun

theorem Step.weight_lt (step : Step work move w more w') : w'.weight < w.weight := by
  cases step <;> simp [Wave.weight, Thread.weight] <;> omega

end

end ForkJoin
