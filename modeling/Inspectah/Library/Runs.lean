import Mathlib.Order.Basic

/-!
Runs of a deterministic step function, and a stamp that guards an observation along them: no
single step may change the observation and keep the stamp.
-/
namespace Runs

variable {S L : Type} (step : L → S → S)

/-- The states of a run, first and last included. -/
def visited (s : S) : List L → List S
  | [] => [s]
  | l :: ls => s :: visited (step l s) ls

def Along (admits : S → L → Prop) (s : S) : List L → Prop
  | [] => True
  | l :: ls => admits s l ∧ Along admits (step l s) ls

def Guards {O : Type} (stamp : S → Nat) (observe : S → O) (s : S) (ls : List L) : Prop :=
  ∀ a ∈ visited step s ls, ∀ b ∈ visited step s ls, stamp a = stamp b → observe a = observe b

section

variable {step}

theorem start_visited (s : S) (ls : List L) : s ∈ visited step s ls := by
  cases ls <;> exact List.mem_cons_self

theorem step_visited (s : S) (l : L) (ls : List L) : step l s ∈ visited step s (l :: ls) :=
  List.mem_cons_of_mem s (start_visited (step l s) ls)

theorem visited_invariant {P : S → Prop} (keeps : ∀ s l, P s → P (step l s)) {s : S} (start : P s)
    {ls : List L} : ∀ a ∈ visited step s ls, P a := by
  induction ls generalizing s with
  | nil =>
    intro a mem
    rwa [List.mem_singleton.mp mem]
  | cons l ls ih =>
    intro a mem
    rcases List.mem_cons.mp mem with rfl | later
    · exact start
    · exact ih (keeps s l start) a later

theorem Along.imp {admits admits' : S → L → Prop} (weaker : ∀ s l, admits s l → admits' s l) {s : S}
    {ls : List L} (along : Along step admits s ls) : Along step admits' s ls := by
  induction ls generalizing s with
  | nil => trivial
  | cons l ls ih => exact ⟨weaker s l along.1, ih along.2⟩

theorem along_congr {admits admits' : S → L → Prop} (same : ∀ s l, admits s l ↔ admits' s l) {s : S}
    {ls : List L} : Along step admits s ls ↔ Along step admits' s ls := by
  induction ls generalizing s with
  | nil => exact Iff.rfl
  | cons l ls ih => exact and_congr (same s l) ih

theorem along_invariant {admits : S → L → Prop} {P : S → Prop}
    (keeps : ∀ s l, admits s l → P s → P (step l s)) {s : S} (start : P s) {ls : List L}
    (along : Along step admits s ls) : ∀ a ∈ visited step s ls, P a := by
  induction ls generalizing s with
  | nil =>
    intro a mem
    rwa [List.mem_singleton.mp mem]
  | cons l ls ih =>
    intro a mem
    rcases List.mem_cons.mp mem with rfl | later
    · exact start
    · exact ih (keeps s l along.1 start) along.2 a later

theorem stamp_le_visited {stamp : S → Nat} (grows : ∀ s l, stamp s ≤ stamp (step l s)) {s : S}
    {ls : List L} : ∀ a ∈ visited step s ls, stamp s ≤ stamp a :=
  visited_invariant (P := fun a => stamp s ≤ stamp a)
    (fun a l le => Nat.le_trans le (grows a l)) (Nat.le_refl _)

theorem guards_iff {O : Type} {stamp : S → Nat} (observe : S → O)
    (grows : ∀ s l, stamp s ≤ stamp (step l s)) (s : S) (ls : List L) :
    Guards step stamp observe s ls ↔
      Along step (fun s l => stamp (step l s) = stamp s → observe (step l s) = observe s) s ls := by
  induction ls generalizing s with
  | nil =>
    refine ⟨fun _ => trivial, fun _ a ha b hb _ => ?_⟩
    rw [List.mem_singleton.mp ha, List.mem_singleton.mp hb]
  | cons l ls ih =>
    constructor
    · intro guards
      refine ⟨fun same => ?_, (ih _).mp fun a ha b hb => ?_⟩
      · exact guards _ (List.mem_cons_of_mem s (start_visited _ ls)) s List.mem_cons_self same
      · exact guards a (List.mem_cons_of_mem s ha) b (List.mem_cons_of_mem s hb)
    · rintro ⟨first, later⟩
      have rest := (ih _).mpr later
      -- A later state with the first stamp shows what the second state shows.
      have shown : ∀ b ∈ visited step (step l s) ls, stamp s = stamp b → observe s = observe b := by
        intro b hb same
        have before := grows s l
        have after := stamp_le_visited grows b hb
        have held : stamp (step l s) = stamp s := Nat.le_antisymm (same ▸ after) before
        rw [← first held]
        exact rest _ (start_visited _ ls) b hb (held.trans same)
      intro a ha b hb same
      rcases List.mem_cons.mp ha with rfl | ha
      · rcases List.mem_cons.mp hb with rfl | hb
        · rfl
        · exact shown b hb same
      · rcases List.mem_cons.mp hb with rfl | hb
        · exact (shown a ha same.symm).symm
        · exact rest a ha b hb same

end

end Runs
