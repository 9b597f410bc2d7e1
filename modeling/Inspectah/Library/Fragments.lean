import Mathlib.Data.List.Sort

/-!
Configuration in fragments: those of an earlier directory take the place of later ones of
their name, and the rest is read by name. The last fragment with a setting has it, or the
first.
-/
namespace Fragments

variable {α β ν : Type} [LinearOrder ν] (name : α → ν)

/-- The fragments no earlier directory has one of the same name for. -/
def unmasked : List (List α) → List α
  | [] => []
  | dir :: rest => dir ++ (unmasked rest).filter fun f => name f ∉ dir.map name

/-- What is read, in the order it is read. -/
def effective (dirs : List (List α)) : List α :=
  (unmasked name dirs).insertionSort fun a b => name a ≤ name b

variable {name}

theorem mem_unmasked_cons {f : α} {dir : List α} {rest : List (List α)} :
    f ∈ unmasked name (dir :: rest) ↔
      f ∈ dir ∨ f ∈ unmasked name rest ∧ ∀ g ∈ dir, name g ≠ name f := by
  rw [unmasked, List.mem_append, List.mem_filter]
  simp [eq_comm]

theorem mem_effective {f : α} {dirs : List (List α)} :
    f ∈ effective name dirs ↔ f ∈ unmasked name dirs := List.mem_insertionSort _

theorem effective_sorted (dirs : List (List α)) :
    (effective name dirs).Pairwise fun a b => name a ≤ name b := by
  have total : Std.Total fun a b : α => name a ≤ name b := ⟨fun a b => le_total _ _⟩
  have trans : IsTrans α fun a b => name a ≤ name b := ⟨fun _ _ _ => le_trans⟩
  exact List.pairwise_insertionSort _ _

def Apart (name : α → ν) (fragments : List α) : Prop :=
  ∀ f ∈ fragments, ∀ g ∈ fragments, name f = name g → f = g

theorem apart_unmasked {dirs : List (List α)} (apart : ∀ dir ∈ dirs, Apart name dir) :
    Apart name (unmasked name dirs) := by
  induction dirs with
  | nil => exact fun f mem => absurd mem List.not_mem_nil
  | cons dir rest ih =>
    have later := ih fun d mem => apart d (List.mem_cons_of_mem _ mem)
    intro f hf g hg same
    rw [mem_unmasked_cons] at hf hg
    rcases hf with hf | ⟨hf, clear⟩
    · rcases hg with hg | ⟨-, clear⟩
      · exact apart dir List.mem_cons_self f hf g hg same
      · exact absurd same (clear f hf)
    · rcases hg with hg | ⟨hg, -⟩
      · exact absurd same.symm (clear g hg)
      · exact later f hf g hg same

theorem apart_effective {dirs : List (List α)} (apart : ∀ dir ∈ dirs, Apart name dir) :
    Apart name (effective name dirs) := fun f hf g hg =>
  apart_unmasked apart f (mem_effective.mp hf) g (mem_effective.mp hg)

/-- The fragments as they come, without those of a name that came before. -/
def claim (name : α → ν) : List ν → List α → List α
  | _, [] => []
  | claimed, f :: rest =>
    if name f ∈ claimed then claim name claimed rest
    else f :: claim name (name f :: claimed) rest

theorem claim_sublist (claimed : List ν) (fragments : List α) :
    (claim name claimed fragments).Sublist fragments := by
  induction fragments generalizing claimed with
  | nil => exact List.Sublist.refl _
  | cons f rest ih =>
    rw [claim]
    split
    · exact (ih claimed).cons f
    · exact (ih _).cons_cons f

theorem mem_claim_iff_find {f : α} {claimed : List ν} {fragments : List α} :
    f ∈ claim name claimed fragments ↔
      name f ∉ claimed ∧ fragments.find? (fun g => name g = name f) = some f := by
  induction fragments generalizing claimed with
  | nil => simp [claim]
  | cons g rest ih =>
    rw [claim, List.find?_cons]
    by_cases same : name g = name f
    · rw [decide_eq_true same]
      dsimp only
      rw [Option.some.injEq]
      split
      next seen =>
        rw [ih]
        exact iff_of_false (fun h => h.1 (same ▸ seen)) (fun h => h.1 (same ▸ seen))
      next unseen =>
        rw [List.mem_cons, ih, same]
        constructor
        · rintro (rfl | ⟨fresh, -⟩)
          · exact ⟨unseen, rfl⟩
          · exact absurd List.mem_cons_self fresh
        · exact fun h => .inl h.2.symm
    · rw [decide_eq_false same]
      dsimp only
      split
      · exact ih
      · have other : f ≠ g := fun h => same (h ▸ rfl)
        rw [List.mem_cons, ih, List.mem_cons]
        simp [other, Ne.symm same]

/-- What is claimed directory by directory is what no earlier directory masks. -/
theorem mem_claim {f : α} {claimed : List ν} {dirs : List (List α)}
    (apart : ∀ dir ∈ dirs, Apart name dir) :
    f ∈ claim name claimed dirs.flatten ↔ name f ∉ claimed ∧ f ∈ unmasked name dirs := by
  rw [mem_claim_iff_find]
  refine and_congr_right fun _ => ?_
  induction dirs with
  | nil => simp [unmasked]
  | cons dir rest ih =>
    have ih := ih fun d mem => apart d (List.mem_cons_of_mem _ mem)
    rw [List.flatten_cons, List.find?_append, mem_unmasked_cons]
    cases found : dir.find? fun g => name g = name f with
    | some g =>
      have mem := List.mem_of_find?_eq_some found
      have same : name g = name f := by simpa using List.find?_some found
      rw [Option.some_or, Option.some.injEq]
      constructor
      · rintro rfl
        exact .inl mem
      · rintro (inside | ⟨-, clear⟩)
        · exact apart dir List.mem_cons_self g mem f inside same
        · exact absurd same (clear g mem)
    | none =>
      have clear : ∀ g ∈ dir, name g ≠ name f := by simpa using List.find?_eq_none.mp found
      rw [Option.none_or, ih]
      constructor
      · exact fun later => .inr ⟨later, clear⟩
      · rintro (inside | ⟨later, -⟩)
        · exact absurd rfl (clear f inside)
        · exact later

theorem findSome_of_sorted {fragments : List α} {get : α → Option β} {b : β}
    (sorted : fragments.Pairwise fun f g => name f ≤ name g) (apart : Apart name fragments) :
    fragments.findSome? get = some b ↔
      ∃ f ∈ fragments, get f = some b ∧ ∀ g ∈ fragments, (get g).isSome → name f ≤ name g := by
  induction fragments with
  | nil => simp
  | cons first rest ih =>
    obtain ⟨least, sorted⟩ := List.pairwise_cons.mp sorted
    have later := ih sorted fun f hf g hg =>
      apart f (List.mem_cons_of_mem _ hf) g (List.mem_cons_of_mem _ hg)
    rw [List.findSome?_cons]
    cases has : get first with
    | some c =>
      constructor
      · intro same
        cases same
        refine ⟨first, List.mem_cons_self, has, fun g mem _ => ?_⟩
        rcases List.mem_cons.mp mem with rfl | mem
        · exact le_refl _
        · exact least g mem
      · rintro ⟨f, mem, got, first_of⟩
        have below := first_of first List.mem_cons_self (by rw [has, Option.isSome_some])
        rcases List.mem_cons.mp mem with rfl | inside
        · exact has.symm.trans got
        · rw [apart f mem first List.mem_cons_self (le_antisymm below (least f inside)), has] at got
          exact got
    | none =>
      rw [later]
      constructor
      · rintro ⟨f, mem, got, first_of⟩
        refine ⟨f, List.mem_cons_of_mem _ mem, got, fun g inside some => ?_⟩
        rcases List.mem_cons.mp inside with rfl | inside
        · rw [has] at some
          cases some
        · exact first_of g inside some
      · rintro ⟨f, mem, got, first_of⟩
        rcases List.mem_cons.mp mem with rfl | mem
        · rw [has] at got
          cases got
        · exact ⟨f, mem, got, fun g inside => first_of g (List.mem_cons_of_mem _ inside)⟩

theorem findSome_reverse_of_sorted {fragments : List α} {get : α → Option β} {b : β}
    (sorted : fragments.Pairwise fun f g => name f ≤ name g) (apart : Apart name fragments) :
    fragments.reverse.findSome? get = some b ↔
      ∃ f ∈ fragments, get f = some b ∧ ∀ g ∈ fragments, (get g).isSome → name g ≤ name f := by
  have back : fragments.reverse.Pairwise fun f g =>
      OrderDual.toDual (name f) ≤ OrderDual.toDual (name g) := List.pairwise_reverse.mpr sorted
  have apart' : Apart (fun f => OrderDual.toDual (name f)) fragments.reverse := fun f hf g hg =>
    apart f (List.mem_reverse.mp hf) g (List.mem_reverse.mp hg)
  rw [findSome_of_sorted back apart']
  simp only [List.mem_reverse, OrderDual.toDual_le_toDual]

theorem findSome_effective {dirs : List (List α)} {get : α → Option β} {b : β}
    (apart : ∀ dir ∈ dirs, Apart name dir) :
    (effective name dirs).findSome? get = some b ↔
      ∃ f ∈ unmasked name dirs, get f = some b ∧
        ∀ g ∈ unmasked name dirs, (get g).isSome → name f ≤ name g := by
  rw [findSome_of_sorted (effective_sorted dirs) (apart_effective apart)]
  simp only [mem_effective]

theorem findSome_reverse_effective {dirs : List (List α)} {get : α → Option β} {b : β}
    (apart : ∀ dir ∈ dirs, Apart name dir) :
    (effective name dirs).reverse.findSome? get = some b ↔
      ∃ f ∈ unmasked name dirs, get f = some b ∧
        ∀ g ∈ unmasked name dirs, (get g).isSome → name g ≤ name f := by
  rw [findSome_reverse_of_sorted (effective_sorted dirs) (apart_effective apart)]
  simp only [mem_effective]

end Fragments
