import Mathlib.Data.List.GetD
import Mathlib.Order.PiLex

/-!
Lists compared place by place, the shorter one filled up behind its end. The first place at which
they differ decides; no place behind both lists does.
-/
namespace PaddedOrder

variable {α : Type} [LinearOrder α] {fill : α}

/-- A list with the filler behind its end, in the order of the first place that differs. -/
def padded (fill : α) (xs : List α) : Lex (ℕ → α) := toLex fun i => xs.getD i fill

/-- Going through these places, the first list is not below at the first that differs. -/
def leads (fill : α) (xs ys : List α) : List ℕ → Bool
  | [] => true
  | i :: rest =>
    if xs.getD i fill < ys.getD i fill then false
    else if ys.getD i fill < xs.getD i fill then true
    else leads fill xs ys rest

theorem padded_lt_iff {xs ys : List α} : padded fill xs < padded fill ys ↔
    ∃ i, (∀ j < i, xs.getD j fill = ys.getD j fill) ∧ xs.getD i fill < ys.getD i fill :=
  Iff.rfl

theorem leads_range' {xs ys : List α} (n start : ℕ)
    (same : ∀ j < start, xs.getD j fill = ys.getD j fill)
    (long : xs.length ≤ start + n ∧ ys.length ≤ start + n) :
    leads fill xs ys (List.range' start n) = true ↔ padded fill ys ≤ padded fill xs := by
  induction n generalizing start with
  | zero =>
    have all : padded fill xs = padded fill ys := by
      refine congrArg toLex (funext fun i => ?_)
      by_cases inside : i < start
      · exact same i inside
      · rw [List.getD_eq_default _ _ (by omega), List.getD_eq_default _ _ (by omega)]
    rw [List.range'_zero, leads, all]
    exact iff_of_true rfl (le_refl _)
  | succ n ih =>
    rw [List.range'_succ, leads]
    split
    · next below =>
      have less : padded fill xs < padded fill ys := padded_lt_iff.mpr ⟨start, same, below⟩
      exact iff_of_false Bool.false_ne_true (not_le_of_gt less)
    · next not_below =>
      split
      · next above =>
        have more : padded fill ys < padded fill xs :=
          padded_lt_iff.mpr ⟨start, fun j before => (same j before).symm, above⟩
        exact iff_of_true rfl (le_of_lt more)
      · next not_above =>
        refine ih (start + 1) (fun j before => ?_) (by omega)
        rcases Nat.lt_succ_iff_lt_or_eq.mp before with early | rfl
        · exact same j early
        · exact le_antisymm (not_lt.mp not_above) (not_lt.mp not_below)

/-- Going through the places of both lists decides the order. -/
theorem leads_range {xs ys : List α} :
    leads fill xs ys (List.range (max xs.length ys.length)) = true ↔
      padded fill ys ≤ padded fill xs := by
  rw [List.range_eq_range']
  exact leads_range' _ 0 (fun j before => absurd before (Nat.not_lt_zero j)) (by omega)

end PaddedOrder
