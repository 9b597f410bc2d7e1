import Inspectah.Library.Grouping

/-!
The best row of each key: the first of the highest rank. A list that holds these, the keys in
their order, is determined by the rows.
-/
namespace BestPerKey

open Grouping

variable {κ α : Type} {key : α → κ} {rank : α → Int}

/-- The row at `i` has the key, no row with the key ranks higher, and each
    earlier one ranks lower. -/
structure IsBest (key : α → κ) (rank : α → Int) (rows : List α) (k : κ) (i : Nat) (w : α) :
    Prop where
  here : rows[i]? = some w
  keyed : key w = k
  highest : ∀ a ∈ rows, key a = k → rank a ≤ rank w
  first : ∀ (j : Nat) a, j < i → rows[j]? = some a → key a = k → rank a < rank w

structure BestOfEach [DecidableEq κ] (key : α → κ) (rank : α → Int) (rows out : List α) : Prop where
  keys : FirstSeen (rows.map key) (out.map key)
  best : ∀ w ∈ out, ∃ i, IsBest key rank rows (key w) i w

theorem IsBest.index_lt {rows : List α} {k : κ} {i : Nat} {w : α}
    (best : IsBest key rank rows k i w) : i < rows.length :=
  (List.getElem?_eq_some_iff.mp best.here).1

theorem IsBest.unique {rows : List α} {k : κ} {i j : Nat} {v w : α}
    (one : IsBest key rank rows k i v) (two : IsBest key rank rows k j w) : v = w := by
  have below := two.highest v (List.mem_of_getElem? one.here) one.keyed
  have above := one.highest w (List.mem_of_getElem? two.here) two.keyed
  rcases Nat.lt_trichotomy i j with before | same | after
  · have lower := two.first i v before one.here one.keyed
    omega
  · have here := one.here
    rw [same, two.here] at here
    exact (Option.some.inj here).symm
  · have lower := one.first j w after two.here two.keyed
    omega

theorem IsBest.kept {rows : List α} {k : κ} {i : Nat} {w : α} (best : IsBest key rank rows k i w)
    {a : α} (behind : key a = k → rank a ≤ rank w) : IsBest key rank (rows ++ [a]) k i w where
  here := by rw [List.getElem?_append_left best.index_lt, best.here]
  keyed := best.keyed
  highest := by
    intro b mem keyed
    rcases List.mem_append.mp mem with old | new
    · exact best.highest b old keyed
    · rw [List.mem_singleton] at new
      exact new ▸ behind (new ▸ keyed)
  first := by
    intro j b before there keyed
    rw [List.getElem?_append_left (before.trans best.index_lt)] at there
    exact best.first j b before there keyed

theorem IsBest.appended {rows : List α} {a : α}
    (above : ∀ b ∈ rows, key b = key a → rank b < rank a) :
    IsBest key rank (rows ++ [a]) (key a) rows.length a where
  here := List.getElem?_concat_length
  keyed := rfl
  highest := by
    intro b mem keyed
    rcases List.mem_append.mp mem with old | new
    · exact Int.le_of_lt (above b old keyed)
    · rw [List.mem_singleton.mp new]
  first := by
    intro j b before there keyed
    rw [List.getElem?_append_left before] at there
    exact above b (List.mem_of_getElem? there) keyed

theorem firstSeen_unique [DecidableEq κ] {all found found' : List κ} (one : FirstSeen all found)
    (two : FirstSeen all found') : found = found' := by
  have perm : found.Perm found' := (List.perm_ext_iff_of_nodup one.nodup two.nodup).mpr fun k =>
    (one.covers k).trans (two.covers k).symm
  refine perm.eq_of_pairwise (fun a b _ _ below above => ?_) one.ordered two.ordered
  omega

theorem firstSeen_self [DecidableEq κ] {keys : List κ} (nodup : keys.Nodup) :
    FirstSeen keys keys where
  nodup := nodup
  covers _ := Iff.rfl
  ordered := by
    rw [List.pairwise_iff_getElem]
    intro i j hi hj before
    rwa [nodup.idxOf_getElem, nodup.idxOf_getElem]

theorem BestOfEach.unique [DecidableEq κ] {rows out out' : List α}
    (one : BestOfEach key rank rows out) (two : BestOfEach key rank rows out') : out = out' := by
  have keys := firstSeen_unique one.keys two.keys
  apply List.ext_getElem
  · simpa using congrArg List.length keys
  · intro n hn hn'
    have same : key out[n] = key out'[n] := by
      have at_n := congrArg (fun ks => ks[n]?) keys
      simpa [hn, hn'] using at_n
    obtain ⟨i, best⟩ := one.best out[n] (List.getElem_mem hn)
    obtain ⟨j, best'⟩ := two.best out'[n] (List.getElem_mem hn')
    exact best.unique (same ▸ best')

theorem bestOfEach_self [DecidableEq κ] {rows : List α} (apart : (rows.map key).Nodup) :
    BestOfEach key rank rows rows where
  keys := firstSeen_self apart
  best := by
    intro w mem
    obtain ⟨i, here⟩ := List.mem_iff_getElem?.mp mem
    have alone : ∀ a ∈ rows, key a = key w → a = w := fun a there same =>
      List.inj_on_of_nodup_map apart there mem same
    refine ⟨i, here, rfl, fun a there same => by rw [alone a there same], ?_⟩
    intro j a before there same
    have twice := (List.nodup_iff_injective_getElem.mp (List.Nodup.of_map key apart))
    obtain ⟨hi, at_i⟩ := List.getElem?_eq_some_iff.mp here
    obtain ⟨hj, at_j⟩ := List.getElem?_eq_some_iff.mp there
    have equal : rows[j] = rows[i] := by
      rw [at_i, at_j, alone a (List.mem_of_getElem? there) same]
    have index : (⟨j, hj⟩ : Fin rows.length) = ⟨i, hi⟩ := twice equal
    simp only [Fin.mk.injEq] at index
    omega

end BestPerKey
