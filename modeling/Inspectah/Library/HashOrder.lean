import Mathlib.Data.List.Nodup
import Mathlib.Data.List.Perm.Basic

/-!
Hash tables iterate in an order the program does not choose. A table is its list of entries as
inserted, and an order rearranges such a list.
-/
namespace HashOrder

structure Order where
  iter : {α : Type} → List α → List α
  rearranges : ∀ {α : Type} (entries : List α), (iter entries).Perm entries

def Order.insertion : Order := ⟨id, fun entries => List.Perm.refl entries⟩

def Order.reversed : Order := ⟨List.reverse, List.reverse_perm⟩

variable (order : Order) {α : Type}

theorem mem_iter {a : α} {entries : List α} : a ∈ order.iter entries ↔ a ∈ entries :=
  (order.rearranges entries).mem_iff

theorem iter_nil : order.iter ([] : List α) = [] :=
  List.perm_nil.mp (order.rearranges [])

theorem iter_nodup {entries : List α} (nodup : entries.Nodup) : (order.iter entries).Nodup :=
  (order.rearranges entries).nodup_iff.mpr nodup

theorem eq_of_length_le_one {l : List α} (few : l.length ≤ 1) {a b : α} (ha : a ∈ l) (hb : b ∈ l) :
    a = b := by
  match l, few with
  | [], _ => cases ha
  | [c], _ => rw [List.mem_singleton.mp ha, List.mem_singleton.mp hb]

/-- Entries that come out alike in the order of insertion and in its opposite
    are at most one. -/
theorem length_le_one_of_palindrome {l : List α} (nodup : l.Nodup) (palindrome : l = l.reverse) :
    l.length ≤ 1 := by
  by_contra long
  rw [Nat.not_le] at long
  have first : 0 < l.length := Nat.lt_of_succ_lt long
  have last : l.length - 1 < l.length := Nat.sub_lt first Nat.one_pos
  have ends : l[0] = l[l.length - 1] := by
    have flipped := List.getElem_of_eq palindrome first
    rw [flipped, List.getElem_reverse]
    rfl
  have := (List.Nodup.getElem_inj_iff nodup).mp ends
  omega

def Order.last (k : Nat) : Order where
  iter entries := entries.eraseIdx k ++ entries[k]?.toList
  rearranges entries := by
    by_cases inside : k < entries.length
    · rw [List.getElem?_eq_getElem inside, Option.toList_some]
      exact List.perm_append_singleton _ _ |>.trans (List.getElem_cons_eraseIdx_perm inside)
    · rw [List.getElem?_eq_none (by omega), Option.toList_none, List.append_nil,
        List.eraseIdx_of_length_le (by omega)]

theorem exists_order_last {a : α} {entries : List α} (mem : a ∈ entries) :
    ∃ (order : Order) (init : List α), order.iter entries = init ++ [a] := by
  obtain ⟨k, inside, rfl⟩ := List.getElem_of_mem mem
  refine ⟨Order.last k, entries.eraseIdx k, ?_⟩
  have there : (Order.last k).iter entries = entries.eraseIdx k ++ entries[k]?.toList := rfl
  rw [there, List.getElem?_eq_getElem inside, Option.toList_some]

end HashOrder
