import Mathlib.Data.List.Induction
import Inspectah.Library.FirstMatch

/-!
Registers written by a history. A fold over operations writes a register with
some of them and passes over it with the rest; what the register holds at the
end is what the last writing operation put there.
-/
namespace LastWriter

open FirstMatch

variable {ι σ β α : Type}

/-- The last operation of a history that passes the test. -/
def lastOf (writes : ι → Bool) (ops : List ι) : Option ι := (ops.filter writes).getLast?

@[simp] theorem lastOf_nil (writes : ι → Bool) : lastOf writes [] = none := rfl

theorem lastOf_concat (writes : ι → Bool) (ops : List ι) (op : ι) :
    lastOf writes (ops ++ [op]) = if writes op then some op else lastOf writes ops := by
  rw [lastOf, List.filter_append]
  by_cases h : writes op
  · rw [List.filter_cons_of_pos h, List.filter_nil, List.getLast?_concat, if_pos h]
  · rw [List.filter_cons_of_neg h, List.filter_nil, List.append_nil, if_neg h, lastOf]

theorem lastOf_eq_none_iff {writes : ι → Bool} {ops : List ι} :
    lastOf writes ops = none ↔ ∀ op ∈ ops, writes op = false := by
  rw [lastOf, List.getLast?_eq_none_iff, List.filter_eq_nil_iff]
  simp only [Bool.not_eq_true]

theorem writes_of_lastOf {writes : ι → Bool} {ops : List ι} {op : ι}
    (last : lastOf writes ops = some op) : op ∈ ops ∧ writes op :=
  List.mem_filter.mp (List.mem_of_getLast? last)

theorem lastOf_among {p q : ι → Bool} (among : ∀ op, q op → p op) {ops : List ι} {op : ι}
    (last : lastOf p ops = some op) (chosen : q op) : lastOf q ops = some op := by
  induction ops using List.reverseRecOn with
  | nil => cases last
  | append_singleton ops o ih =>
    rw [lastOf_concat] at last ⊢
    by_cases h : p o
    · rw [if_pos h, Option.some.injEq] at last
      rw [last, if_pos chosen]
    · rw [if_neg h] at last
      rw [if_neg fun hq => h (among o hq), ih last]

section Register

variable {step : σ → ι → σ} {observe : σ → β} {writes : ι → Bool} {s : σ} {ops : List ι}

theorem observe_last {inv : σ → Prop} (keeps : ∀ s op, inv s → inv (step s op))
    (passes : ∀ s op, writes op = false → observe (step s op) = observe s) (start : inv s) {op : ι}
    (last : lastOf writes ops = some op) :
    ∃ t, inv t ∧ observe (ops.foldl step s) = observe (step t op) := by
  induction ops using List.reverseRecOn with
  | nil => cases last
  | append_singleton before o ih =>
    have held : ∀ os : List ι, inv (os.foldl step s) := by
      intro os
      induction os using List.reverseRecOn with
      | nil => exact start
      | append_singleton os o' ih =>
        rw [List.foldl_concat]
        exact keeps _ o' ih
    rw [lastOf_concat] at last
    rw [List.foldl_concat]
    by_cases h : writes o
    · rw [if_pos h, Option.some.injEq] at last
      exact ⟨before.foldl step s, held before, by rw [last]⟩
    · rw [if_neg h] at last
      obtain ⟨t, ht, shown⟩ := ih last
      exact ⟨t, ht, by rw [passes _ o (by simpa using h), shown]⟩

end Register

section Rows

variable {key : ι → α → Bool} {write : ι → α → α}

theorem findIdx_updateFirst {p q : α → Bool} {f : α → α} (blind : ∀ a, q (f a) = q a)
    (rows : List α) : (updateFirst p f rows).findIdx? q = rows.findIdx? q := by
  induction rows with
  | nil => rfl
  | cons a as ih =>
    rw [updateFirst]
    split
    · rw [List.findIdx?_cons, List.findIdx?_cons, blind a]
    · rw [List.findIdx?_cons, List.findIdx?_cons, ih]

theorem getElem_updateFirst (p : α → Bool) (f : α → α) (rows : List α) (k : Nat) :
    (updateFirst p f rows)[k]? =
      if rows.findIdx? p == some k then rows[k]?.map f else rows[k]? := by
  induction rows generalizing k with
  | nil => simp
  | cons a as ih =>
    by_cases h : p a
    · cases k with
      | zero => simp [updateFirst, h, List.findIdx?_cons]
      | succ k => simp [updateFirst, h, List.findIdx?_cons]
    · cases k with
      | zero =>
        cases found : as.findIdx? p <;> simp [updateFirst, h, List.findIdx?_cons, found]
      | succ k =>
        have rest := ih k
        cases found : as.findIdx? p <;>
          simp [updateFirst, h, List.findIdx?_cons, found] at rest ⊢ <;> exact rest

def writesAt (key : ι → α → Bool) (rows : List α) (k : Nat) (ops : List ι) : List ι :=
  ops.filter fun op => rows.findIdx? (key op) == some k

/-- Each row ends as its own writes leave it, whatever the others did between them. -/
theorem getElem_foldl_updateFirst (blind : ∀ op op' a, key op (write op' a) = key op a)
    (ops : List ι) (rows : List α) (k : Nat) :
    (ops.foldl (fun rows op => updateFirst (key op) (write op) rows) rows)[k]? =
      rows[k]?.map fun a => (writesAt key rows k ops).foldl (fun a op => write op a) a := by
  induction ops generalizing rows with
  | nil => simp [writesAt]
  | cons op rest ih =>
    have same : writesAt key (updateFirst (key op) (write op) rows) k rest =
        writesAt key rows k rest := by
      apply List.filter_congr
      intro o _
      rw [findIdx_updateFirst (blind o op)]
    rw [List.foldl_cons, ih, same, getElem_updateFirst]
    by_cases here : (rows.findIdx? (key op) == some k) = true
    · rw [if_pos here, Option.map_map, writesAt, writesAt, List.filter_cons, if_pos here]
      rfl
    · rw [if_neg here, writesAt, writesAt, List.filter_cons, if_neg here]

end Rows

end LastWriter
