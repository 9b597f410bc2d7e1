import Mathlib.Data.List.Basic

/-!
A linear undo history: entries and a cursor. Entries before it are active, those from it on
the redo tail; the bound on it is a field.
-/
namespace UndoHistory

structure History (Entry : Type) where
  entries : List Entry
  cursor : Nat
  bound : cursor ≤ entries.length

variable {Entry : Type}

namespace History

def empty : History Entry := ⟨[], 0, Nat.le_refl 0⟩

def active (h : History Entry) : List Entry := h.entries.take h.cursor

def redoTail (h : History Entry) : List Entry := h.entries.drop h.cursor

/-- Drop the redo tail, append the entry and move past it. -/
def record (h : History Entry) (e : Entry) : History Entry where
  entries := h.active ++ [e]
  cursor := h.cursor + 1
  bound := by
    have := h.bound
    simp only [active, List.length_append, List.length_take, List.length_singleton]
    omega

def undo (h : History Entry) : Option (History Entry) :=
  if h.cursor = 0 then none
  else some ⟨h.entries, h.cursor - 1, Nat.le_trans (Nat.sub_le _ _) h.bound⟩

def redo (h : History Entry) : Option (History Entry) :=
  if room : h.cursor < h.entries.length then some ⟨h.entries, h.cursor + 1, room⟩ else none

theorem active_length (h : History Entry) : h.active.length = h.cursor := by
  rw [active, List.length_take, Nat.min_eq_left h.bound]

theorem active_append_redoTail (h : History Entry) : h.active ++ h.redoTail = h.entries :=
  List.take_append_drop h.cursor h.entries

@[simp] theorem active_empty : (empty : History Entry).active = [] := rfl

@[simp] theorem active_record (h : History Entry) (e : Entry) :
    (h.record e).active = h.active ++ [e] := by
  have len := h.active_length
  simp only [record, active] at len ⊢
  rw [List.take_of_length_le]
  simp [len]

@[simp] theorem redoTail_record (h : History Entry) (e : Entry) : (h.record e).redoTail = [] := by
  have len := h.active_length
  simp only [record, redoTail]
  rw [List.drop_eq_nil_of_le]
  simp [len]

theorem undo_eq_none {h : History Entry} : h.undo = none ↔ h.cursor = 0 := by
  by_cases at_start : h.cursor = 0 <;> simp [undo, at_start]

/-- What one undo does: the entries stay and the last active one goes to the tail. -/
theorem undo_fields {h k : History Entry} (step : h.undo = some k) :
    k.entries = h.entries ∧ k.cursor + 1 = h.cursor := by
  unfold undo at step
  split at step
  · cases step
  · rename_i moved
    cases step
    exact ⟨rfl, Nat.succ_pred_eq_of_ne_zero moved⟩

theorem redo_fields {h k : History Entry} (step : h.redo = some k) :
    k.entries = h.entries ∧ k.cursor = h.cursor + 1 := by
  unfold redo at step
  split at step
  · cases step
    exact ⟨rfl, rfl⟩
  · cases step

theorem undo_record (h : History Entry) (e : Entry) :
    ∃ k, (h.record e).undo = some k ∧ k.active = h.active ∧ k.redo = some (h.record e) := by
  have len := h.active_length
  refine ⟨⟨(h.record e).entries, h.cursor, Nat.le_of_succ_le (h.record e).bound⟩, ?_, ?_, ?_⟩
  · simp [undo, record]
  · change (h.active ++ [e]).take h.cursor = h.active
    rw [← len, List.take_left]
  · have room : h.cursor < (h.record e).entries.length := (h.record e).bound
    rw [redo, dif_pos room]
    rfl

/-- Undo `n` times; refused as soon as one undo is. -/
def undoMany : Nat → History Entry → Option (History Entry)
  | 0, h => some h
  | n + 1, h => h.undo.bind (undoMany n)

theorem undoMany_fields {n : Nat} {h k : History Entry} (steps : undoMany n h = some k) :
    k.entries = h.entries ∧ k.cursor + n = h.cursor := by
  induction n generalizing h with
  | zero =>
    cases steps
    exact ⟨rfl, rfl⟩
  | succ n ih =>
    obtain ⟨m, first, rest⟩ := Option.bind_eq_some_iff.mp steps
    obtain ⟨entries, cursor⟩ := undo_fields first
    obtain ⟨entries', cursor'⟩ := ih rest
    exact ⟨entries'.trans entries, by omega⟩

/-- `n` undos move exactly the last `n` active entries to the front of the redo tail. -/
theorem undoMany_split {n : Nat} {h k : History Entry} (steps : undoMany n h = some k) :
    ∃ undone, undone.length = n ∧ h.active = k.active ++ undone ∧
      k.redoTail = undone ++ h.redoTail := by
  obtain ⟨entries, cursor⟩ := undoMany_fields steps
  have room : k.cursor + n ≤ k.entries.length := by
    rw [cursor, entries]
    exact h.bound
  refine ⟨(k.entries.drop k.cursor).take n, ?_, ?_, ?_⟩
  · rw [List.length_take, List.length_drop]
    omega
  · rw [active, active, ← entries, ← cursor, List.take_add]
  · rw [redoTail, redoTail, ← entries, ← cursor, ← List.drop_drop, List.take_append_drop]

end History

end UndoHistory
