import Mathlib.Data.List.Pairwise
import Mathlib.Order.Lattice

/-!
A table that keeps its entries in the order of their keys. An update reads what
is under the key, or finds nothing there, and leaves one entry under it; every
other key keeps what it had.
-/
namespace OrderedTable

variable {κ ν : Type} [LinearOrder κ]

/-- The keys strictly rise, so each has one entry. -/
structure Table (κ ν : Type) [LinearOrder κ] where
  entries : List (κ × ν) := []
  rising : entries.Pairwise fun a b => a.1 < b.1 := by exact .nil

def updateEntries (k : κ) (f : Option ν → ν) : List (κ × ν) → List (κ × ν)
  | [] => [(k, f none)]
  | e :: rest =>
    if e.1 < k then e :: updateEntries k f rest
    else if k < e.1 then (k, f none) :: e :: rest
    else (k, f (some e.2)) :: rest

theorem key_of_mem_update {k : κ} {f : Option ν → ν} {entries : List (κ × ν)} {e : κ × ν}
    (mem : e ∈ updateEntries k f entries) : e.1 = k ∨ e ∈ entries := by
  induction entries with
  | nil => exact .inl (List.mem_singleton.mp mem ▸ rfl)
  | cons first rest ih =>
    rw [updateEntries] at mem
    split at mem
    · rcases List.mem_cons.mp mem with rfl | later
      · exact .inr List.mem_cons_self
      · exact (ih later).imp_right (List.mem_cons_of_mem first)
    · split at mem
      · rcases List.mem_cons.mp mem with rfl | old
        · exact .inl rfl
        · exact .inr old
      · rcases List.mem_cons.mp mem with rfl | old
        · exact .inl rfl
        · exact .inr (List.mem_cons_of_mem first old)

theorem updateEntries_rising (k : κ) (f : Option ν → ν) {entries : List (κ × ν)}
    (rising : entries.Pairwise fun a b => a.1 < b.1) :
    (updateEntries k f entries).Pairwise fun a b => a.1 < b.1 := by
  induction entries with
  | nil => exact List.pairwise_singleton _ _
  | cons e rest ih =>
    obtain ⟨first, rising'⟩ := List.pairwise_cons.mp rising
    rw [updateEntries]
    split
    · next before =>
      refine List.pairwise_cons.mpr ⟨fun b mem => ?_, ih rising'⟩
      rcases key_of_mem_update mem with same | old
      · exact same ▸ before
      · exact first b old
    · split
      · next after =>
        refine List.pairwise_cons.mpr ⟨fun b mem => ?_, rising⟩
        rcases List.mem_cons.mp mem with rfl | old
        · exact after
        · exact after.trans (first b old)
      · next before after =>
        obtain rfl : k = e.1 := le_antisymm (not_lt.mp before) (not_lt.mp after)
        exact List.pairwise_cons.mpr ⟨first, rising'⟩

namespace Table

def update (t : Table κ ν) (k : κ) (f : Option ν → ν) : Table κ ν :=
  ⟨updateEntries k f t.entries, updateEntries_rising k f t.rising⟩

def lookup (t : Table κ ν) (k : κ) : Option ν := t.entries.lookup k

theorem lookup_cons_of_ne {q : κ} {e : κ × ν} {rest : List (κ × ν)} (other : q ≠ e.1) :
    (e :: rest).lookup q = rest.lookup q := by
  rw [List.lookup_cons, beq_false_of_ne other]

theorem lookup_updateEntries (k q : κ) (f : Option ν → ν) {entries : List (κ × ν)}
    (rising : entries.Pairwise fun a b => a.1 < b.1) :
    (updateEntries k f entries).lookup q =
      if q = k then some (f (entries.lookup k)) else entries.lookup q := by
  induction entries with
  | nil =>
    rw [updateEntries]
    split
    · next same => rw [same, List.lookup_cons_self]; rfl
    · next other => exact lookup_cons_of_ne other
  | cons e rest ih =>
    obtain ⟨first, rising'⟩ := List.pairwise_cons.mp rising
    rw [updateEntries]
    split
    · next before =>
      by_cases own : q = e.1
      · subst own
        rw [if_neg before.ne, List.lookup_cons_self, List.lookup_cons_self]
      · rw [lookup_cons_of_ne own, lookup_cons_of_ne before.ne', ih rising']
        rw [lookup_cons_of_ne own]
    · split
      · next after =>
        have absent : (e :: rest).lookup k = none := by
          rw [List.lookup_eq_none_iff]
          intro b mem
          rw [bne_iff_ne]
          rcases List.mem_cons.mp mem with rfl | old
          · exact after.ne
          · exact (after.trans (first b old)).ne
        split
        · next same => rw [same, List.lookup_cons_self, absent]
        · next other => exact lookup_cons_of_ne other
      · next before after =>
        obtain rfl : k = e.1 := le_antisymm (not_lt.mp before) (not_lt.mp after)
        split
        · next same => rw [same, List.lookup_cons_self, List.lookup_cons_self]
        · next other =>
          have kept : (e :: rest).lookup q = rest.lookup q := lookup_cons_of_ne other
          rw [kept]
          exact lookup_cons_of_ne other

theorem lookup_update (t : Table κ ν) (k q : κ) (f : Option ν → ν) :
    (t.update k f).lookup q = if q = k then some (f (t.lookup k)) else t.lookup q :=
  lookup_updateEntries k q f t.rising

theorem mem_entries_iff (t : Table κ ν) {k : κ} {v : ν} :
    (k, v) ∈ t.entries ↔ t.lookup k = some v := by
  rw [lookup]
  obtain ⟨entries, rising⟩ := t
  induction entries with
  | nil => simp
  | cons e rest ih =>
    obtain ⟨first, rising'⟩ := List.pairwise_cons.mp rising
    have rest_iff := ih rising'
    rw [List.mem_cons]
    by_cases same : k = e.1
    · subst same
      have alone : (e.1, v) ∉ rest := fun mem => lt_irrefl e.1 (first (e.1, v) mem)
      rw [List.lookup_cons_self]
      simp [alone, Prod.ext_iff, eq_comm]
    · have other : (k, v) ≠ e := fun whole => same (whole ▸ rfl)
      rw [lookup_cons_of_ne same]
      simpa [other] using rest_iff

end Table

end OrderedTable
