import Inspectah.Library.Grouping

/-!
One row survives for each key. Rows come one at a time; the first of a key opens its
place, a later one takes the place when it beats the row that holds it. An index says
where the place of a key is.
-/
namespace Survivors

open Grouping

variable {κ α : Type} [DecidableEq κ]

structure Places (κ α : Type) where
  index : List (κ × Nat) := []
  result : List α := []

section

variable (key : α → κ) (beats : α → α → Bool)

def settle (row : α) (places : Places κ α) : Places κ α :=
  match places.index.lookup (key row) with
  | none =>
    { index := (key row, places.result.length) :: places.index
      result := places.result ++ [row] }
  | some i =>
    match places.result[i]? with
    | none => places
    | some survivor =>
      if beats survivor row then { places with result := places.result.set i row } else places

def settleAll (rows : List α) : Places κ α := rows.foldl (fun places row => settle key beats row places) {}

/-- The row left of those of one key. -/
def champion : List α → Option α
  | [] => none
  | first :: rest => some (rest.foldl (fun survivor row => if beats survivor row then row else survivor) first)

structure HoldsChampions (rows : List α) (places : Places κ α) : Prop where
  indexed : ∀ k i, places.index.lookup k = some i ↔ ∃ a, places.result[i]? = some a ∧ key a = k
  stands : ∀ a ∈ places.result, champion beats (rowsAt key rows (key a)) = some a
  covers : ∀ k, k ∈ places.result.map key ↔ ∃ row ∈ rows, key row = k

end

variable {key : α → κ} {beats : α → α → Bool}

theorem champion_concat {rows : List α} {survivor : α} (holds : champion beats rows = some survivor)
    (row : α) :
    champion beats (rows ++ [row]) = some (if beats survivor row then row else survivor) := by
  cases rows with
  | nil => cases holds
  | cons first rest =>
    cases holds
    simp [champion, List.foldl_append]

theorem HoldsChampions.nodup {rows : List α} {places : Places κ α}
    (holds : HoldsChampions key beats rows places) : (places.result.map key).Nodup := by
  rw [List.nodup_iff_injective_getElem]
  rintro ⟨i, hi⟩ ⟨j, hj⟩ same
  rw [List.length_map] at hi hj
  have same : key places.result[i] = key places.result[j] := by simpa using same
  have at_i := (holds.indexed _ i).mpr ⟨_, List.getElem?_eq_getElem hi, rfl⟩
  have at_j := (holds.indexed _ j).mpr ⟨_, List.getElem?_eq_getElem hj, rfl⟩
  rw [same, at_j] at at_i
  simpa using (Option.some.inj at_i).symm

theorem HoldsChampions.open {rows : List α} {places : Places κ α}
    (holds : HoldsChampions key beats rows places) {row : α}
    (fresh : places.index.lookup (key row) = none) :
    HoldsChampions key beats (rows ++ [row])
      { index := (key row, places.result.length) :: places.index
        result := places.result ++ [row] } := by
  have unheld : ∀ a ∈ places.result, key a ≠ key row := by
    intro a mem same
    obtain ⟨i, inside, rfl⟩ := List.getElem_of_mem mem
    have found := (holds.indexed _ i).mpr ⟨_, List.getElem?_eq_getElem inside, same⟩
    rw [fresh] at found
    cases found
  have unseen : rowsAt key rows (key row) = [] := by
    rw [rowsAt, List.filter_eq_nil_iff]
    intro earlier mem same
    obtain ⟨a, held, at_key⟩ := List.mem_map.mp
      ((holds.covers (key row)).mpr ⟨earlier, mem, of_decide_eq_true same⟩)
    exact unheld a held at_key
  constructor
  · intro k i
    by_cases own : k = key row
    · subst own
      rw [List.lookup_cons_self]
      constructor
      · intro found
        cases found
        exact ⟨row, List.getElem?_concat_length, rfl⟩
      · rintro ⟨a, there, same⟩
        rcases lt_trichotomy i places.result.length with before | last | beyond
        · rw [List.getElem?_append_left before] at there
          exact absurd same (unheld a (List.mem_of_getElem? there))
        · rw [last]
        · rw [List.getElem?_eq_none (by simp; omega)] at there
          cases there
    · rw [List.lookup_cons, beq_eq_false_iff_ne.mpr own, holds.indexed]
      refine exists_congr fun a => and_congr_left fun same => ?_
      rcases lt_trichotomy i places.result.length with before | last | beyond
      · rw [List.getElem?_append_left before]
      · rw [last, List.getElem?_concat_length, List.getElem?_eq_none le_rfl]
        refine ⟨nofun, fun there => ?_⟩
        cases there
        exact absurd same.symm own
      · rw [List.getElem?_eq_none (by omega), List.getElem?_eq_none (by simp; omega)]
  · intro a mem
    rw [rowsAt_concat]
    rcases List.mem_append.mp mem with held | new
    · rw [if_neg (unheld a held).symm, List.append_nil]
      exact holds.stands a held
    · rw [List.mem_singleton.mp new, unseen, if_pos rfl]
      rfl
  · intro k
    rw [List.map_append, List.mem_append, holds.covers]
    simp only [List.map_cons, List.map_nil, List.mem_singleton, List.mem_append, or_and_right,
      exists_or, exists_eq_left]
    exact or_congr_right eq_comm

theorem HoldsChampions.contest {rows : List α} {places : Places κ α}
    (holds : HoldsChampions key beats rows places) {row survivor : α} {i : Nat}
    (there : places.result[i]? = some survivor) (same : key survivor = key row) :
    HoldsChampions key beats (rows ++ [row])
      (if beats survivor row then { places with result := places.result.set i row } else places) := by
  have inside : i < places.result.length := (List.getElem?_eq_some_iff.mp there).1
  have only_there : ∀ j a, places.result[j]? = some a → key a = key row → j = i := by
    intro j a at_j own
    have found := (holds.indexed (key row) j).mpr ⟨a, at_j, own⟩
    rw [(holds.indexed (key row) i).mpr ⟨survivor, there, same⟩] at found
    exact (Option.some.inj found).symm
  have fought : champion beats (rowsAt key (rows ++ [row]) (key row)) =
      some (if beats survivor row then row else survivor) := by
    rw [rowsAt_concat, if_pos rfl]
    exact champion_concat (same ▸ holds.stands survivor (List.mem_of_getElem? there)) row
  have untouched : ∀ a, key a ≠ key row →
      rowsAt key (rows ++ [row]) (key a) = rowsAt key rows (key a) := by
    intro a other
    rw [rowsAt_concat, if_neg other.symm, List.append_nil]
  have known : ∀ k, (∃ r ∈ rows ++ [row], key r = k) ↔ ∃ r ∈ rows, key r = k := by
    intro k
    constructor
    · rintro ⟨r, mem, at_k⟩
      rcases List.mem_append.mp mem with before | last
      · exact ⟨r, before, at_k⟩
      · rw [List.mem_singleton.mp last] at at_k
        have held : k ∈ places.result.map key :=
          at_k ▸ same ▸ List.mem_map_of_mem (List.mem_of_getElem? there)
        exact (holds.covers k).mp held
    · rintro ⟨r, mem, at_k⟩
      exact ⟨r, List.mem_append_left _ mem, at_k⟩
  cases won : beats survivor row with
  | false =>
    rw [won, if_neg Bool.false_ne_true] at fought
    rw [if_neg Bool.false_ne_true]
    refine ⟨holds.indexed, fun a mem => ?_, fun k => (holds.covers k).trans (known k).symm⟩
    by_cases own : key a = key row
    · obtain ⟨j, hj, rfl⟩ := List.getElem_of_mem mem
      have place := only_there j _ (List.getElem?_eq_getElem hj) own
      subst place
      rw [List.getElem?_eq_getElem hj] at there
      rw [own, fought]
      exact there.symm
    · rw [untouched a own]
      exact holds.stands a mem
  | true =>
    rw [won, if_pos rfl] at fought
    rw [if_pos rfl]
    have keys : (places.result.set i row).map key = places.result.map key := by
      obtain ⟨_, at_i⟩ := List.getElem?_eq_some_iff.mp there
      have placed : i < (places.result.map key).length := by simpa using inside
      have held : (places.result.map key)[i] = key row := by
        rw [List.getElem_map, at_i, same]
      rw [List.map_set, ← held, List.set_getElem_self]
    constructor
    · intro k j
      rw [holds.indexed]
      have read : ∀ rows' : List α, (∃ a, rows'[j]? = some a ∧ key a = k) ↔ (rows'.map key)[j]? = some k := by
        intro rows'
        rw [List.getElem?_map, Option.map_eq_some_iff]
      rw [read, read, keys]
    · intro a mem
      by_cases own : key a = key row
      · obtain ⟨j, hj, rfl⟩ := List.getElem_of_mem mem
        have hj' : j < places.result.length := by simpa using hj
        have place : j = i := by
          apply only_there j places.result[j] (List.getElem?_eq_getElem hj')
          have read := congrArg (fun l => l[j]?) keys
          simp only [List.getElem?_map, List.getElem?_eq_getElem hj, List.getElem?_eq_getElem hj',
            Option.map_some, Option.some.injEq] at read
          rw [← read, own]
        subst place
        rw [own, fought, List.getElem_set_self]
      · rcases List.mem_or_eq_of_mem_set mem with held | new
        · rw [untouched a own]
          exact holds.stands a held
        · rw [new] at own
          exact absurd rfl own
    · intro k
      rw [keys]
      exact (holds.covers k).trans (known k).symm

theorem HoldsChampions.settle {rows : List α} {places : Places κ α}
    (holds : HoldsChampions key beats rows places) (row : α) :
    HoldsChampions key beats (rows ++ [row]) (settle key beats row places) := by
  unfold Survivors.settle
  cases found : places.index.lookup (key row) with
  | none => exact holds.open found
  | some i =>
    obtain ⟨survivor, there, same⟩ := (holds.indexed _ i).mp found
    simp only [there]
    exact holds.contest there same

theorem settleAll_holds (rows : List α) : HoldsChampions key beats rows (settleAll key beats rows) := by
  induction rows using List.reverseRecOn with
  | nil =>
    refine ⟨fun k i => ?_, fun a mem => absurd mem List.not_mem_nil, fun k => by simp [settleAll]⟩
    simp [settleAll]
  | append_singleton rows row ih =>
    have step := ih.settle row
    rwa [settleAll, List.foldl_append]

section Merit

variable {good : α → Bool}

/-- A row with the merit beats one without it, and nothing else beats anything. -/
def outranks (good : α → Bool) (survivor row : α) : Bool := !good survivor && good row

theorem foldl_outranks (survivor : α) (rows : List α) :
    rows.foldl (fun survivor row => if outranks good survivor row then row else survivor) survivor =
      if good survivor then survivor else (rows.find? good).getD survivor := by
  induction rows generalizing survivor with
  | nil => simp
  | cons row rest ih =>
    rw [List.foldl_cons, ih]
    cases held : good survivor <;> cases new : good row <;> simp [outranks, held, new]

/-- The first row with the merit, or the first of all. -/
theorem champion_outranks (rows : List α) :
    champion (outranks good) rows = (rows.find? good).or rows.head? := by
  cases rows with
  | nil => rfl
  | cons first rest =>
    rw [champion, foldl_outranks]
    cases held : good first with
    | true => simp [held]
    | false =>
      rw [List.find?_cons_of_neg (by simp [held]), List.head?_cons]
      cases rest.find? good <;> simp

end Merit

end Survivors
