import Mathlib.Data.List.Nodup

/-!
The first that is known: a key's row in a table, and two readers of one list each of which
goes by the first item it knows.
-/
namespace FirstKnown

variable {α β γ : Type}

/-! Tables -/

section

variable [BEq α] [LawfulBEq α] {table : List (α × β)} {key : α} {value : β}

theorem lookup_of_mem (nodup : (table.map (·.1)).Nodup) (mem : (key, value) ∈ table) :
    table.lookup key = some value := by
  obtain ⟨front, back, rfl⟩ := List.append_of_mem mem
  refine List.lookup_eq_some_iff.mpr ⟨front, back, rfl, fun other hother => ?_⟩
  rw [List.map_append, List.map_cons, List.nodup_append] at nodup
  rw [bne_iff_ne]
  exact (nodup.2.2 other.1 (List.mem_map_of_mem hother) key (List.mem_cons_self ..)).symm

theorem mem_of_lookup (found : table.lookup key = some value) : (key, value) ∈ table := by
  obtain ⟨front, back, rfl, -⟩ := List.lookup_eq_some_iff.mp found
  simp

end

/-! Two readers -/

theorem findSome_congr {f g : α → Option β} {items : List α}
    (same : ∀ item ∈ items, f item = g item) : items.findSome? f = items.findSome? g := by
  induction items with
  | nil => rfl
  | cons item items ih =>
    rw [List.findSome?_cons, List.findSome?_cons, same item List.mem_cons_self,
      ih fun other mem => same other (List.mem_cons_of_mem _ mem)]

section

variable {f g : α → Option β} {v : β → Option γ}

/-- They say the same of an item both know; of one that one knows, the other finds the same
    further on. -/
def AgreeAt (f g : α → Option β) (v : β → Option γ) (item : α) (after : List α) : Prop :=
  match f item, g item with
  | some b, some c => v b = v c
  | some b, none => v b = (after.findSome? g).bind v
  | none, some c => (after.findSome? f).bind v = v c
  | none, none => True

def Agree (f g : α → Option β) (v : β → Option γ) (items : List α) : Prop :=
  ∀ before item after, items = before ++ item :: after →
    (∀ earlier ∈ before, f earlier = none ∧ g earlier = none) → AgreeAt f g v item after

theorem agree_cons_of_known {item : α} {rest : List α} (known : ¬(f item = none ∧ g item = none)) :
    Agree f g v (item :: rest) ↔ AgreeAt f g v item rest := by
  constructor
  · intro h
    exact h [] item rest rfl (by simp)
  · rintro h (_ | ⟨first, before⟩) other after cut unknown
    · obtain ⟨rfl, rfl⟩ := List.cons.inj cut
      exact h
    · obtain ⟨rfl, -⟩ := List.cons.inj cut
      exact absurd (unknown item List.mem_cons_self) known

theorem agree_cons_of_unknown {item : α} {rest : List α} (unknown : f item = none ∧ g item = none) :
    Agree f g v (item :: rest) ↔ Agree f g v rest := by
  constructor
  · intro h before other after cut none_known
    refine h (item :: before) other after (by rw [cut, List.cons_append]) ?_
    intro earlier mem
    rcases List.mem_cons.mp mem with rfl | mem
    · exact unknown
    · exact none_known earlier mem
  · rintro h (_ | ⟨first, before⟩) other after cut none_known
    · obtain ⟨rfl, rfl⟩ := List.cons.inj cut
      unfold AgreeAt
      rw [unknown.1, unknown.2]
      trivial
    · obtain ⟨rfl, rfl⟩ := List.cons.inj cut
      exact h before other after rfl fun earlier mem =>
        none_known earlier (List.mem_cons_of_mem _ mem)

/-- Two readers reach the same verdict exactly when they agree at the first item either knows. -/
theorem agree_iff (items : List α) :
    (items.findSome? f).bind v = (items.findSome? g).bind v ↔ Agree f g v items := by
  induction items with
  | nil =>
    refine iff_of_true rfl ?_
    intro before item after cut
    cases before <;> cases cut
  | cons item rest ih =>
    by_cases unknown : f item = none ∧ g item = none
    · rw [agree_cons_of_unknown unknown, ← ih, List.findSome?_cons, List.findSome?_cons,
        unknown.1, unknown.2]
    · rw [agree_cons_of_known unknown, AgreeAt, List.findSome?_cons, List.findSome?_cons]
      cases known_f : f item with
      | some b => cases g item <;> rfl
      | none =>
        cases known_g : g item with
        | some c => rfl
        | none => exact absurd ⟨known_f, known_g⟩ unknown

end

end FirstKnown
