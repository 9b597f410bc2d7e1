import Mathlib.Data.Finmap
import Mathlib.Data.List.Dedup
import Mathlib.Data.List.TakeWhile

/-!
Names numbered as they are first seen. Each class has a counter of its own, a name seen
again keeps its number, and so a number says how many names of the class came before.
-/
namespace Numbering

variable {κ ν : Type} [DecidableEq κ] [DecidableEq ν]

structure Registry (κ ν : Type) where
  seen : Finmap fun _ : κ × ν => Nat := ∅
  counters : Finmap fun _ : κ => Nat := ∅

def Registry.number (r : Registry κ ν) (k : κ) (v : ν) : Nat × Registry κ ν :=
  match r.seen.lookup (k, v) with
  | some n => (n, r)
  | none =>
    let n := (r.counters.lookup k).getD 0 + 1
    (n, ⟨r.seen.insert (k, v) n, r.counters.insert k n⟩)

def names (k : κ) (history : List (κ × ν)) : List (κ × ν) :=
  (history.filter fun p => p.1 = k).dedup

def before (p : κ × ν) (history : List (κ × ν)) : List (κ × ν) :=
  history.takeWhile fun q => q ≠ p

/-- One more than the different names of the class that came before a name. -/
def position (history : List (κ × ν)) (k : κ) (v : ν) : Nat :=
  (names k (before (k, v) history)).length + 1

structure Tracks (r : Registry κ ν) (history : List (κ × ν)) : Prop where
  seen : ∀ k v, r.seen.lookup (k, v) =
    if (k, v) ∈ history then some (position history k v) else none
  counters : ∀ k, (r.counters.lookup k).getD 0 = (names k history).length

variable {k : κ} {v : ν} {p : κ × ν} {history : List (κ × ν)}

theorem before_append (known : p ∈ history) (more : List (κ × ν)) :
    before p (history ++ more) = before p history := by
  rw [before, List.takeWhile_append, if_neg]
  · rfl
  · intro whole
    have all := List.takeWhile_eq_self_iff.mp
      (List.IsPrefix.eq_of_length (List.takeWhile_prefix _) whole)
    simpa using all p known

/-- A name keeps its place when more names follow. -/
theorem position_append (known : (k, v) ∈ history) (more : List (κ × ν)) :
    position (history ++ more) k v = position history k v := by
  rw [position, before_append known, position]

theorem position_fresh (fresh : (k, v) ∉ history) (more : List (κ × ν)) :
    position (history ++ (k, v) :: more) k v = (names k history).length + 1 := by
  have known : (k, v) ∈ history ++ [(k, v)] := List.mem_append_right _ List.mem_cons_self
  rw [List.append_cons, position_append known, position, before, List.takeWhile_append_of_pos]
  · simp
  · intro q mem
    exact decide_eq_true fun same => fresh (same ▸ mem)

theorem mem_names {q : κ × ν} : q ∈ names k history ↔ q ∈ history ∧ q.1 = k := by
  rw [names, List.mem_dedup, List.mem_filter, decide_eq_true_eq]

theorem nodup_names (k : κ) (history : List (κ × ν)) : (names k history).Nodup :=
  List.nodup_dedup _

theorem position_lt {v w : ν} (first : (k, v) ∈ before (k, w) history) :
    position history k v < position history k w := by
  obtain ⟨rest, whole⟩ := List.takeWhile_prefix (p := fun q => decide (q ≠ (k, w))) (l := history)
  have shorter : before (k, v) history = before (k, v) (before (k, w) history) := by
    conv_lhs => rw [← whole]
    exact before_append first rest
  have unmet : (k, v) ∉ before (k, v) history := fun mem => by
    simpa using List.mem_takeWhile_imp mem
  have distinct : ((k, v) :: names k (before (k, v) history)).Nodup :=
    List.nodup_cons.mpr ⟨fun mem => unmet (mem_names.mp mem).1, nodup_names k _⟩
  have among : ((k, v) :: names k (before (k, v) history)) ⊆ names k (before (k, w) history) := by
    intro q mem
    obtain rfl | mem := List.mem_cons.mp mem
    · exact mem_names.mpr ⟨first, rfl⟩
    · rw [shorter] at mem
      obtain ⟨mem, own⟩ := mem_names.mp mem
      exact mem_names.mpr ⟨(List.takeWhile_prefix _).subset mem, own⟩
  exact Nat.succ_lt_succ (distinct.length_le_of_subset among)

theorem mem_before_or {p q : κ × ν} (hp : p ∈ history) (ne : p ≠ q) (hq : q ∈ history) :
    p ∈ before q history ∨ q ∈ before p history := by
  obtain ⟨front, rest, rfl, fresh⟩ := List.eq_append_cons_of_mem hp
  by_cases early : q ∈ front
  · right
    rw [before, List.takeWhile_append_of_pos]
    · exact List.mem_append_left _ early
    · intro r mem
      exact decide_eq_true fun same => fresh (same ▸ mem)
  · left
    have keeps : before q (p :: rest) = p :: before q rest := by simp [before, ne]
    rw [before, List.takeWhile_append_of_pos, ← before, keeps]
    · exact List.mem_append_right _ List.mem_cons_self
    · intro r mem
      exact decide_eq_true fun same => early (same ▸ mem)

theorem position_inj {v w : ν} (hv : (k, v) ∈ history) (hw : (k, w) ∈ history) :
    position history k v = position history k w ↔ v = w := by
  constructor
  · intro same
    by_contra ne
    obtain first | first := mem_before_or hv (fun h => ne (Prod.mk.inj h).2) hw
    · exact absurd same (position_lt first).ne
    · exact absurd same (position_lt first).ne'
  · rintro rfl
    rfl

variable {r : Registry κ ν}

theorem tracks_nil : Tracks ({} : Registry κ ν) [] := ⟨fun _ _ => rfl, fun _ => rfl⟩

theorem names_concat_known (known : p ∈ history) (k : κ) :
    (names k (history ++ [p])).length = (names k history).length := by
  apply List.Perm.length_eq
  rw [List.perm_ext_iff_of_nodup (nodup_names k _) (nodup_names k _)]
  intro q
  rw [mem_names, mem_names, List.mem_append, List.mem_singleton]
  constructor
  · rintro ⟨old | rfl, own⟩
    · exact ⟨old, own⟩
    · exact ⟨known, own⟩
  · rintro ⟨old, own⟩
    exact ⟨.inl old, own⟩

theorem names_concat_fresh (fresh : p ∉ history) (k : κ) :
    (names k (history ++ [p])).length = (names k history).length + if p.1 = k then 1 else 0 := by
  rw [names, List.filter_append]
  by_cases own : p.1 = k
  · rw [if_pos own, List.filter_cons_of_pos (by simpa using own), List.filter_nil]
    have perm : ((history.filter fun q => q.1 = k) ++ [p]).dedup.Perm (p :: names k history) := by
      rw [List.perm_ext_iff_of_nodup (List.nodup_dedup _)
        (List.nodup_cons.mpr ⟨fun mem => fresh (mem_names.mp mem).1, nodup_names k _⟩)]
      intro q
      rw [List.mem_dedup, List.mem_append, List.mem_singleton, List.mem_cons, names,
        List.mem_dedup, or_comm]
    rw [perm.length_eq, List.length_cons]
  · rw [if_neg own, List.filter_cons_of_neg (by simpa using own), List.filter_nil, List.append_nil,
      Nat.add_zero, names]

theorem tracks_number (tracks : Tracks r history) (k : κ) (v : ν) :
    (r.number k v).1 = position (history ++ [(k, v)]) k v ∧
      Tracks (r.number k v).2 (history ++ [(k, v)]) := by
  unfold Registry.number
  have seen := tracks.seen k v
  by_cases known : (k, v) ∈ history
  · rw [if_pos known] at seen
    rw [seen]
    refine ⟨(position_append known _).symm, ⟨fun l w => ?_, fun l => ?_⟩⟩
    · rw [tracks.seen]
      by_cases old : (l, w) ∈ history
      · rw [if_pos old, if_pos (List.mem_append_left _ old), position_append old]
      · have still : (l, w) ∉ history ++ [(k, v)] := fun mem => by
          rcases List.mem_append.mp mem with mem | mem
          · exact old mem
          · exact old (List.mem_singleton.mp mem ▸ known)
        rw [if_neg old, if_neg still]
    · rw [tracks.counters, names_concat_known known]
  · rw [if_neg known] at seen
    rw [seen]
    dsimp only
    have given : position (history ++ [(k, v)]) k v = (r.counters.lookup k).getD 0 + 1 := by
      rw [position_fresh known, tracks.counters]
    refine ⟨given.symm, ⟨fun l w => ?_, fun l => ?_⟩⟩
    · by_cases own : (l, w) = (k, v)
      · obtain ⟨rfl, rfl⟩ := Prod.mk.inj own
        rw [Finmap.lookup_insert, if_pos (List.mem_append_right _ List.mem_cons_self), given]
      · rw [Finmap.lookup_insert_of_ne _ own, tracks.seen]
        by_cases old : (l, w) ∈ history
        · rw [if_pos old, if_pos (List.mem_append_left _ old), position_append old]
        · have still : (l, w) ∉ history ++ [(k, v)] := fun mem => by
            rcases List.mem_append.mp mem with mem | mem
            · exact old mem
            · exact own (List.mem_singleton.mp mem)
          rw [if_neg old, if_neg still]
    · rw [names_concat_fresh known, ← tracks.counters]
      by_cases own : k = l
      · subst own
        rw [Finmap.lookup_insert, if_pos rfl]
        rfl
      · rw [Finmap.lookup_insert_of_ne _ (Ne.symm own), if_neg own, Nat.add_zero]

end Numbering
