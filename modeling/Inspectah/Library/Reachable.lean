import Inspectah.Library.FirstKnown
import Mathlib.Data.Finset.Card
import Mathlib.Data.List.Basic
import Mathlib.Logic.Relation

/-!
A directed graph as a table from each node to the nodes its edges lead to, and the walk
from a stack of nodes that collects all it can reach.
-/
namespace Reachable

open Relation

variable {α : Type} [DecidableEq α]

def next (rows : List (α × List α)) (a : α) : List α := (rows.lookup a).getD []

def Edge (rows : List (α × List α)) (a b : α) : Prop := b ∈ next rows a

instance (rows : List (α × List α)) (a b : α) : Decidable (Edge rows a b) :=
  inferInstanceAs (Decidable (b ∈ next rows a))

theorem key_of_edge {rows : List (α × List α)} {a b : α} (h : Edge rows a b) :
    a ∈ rows.map (·.1) := by
  unfold Edge next at h
  cases found : rows.lookup a with
  | none => simp [found] at h
  | some bs => exact List.mem_map_of_mem (FirstKnown.mem_of_lookup found)

theorem next_of_not_key {rows : List (α × List α)} {a : α} (h : a ∉ rows.map (·.1)) :
    next rows a = [] := by
  rw [List.eq_nil_iff_forall_not_mem]
  exact fun b hb => h (key_of_edge hb)

/-- The nodes whose edges have not been followed. -/
def unseen (rows : List (α × List α)) (reached : List α) : List (α × List α) :=
  rows.filter fun row => row.1 ∉ reached

theorem unseen_cons_le (rows : List (α × List α)) (a : α) (reached : List α) :
    (unseen rows (a :: reached)).length ≤ (unseen rows reached).length := by
  refine List.Sublist.length_le (List.monotone_filter_right rows fun row h => ?_)
  simp only [decide_eq_true_eq, List.mem_cons, not_or] at h ⊢
  exact h.2

theorem unseen_cons_lt {rows : List (α × List α)} {a : α} {reached : List α}
    (key : a ∈ rows.map (·.1)) (fresh : a ∉ reached) :
    (unseen rows (a :: reached)).length < (unseen rows reached).length := by
  obtain ⟨row, mem, rfl⟩ := List.mem_map.mp key
  have narrower : unseen rows (row.1 :: reached) =
      (unseen rows reached).filter fun other => other.1 ≠ row.1 := by
    unfold unseen
    rw [List.filter_filter]
    congr 1
    funext other
    simp only [List.mem_cons, not_or, ne_eq, Bool.decide_and]
  rw [narrower]
  refine List.length_filter_lt_length_iff_exists.mpr ⟨row, ?_, by simp⟩
  simpa [unseen, fresh] using mem

/-- The walk: take a node off the stack and push what its edges lead to. -/
def walk (rows : List (α × List α)) : List α → List α → List α
  | [], reached => reached
  | dep :: stack, reached =>
    if dep ∈ reached then walk rows stack reached
    else walk rows ((next rows dep).filter (· ∉ dep :: reached) ++ stack) (dep :: reached)
termination_by stack reached => ((unseen rows reached).length, stack.length)
decreasing_by
  · exact .right _ (Nat.lt_succ_self _)
  next fresh =>
    by_cases key : dep ∈ rows.map (·.1)
    · exact .left _ _ (unseen_cons_lt key fresh)
    · rw [next_of_not_key key, List.filter_nil, List.nil_append]
      obtain less | same := (unseen_cons_le rows dep reached).lt_or_eq
      · exact .left _ _ less
      · rw [same]
        exact .right _ (Nat.lt_succ_self _)

section

variable {rows : List (α × List α)} {stack reached : List α}

/-- Nothing is collected that no edges lead to. -/
theorem walk_sound {x : α} (h : x ∈ walk rows stack reached) :
    x ∈ reached ∨ ∃ s ∈ stack, ReflTransGen (Edge rows) s x := by
  fun_induction walk rows stack reached with
  | case1 reached => exact .inl h
  | case2 dep stack reached seen ih =>
    obtain own | ⟨s, mem, path⟩ := ih h
    · exact .inl own
    · exact .inr ⟨s, List.mem_cons_of_mem _ mem, path⟩
  | case3 dep stack reached fresh ih =>
    obtain own | ⟨s, mem, path⟩ := ih h
    · obtain rfl | own := List.mem_cons.mp own
      · exact .inr ⟨x, List.mem_cons_self .., .refl⟩
      · exact .inl own
    · obtain mem | mem := List.mem_append.mp mem
      · exact .inr ⟨dep, List.mem_cons_self .., .head (List.mem_filter.mp mem).1 path⟩
      · exact .inr ⟨s, List.mem_cons_of_mem _ mem, path⟩

theorem walk_complete
    (closed : ∀ r ∈ reached, ∀ n, Edge rows r n → n ∈ reached ∨ n ∈ stack) :
    (∀ x, x ∈ reached ∨ x ∈ stack → x ∈ walk rows stack reached) ∧
      ∀ r ∈ walk rows stack reached, ∀ n, Edge rows r n → n ∈ walk rows stack reached := by
  fun_induction walk rows stack reached with
  | case1 reached =>
    refine ⟨fun x mem => ?_, fun r hr n edge => ?_⟩
    · obtain mem | mem := mem
      · exact mem
      · cases mem
    · obtain mem | mem := closed r hr n edge
      · exact mem
      · cases mem
  | case2 dep stack reached seen ih =>
    obtain ⟨kept, steps⟩ := ih fun r hr n edge => by
      obtain mem | mem := closed r hr n edge
      · exact .inl mem
      · obtain rfl | mem := List.mem_cons.mp mem
        · exact .inl seen
        · exact .inr mem
    refine ⟨fun x mem => kept x ?_, steps⟩
    obtain mem | mem := mem
    · exact .inl mem
    · obtain rfl | mem := List.mem_cons.mp mem
      · exact .inl seen
      · exact .inr mem
  | case3 dep stack reached fresh ih =>
    obtain ⟨kept, steps⟩ := ih fun r hr n edge => by
      by_cases own : n ∈ dep :: reached
      · exact .inl own
      · refine .inr (List.mem_append.mpr ?_)
        obtain rfl | hr := List.mem_cons.mp hr
        · exact .inl (List.mem_filter.mpr ⟨edge, by simpa using own⟩)
        · obtain mem | mem := closed r hr n edge
          · exact absurd (List.mem_cons_of_mem _ mem) own
          · obtain rfl | mem := List.mem_cons.mp mem
            · exact absurd (List.mem_cons_self ..) own
            · exact .inr mem
    refine ⟨fun x mem => kept x ?_, steps⟩
    obtain mem | mem := mem
    · exact .inl (List.mem_cons_of_mem _ mem)
    · obtain rfl | mem := List.mem_cons.mp mem
      · exact .inl (List.mem_cons_self ..)
      · exact .inr (List.mem_append_right _ mem)

end

theorem mem_walk_next {rows : List (α × List α)} {a x : α} :
    x ∈ walk rows (next rows a) [] ↔ TransGen (Edge rows) a x := by
  constructor
  · intro h
    obtain none | ⟨s, edge, path⟩ := walk_sound h
    · cases none
    · exact .head' edge path
  · intro path
    obtain ⟨kept, steps⟩ := @walk_complete α _ rows (next rows a) [] fun r hr => absurd hr List.not_mem_nil
    induction path with
    | single edge => exact kept _ (.inr edge)
    | tail _ edge ih => exact steps _ ih _ edge

def IsRoot (rows : List (α × List α)) (a : α) : Prop := ∀ b, ¬ Edge rows b a

/-- A node above which no cycle is has a root above it. -/
theorem exists_root {rows : List (α × List α)} {a : α}
    (acyclic : ∀ b, ReflTransGen (Edge rows) b a → ¬ TransGen (Edge rows) b b) :
    ∃ root, IsRoot rows root ∧ ReflTransGen (Edge rows) root a := by
  classical
  let above (a : α) : Finset α :=
    (rows.map (·.1)).toFinset.filter fun b => TransGen (Edge rows) b a
  obtain ⟨n, size⟩ : ∃ n, (above a).card = n := ⟨_, rfl⟩
  induction n using Nat.strong_induction_on generalizing a with
  | _ n ih =>
  by_cases root : IsRoot rows a
  · exact ⟨a, root, .refl⟩
  · simp only [IsRoot, not_forall, not_not] at root
    obtain ⟨b, edge⟩ := root
    have fewer : (above b).card < n := by
      rw [← size]
      refine Finset.card_lt_card ⟨fun c hc => ?_, fun all => ?_⟩
      · obtain ⟨key, path⟩ := Finset.mem_filter.mp hc
        exact Finset.mem_filter.mpr ⟨key, path.tail edge⟩
      · have own : b ∈ above a := Finset.mem_filter.mpr
          ⟨List.mem_toFinset.mpr (key_of_edge edge), .single edge⟩
        exact acyclic b (.single edge) (Finset.mem_filter.mp (all own)).2
    obtain ⟨root, is_root, path⟩ := ih _ fewer (fun c hc => acyclic c (hc.tail edge)) rfl
    exact ⟨root, is_root, path.tail edge⟩

theorem acyclic_above_root {rows : List (α × List α)} {root : α} (h : IsRoot rows root) :
    ∀ b, ReflTransGen (Edge rows) b root → ¬ TransGen (Edge rows) b b := by
  intro b path cycle
  obtain rfl | ⟨c, -, edge⟩ := ReflTransGen.cases_tail path
  · obtain ⟨c, -, edge⟩ := TransGen.tail'_iff.mp cycle
    exact h c edge
  · exact h c edge

end Reachable
