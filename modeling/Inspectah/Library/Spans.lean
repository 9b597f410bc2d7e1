import Mathlib.Data.List.TakeDrop
import Mathlib.Data.List.Basic

/-!
Spans of a text. Of spans that overlap one another the longest leads, and the leaders are
disjoint. Disjoint spans replaced from the last to the first leave the text between them
as it was.
-/
namespace Spans

variable {α β : Type}

structure Extent (β : Type) where
  start : β → Nat
  stop : β → Nat
  size : β → Nat

section Leaders

variable (e : Extent β)

/-- The longest of each run; a run goes on while the next span starts before its longest one
    ends. -/
def Extent.leadersFrom (lead : β) : List β → List β
  | [] => [lead]
  | b :: rest =>
    if e.start b < e.stop lead then
      Extent.leadersFrom (if e.size lead < e.size b then b else lead) rest
    else lead :: Extent.leadersFrom b rest

def Extent.leaders : List β → List β
  | [] => []
  | a :: rest => e.leadersFrom a rest

variable {e}

theorem leadersFrom_subset {lead a : β} {rest : List β} (mem : a ∈ e.leadersFrom lead rest) :
    a ∈ lead :: rest := by
  induction rest generalizing lead with
  | nil => exact mem
  | cons b rest ih =>
    rw [Extent.leadersFrom] at mem
    split at mem
    · have later := ih mem
      split at later
      · exact List.mem_cons_of_mem _ later
      · rw [List.mem_cons] at later ⊢
        exact later.imp_right (List.mem_cons_of_mem _)
    · obtain rfl | mem := List.mem_cons.mp mem
      · exact List.mem_cons_self
      · exact List.mem_cons_of_mem _ (ih mem)

theorem leaders_subset {a : β} {spans : List β} (mem : a ∈ e.leaders spans) : a ∈ spans := by
  cases spans with
  | nil => exact mem
  | cons b rest => exact leadersFrom_subset mem

theorem leadersFrom_disjoint {lead : β} {rest : List β}
    (sorted : (lead :: rest).Pairwise fun a b => e.start a ≤ e.start b) :
    (e.leadersFrom lead rest).Pairwise fun a b => e.stop a ≤ e.start b := by
  induction rest generalizing lead with
  | nil => exact List.pairwise_singleton ..
  | cons b rest ih =>
    obtain ⟨first, later⟩ := List.pairwise_cons.mp sorted
    rw [Extent.leadersFrom]
    split
    · apply ih
      split
      · exact later
      · exact List.pairwise_cons.mpr ⟨fun a mem => first a (List.mem_cons_of_mem _ mem),
          (List.pairwise_cons.mp later).2⟩
    next apart =>
      refine List.pairwise_cons.mpr ⟨fun a mem => ?_, ih later⟩
      have after : e.start b ≤ e.start a := by
        obtain rfl | mem := List.mem_cons.mp (leadersFrom_subset mem)
        · exact Nat.le_refl _
        · exact (List.pairwise_cons.mp later).1 a mem
      omega

theorem leaders_disjoint {spans : List β}
    (sorted : spans.Pairwise fun a b => e.start a ≤ e.start b) :
    (e.leaders spans).Pairwise fun a b => e.stop a ≤ e.start b := by
  cases spans with
  | nil => exact .nil
  | cons a rest => exact leadersFrom_disjoint sorted

theorem leadersFrom_run {lead : β} {run : List β}
    (under : ∀ b ∈ run, e.start b < e.stop lead ∧ e.size b ≤ e.size lead) (rest : List β) :
    e.leadersFrom lead (run ++ rest) = e.leadersFrom lead rest := by
  induction run with
  | nil => rfl
  | cons b run ih =>
    obtain ⟨inside, shorter⟩ := under b List.mem_cons_self
    rw [List.cons_append, Extent.leadersFrom, if_pos inside, if_neg (Nat.not_lt.mpr shorter)]
    exact ih fun c mem => under c (List.mem_cons_of_mem _ mem)

theorem leadersFrom_apart {lead : β} {rest : List β}
    (apart : ∀ b ∈ rest.head?, e.stop lead ≤ e.start b) :
    e.leadersFrom lead rest = lead :: e.leaders rest := by
  cases rest with
  | nil => rfl
  | cons b rest =>
    rw [Extent.leadersFrom, if_neg (Nat.not_lt.mpr (apart b rfl))]
    rfl

theorem leaders_eq_nil {spans : List β} : e.leaders spans = [] ↔ spans = [] := by
  cases spans with
  | nil => exact Iff.rfl
  | cons a rest =>
    refine iff_of_false (fun none => ?_) (List.cons_ne_nil _ _)
    rw [Extent.leaders] at none
    induction rest generalizing a with
    | nil => cases none
    | cons b rest ih =>
      rw [Extent.leadersFrom] at none
      split at none
      · exact ih _ none
      · cases none

end Leaders

structure Patch (α : Type) where
  start : Nat
  stop : Nat
  text : List α
  deriving DecidableEq

def slice (text : List α) (start stop : Nat) : List α := (text.take stop).drop start

/-- `replace_range`. -/
def Patch.apply (p : Patch α) (text : List α) : List α :=
  text.take p.start ++ (p.text ++ text.drop p.stop)

def weave (text : List α) (place : Nat) : List (Patch α) → List α
  | [] => text.drop place
  | p :: patches => slice text place p.start ++ (p.text ++ weave text p.stop patches)

inductive InOrder (length : Nat) : Nat → List (Patch α) → Prop where
  | nil {place : Nat} : InOrder length place []
  | cons {place : Nat} {p : Patch α} {patches : List (Patch α)} (after : place ≤ p.start)
      (some_text : p.start ≤ p.stop) (inside : p.stop ≤ length)
      (rest : InOrder length p.stop patches) : InOrder length place (p :: patches)

theorem take_append_slice (text : List α) {start stop : Nat} (h : start ≤ stop) :
    text.take start ++ slice text start stop = text.take stop := by
  have front : (text.take stop).take start = text.take start := by
    rw [List.take_take, Nat.min_eq_left h]
  rw [slice, ← front, List.take_append_drop]

theorem slice_append (text : List α) {a b c : Nat} (first : a ≤ b) (second : b ≤ c) :
    slice text a b ++ slice text b c = slice text a c := by
  have front : (text.take c).take b = text.take b := by
    rw [List.take_take, Nat.min_eq_left second]
  have back : (text.take c).drop b = ((text.take c).drop a).drop (b - a) := by
    rw [List.drop_drop, Nat.add_sub_cancel' first]
  rw [slice, slice, slice, ← front, List.drop_take, back, List.take_append_drop]

theorem slice_append_drop (text : List α) {a b : Nat} (h : a ≤ b) :
    slice text a b ++ text.drop b = text.drop a := by
  have back : text.drop b = (text.drop a).drop (b - a) := by
    rw [List.drop_drop, Nat.add_sub_cancel' h]
  rw [slice, List.drop_take, back, List.take_append_drop]

theorem length_slice {text : List α} {start stop : Nat} (inside : stop ≤ text.length) :
    (slice text start stop).length = stop - start := by
  rw [slice, List.length_drop, List.length_take_of_le inside]

theorem apply_from_last {text : List α} {place : Nat} {patches : List (Patch α)}
    (order : InOrder text.length place patches) :
    patches.foldr Patch.apply text = text.take place ++ weave text place patches := by
  induction order with
  | nil => rw [weave, List.take_append_drop]; rfl
  | @cons place p patches after some_text inside _ ih =>
    have full : (text.take p.stop).length = p.stop := List.length_take_of_le inside
    have front : (text.take p.stop ++ weave text p.stop patches).take p.start =
        text.take p.start := by
      rw [List.take_append_of_le_length (by omega), List.take_take, Nat.min_eq_left some_text]
    have back : (text.take p.stop ++ weave text p.stop patches).drop p.stop =
        weave text p.stop patches := List.drop_left' full
    rw [List.foldr_cons, ih, Patch.apply, front, back, weave, ← take_append_slice text after,
      List.append_assoc]

theorem slice_split {text front back : List α} {start stop : Nat} (order : start ≤ stop)
    (inside : stop ≤ text.length) (whole : slice text start stop = front ++ back) :
    slice text start (start + front.length) = front ∧
      slice text (start + front.length) stop = back := by
  have length := congrArg List.length whole
  rw [length_slice inside, List.length_append] at length
  rw [← slice_append text (Nat.le_add_right start front.length) (by omega)] at whole
  refine List.append_inj whole ?_
  rw [length_slice (by omega)]
  omega

theorem weave_from {text : List α} {place later : Nat} {patches : List (Patch α)}
    (before : place ≤ later) (ahead : ∀ p ∈ patches.head?, later ≤ p.start) :
    weave text place patches = slice text place later ++ weave text later patches := by
  cases patches with
  | nil => exact (slice_append_drop text before).symm
  | cons p patches =>
    rw [weave, weave, ← slice_append text before (ahead p rfl), List.append_assoc]

structure Narrows (text : List α) (p q : Patch α) : Prop where
  start : p.start ≤ q.start
  some_text : q.start ≤ q.stop
  stop : q.stop ≤ p.stop
  text : p.text = slice text p.start q.start ++ (q.text ++ slice text q.stop p.stop)

theorem InOrder.head {length place : Nat} {patches : List (Patch α)}
    (order : InOrder length place patches) : ∀ p ∈ patches.head?, place ≤ p.start := by
  cases order with
  | nil => exact fun _ none => nomatch none
  | cons after _ _ _ =>
    rintro p same
    cases same
    exact after

theorem narrowed {text : List α} {place : Nat} {patches narrow : List (Patch α)}
    (order : InOrder text.length place patches)
    (same : List.Forall₂ (Narrows text) patches narrow) :
    InOrder text.length place narrow ∧ weave text place patches = weave text place narrow := by
  induction same generalizing place with
  | nil => exact ⟨.nil, rfl⟩
  | @cons p q patches narrow h _ ih =>
    cases order with
    | cons after _ inside rest =>
      obtain ⟨narrow_order, same⟩ := ih rest
      have first := narrow_order.head
      refine ⟨.cons (Nat.le_trans after h.start) h.some_text (Nat.le_trans h.stop inside) ?_, ?_⟩
      · cases narrow_order with
        | nil => exact .nil
        | cons later some_text inside rest =>
          exact .cons (Nat.le_trans h.stop later) some_text inside rest
      · rw [weave, weave, same, h.text, weave_from h.stop first, ← slice_append text after h.start]
        simp only [List.append_assoc]

end Spans
