import Mathlib.Data.List.Chain
import Mathlib.Data.List.TakeWhile

/-!
The columns of a row. A run of two or more separators ends a column; one separator alone
belongs to it. A column that fills its width is joined to the next.

The words of a text: what stands between its blanks. Joining the words again with one
space each gives the text back if and only if it was spaced that way.
-/
namespace Columns

variable {α : Type}

/-- No two separators side by side. -/
def IsTight (sep : α) (text : List α) : Prop := text.IsChain fun a b => ¬ (a = sep ∧ b = sep)

variable {sep : α}

theorem isTight_plain {text : List α} (plain : sep ∉ text) : IsTight sep text := by
  refine List.Pairwise.isChain (List.pairwise_of_forall_mem_list fun a ha b _ both => ?_)
  exact plain (both.1 ▸ ha)

/-- A lone separator between two texts. -/
theorem isTight_joined {before after : List α} (first : IsTight sep before)
    (second : IsTight sep after) (ends : before.getLast? ≠ some sep)
    (starts : after.head? ≠ some sep) : IsTight sep (before ++ sep :: after) := by
  refine List.isChain_append.mpr ⟨first, second.cons fun b hb both => ?_, fun a ha b hb both => ?_⟩
  · exact starts (both.2 ▸ hb)
  · exact ends (both.1 ▸ ha)

theorem rightpad_append (width : Nat) (text rest : List α) :
    text.rightpad width sep ++ sep :: rest =
      text ++ (List.replicate (width - text.length + 1) sep ++ rest) := by
  rw [List.rightpad, List.append_assoc, List.replicate_succ', List.append_assoc]
  rfl

variable [DecidableEq α]

/-- The columns of what is left of a row, which may begin in the middle of a run. -/
def columnsFrom (sep : α) : Bool → List α → List (List α)
  | _, [] => [[]]
  | true, c :: rest =>
    if c = sep then columnsFrom sep true rest
    else (columnsFrom sep false rest).modifyHead (c :: ·)
  | false, c :: rest =>
    if c = sep ∧ rest.head? = some sep then [] :: columnsFrom sep true rest
    else (columnsFrom sep false rest).modifyHead (c :: ·)

def columns (sep : α) (row : List α) : List (List α) := columnsFrom sep false row

theorem columns_tight {text : List α} (tight : IsTight sep text) : columns sep text = [text] := by
  induction text with
  | nil => rfl
  | cons c rest ih =>
    have uncut : ¬ (c = sep ∧ rest.head? = some sep) := by
      rintro ⟨here, next⟩
      cases rest with
      | nil => cases next
      | cons d more =>
        exact tight.rel ⟨here, Option.some.inj next⟩
    unfold columns at ih ⊢
    rw [columnsFrom, if_neg uncut, ih tight.tail]
    rfl

theorem columnsFrom_replicate (n : Nat) {rest : List α} (starts : rest.head? ≠ some sep) :
    columnsFrom sep true (List.replicate n sep ++ rest) = columns sep rest := by
  induction n with
  | zero =>
    cases rest with
    | nil => rfl
    | cons c more =>
      have other : c ≠ sep := fun same => starts (congrArg some same)
      simp [columns, columnsFrom, other]
  | succ n ih => rw [List.replicate_succ, List.cons_append, columnsFrom, if_pos rfl, ih]

theorem columns_append {text : List α} (tight : IsTight sep text) (ends : text.getLast? ≠ some sep)
    (n : Nat) {rest : List α} (starts : rest.head? ≠ some sep) :
    columns sep (text ++ (List.replicate (n + 2) sep ++ rest)) = text :: columns sep rest := by
  induction text with
  | nil =>
    rw [List.nil_append, List.replicate_succ, List.replicate_succ, columns, List.cons_append,
      List.cons_append, columnsFrom, if_pos ⟨rfl, rfl⟩, ← List.cons_append, ← List.replicate_succ,
      columnsFrom_replicate _ starts]
  | cons c more ih =>
    have uncut : ¬ (c = sep ∧ (more ++ (List.replicate (n + 2) sep ++ rest)).head? = some sep) := by
      rintro ⟨here, next⟩
      cases more with
      | nil => exact ends (congrArg some here)
      | cons d others => exact tight.rel ⟨here, Option.some.inj next⟩
    have last : more.getLast? ≠ some sep := by
      cases more with
      | nil => exact fun none => nomatch none
      | cons d others => rwa [List.getLast?_cons_cons] at ends
    unfold columns at ih ⊢
    rw [List.cons_append, columnsFrom, if_neg uncut, ih tight.tail last]
    rfl

end Columns

namespace Words

variable {α : Type}

theorem takeWhile_run {p : α → Bool} {xs rest : List α} (all : ∀ c ∈ xs, p c = true)
    (ends : ∀ c ∈ rest.head?, p c = false) :
    (xs ++ rest).takeWhile p = xs ∧ (xs ++ rest).dropWhile p = rest := by
  have stop : rest.takeWhile p = [] ∧ rest.dropWhile p = rest := by
    cases rest with
    | nil => exact ⟨rfl, rfl⟩
    | cons c more => simp [ends c rfl]
  rw [List.takeWhile_append_of_pos all, List.dropWhile_append_of_pos all, stop.1, stop.2]
  exact ⟨List.append_nil xs, rfl⟩

def words (blank : α → Bool) (text : List α) : List (List α) :=
  (text.splitOnP blank).filter fun w => !w.isEmpty

/-- The words with one space between each and the next. -/
def unwords (space : α) : List (List α) → List α
  | [] => []
  | [w] => w
  | w :: rest => w ++ space :: unwords space rest

/-- A word, or a stretch without one. -/
def IsPlain (blank : α → Bool) (w : List α) : Prop := ∀ c ∈ w, blank c = false

def IsGap (blank : α → Bool) (gap : List α) : Prop := ∀ c ∈ gap, blank c = true

structure SingleSpaced (blank : α → Bool) (space : α) (text : List α) : Prop where
  only : ∀ c ∈ text, blank c → c = space
  starts : ∀ c ∈ text.head?, blank c = false
  ends : ∀ c ∈ text.getLast?, blank c = false
  apart : text.IsChain fun a b => blank a = false ∨ blank b = false

section

variable {blank : α → Bool}

@[simp] theorem words_nil : words blank ([] : List α) = [] := by simp [words]

theorem words_append_cons {c : α} (cut : blank c = true) (before after : List α) :
    words blank (before ++ c :: after) = words blank before ++ words blank after := by
  rw [words, List.splitOnP_append_cons before after cut, List.filter_append]
  rfl

theorem words_cons {c : α} (cut : blank c = true) (after : List α) :
    words blank (c :: after) = words blank after := by
  simpa using words_append_cons cut [] after

theorem words_plain {w : List α} (plain : IsPlain blank w) (ne : w ≠ []) :
    words blank w = [w] := by
  rw [words, List.splitOnP_eq_singleton plain]
  simp [ne]

theorem isPlain_singleton {c : α} (plain : blank c = false) : IsPlain blank [c] :=
  fun _ mem => List.mem_singleton.mp mem ▸ plain

theorem words_gap_append {gap : List α} (all : IsGap blank gap) (text : List α) :
    words blank (gap ++ text) = words blank text := by
  induction gap with
  | nil => rfl
  | cons c rest ih =>
    rw [List.cons_append, words_cons (all c (List.mem_cons_self ..)),
      ih fun x hx => all x (List.mem_cons_of_mem _ hx)]

theorem words_append_gap {gap : List α} (all : IsGap blank gap) (text : List α) :
    words blank (text ++ gap) = words blank text := by
  cases gap with
  | nil => rw [List.append_nil]
  | cons c rest =>
    have tail : words blank rest = [] := by
      simpa using words_gap_append (fun x hx => all x (List.mem_cons_of_mem _ hx)) []
    rw [words_append_cons (all c (List.mem_cons_self ..)), tail, List.append_nil]

theorem words_word_gap {w gap : List α} (plain : IsPlain blank w) (ne : w ≠ [])
    (all : IsGap blank gap) (some_gap : gap ≠ []) (text : List α) :
    words blank (w ++ gap ++ text) = w :: words blank text := by
  cases gap with
  | nil => exact absurd rfl some_gap
  | cons c rest =>
    have cut := all c (List.mem_cons_self ..)
    have tail := words_gap_append (fun x hx => all x (List.mem_cons_of_mem _ hx)) text
    rw [List.append_assoc, List.cons_append, words_append_cons cut, words_plain plain ne, tail]
    rfl

theorem plain_of_mem_pieces {text piece : List α} (h : piece ∈ text.splitOnP blank) :
    IsPlain blank piece := by
  induction text generalizing piece with
  | nil =>
    simp only [List.splitOnP_nil, List.mem_singleton] at h
    subst h
    exact fun c hc => absurd hc List.not_mem_nil
  | cons c rest ih =>
    rw [List.splitOnP_cons_eq_if_modifyHead] at h
    split at h
    · obtain rfl | h := List.mem_cons.mp h
      · exact fun c hc => absurd hc List.not_mem_nil
      · exact ih h
    next plain =>
      cases pieces : rest.splitOnP blank with
      | nil => exact absurd pieces (List.splitOnP_ne_nil _ _)
      | cons first others =>
        rw [pieces, List.modifyHead_cons] at h
        obtain rfl | h := List.mem_cons.mp h
        · intro x hx
          obtain rfl | hx := List.mem_cons.mp hx
          · simpa using plain
          · exact ih (pieces ▸ List.mem_cons_self ..) x hx
        · exact ih (pieces ▸ List.mem_cons_of_mem _ h)

theorem plain_of_mem_words {text w : List α} (h : w ∈ words blank text) :
    IsPlain blank w ∧ w ≠ [] := by
  obtain ⟨piece, ne⟩ := List.mem_filter.mp h
  exact ⟨plain_of_mem_pieces piece, by simpa using ne⟩

theorem unwords_cons (space : α) (w : List α) {rest : List (List α)} (more : rest ≠ []) :
    unwords space (w :: rest) = w ++ space :: unwords space rest := by
  cases rest with
  | nil => exact absurd rfl more
  | cons _ _ => rfl

theorem unwords_ne_nil {space : α} {ws : List (List α)} (some_word : ws ≠ [])
    (plain : ∀ w ∈ ws, w ≠ []) : unwords space ws ≠ [] := by
  cases ws with
  | nil => exact absurd rfl some_word
  | cons w rest =>
    have ne := plain w (List.mem_cons_self ..)
    cases rest with
    | nil => exact ne
    | cons _ _ => simp [unwords]

variable {space : α}

theorem singleSpaced_plain {w : List α} (plain : IsPlain blank w) :
    SingleSpaced blank space w where
  only c hc cut := absurd cut (by simp [plain c hc])
  starts c hc := plain c (List.mem_of_mem_head? hc)
  ends c hc := plain c (List.mem_of_mem_getLast? hc)
  apart := by
    refine List.Pairwise.isChain ?_
    exact List.pairwise_of_forall_mem_list fun a ha _ _ => .inl (plain a ha)

theorem singleSpaced_cons {w text : List α} (cut : blank space = true) (plain : IsPlain blank w)
    (ne : w ≠ []) (h : SingleSpaced blank space text) (more : text ≠ []) :
    SingleSpaced blank space (w ++ space :: text) := by
  have own := @singleSpaced_plain α blank space w plain
  refine ⟨?_, ?_, ?_, ?_⟩
  · intro c hc blank_c
    obtain hc | hc := List.mem_append.mp hc
    · exact own.only c hc blank_c
    obtain rfl | hc := List.mem_cons.mp hc
    · rfl
    · exact h.only c hc blank_c
  · rw [List.head?_append_of_ne_nil _ ne]
    exact own.starts
  · rw [List.getLast?_append_of_ne_nil _ (List.cons_ne_nil _ _), List.getLast?_cons_of_ne_nil more]
    exact h.ends
  · rw [List.isChain_append]
    refine ⟨own.apart, ?_, ?_⟩
    · cases text with
      | nil => exact absurd rfl more
      | cons first rest => exact .cons_cons (.inr (h.starts first rfl)) h.apart
    · intro a ha _ _
      exact .inl (own.ends a ha)

theorem singleSpaced_unwords (cut : blank space = true) {ws : List (List α)}
    (plain : ∀ w ∈ ws, IsPlain blank w ∧ w ≠ []) : SingleSpaced blank space (unwords space ws) := by
  induction ws with
  | nil => exact singleSpaced_plain fun c hc => absurd hc List.not_mem_nil
  | cons w rest ih =>
    have first := plain w (List.mem_cons_self ..)
    have others := fun v hv => plain v (List.mem_cons_of_mem _ hv)
    cases rest with
    | nil => exact singleSpaced_plain first.1
    | cons v more =>
      refine singleSpaced_cons cut first.1 first.2 (ih others) ?_
      exact unwords_ne_nil (List.cons_ne_nil _ _) fun w hw => (others w hw).2

theorem unwords_words_of_singleSpaced (cut : blank space = true) {text : List α}
    (h : SingleSpaced blank space text) : unwords space (words blank text) = text := by
  obtain ⟨n, size⟩ : ∃ n, text.length = n := ⟨_, rfl⟩
  induction n using Nat.strong_induction_on generalizing text with
  | _ n ih =>
  have whole : text.takeWhile (fun c => !blank c) ++ text.dropWhile (fun c => !blank c) = text :=
    List.takeWhile_append_dropWhile
  have plain : IsPlain blank (text.takeWhile fun c => !blank c) := fun c hc => by
    simpa using List.mem_takeWhile_imp hc
  cases text with
  | nil => simp [unwords]
  | cons first others =>
  have ne : (first :: others).takeWhile (fun c => !blank c) ≠ [] := by
    simp [h.starts first rfl]
  generalize hw : (first :: others).takeWhile (fun c => !blank c) = w at *
  cases rest : (first :: others).dropWhile (fun c => !blank c) with
  | nil =>
    rw [rest, List.append_nil] at whole
    rw [← whole, words_plain plain ne]
    rfl
  | cons c more =>
    rw [rest] at whole
    have blank_c : blank c = true := by
      have head := List.head?_dropWhile_not (fun c => !blank c) (first :: others)
      rw [rest] at head
      simpa using head
    have is_space : c = space := h.only c (by rw [← whole]; simp) blank_c
    subst is_space
    have chain := whole ▸ h.apart
    rw [List.isChain_append] at chain
    have some_more : more ≠ [] := by
      rintro rfl
      have last := h.ends c (by rw [← whole]; simp)
      rw [blank_c] at last
      cases last
    have tail : SingleSpaced blank c more := by
      refine ⟨fun x hx => h.only x ?_, ?_, fun x hx => h.ends x ?_, ?_⟩
      · rw [← whole]
        simp [hx]
      · intro x hx
        cases more with
        | nil => cases hx
        | cons y ys =>
          obtain rfl : y = x := by simpa using hx
          have pair := (List.isChain_cons_cons.mp chain.2.1).1
          simpa [blank_c] using pair
      · rw [← whole, List.getLast?_append_of_ne_nil _ (List.cons_ne_nil _ _),
          List.getLast?_cons_of_ne_nil some_more]
        exact hx
      · exact chain.2.1.tail
    have shorter : more.length < n := by
      rw [← size, ← whole]
      simp
      omega
    have again := ih more.length shorter tail rfl
    have some_words : words blank more ≠ [] := by
      intro none
      rw [none] at again
      exact some_more again.symm
    rw [← whole, words_append_cons blank_c, words_plain plain ne, List.singleton_append,
      unwords_cons _ _ some_words, again]

theorem unwords_words_iff (cut : blank space = true) (text : List α) :
    unwords space (words blank text) = text ↔ SingleSpaced blank space text := by
  refine ⟨fun same => ?_, unwords_words_of_singleSpaced cut⟩
  rw [← same]
  exact singleSpaced_unwords cut fun w hw => plain_of_mem_words hw

end

end Words
