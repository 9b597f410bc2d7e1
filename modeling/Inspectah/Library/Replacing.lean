import Inspectah.Library.FirstKnown
import Inspectah.Library.Words
import Mathlib.Data.List.Basic
import Mathlib.Data.List.Infix

/-!
A text in which every hit of a pattern is replaced, from the left. Two such passes: a pattern
that does not reach over a cut, and the words behind a marked word; texts that differ in
secrets come out alike exactly when each line hides its own.
-/
namespace Replacing

open Words (takeWhile_run)

variable {α : Type}

/-- What is put for a hit at the beginning of a text, and the length of the hit. -/
abbrev Pattern (α : Type) := List α → Option (List α × Nat)

section

variable (hit : Pattern α)

/-- The text is read from behind the characters that are still part of a hit. -/
def replaceFrom : Nat → List α → List α
  | _, [] => []
  | 0, c :: rest =>
    match hit (c :: rest) with
    | some (put, n) => put ++ replaceFrom (n - 1) rest
    | none => c :: replaceFrom 0 rest
  | k + 1, _ :: rest => replaceFrom k rest

def replaceAll (text : List α) : List α := replaceFrom hit 0 text

variable {hit}

@[simp] theorem replaceAll_nil : replaceAll hit [] = [] := rfl

theorem replaceFrom_eq (k : Nat) (text : List α) :
    replaceFrom hit k text = replaceAll hit (text.drop k) := by
  induction text generalizing k with
  | nil => cases k <;> rfl
  | cons c rest ih =>
    cases k with
    | zero => rfl
    | succ k => exact ih k

theorem replaceAll_none {c : α} {rest : List α} (miss : hit (c :: rest) = none) :
    replaceAll hit (c :: rest) = c :: replaceAll hit rest := by
  rw [replaceAll, replaceFrom, miss]
  rfl

theorem replaceAll_some {c : α} {rest put : List α} {n : Nat}
    (found : hit (c :: rest) = some (put, n + 1)) :
    replaceAll hit (c :: rest) = put ++ replaceAll hit (rest.drop n) := by
  rw [replaceAll, replaceFrom, found, ← replaceFrom_eq]
  rfl

theorem replaceAll_append_miss {quiet : List α} {rest : List α}
    (miss : ∀ c after, c :: after <:+ quiet → hit (c :: after ++ rest) = none) :
    replaceAll hit (quiet ++ rest) = quiet ++ replaceAll hit rest := by
  induction quiet with
  | nil => rfl
  | cons c after ih =>
    have here : hit (c :: (after ++ rest)) = none := miss c after List.suffix_rfl
    rw [List.cons_append, replaceAll_none here,
      ih fun d more suffix => miss d more (suffix.trans (List.suffix_cons c after))]
    rfl

structure IsLocal (hit : Pattern α) (cut : α → Bool) : Prop where
  before : ∀ {u c v}, u ≠ [] → cut c = true → hit (u ++ c :: v) = hit u
  here : ∀ {c v}, cut c = true → hit (c :: v) = none
  length : ∀ {u put n}, hit u = some (put, n) → 0 < n ∧ n ≤ u.length

variable {cut : α → Bool}

theorem replaceAll_cut (within : IsLocal hit cut) {c : α} (h : cut c = true) (rest : List α) :
    replaceAll hit (c :: rest) = c :: replaceAll hit rest := replaceAll_none (within.here h)

theorem replaceAll_append_cons (within : IsLocal hit cut) {c : α} (h : cut c = true)
    (before rest : List α) :
    replaceAll hit (before ++ c :: rest) = replaceAll hit before ++ c :: replaceAll hit rest := by
  induction length : before.length using Nat.strongRecOn generalizing before with
  | ind n ih =>
    cases before with
    | nil => exact replaceAll_cut within h rest
    | cons d more =>
      have same : hit (d :: (more ++ c :: rest)) = hit (d :: more) :=
        within.before (List.cons_ne_nil d more) h
      cases found : hit (d :: more) with
      | none =>
        rw [List.cons_append, replaceAll_none (same.trans found), replaceAll_none found,
          ih more.length (by simp [← length]) more rfl]
        rfl
      | some result =>
        obtain ⟨put, k⟩ := result
        obtain ⟨positive, bound⟩ := within.length found
        obtain ⟨k, rfl⟩ : ∃ j, k = j + 1 := ⟨k - 1, by omega⟩
        have reach : k ≤ more.length := by simpa using bound
        rw [List.cons_append, replaceAll_some (same.trans found), replaceAll_some found,
          List.drop_append_of_le_length reach,
          ih (more.drop k).length (by rw [← length, List.length_drop, List.length_cons]; omega) _
            rfl, List.append_assoc]

def Opens (cut : α → Bool) (text : List α) : Prop := ∀ c ∈ text.head?, cut c = true

theorem Opens.append {a b : List α} (ha : Opens cut a) (hb : Opens cut b) : Opens cut (a ++ b) := by
  cases a with
  | nil => exact hb
  | cons c more => exact fun d first => ha d first

theorem replaceAll_append_opens (within : IsLocal hit cut) {rest : List α} (h : Opens cut rest)
    (before : List α) :
    replaceAll hit (before ++ rest) = replaceAll hit before ++ replaceAll hit rest := by
  cases rest with
  | nil => simp
  | cons c more => rw [replaceAll_append_cons within (h c rfl), replaceAll_cut within (h c rfl)]

theorem opens_replaceAll (within : IsLocal hit cut) {text : List α} (h : Opens cut text) :
    Opens cut (replaceAll hit text) := by
  cases text with
  | nil => exact h
  | cons c more =>
    rw [replaceAll_cut within (h c rfl)]
    exact fun d first => h d first

end

section

variable (blank : α → Bool) (marked : List α → Bool) (mask : List α)

inductive Reading (α : Type) where
  | word (read : List α)
  | waiting
  | skipping
  deriving DecidableEq

def Reading.next (c : α) : Reading α → Reading α
  | word read =>
    if blank c then (if marked read then waiting else word []) else word (read ++ [c])
  | waiting => if blank c then waiting else skipping
  | skipping => if blank c then word [] else skipping

/-- What stands in the output for the character read. -/
def Reading.shows (c : α) : Reading α → List α
  | word _ => [c]
  | waiting => if blank c then [c] else mask
  | skipping => if blank c then [c] else []

def after (state : Reading α) (text : List α) : Reading α :=
  text.foldl (fun state c => state.next blank marked c) state

def masked : Reading α → List α → List α
  | _, [] => []
  | state, c :: rest => state.shows blank mask c ++ masked (state.next blank marked c) rest

variable {blank marked mask}

theorem after_append (state : Reading α) (a b : List α) :
    after blank marked state (a ++ b) = after blank marked (after blank marked state a) b :=
  List.foldl_append

theorem masked_append (state : Reading α) (a b : List α) :
    masked blank marked mask state (a ++ b) =
      masked blank marked mask state a ++
        masked blank marked mask (after blank marked state a) b := by
  induction a generalizing state with
  | nil => rfl
  | cons c rest ih =>
    rw [List.cons_append, masked, masked, ih, List.append_assoc]
    rfl

theorem after_word {text : List α} (solid : ∀ c ∈ text, blank c = false) (read : List α) :
    after blank marked (.word read) text = .word (read ++ text) := by
  induction text generalizing read with
  | nil => simp [after]
  | cons c rest ih =>
    have step : (Reading.word read).next blank marked c = .word (read ++ [c]) := by
      rw [Reading.next, if_neg (by simp [solid c List.mem_cons_self])]
    rw [after, List.foldl_cons, step]
    refine (ih (fun d mem => solid d (List.mem_cons_of_mem c mem)) _).trans ?_
    rw [List.append_assoc]
    rfl

theorem masked_word {text : List α} (solid : ∀ c ∈ text, blank c = false) (read : List α) :
    masked blank marked mask (.word read) text = text := by
  induction text generalizing read with
  | nil => rfl
  | cons c rest ih =>
    have step : (Reading.word read).next blank marked c = .word (read ++ [c]) := by
      rw [Reading.next, if_neg (by simp [solid c List.mem_cons_self])]
    rw [masked, step, ih fun d mem => solid d (List.mem_cons_of_mem c mem)]
    rfl

theorem skip_word {text : List α} (solid : ∀ c ∈ text, blank c = false) :
    masked blank marked mask .skipping text = [] ∧
      after blank marked .skipping text = .skipping := by
  induction text with
  | nil => exact ⟨rfl, rfl⟩
  | cons c rest ih =>
    have here := solid c List.mem_cons_self
    have step : (Reading.skipping : Reading α).next blank marked c = .skipping := by
      rw [Reading.next, if_neg (by simp [here])]
    obtain ⟨shown, state⟩ := ih fun d mem => solid d (List.mem_cons_of_mem c mem)
    rw [masked, step, shown, after, List.foldl_cons, step, Reading.shows, if_neg (by simp [here])]
    exact ⟨rfl, state⟩

theorem wait_word {text : List α} (solid : ∀ c ∈ text, blank c = false) (ne : text ≠ []) :
    masked blank marked mask .waiting text = mask ∧
      after blank marked .waiting text = .skipping := by
  cases text with
  | nil => exact absurd rfl ne
  | cons c rest =>
    have here := solid c List.mem_cons_self
    have step : (Reading.waiting : Reading α).next blank marked c = .skipping := by
      rw [Reading.next, if_neg (by simp [here])]
    have below : masked blank marked mask .skipping rest = [] ∧
        after blank marked .skipping rest = .skipping :=
      skip_word fun d mem => solid d (List.mem_cons_of_mem c mem)
    obtain ⟨shown, state⟩ := below
    rw [masked, step, shown, after, List.foldl_cons, step, Reading.shows, if_neg (by simp [here]),
      List.append_nil]
    exact ⟨rfl, state⟩

theorem masked_blank {c : α} (h : blank c = true) (state : Reading α) (rest : List α) :
    masked blank marked mask state (c :: rest) =
      c :: masked blank marked mask (state.next blank marked c) rest := by
  cases state <;> simp [masked, Reading.shows, h]

theorem masked_gap {gap : List α} (all : ∀ c ∈ gap, blank c = true) (state : Reading α) :
    masked blank marked mask state gap = gap := by
  induction gap generalizing state with
  | nil => rfl
  | cons c rest ih =>
    rw [masked_blank (all c List.mem_cons_self), ih fun d mem => all d (List.mem_cons_of_mem c mem)]

theorem after_waiting_gap {gap : List α} (all : ∀ c ∈ gap, blank c = true) :
    after blank marked .waiting gap = .waiting := by
  induction gap with
  | nil => rfl
  | cons c rest ih =>
    have step : (Reading.waiting : Reading α).next blank marked c = .waiting := by
      rw [Reading.next, if_pos (all c List.mem_cons_self)]
    rw [after, List.foldl_cons, step]
    exact ih fun d mem => all d (List.mem_cons_of_mem c mem)

/-- The beginning of a text, or behind a blank. -/
def Reading.IsFresh (state : Reading α) : Prop := state = word [] ∨ state = waiting

theorem isFresh_next {c : α} (h : blank c = true) (state : Reading α) :
    (state.next blank marked c).IsFresh := by
  cases state with
  | word read =>
    rw [Reading.next, if_pos h]
    split
    · exact .inr rfl
    · exact .inl rfl
  | waiting =>
    rw [Reading.next, if_pos h]
    exact .inr rfl
  | skipping =>
    rw [Reading.next, if_pos h]
    exact .inl rfl

end

section

variable [DecidableEq α] (words : List (List α)) (blank : α → Bool) (mask : List α)

def nextWord (rest : List α) : List α := (rest.dropWhile blank).takeWhile fun c => !blank c

/-- A word of the list, blanks, and the next word: of these the next word is replaced. -/
def behind : Pattern α := fun text =>
  words.findSome? fun w =>
    if w.isPrefixOf text then
      let rest := text.drop w.length
      let gap := rest.takeWhile blank
      let next := nextWord blank rest
      if gap.isEmpty || next.isEmpty then none
      else some (w ++ gap ++ mask, w.length + gap.length + next.length)
    else none

def endsIn (text : List α) : Bool := words.any fun w => w.isSuffixOf text

def AreWords : Prop := ∀ w ∈ words, w ≠ [] ∧ ∀ c ∈ w, blank c = false

variable {words blank mask}

omit [DecidableEq α] in
theorem fits_here {w text rest : List α} (solid : ∀ c ∈ w, blank c = false)
    (word : ∀ c ∈ text, blank c = false) (opens : Opens blank rest) :
    w <+: text ++ rest ∧ ((text ++ rest).drop w.length).takeWhile blank ≠ [] ↔
      w = text ∧ rest.takeWhile blank ≠ [] := by
  constructor
  · rintro ⟨fits, gap⟩
    rcases Nat.le_total w.length text.length with short | long
    · have own := List.prefix_append text rest
      obtain ⟨more, rfl⟩ := List.prefix_of_prefix_length_le fits own short
      rw [List.append_assoc, List.drop_left] at gap
      cases more with
      | nil => exact ⟨(List.append_nil w).symm, gap⟩
      | cons c after =>
        have letter := word c (List.mem_append_right w List.mem_cons_self)
        rw [List.cons_append, List.takeWhile_cons_of_neg (by simp [letter])] at gap
        exact absurd rfl gap
    · have own := List.prefix_append text rest
      obtain ⟨more, rfl⟩ := List.prefix_of_prefix_length_le own fits long
      cases more with
      | nil =>
        rw [List.append_nil, List.drop_left] at gap
        exact ⟨List.append_nil text, gap⟩
      | cons c after =>
        have further := (List.prefix_append_right_inj text).mp fits
        obtain ⟨tail, rfl⟩ := further
        have blanked := opens c rfl
        rw [solid c (List.mem_append_right text List.mem_cons_self)] at blanked
        cases blanked
  · rintro ⟨rfl, gap⟩
    rw [List.drop_left]
    exact ⟨List.prefix_append w rest, gap⟩

theorem findSome_self {β : Type} {text : List α} {p : Prop} [Decidable p] {b : β} :
    words.findSome? (fun w => if w = text ∧ p then some b else none) =
      if text ∈ words ∧ p then some b else none := by
  induction words with
  | nil => simp
  | cons w rest ih =>
    rw [List.findSome?_cons, ih]
    by_cases here : w = text
    · by_cases holds : p <;> simp [here, holds]
    · simp [here, Ne.symm here]

theorem behind_word (areWords : AreWords words blank) {text rest : List α}
    (word : ∀ c ∈ text, blank c = false) (opens : Opens blank rest) :
    behind words blank mask (text ++ rest) =
      if text ∈ words ∧ nextWord blank rest ≠ [] then
        some (text ++ rest.takeWhile blank ++ mask,
          text.length + (rest.takeWhile blank).length + (nextWord blank rest).length)
      else none := by
  have gap : nextWord blank rest ≠ [] → rest.takeWhile blank ≠ [] := by
    intro next
    cases rest with
    | nil => exact absurd rfl next
    | cons c after =>
      rw [List.takeWhile_cons_of_pos (opens c rfl)]
      exact List.cons_ne_nil _ _
  rw [← findSome_self, behind]
  refine FirstKnown.findSome_congr fun w mem => ?_
  have here := fits_here (areWords w mem).2 word opens
  by_cases fits : w = text ∧ nextWord blank rest ≠ []
  · obtain ⟨rfl, next⟩ := fits
    have starts : w.isPrefixOf (w ++ rest) = true :=
      List.isPrefixOf_iff_prefix.mpr (List.prefix_append w rest)
    have taken : w = w ∧ nextWord blank rest ≠ [] := ⟨rfl, next⟩
    rw [if_pos starts, if_pos taken, List.drop_left]
    refine if_neg ?_
    simp [gap next, next]
  · rw [if_neg fits]
    split
    next starts =>
      refine if_pos ?_
      by_contra open_next
      simp only [Bool.or_eq_true, List.isEmpty_iff, not_or] at open_next
      obtain ⟨rfl, -⟩ := here.mp ⟨List.isPrefixOf_iff_prefix.mp starts, open_next.1⟩
      rw [List.drop_left] at open_next
      exact fits ⟨rfl, open_next.2⟩
    · rfl

theorem endsIn_cons {c : α} {text : List α} :
    endsIn words (c :: text) = true ↔ c :: text ∈ words ∨ endsIn words text = true := by
  simp only [endsIn, List.any_eq_true, List.isSuffixOf_iff_suffix, List.suffix_cons_iff]
  constructor
  · rintro ⟨w, mem, rfl | suffix⟩
    · exact .inl mem
    · exact .inr ⟨w, mem, suffix⟩
  · rintro (mem | ⟨w, mem, suffix⟩)
    · exact ⟨_, mem, .inl rfl⟩
    · exact ⟨w, mem, .inr suffix⟩

theorem endsIn_nil (areWords : AreWords words blank) : endsIn words [] = false := by
  refine Bool.eq_false_iff.mpr fun ends => ?_
  obtain ⟨w, mem, suffix⟩ := List.any_eq_true.mp ends
  exact (areWords w mem).1 (List.suffix_nil.mp (List.isSuffixOf_iff_suffix.mp suffix))

theorem replaceAll_word (areWords : AreWords words blank) {text rest : List α}
    (word : ∀ c ∈ text, blank c = false) (opens : Opens blank rest) :
    replaceAll (behind words blank mask) (text ++ rest) =
      if endsIn words text = true ∧ nextWord blank rest ≠ [] then
        text ++ rest.takeWhile blank ++ mask ++ replaceAll (behind words blank mask)
          ((rest.dropWhile blank).dropWhile fun c => !blank c)
      else text ++ replaceAll (behind words blank mask) rest := by
  induction text with
  | nil => simp [endsIn_nil areWords]
  | cons c after ih =>
    have below := ih fun d mem => word d (List.mem_cons_of_mem c mem)
    have hits : behind words blank mask (c :: (after ++ rest)) = _ :=
      behind_word areWords word opens
    by_cases here : c :: after ∈ words ∧ nextWord blank rest ≠ []
    · have whole : after ++ rest = after ++ rest.takeWhile blank ++ nextWord blank rest ++
          (rest.dropWhile blank).dropWhile fun c => !blank c := by
        rw [List.append_assoc, nextWord, List.takeWhile_append_dropWhile, List.append_assoc,
          List.takeWhile_append_dropWhile]
      have count : (c :: after).length + (rest.takeWhile blank).length +
          (nextWord blank rest).length =
          (after ++ rest.takeWhile blank ++ nextWord blank rest).length + 1 := by
        simp only [List.length_cons, List.length_append]
        omega
      rw [if_pos here, count] at hits
      rw [if_pos ⟨endsIn_cons.mpr (.inl here.1), here.2⟩, List.cons_append, replaceAll_some hits,
        whole, List.drop_left]
    · rw [if_neg here] at hits
      rw [List.cons_append, replaceAll_none hits, below]
      by_cases later : endsIn words after = true ∧ nextWord blank rest ≠ []
      · rw [if_pos later, if_pos ⟨endsIn_cons.mpr (.inr later.1), later.2⟩]
        simp
      · rw [if_neg later, if_neg]
        · rfl
        · rintro ⟨ends, next⟩
          rcases endsIn_cons.mp ends with mem | tail
          · exact here ⟨mem, next⟩
          · exact later ⟨tail, next⟩

omit [DecidableEq α] in
theorem opens_dropWhile (p : α → Bool) (text : List α) :
    Opens (fun c => !p c) (text.dropWhile p) := by
  intro c first
  have stop := List.head?_dropWhile_not p text
  rw [Option.mem_def.mp first] at stop
  simpa using stop

omit [DecidableEq α] in
theorem all_blank {rest : List α} (none : nextWord blank rest = []) :
    ∀ c ∈ rest, blank c = true := by
  cases stop : rest.dropWhile blank with
  | nil => exact List.dropWhile_eq_nil_iff.mp stop
  | cons c after =>
    have letter : (!blank c) = true := opens_dropWhile blank rest c (by rw [stop]; rfl)
    rw [nextWord, stop, List.takeWhile_cons, if_pos letter] at none
    cases none

omit [DecidableEq α] in
theorem masked_fresh {marked : List α → Bool} (empty : marked [] = false) {state : Reading α}
    (settled : ∀ c, blank c = true → state.next blank marked c = .word [])
    {rest : List α} (opens : Opens blank rest) :
    masked blank marked mask state rest = masked blank marked mask (.word []) rest := by
  cases rest with
  | nil => rfl
  | cons c after =>
    have here := opens c rfl
    have start : (Reading.word []).next blank marked c = .word [] := by
      rw [Reading.next, if_pos here, if_neg (by simp [empty])]
    rw [masked_blank here, masked_blank here, settled c here, start]

theorem replaceAll_behind (areWords : AreWords words blank) (text : List α) :
    replaceAll (behind words blank mask) text =
      masked blank (endsIn words) mask (.word []) text := by
  induction length : text.length using Nat.strongRecOn generalizing text with
  | ind n ih =>
    have empty := endsIn_nil areWords
    have word : ∀ c ∈ text.takeWhile (fun c => !blank c), blank c = false := fun c mem => by
      simpa using List.mem_takeWhile_imp mem
    have opens : Opens blank (text.dropWhile fun c => !blank c) := by
      simpa using opens_dropWhile (fun c => !blank c) text
    have whole : text.takeWhile (fun c => !blank c) ++ text.dropWhile (fun c => !blank c) = text :=
      List.takeWhile_append_dropWhile
    revert word opens whole
    generalize text.takeWhile (fun c => !blank c) = w
    generalize text.dropWhile (fun c => !blank c) = rest
    rintro word opens rfl
    have shown : masked blank (endsIn words) mask (.word []) (w ++ rest) =
        w ++ masked blank (endsIn words) mask (.word w) rest := by
      rw [masked_append, masked_word word, after_word word, List.nil_append]
    rw [replaceAll_word areWords word opens, shown]
    by_cases hit : endsIn words w = true ∧ nextWord blank rest ≠ []
    · obtain ⟨ends, next⟩ := hit
      have gap : ∀ c ∈ rest.takeWhile blank, blank c = true := fun c mem =>
        List.mem_takeWhile_imp mem
      have letters : ∀ c ∈ nextWord blank rest, blank c = false := fun c mem => by
        simpa using List.mem_takeWhile_imp mem
      have behind_next : Opens blank ((rest.dropWhile blank).dropWhile fun c => !blank c) := by
        simpa using opens_dropWhile (fun c => !blank c) (rest.dropWhile blank)
      have parts : rest.takeWhile blank ++ (nextWord blank rest ++
          (rest.dropWhile blank).dropWhile fun c => !blank c) = rest := by
        rw [nextWord, List.takeWhile_append_dropWhile, List.takeWhile_append_dropWhile]
      rw [if_pos ⟨ends, next⟩]
      revert gap letters behind_next parts next
      generalize nextWord blank rest = more
      generalize (rest.dropWhile blank).dropWhile (fun c => !blank c) = others
      generalize rest.takeWhile blank = between
      rintro next gap letters behind_next rfl
      have waits : after blank (endsIn words) (.word w) between = .waiting := by
        cases between with
        | nil =>
          obtain ⟨c, tail, rfl⟩ := List.exists_cons_of_ne_nil next
          have letter := letters c List.mem_cons_self
          rw [opens c rfl] at letter
          cases letter
        | cons c tail =>
          have step : (Reading.word w).next blank (endsIn words) c = .waiting := by
            rw [Reading.next, if_pos (gap c List.mem_cons_self), if_pos ends]
          rw [after, List.foldl_cons, step]
          exact after_waiting_gap fun d mem => gap d (List.mem_cons_of_mem c mem)
      have covers : masked blank (endsIn words) mask .waiting more = mask ∧
          after blank (endsIn words) .waiting more = .skipping := wait_word letters next
      obtain ⟨covered, skips⟩ := covers
      rw [masked_append, masked_gap gap, waits, masked_append, covered, skips,
        masked_fresh empty (fun c here => by rw [Reading.next, if_pos here]) behind_next,
        ih others.length (by
          have positive := List.length_pos_iff.mpr next
          simp only [← length, List.length_append]
          omega) others rfl]
      simp only [List.append_assoc]
    · rw [if_neg hit]
      congr 1
      cases rest with
      | nil => rfl
      | cons c tail =>
        have here := opens c rfl
        have miss : behind words blank mask (c :: tail) = none := by
          have nothing : behind words blank mask ([] ++ c :: tail) = _ :=
            behind_word areWords (List.forall_mem_nil _) opens
          rwa [if_neg fun mem => (areWords [] mem.1).1 rfl] at nothing
        rw [replaceAll_none miss, masked_blank here,
          ih tail.length (by
            simp only [← length, List.length_append, List.length_cons]
            omega) tail rfl]
        congr 1
        by_cases ends : endsIn words w = true
        · have blanks := all_blank (by simpa [ends] using hit)
          have later : ∀ d ∈ tail, blank d = true := fun d mem =>
            blanks d (List.mem_cons_of_mem c mem)
          rw [masked_gap later, masked_gap later]
        · rw [Reading.next, if_pos here, if_neg ends]

end

structure SecretLine (α : Type) where
  before : List α
  left : List α
  right : List α
  behind : List α

def SecretLine.leftText (line : SecretLine α) : List α :=
  line.before ++ (line.left ++ line.behind)

def SecretLine.rightText (line : SecretLine α) : List α :=
  line.before ++ (line.right ++ line.behind)

section

variable (hit : Pattern α) (cut blank : α → Bool) (marked : List α → Bool) (mask : List α)

/-- Both passes. -/
def maskText (text : List α) : List α := masked blank marked mask (.word []) (replaceAll hit text)

/-- What a line's secret becomes stands between cuts; what is before it does not depend on
    earlier lines. -/
structure SecretLine.Lawful (line : SecretLine α) : Prop where
  opens : Opens cut line.behind
  parts : ∀ secret ∈ [line.left, line.right],
    (∀ c ∈ replaceAll hit secret, cut c = false) ∧
    ∀ rest, Opens cut rest → replaceAll hit (line.before ++ (secret ++ rest)) =
      replaceAll hit line.before ++ replaceAll hit (secret ++ rest)
  shown : line.left ≠ line.right →
    replaceAll hit line.left ≠ [] ∧ replaceAll hit line.right ≠ [] ∧
    ∀ state : Reading α, state.IsFresh →
      after blank marked state (replaceAll hit line.before) =
        after blank marked (.word []) (replaceAll hit line.before)

/-- The first pass leaves the same of both secrets, or the second covers what it leaves. -/
def SecretLine.Hides (line : SecretLine α) : Prop :=
  replaceAll hit line.left = replaceAll hit line.right ∨
    ∀ read, after blank marked (.word []) (replaceAll hit line.before) ≠ .word read

variable {hit cut blank marked mask}

theorem eq_of_append_opens {x x' y y' : List α} (solid : ∀ c ∈ x, cut c = false)
    (solid' : ∀ c ∈ x', cut c = false) (opens : Opens cut y) (opens' : Opens cut y')
    (same : x ++ y = x' ++ y') : x = x' ∧ y = y' := by
  have run : ∀ {u v : List α}, (∀ c ∈ u, cut c = false) → Opens cut v →
      (u ++ v).takeWhile (fun c => !cut c) = u ∧ (u ++ v).dropWhile (fun c => !cut c) = v := by
    intro u v plain ends
    exact takeWhile_run (fun c mem => by simp [plain c mem]) fun c first => by simp [ends c first]
  obtain ⟨taken, dropped⟩ := run solid opens
  obtain ⟨taken', dropped'⟩ := run solid' opens'
  rw [same] at taken dropped
  exact ⟨taken.symm.trans taken', dropped.symm.trans dropped'⟩

theorem masked_secret_iff (blanks : ∀ c, blank c = true → cut c = true) (state : Reading α)
    {x x' y y' : List α} (solid : ∀ c ∈ x, cut c = false) (solid' : ∀ c ∈ x', cut c = false)
    (ne : x ≠ x' → x ≠ [] ∧ x' ≠ []) (opens : Opens cut y) (opens' : Opens cut y') :
    masked blank marked mask state (x ++ y) = masked blank marked mask state (x' ++ y') ↔
      (x = x' ∨ ∀ read, state ≠ .word read) ∧
        masked blank marked mask (after blank marked state x) y =
          masked blank marked mask (after blank marked state x) y' := by
  have letters : ∀ {u : List α}, (∀ c ∈ u, cut c = false) → ∀ c ∈ u, blank c = false := by
    intro u plain c mem
    refine Bool.eq_false_iff.mpr fun here => ?_
    have cuts := blanks c here
    rw [plain c mem] at cuts
    cases cuts
  have kept : ∀ {state : Reading α} {z : List α}, Opens cut z → ∀ read, state = .word read →
      Opens cut (masked blank marked mask state z) := by
    rintro state z ends read rfl
    cases z with
    | nil => exact ends
    | cons c rest => exact fun d first => ends d first
  by_cases same : x = x'
  · subst same
    rw [masked_append, masked_append, List.append_cancel_left_eq]
    simp
  · obtain ⟨filled, filled'⟩ := ne same
    rw [masked_append, masked_append]
    cases state with
    | word read =>
      rw [masked_word (letters solid), masked_word (letters solid'), after_word (letters solid),
        after_word (letters solid')]
      refine iff_of_false (fun shown => ?_) fun h => ?_
      · exact same (eq_of_append_opens solid solid' (kept opens _ rfl) (kept opens' _ rfl) shown).1
      · rcases h.1 with equal | covered
        · exact same equal
        · exact covered read rfl
    | waiting =>
      have covers : ∀ {u : List α}, (∀ c ∈ u, cut c = false) → u ≠ [] →
          masked blank marked mask .waiting u = mask ∧ after blank marked .waiting u = .skipping :=
        fun plain some_u => wait_word (letters plain) some_u
      rw [(covers solid filled).1, (covers solid filled).2, (covers solid' filled').1,
        (covers solid' filled').2, List.append_cancel_left_eq]
      simp
    | skipping =>
      have covers : ∀ {u : List α}, (∀ c ∈ u, cut c = false) →
          masked blank marked mask .skipping u = [] ∧ after blank marked .skipping u = .skipping :=
        fun plain => skip_word (letters plain)
      rw [(covers solid).1, (covers solid).2, (covers solid').1, (covers solid').2]
      simp

theorem masked_line_iff (within : IsLocal hit cut) (blanks : ∀ c, blank c = true → cut c = true)
    {line : SecretLine α} (lawful : line.Lawful hit cut blank marked) {state : Reading α}
    (fresh : state.IsFresh) {t t' : List α} (opens : Opens cut t) (opens' : Opens cut t') :
    masked blank marked mask state (replaceAll hit (line.leftText ++ t)) =
        masked blank marked mask state (replaceAll hit (line.rightText ++ t')) ↔
      line.Hides hit blank marked ∧
        masked blank marked mask (after blank marked state (replaceAll hit line.leftText))
            (replaceAll hit t) =
          masked blank marked mask (after blank marked state (replaceAll hit line.leftText))
            (replaceAll hit t') := by
  have parts : ∀ secret ∈ [line.left, line.right], ∀ {t : List α}, Opens cut t →
      replaceAll hit (line.before ++ (secret ++ line.behind) ++ t) =
        replaceAll hit line.before ++ (replaceAll hit secret ++
          (replaceAll hit line.behind ++ replaceAll hit t)) := by
    intro secret mem t ends
    rw [List.append_assoc, List.append_assoc,
      (lawful.parts secret mem).2 _ (lawful.opens.append ends),
      replaceAll_append_opens within (lawful.opens.append ends),
      replaceAll_append_opens within ends]
  have whole : replaceAll hit line.leftText = replaceAll hit line.before ++
      (replaceAll hit line.left ++ replaceAll hit line.behind) := by
    have nothing : Opens cut ([] : List α) := fun c none => nomatch none
    simpa [SecretLine.leftText] using parts line.left (by simp) nothing
  have under : ∀ {t : List α}, Opens cut t →
      Opens cut (replaceAll hit line.behind ++ replaceAll hit t) := fun ends =>
    (opens_replaceAll within lawful.opens).append (opens_replaceAll within ends)
  have apart : replaceAll hit line.left ≠ replaceAll hit line.right →
      replaceAll hit line.left ≠ [] ∧ replaceAll hit line.right ≠ [] := fun other =>
    have shown := lawful.shown fun same => other (congrArg _ same)
    ⟨shown.1, shown.2.1⟩
  have hides : (replaceAll hit line.left = replaceAll hit line.right ∨
      ∀ read, after blank marked state (replaceAll hit line.before) ≠ .word read) ↔
      line.Hides hit blank marked := by
    by_cases same : replaceAll hit line.left = replaceAll hit line.right
    · exact iff_of_true (.inl same) (.inl same)
    · rw [SecretLine.Hides,
        (lawful.shown fun equal => same (congrArg _ equal)).2.2 state fresh]
  rw [SecretLine.leftText, SecretLine.rightText] at *
  rw [parts line.left (by simp) opens, parts line.right (by simp) opens', masked_append,
    masked_append state, List.append_cancel_left_eq,
    masked_secret_iff blanks _ (lawful.parts _ (by simp)).1 (lawful.parts _ (by simp)).1 apart
      (under opens) (under opens'), hides, masked_append, masked_append,
    List.append_cancel_left_eq, whole, after_append, after_append]

theorem maskText_lines_iff (within : IsLocal hit cut)
    (blanks : ∀ c, blank c = true → cut c = true) {newline : α} (breaks : blank newline = true)
    (lines : List (SecretLine α)) (lawful : ∀ l ∈ lines, l.Lawful hit cut blank marked) :
    maskText hit blank marked mask ([newline].intercalate (lines.map SecretLine.leftText)) =
        maskText hit blank marked mask ([newline].intercalate (lines.map SecretLine.rightText)) ↔
      ∀ l ∈ lines, l.Hides hit blank marked := by
  have run : ∀ state : Reading α, state.IsFresh →
      (masked blank marked mask state
          (replaceAll hit ([newline].intercalate (lines.map SecretLine.leftText))) =
        masked blank marked mask state
          (replaceAll hit ([newline].intercalate (lines.map SecretLine.rightText))) ↔
        ∀ l ∈ lines, l.Hides hit blank marked) := by
    induction lines with
    | nil => simp
    | cons line rest ih =>
      intro state fresh
      have here := lawful line List.mem_cons_self
      cases rest with
      | nil =>
        have nothing : Opens cut ([] : List α) := fun c none => nomatch none
        simpa using masked_line_iff within blanks here fresh nothing nothing
      | cons next more =>
        have cuts : ∀ text, Opens cut (newline :: text) := fun text c first =>
          Option.some.inj first ▸ blanks newline breaks
        have settled : ((after blank marked state (replaceAll hit line.leftText)).next blank marked
            newline).IsFresh := isFresh_next breaks _
        have below := ih (fun l mem => lawful l (List.mem_cons_of_mem _ mem)) _ settled
        rw [List.map_cons, List.map_cons, List.map_cons, List.map_cons] at *
        rw [List.intercalate_cons_cons, List.intercalate_cons_cons, List.append_assoc,
          List.append_assoc, List.singleton_append, List.singleton_append,
          masked_line_iff within blanks here fresh (cuts _) (cuts _),
          replaceAll_cut within (blanks newline breaks),
          replaceAll_cut within (blanks newline breaks), masked_blank breaks, masked_blank breaks,
          List.cons_inj_right, List.forall_mem_cons, below]
  exact run _ (.inl rfl)

end

end Replacing
