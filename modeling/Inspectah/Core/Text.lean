import Mathlib.Algebra.GroupWithZero.Nat
import Mathlib.Data.List.Basic
import Mathlib.Data.List.Induction
import Mathlib.Data.List.Infix
import Mathlib.Data.List.TakeDrop
import Mathlib.Data.List.TakeWhile

/-!
The string operations the program calls, on the characters of a `String`, and the components
of a path. Case folding is ASCII only.
-/
namespace Inspectah

namespace Text

def asciiLower (s : String) : String := String.ofList (s.toList.map Char.toLower)

def eqIgnoreAsciiCase (s t : String) : Bool := asciiLower s == asciiLower t

/-- `char::is_whitespace`, the Unicode `White_Space` property. -/
def isWhitespace (c : Char) : Bool :=
  let n := c.toNat
  (9 ≤ n && n ≤ 13) || n == 32 || n == 0x85 || n == 0xA0 || n == 0x1680 ||
    (0x2000 ≤ n && n ≤ 0x200A) || n == 0x2028 || n == 0x2029 || n == 0x202F || n == 0x205F ||
    n == 0x3000

/-- `char::is_ascii_whitespace`: vertical tab is not in it. -/
def isAsciiWhitespace (c : Char) : Bool :=
  c == ' ' || c == '\t' || c == '\n' || c == '\r' || c.toNat == 12

/-- `char::is_control`, the Unicode general category `Cc`. -/
def isControl (c : Char) : Bool := c.toNat < 0x20 || (0x7F ≤ c.toNat && c.toNat < 0xA0)

def trimChars (cs : List Char) : List Char :=
  ((cs.dropWhile isWhitespace).reverse.dropWhile isWhitespace).reverse

def trim (s : String) : String := String.ofList (trimChars s.toList)

/-- Split at every separator; `n` separators give `n + 1` pieces. -/
def splitChars (sep : Char → Bool) : List Char → List (List Char)
  | [] => [[]]
  | c :: cs =>
    if sep c then [] :: splitChars sep cs
    else
      match splitChars sep cs with
      | [] => [[c]]
      | piece :: pieces => (c :: piece) :: pieces

def splitOn (sep : Char → Bool) (s : String) : List String :=
  (splitChars sep s.toList).map String.ofList

def dropCarriageReturn (line : List Char) : List Char :=
  match line.reverse with
  | '\r' :: rest => rest.reverse
  | _ => line

/-- `str::lines`: a line ends at a newline, with a carriage return before it; a final one starts
    no line. -/
def lines (s : String) : List String :=
  let pieces := splitChars (· == '\n') s.toList
  let ended := pieces.dropLast.map dropCarriageReturn
  let last := pieces.getLast?.toList.filter fun piece => !piece.isEmpty
  (ended ++ last).map String.ofList

def startsWith (s pre : String) : Bool := pre.toList.isPrefixOf s.toList

def endsWith (s suffix : String) : Bool := suffix.toList.reverse.isPrefixOf s.toList.reverse

/-- `str::strip_prefix`. -/
def afterPrefix (s pre : String) : Option String :=
  if startsWith s pre then some (String.ofList (s.toList.drop pre.toList.length)) else none

/-- `str::strip_suffix`. -/
def beforeSuffix (s suffix : String) : Option String :=
  if endsWith s suffix then
    some (String.ofList (s.toList.take (s.toList.length - suffix.toList.length)))
  else none

def splitOnce (sep : Char) (s : String) : Option (String × String) :=
  match s.toList.span (· != sep) with
  | (_, []) => none
  | (before, _ :: after) => some (String.ofList before, String.ofList after)

/-- `str::rsplit_once`: the text before the last separator, and the text after it. -/
def rsplitOnce (sep : Char) (s : String) : Option (String × String) :=
  match s.toList.reverse.span (· != sep) with
  | (_, []) => none
  | (after, _ :: before) => some (String.ofList before.reverse, String.ofList after.reverse)

def containsChars (needle : List Char) : List Char → Bool
  | [] => needle.isEmpty
  | c :: cs => needle.isPrefixOf (c :: cs) || containsChars needle cs

def contains (s needle : String) : Bool := containsChars needle.toList s.toList

/-- The text before the first hit of `needle`, and the text after it. -/
def findChars (needle : List Char) : List Char → Option (List Char × List Char)
  | [] => if needle.isEmpty then some ([], []) else none
  | c :: cs =>
    if needle.isPrefixOf (c :: cs) then some ([], (c :: cs).drop needle.length)
    else (findChars needle cs).map fun (before, after) => (c :: before, after)

/-- `Path::file_name` of a path written as text: the last component, unless it is `..`. -/
def fileName (path : String) : Option String :=
  match ((splitChars (· == '/') path.toList).filter fun c => !c.isEmpty && c != ['.']).getLast? with
  | some last => if last = ['.', '.'] then none else some (String.ofList last)
  | none => none

theorem splitChars_eq_splitOnP (sep : Char → Bool) (cs : List Char) :
    splitChars sep cs = cs.splitOnP sep := by
  induction cs with
  | nil => rfl
  | cons c rest ih =>
    rw [List.splitOnP_cons_eq_if_modifyHead, splitChars, ih]
    split
    · rfl
    · cases pieces : rest.splitOnP sep with
      | nil => exact absurd pieces (List.splitOnP_ne_nil _ _)
      | cons first others => rfl

theorem splitChars_append_cut {sep : Char → Bool} {c : Char} (cut : sep c = true)
    (after before : List Char) :
    splitChars sep (before ++ c :: after) = splitChars sep before ++ splitChars sep after := by
  simp only [splitChars_eq_splitOnP]
  exact List.splitOnP_append_cons before after cut

theorem mem_of_mem_splitChars {sep : Char → Bool} {cs piece : List Char} {c : Char}
    (hp : piece ∈ splitChars sep cs) (hc : c ∈ piece) : c ∈ cs := by
  induction cs generalizing piece with
  | nil => simp_all [splitChars]
  | cons d rest ih =>
    unfold splitChars at hp
    split at hp
    · rcases List.mem_cons.mp hp with rfl | tail
      · simp at hc
      · exact List.mem_cons_of_mem _ (ih tail hc)
    · split at hp
      · simp_all
      next first others split =>
        rcases List.mem_cons.mp hp with rfl | tail
        · rcases List.mem_cons.mp hc with rfl | inFirst
          · exact List.mem_cons_self
          · exact List.mem_cons_of_mem _ (ih (split ▸ List.mem_cons_self) inFirst)
        · exact List.mem_cons_of_mem _ (ih (split ▸ List.mem_cons_of_mem _ tail) hc)

theorem plain_of_mem_splitChars {sep : Char → Bool} {cs piece : List Char} {c : Char}
    (hp : piece ∈ splitChars sep cs) (hc : c ∈ piece) : sep c = false := by
  induction cs generalizing piece with
  | nil => simp_all [splitChars]
  | cons d rest ih =>
    unfold splitChars at hp
    split at hp
    · rcases List.mem_cons.mp hp with rfl | tail
      · cases hc
      · exact ih tail hc
    next other =>
      have plain : sep d = false := by simpa using other
      split at hp
      · rw [List.mem_singleton.mp hp, List.mem_singleton] at hc
        exact hc ▸ plain
      next first others split =>
        rcases List.mem_cons.mp hp with rfl | tail
        · rcases List.mem_cons.mp hc with rfl | inFirst
          · exact plain
          · exact ih (split ▸ List.mem_cons_self) inFirst
        · exact ih (split ▸ List.mem_cons_of_mem _ tail) hc

theorem isAlphanum_toNat {c : Char} (h : c.isAlphanum) :
    (48 ≤ c.toNat ∧ c.toNat ≤ 57) ∨ (65 ≤ c.toNat ∧ c.toNat ≤ 90) ∨
      (97 ≤ c.toNat ∧ c.toNat ≤ 122) := by
  unfold Char.isAlphanum Char.isAlpha Char.isUpper Char.isLower Char.isDigit at h
  simp only [Bool.or_eq_true, Bool.and_eq_true, decide_eq_true_eq, ge_iff_le,
    UInt32.le_iff_toNat_le] at h
  have digits : '0'.val.toNat = 48 ∧ '9'.val.toNat = 57 := ⟨rfl, rfl⟩
  have upper : 'A'.val.toNat = 65 ∧ 'Z'.val.toNat = 90 := ⟨rfl, rfl⟩
  have lower : 'a'.val.toNat = 97 ∧ 'z'.val.toNat = 122 := ⟨rfl, rfl⟩
  have same : c.val.toNat = c.toNat := rfl
  omega

theorem isWhitespace_alphanum {c : Char} (h : c.isAlphanum) : isWhitespace c = false := by
  have range := isAlphanum_toNat h
  simp only [isWhitespace, Bool.or_eq_false_iff, Bool.and_eq_false_iff, decide_eq_false_iff_not,
    beq_eq_false_iff_ne]
  omega

/-- Checked along the text, also where an instance that tries every character there is would apply. -/
instance (priority := 2000) decidableForallMem (p : Char → Prop) [DecidablePred p]
    (cs : List Char) : Decidable (∀ c ∈ cs, p c) := List.decidableBAll p cs

theorem forall_of_all {p : Char → Prop} [DecidablePred p] {cs : List Char}
    (h : cs.all fun c => p c) : ∀ c ∈ cs, p c := by
  simpa using h

theorem startsWith_iff {s pre : String} : startsWith s pre = true ↔ pre.toList <+: s.toList := by
  rw [startsWith, List.isPrefixOf_iff_prefix]

theorem afterPrefix_append (pre more : String) : afterPrefix (pre ++ more) pre = some more := by
  have starts : startsWith (pre ++ more) pre := by
    simp [startsWith, List.isPrefixOf_iff_prefix]
  rw [afterPrefix, if_pos starts]
  simp

theorem asciiLower_eq_of_eqIgnoreAsciiCase {s t : String} :
    eqIgnoreAsciiCase s t = true ↔ asciiLower s = asciiLower t := by
  simp [eqIgnoreAsciiCase]

end Text

theorem splitChars_ne_nil (sep : Char → Bool) (cs : List Char) : Text.splitChars sep cs ≠ [] := by
  rw [Text.splitChars_eq_splitOnP]
  exact List.splitOnP_ne_nil _ _

theorem splitChars_join {sep : Char} {pieces : List (List Char)} (ne : pieces ≠ [])
    (plain : ∀ p ∈ pieces, sep ∉ p) :
    Text.splitChars (· == sep) ([sep].intercalate pieces) = pieces := by
  rw [Text.splitChars_eq_splitOnP, ← List.splitOn_eq_splitOnP, List.splitOn_intercalate sep plain ne]

theorem splitChars_plain {sep : Char} {cs : List Char} (plain : sep ∉ cs) :
    Text.splitChars (· == sep) cs = [cs] := by
  simpa [List.intercalate] using splitChars_join (List.cons_ne_nil cs [])
    (List.forall_mem_singleton.mpr plain)

theorem eq_of_splitChars_singleton {sep : Char → Bool} {cs piece : List Char}
    (h : Text.splitChars sep cs = [piece]) : piece = cs := by
  induction cs generalizing piece with
  | nil =>
    cases h
    rfl
  | cons c rest ih =>
    rw [Text.splitChars] at h
    split at h
    · obtain ⟨-, none⟩ := List.cons.inj h
      exact absurd none (splitChars_ne_nil _ _)
    · cases pieces : Text.splitChars sep rest with
      | nil =>
        rw [Text.splitChars_eq_splitOnP] at pieces
        exact absurd pieces (List.splitOnP_ne_nil _ _)
      | cons first others =>
        rw [pieces] at h
        obtain ⟨rfl, rfl⟩ := List.cons.inj h
        rw [ih pieces]

theorem getLast_splitChars_suffix {sep : Char → Bool} {cs last : List Char}
    (h : (Text.splitChars sep cs).getLast? = some last) : last <:+ cs := by
  induction cs generalizing last with
  | nil =>
    cases h
    exact List.suffix_rfl
  | cons c rest ih =>
    cases whole : Text.splitChars sep (c :: rest) with
    | nil =>
      exact absurd whole (splitChars_ne_nil _ _)
    | cons first others =>
      cases others with
      | nil =>
        rw [whole] at h
        cases h
        rw [eq_of_splitChars_singleton whole]
        exact List.suffix_rfl
      | cons second others =>
        have below : (Text.splitChars sep rest).getLast? = some last := by
          rw [whole, List.getLast?_cons_cons] at h
          rw [Text.splitChars] at whole
          split at whole
          · rw [(List.cons.inj whole).2]
            exact h
          · cases pieces : Text.splitChars sep rest with
            | nil =>
              rw [pieces] at whole
              cases whole
            | cons top more =>
              rw [pieces] at whole
              rw [(List.cons.inj whole).2, List.getLast?_cons_cons]
              exact h
        exact (ih below).trans (List.suffix_cons _ _)

theorem dropEnds_between {p : Char → Bool} {lead text tail : List Char}
    (before : ∀ c ∈ lead, p c = true) (after : ∀ c ∈ tail, p c = true)
    (ends : ∀ c, text.head? = some c ∨ text.getLast? = some c → p c = false) :
    (((lead ++ text ++ tail).dropWhile p).reverse.dropWhile p).reverse = text := by
  have stop : ∀ cs : List Char, (∀ c, cs.head? = some c → p c = false) → cs.dropWhile p = cs := by
    intro cs first
    cases cs with
    | nil => rfl
    | cons c rest => rw [List.dropWhile_cons_of_neg (by simp [first c rfl])]
  have last : ∀ c, text.reverse.head? = some c → p c = false := fun c h =>
    ends c (.inr (by rw [List.getLast?_eq_head?_reverse, h]))
  have back : ∀ c ∈ tail.reverse, p c = true := fun c mem => after c (List.mem_reverse.mp mem)
  rw [List.append_assoc, List.dropWhile_append_of_pos before]
  cases text with
  | nil => simp [List.dropWhile_eq_nil_iff.mpr after]
  | cons c more =>
    rw [stop (c :: more ++ tail) fun d h => ends d (.inl h), List.reverse_append,
      List.dropWhile_append_of_pos back, stop _ last, List.reverse_reverse]

theorem trimChars_between {lead text tail : List Char}
    (before : ∀ c ∈ lead, Text.isWhitespace c = true)
    (after : ∀ c ∈ tail, Text.isWhitespace c = true)
    (ends : ∀ c, text.head? = some c ∨ text.getLast? = some c → Text.isWhitespace c = false) :
    Text.trimChars (lead ++ text ++ tail) = text := dropEnds_between before after ends

theorem ends_trimChars {cs : List Char} {c : Char}
    (h : (Text.trimChars cs).head? = some c ∨ (Text.trimChars cs).getLast? = some c) :
    Text.isWhitespace c = false := by
  have first : ∀ {xs : List Char}, (xs.dropWhile Text.isWhitespace).head? = some c →
      Text.isWhitespace c = false := by
    intro xs found
    have plain := List.head?_dropWhile_not Text.isWhitespace xs
    rw [found] at plain
    simpa using plain
  rcases h with start | last
  · have back : cs.dropWhile Text.isWhitespace = Text.trimChars cs ++
        ((cs.dropWhile Text.isWhitespace).reverse.takeWhile Text.isWhitespace).reverse := by
      rw [Text.trimChars, ← List.reverse_append, List.takeWhile_append_dropWhile,
        List.reverse_reverse]
    refine @first cs ?_
    rw [back, List.head?_append, start]
    rfl
  · rw [Text.trimChars, List.getLast?_reverse] at last
    exact first last

theorem exists_trimChars (cs : List Char) : ∃ lead tail,
    (∀ c ∈ lead, Text.isWhitespace c = true) ∧ (∀ c ∈ tail, Text.isWhitespace c = true) ∧
      cs = lead ++ Text.trimChars cs ++ tail := by
  refine ⟨cs.takeWhile Text.isWhitespace,
    ((cs.dropWhile Text.isWhitespace).reverse.takeWhile Text.isWhitespace).reverse,
    fun c mem => List.mem_takeWhile_imp mem,
    fun c mem => List.mem_takeWhile_imp (List.mem_reverse.mp mem), ?_⟩
  rw [Text.trimChars, List.append_assoc, ← List.reverse_append, List.takeWhile_append_dropWhile,
    List.reverse_reverse, List.takeWhile_append_dropWhile]

theorem trimChars_after {lead text : List Char} (blank : ∀ c ∈ lead, Text.isWhitespace c = true)
    (ends : ∀ c, text.head? = some c ∨ text.getLast? = some c → Text.isWhitespace c = false) :
    Text.trimChars (lead ++ text) = text := by
  have whole := @trimChars_between lead text [] blank (fun c mem => nomatch mem) ends
  rwa [List.append_nil] at whole

theorem trimChars_plain {cs : List Char} (plain : ∀ c ∈ cs, Text.isWhitespace c = false) :
    Text.trimChars cs = cs := by
  refine @trimChars_after [] cs (fun c mem => nomatch mem) ?_
  rintro c (first | last)
  · exact plain c (List.mem_of_head? first)
  · exact plain c (List.mem_of_getLast? last)

theorem afterPrefix_some {s pre rest : String} (found : Text.afterPrefix s pre = some rest) :
    s.toList = pre.toList ++ rest.toList := by
  unfold Text.afterPrefix at found
  split at found
  · rename_i starts
    obtain ⟨tail, whole⟩ := List.isPrefixOf_iff_prefix.mp starts
    cases found
    simp [← whole]
  · cases found

theorem endsWith_iff {s suffix : String} :
    Text.endsWith s suffix = true ↔ ∃ before, s = before ++ suffix := by
  rw [Text.endsWith, List.isPrefixOf_iff_prefix, List.reverse_prefix]
  constructor
  · rintro ⟨before, whole⟩
    exact ⟨String.ofList before, String.toList_inj.mp (by simp [← whole])⟩
  · rintro ⟨before, rfl⟩
    exact ⟨before.toList, by simp⟩

theorem beforeSuffix_eq_some {s suffix before : String} :
    Text.beforeSuffix s suffix = some before ↔ s = before ++ suffix := by
  unfold Text.beforeSuffix
  constructor
  · intro cut
    split at cut
    · next ends =>
      obtain ⟨stem, rfl⟩ := endsWith_iff.mp ends
      obtain rfl : stem = before := by simpa using cut
      rfl
    · cases cut
  · rintro rfl
    rw [if_pos (endsWith_iff.mpr ⟨before, rfl⟩)]
    simp

theorem fileName_join (dir : String) {name : String} (plain : '/' ∉ name.toList)
    (filled : name ≠ "") (no_dot : name ≠ ".") (no_dots : name ≠ "..") :
    Text.fileName (dir ++ "/" ++ name) = some name := by
  have chars : (dir ++ "/" ++ name).toList = dir.toList ++ '/' :: name.toList := by simp
  have kept : [name.toList].filter (fun c => !c.isEmpty && c != ['.']) = [name.toList] := by
    have other : name.toList ≠ ['.'] := fun same => no_dot (String.toList_inj.mp same)
    simp [other, filled]
  have down : name.toList ≠ ['.', '.'] := fun same => no_dots (String.toList_inj.mp same)
  unfold Text.fileName
  rw [chars, Text.splitChars_append_cut (by decide), splitChars_plain plain, List.filter_append,
    kept, List.getLast?_concat]
  simp [down]

theorem splitOnce_append {sep : Char} {before : String} (plain : sep ∉ before.toList)
    (after : String) :
    Text.splitOnce sep (before ++ (String.singleton sep ++ after)) = some (before, after) := by
  have all : ∀ c ∈ before.toList, (c != sep) = true := by
    intro c hc
    rw [bne_iff_ne]
    exact fun same => plain (same ▸ hc)
  have cut : (before ++ (String.singleton sep ++ after)).toList.span (· != sep) =
      (before.toList, sep :: after.toList) := by
    rw [List.span_eq_takeWhile_dropWhile, String.toList_append, String.toList_append,
      List.takeWhile_append_of_pos all, List.dropWhile_append_of_pos all]
    simp
  unfold Text.splitOnce
  simp only [cut, String.ofList_toList]

theorem splitOnce_plain {sep : Char} {s : String} (plain : sep ∉ s.toList) :
    Text.splitOnce sep s = none := by
  have cut : s.toList.span (· != sep) = (s.toList, []) := by
    rw [List.span_eq_takeWhile_dropWhile, List.takeWhile_eq_self_iff.mpr,
      List.dropWhile_eq_nil_iff.mpr]
    all_goals
      intro c hc
      rw [bne_iff_ne]
      exact fun same => plain (same ▸ hc)
  unfold Text.splitOnce
  simp only [cut]

theorem splitOnce_some {sep : Char} {s before after : String}
    (found : Text.splitOnce sep s = some (before, after)) :
    s.toList = before.toList ++ sep :: after.toList ∧ ∀ x ∈ before.toList, x ≠ sep := by
  unfold Text.splitOnce at found
  rw [List.span_eq_takeWhile_dropWhile] at found
  split at found
  · cases found
  · rename_i taken head tail spanned
    obtain ⟨rfl, rfl⟩ := Prod.mk.inj (Option.some.inj found)
    obtain ⟨took, dropped⟩ := Prod.mk.inj spanned
    have head_is : head = sep := by
      have stops := List.head?_dropWhile_not (· != sep) s.toList
      rw [dropped] at stops
      simpa using stops
    constructor
    · have whole : s.toList.takeWhile (· != sep) ++ s.toList.dropWhile (· != sep) = s.toList :=
        List.takeWhile_append_dropWhile
      rw [took, dropped, head_is] at whole
      simpa using whole.symm
    · intro x mem
      have all_plain : (s.toList.takeWhile (· != sep)).all (· != sep) = true := List.all_takeWhile
      rw [String.toList_ofList, ← took] at mem
      simpa using List.all_eq_true.mp all_plain x mem

theorem rsplitOnce_append {sep : Char} {after : String} (plain : sep ∉ after.toList)
    (before : String) :
    Text.rsplitOnce sep (before ++ (String.singleton sep ++ after)) = some (before, after) := by
  have all : ∀ c ∈ after.toList.reverse, (c != sep) = true := by
    intro c mem
    rw [bne_iff_ne]
    exact fun same => plain (same ▸ List.mem_reverse.mp mem)
  have cut : (before ++ (String.singleton sep ++ after)).toList.reverse.span (· != sep) =
      (after.toList.reverse, sep :: before.toList.reverse) := by
    rw [List.span_eq_takeWhile_dropWhile, String.toList_append, String.toList_append,
      List.reverse_append, List.reverse_append, List.append_assoc,
      List.takeWhile_append_of_pos all, List.dropWhile_append_of_pos all]
    simp
  unfold Text.rsplitOnce
  simp only [cut, List.reverse_reverse, String.ofList_toList]

theorem rsplitOnce_plain {sep : Char} {s : String} (plain : sep ∉ s.toList) :
    Text.rsplitOnce sep s = none := by
  have cut : s.toList.reverse.span (· != sep) = (s.toList.reverse, []) := by
    rw [List.span_eq_takeWhile_dropWhile, List.takeWhile_eq_self_iff.mpr,
      List.dropWhile_eq_nil_iff.mpr]
    all_goals
      intro c mem
      rw [bne_iff_ne]
      exact fun same => plain (same ▸ List.mem_reverse.mp mem)
  unfold Text.rsplitOnce
  simp only [cut]

theorem exists_firstCut {sep : Char} {s : String} (mem : sep ∈ s.toList) :
    ∃ before after : String,
      s = before ++ (String.singleton sep ++ after) ∧ sep ∉ before.toList := by
  obtain ⟨before, after, whole, plain⟩ := List.eq_append_cons_of_mem mem
  refine ⟨String.ofList before, String.ofList after, String.toList_inj.mp ?_, ?_⟩
  · simpa using whole
  · simpa using plain

theorem exists_lastCut {sep : Char} {s : String} (mem : sep ∈ s.toList) :
    ∃ before after : String,
      s = before ++ (String.singleton sep ++ after) ∧ sep ∉ after.toList := by
  obtain ⟨after, before, whole, plain⟩ := List.eq_append_cons_of_mem (List.mem_reverse.mpr mem)
  refine ⟨String.ofList before.reverse, String.ofList after.reverse, String.toList_inj.mp ?_, ?_⟩
  · simpa using congrArg List.reverse whole
  · simpa using plain

theorem rsplitOnce_concat {sep : Char} {t : String} (plain : sep ∉ t.toList) (s : String) :
    Text.rsplitOnce sep (s ++ t) =
      (Text.rsplitOnce sep s).map fun cut => (cut.1, cut.2 ++ t) := by
  by_cases mem : sep ∈ s.toList
  · obtain ⟨before, after, rfl, last⟩ := exists_lastCut mem
    have further : sep ∉ (after ++ t).toList := by simp [last, plain]
    rw [rsplitOnce_append last, String.append_assoc, String.append_assoc,
      rsplitOnce_append further]
    rfl
  · rw [rsplitOnce_plain mem, rsplitOnce_plain (by simp [mem, plain])]
    rfl

theorem splitOn_pair {sep : Char} {a b : String} (left : sep ∉ a.toList) (right : sep ∉ b.toList) :
    Text.splitOn (· == sep) (a ++ (String.singleton sep ++ b)) = [a, b] := by
  have chars : (a ++ (String.singleton sep ++ b)).toList = a.toList ++ sep :: b.toList := by simp
  have cut := @Text.splitChars_append_cut (· == sep) sep (beq_self_eq_true sep) b.toList a.toList
  rw [Text.splitOn, chars, cut, splitChars_plain left, splitChars_plain right]
  simp

theorem containsChars_iff {needle cs : List Char} :
    Text.containsChars needle cs = true ↔ needle <:+: cs := by
  induction cs with
  | nil => rw [Text.containsChars, List.isEmpty_iff, List.infix_nil]
  | cons c rest ih =>
    rw [Text.containsChars, Bool.or_eq_true, ih, List.isPrefixOf_iff_prefix, List.infix_cons_iff]

section

variable {needle : List Char}

theorem findChars_split {cs before after : List Char}
    (found : Text.findChars needle cs = some (before, after)) : cs = before ++ needle ++ after := by
  induction cs generalizing before with
  | nil =>
    rw [Text.findChars] at found
    split at found
    · next none =>
      rw [List.isEmpty_iff] at none
      cases found
      rw [none]
      rfl
    · cases found
  | cons c rest ih =>
    rw [Text.findChars] at found
    split at found
    · next here =>
      obtain ⟨tail, whole⟩ := List.isPrefixOf_iff_prefix.mp here
      cases found
      rw [← whole, List.drop_left]
      rfl
    · obtain ⟨⟨early, late⟩, later, same⟩ := Option.map_eq_some_iff.mp found
      cases same
      rw [ih later]
      rfl

theorem findChars_after {before after : List Char} (ne : needle ≠ [])
    (found : Text.findChars needle (before ++ needle ++ after) = some (before, after))
    (other : List Char) :
    Text.findChars needle (before ++ needle ++ other) = some (before, other) := by
  induction before with
  | nil =>
    obtain ⟨c, rest, rfl⟩ := List.exists_cons_of_ne_nil ne
    have hit : (c :: rest).isPrefixOf (c :: (rest ++ other)) = true :=
      List.isPrefixOf_iff_prefix.mpr (List.prefix_append (c :: rest) other)
    change Text.findChars (c :: rest) (c :: (rest ++ other)) = _
    rw [Text.findChars, if_pos hit]
    change some ([], (c :: rest ++ other).drop (c :: rest).length) = _
    rw [List.drop_left]
  | cons c before ih =>
    have miss : needle.isPrefixOf (c :: (before ++ needle ++ after)) = false := by
      by_contra here
      change Text.findChars needle (c :: (before ++ needle ++ after)) = _ at found
      rw [Text.findChars, if_pos (by simpa using here)] at found
      cases found
    have still : needle.isPrefixOf (c :: (before ++ needle ++ other)) = false := by
      rw [← Bool.not_eq_true, List.isPrefixOf_iff_prefix] at miss ⊢
      intro here
      have short : needle <+: c :: before ++ needle := by
        have whole : needle <+: (c :: before ++ needle) ++ other := here
        exact List.prefix_of_prefix_length_le whole (List.prefix_append _ _)
          (by simp only [List.length_append]; omega)
      exact miss (short.trans ⟨after, by simp⟩)
    change Text.findChars needle (c :: (before ++ needle ++ after)) = _ at found
    change Text.findChars needle (c :: (before ++ needle ++ other)) = _
    rw [Text.findChars, if_neg (Bool.not_eq_true _ ▸ miss)] at found
    rw [Text.findChars, if_neg (Bool.not_eq_true _ ▸ still), ih]
    · rfl
    · obtain ⟨⟨early, late⟩, later, same⟩ := Option.map_eq_some_iff.mp found
      cases same
      exact later

theorem findChars_first {c : Char} {rest before : List Char} (plain : c ∉ before)
    (after : List Char) :
    Text.findChars (c :: rest) (before ++ (c :: rest) ++ after) = some (before, after) := by
  induction before with
  | nil =>
    have hit : (c :: rest).isPrefixOf (c :: (rest ++ after)) = true :=
      List.isPrefixOf_iff_prefix.mpr (List.prefix_append (c :: rest) after)
    change Text.findChars (c :: rest) (c :: (rest ++ after)) = _
    rw [Text.findChars, if_pos hit]
    change some ([], (c :: rest ++ after).drop (c :: rest).length) = _
    rw [List.drop_left]
  | cons d before ih =>
    rw [List.mem_cons, not_or] at plain
    have miss : (c :: rest).isPrefixOf (d :: (before ++ (c :: rest) ++ after)) = false := by
      simp [List.isPrefixOf, plain.1]
    change Text.findChars (c :: rest) (d :: (before ++ (c :: rest) ++ after)) = _
    rw [Text.findChars, if_neg (Bool.not_eq_true _ ▸ miss), ih plain.2]
    rfl

theorem findChars_least {cs before after : List Char}
    (found : Text.findChars needle cs = some (before, after)) {early late : List Char}
    (hit : cs = early ++ needle ++ late) : before.length ≤ early.length := by
  induction cs generalizing before early with
  | nil =>
    have split := findChars_split found
    simp_all
  | cons c rest ih =>
    rw [Text.findChars] at found
    split at found
    · cases found
      exact Nat.zero_le _
    · next miss =>
      obtain ⟨⟨first, last⟩, later, same⟩ := Option.map_eq_some_iff.mp found
      cases same
      cases early with
      | nil =>
        refine absurd ?_ miss
        rw [hit]
        exact List.isPrefixOf_iff_prefix.mpr ⟨late, by simp⟩
      | cons d early =>
        have whole : rest = early ++ needle ++ late := (List.cons.inj hit).2
        exact Nat.succ_le_succ (ih later whole)

end

def joinLines (ended : List (List Char)) (last : List Char) : List Char :=
  ended.flatMap (· ++ ['\n']) ++ last

theorem splitChars_joinLines {ended : List (List Char)} {last : List Char}
    (plain : ∀ row ∈ ended, '\n' ∉ row) (still : '\n' ∉ last) :
    Text.splitChars (· == '\n') (joinLines ended last) = ended ++ [last] := by
  have alone : ∀ {row : List Char}, '\n' ∉ row → Text.splitChars (· == '\n') row = [row] := by
    intro row none
    rw [Text.splitChars_eq_splitOnP]
    refine List.splitOnP_eq_singleton fun c mem => ?_
    have other : c ≠ '\n' := fun same => none (same ▸ mem)
    simp [other]
  induction ended with
  | nil => exact alone still
  | cons row rest ih =>
    have one : joinLines (row :: rest) last = row ++ '\n' :: joinLines rest last := by
      simp [joinLines]
    rw [one, Text.splitChars_append_cut (by rfl), alone (plain row List.mem_cons_self),
      ih fun r mem => plain r (List.mem_cons_of_mem _ mem)]
    rfl

theorem exists_joinLines (text : List Char) : ∃ ended last,
    (∀ row ∈ ended, '\n' ∉ row) ∧ '\n' ∉ last ∧ text = joinLines ended last := by
  induction text with
  | nil => exact ⟨[], [], by simp, by simp, rfl⟩
  | cons c rest ih =>
    obtain ⟨ended, last, plain, still, rfl⟩ := ih
    by_cases cut : c = '\n'
    · exact ⟨[] :: ended, last, by simpa using plain, still, by simp [joinLines, cut]⟩
    · have new : ∀ {row : List Char}, '\n' ∉ row → '\n' ∉ c :: row := fun none mem =>
        (List.mem_cons.mp mem).elim (fun same => cut same.symm) none
      cases ended with
      | nil => exact ⟨[], c :: last, by simp, new still, rfl⟩
      | cons row more =>
        rw [List.forall_mem_cons] at plain
        exact ⟨(c :: row) :: more, last, List.forall_mem_cons.mpr ⟨new plain.1, plain.2⟩, still,
          by simp [joinLines]⟩

theorem lines_joinLines {ended : List (List Char)} {last : List Char}
    (plain : ∀ row ∈ ended, '\n' ∉ row) (still : '\n' ∉ last) :
    Text.lines (String.ofList (joinLines ended last)) =
      (ended.map Text.dropCarriageReturn ++ [last].filter (!·.isEmpty)).map String.ofList := by
  rw [Text.lines, String.toList_ofList, splitChars_joinLines plain still, List.dropLast_concat,
    List.getLast?_concat]
  rfl

theorem endsWith_joinLines {ended : List (List Char)} {last : List Char} (still : '\n' ∉ last) :
    Text.endsWith (String.ofList (joinLines ended last)) "\n" = true ↔
      last = [] ∧ ended ≠ [] := by
  rw [Text.endsWith, @String.toList_ofList (joinLines ended last)]
  change ['\n'].isPrefixOf (joinLines ended last).reverse = true ↔ _
  cases last using List.reverseRecOn with
  | nil =>
    cases ended using List.reverseRecOn with
    | nil => simp [joinLines]
    | append_singleton rows row => simp [joinLines, List.isPrefixOf]
  | append_singleton front c =>
    have other : '\n' ≠ c := fun same =>
      still (List.mem_append_right _ (List.mem_singleton.mpr same))
    simp [joinLines, List.isPrefixOf, other]

theorem dropCarriageReturn_concat (line : List Char) :
    Text.dropCarriageReturn (line ++ ['\r']) = line := by
  simp [Text.dropCarriageReturn]

theorem dropCarriageReturn_prefix (line : List Char) : Text.dropCarriageReturn line <+: line := by
  rw [Text.dropCarriageReturn]
  split
  · next rest reversed =>
    refine ⟨['\r'], ?_⟩
    rw [← List.reverse_reverse line, reversed]
    simp
  · exact List.prefix_refl _

theorem dropCarriageReturn_of_last {line : List Char} (last : line.getLast? ≠ some '\r') :
    Text.dropCarriageReturn line = line := by
  rw [Text.dropCarriageReturn]
  split
  · rename_i rest reversed
    refine absurd ?_ last
    rw [List.getLast?_eq_head?_reverse, reversed]
    rfl
  · rfl

/-- `str::split_whitespace`. -/
def splitWhitespace (s : String) : List String :=
  (Text.splitOn Text.isWhitespace s).filter fun word => !word.isEmpty

def digitsValue (digits : List Char) : Nat :=
  digits.foldl (fun n c => 10 * n + (c.toNat - '0'.toNat)) 0

def U32_MAX : Nat := 2 ^ 32 - 1

theorem digitsValue_toDigits (n : Nat) : digitsValue (Nat.toDigits 10 n) = n := by
  rw [digitsValue, ← Nat.ofDigitChars_eq_foldl, Nat.ofDigitChars_toDigits (by decide) (by decide)]

theorem digit_of_toString {n : Nat} {c : Char} (mem : c ∈ (toString n).toList) :
    c.isDigit = true :=
  Nat.isDigit_of_mem_toDigits (b := 10) (n := n) (by decide) (by decide) (by simpa using mem)

/-- `str::parse::<u32>`. -/
def parseU32 (s : String) : Option Nat :=
  let digits := match s.toList with
    | '+' :: rest => rest
    | cs => cs
  if digits.isEmpty || !(digits.all fun c => '0' ≤ c && c ≤ '9') then none
  else if digitsValue digits ≤ U32_MAX then some (digitsValue digits)
  else none

def U64_RANGE : Nat := 2 ^ 64

/-- `str::parse` to an unsigned number below `range`. -/
def parseBelow (range : Nat) (s : String) : Option Nat :=
  let digits := match s.toList with
    | '+' :: rest => rest
    | cs => cs
  if digits.isEmpty || !(digits.all fun c => '0' ≤ c && c ≤ '9') then none
  else if digitsValue digits < range then some (digitsValue digits)
  else none

inductive Component where
  | rootDir
  | curDir
  | parentDir
  | normal (name : String)
  deriving DecidableEq

def componentOf (piece : List Char) : Option Component :=
  if piece = [] ∨ piece = ['.'] then none
  else if piece = ['.', '.'] then some .parentDir
  else some (.normal (String.ofList piece))

def pathPieces (path : String) : List (List Char) := Text.splitChars (· == '/') path.toList

/-- A dot stands for itself only where the path begins with it. -/
def components (path : String) : List Component :=
  let rest := (pathPieces path).filterMap componentOf
  if Text.startsWith path "/" then .rootDir :: rest
  else if (pathPieces path).head? = some ['.'] then .curDir :: rest
  else rest

/-- `Path::join`: an absolute piece replaces what it is joined onto. -/
def joinPiece (base piece : String) : String :=
  if Text.startsWith piece "/" then piece
  else if base.isEmpty || Text.endsWith base "/" then base ++ piece
  else base ++ "/" ++ piece

def pathStartsWith (path base : String) : Bool := (components base).isPrefixOf (components path)

end Inspectah
