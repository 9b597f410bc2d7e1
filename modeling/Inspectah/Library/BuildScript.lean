import Mathlib.Data.List.Basic
import Mathlib.Data.String.Basic

/-!
Build scripts written line by line from templates. A template fixes the text of a
command and leaves places for values, each bare or between quotes.
-/
namespace BuildScript

/-- How a value stands in a command: bare, between quotes, or in single quotes opened again
    around each quote. -/
inductive Quoting where
  | bare
  | double
  | single
  | escaped
  deriving DecidableEq

def SINGLE_QUOTE : Char := Char.ofNat 39

/-- What a shell still reads between double quotes. -/
def LIVE_IN_QUOTES : List Char := ['"', '$', Char.ofNat 96, '\\']

inductive Segment where
  | fixed (text : String)
  | operand (quoting : Quoting) (value : String)
  deriving DecidableEq

def escapeQuote (c : Char) : List Char :=
  if c = SINGLE_QUOTE then [SINGLE_QUOTE, '\\', SINGLE_QUOTE, SINGLE_QUOTE] else [c]

def Segment.text : Segment → String
  | fixed text => text
  | operand .escaped value =>
    String.ofList (SINGLE_QUOTE :: value.toList.flatMap escapeQuote ++ [SINGLE_QUOTE])
  | operand _ value => value

/-- A comment is what stands after its mark. A copy takes its source from the context
    of the build. -/
inductive Line where
  | blank
  | comment (text : String)
  | command (segments : List Segment)
  | copy (source target : List Segment)
  deriving DecidableEq

def segmentsText (segments : List Segment) : String := String.join (segments.map (·.text))

def Line.text : Line → String
  | blank => ""
  | comment text => "#" ++ text
  | command segments => segmentsText segments
  | copy source target => "COPY " ++ segmentsText source ++ " " ++ segmentsText target

def scriptText (lines : List Line) : String := "\n".intercalate (lines.map (·.text))

def OneLine (text : String) : Prop := '\n' ∉ text.toList

instance (text : String) : Decidable (OneLine text) := inferInstanceAs (Decidable (_ ∉ _))

@[simp] theorem oneLine_append {s t : String} : OneLine (s ++ t) ↔ OneLine s ∧ OneLine t := by
  simp [OneLine]

/-- The characters a value may have where it stands; `special` are the ones a shell does
    not take literally. -/
def Quoting.admits (special : Char → Bool) : Quoting → Char → Bool
  | bare, c => !special c
  | double, c => c != '\n' && !LIVE_IN_QUOTES.contains c
  | single, c => c != '\n' && c != SINGLE_QUOTE
  | escaped, c => c != '\n'

def Clean (special : Char → Bool) (quoting : Quoting) (value : String) : Prop :=
  value.toList.all (quoting.admits special)

instance (special : Char → Bool) (quoting : Quoting) (value : String) :
    Decidable (Clean special quoting value) := inferInstanceAs (Decidable (_ = _))

def Line.isRun : Line → Bool
  | command _ => true
  | copy _ _ => true
  | _ => false

/-- The template's text up to the first value. -/
def Line.opening : Line → String
  | blank => ""
  | comment _ => "#"
  | command (.fixed text :: _) => text
  | command _ => ""
  | copy _ _ => "COPY "

theorem opening_leads (l : Line) : l.opening.toList <+: l.text.toList := by
  cases l with
  | blank => simp [Line.opening]
  | comment text => simp [Line.opening, Line.text]
  | copy source target => simp [Line.opening, Line.text, List.append_assoc]
  | command segments =>
    match segments with
    | [] => simp [Line.opening]
    | .operand _ _ :: _ => simp [Line.opening]
    | .fixed text :: rest =>
      simp [Line.opening, Line.text, segmentsText, Segment.text, String.toList_join]

def TextOpens (words : List String) (text : String) : Prop :=
  ∃ w ∈ words, w.toList <+: text.toList

def Line.Opens (words : List String) (l : Line) : Prop := l.isRun → TextOpens words l.opening

def OpensWith (words : List String) (lines : List Line) : Prop := ∀ l ∈ lines, l.Opens words

section

variable {words : List String}

theorem opens_literal {cs : List Char} (h : words.any fun w => w.toList.isPrefixOf cs) :
    TextOpens words (String.ofList cs) := by
  obtain ⟨w, hw, opens⟩ := List.any_eq_true.mp h
  exact ⟨w, hw, by simpa using List.isPrefixOf_iff_prefix.mp opens⟩

theorem opens_append {text : String} (more : String) (h : TextOpens words text) :
    TextOpens words (text ++ more) := by
  obtain ⟨w, hw, opens⟩ := h
  refine ⟨w, hw, ?_⟩
  rw [String.toList_append]
  exact opens.trans (List.prefix_append _ _)

@[simp] theorem blank_opens : Line.blank.Opens words := by simp [Line.Opens, Line.isRun]

@[simp] theorem comment_opens (text : String) : (Line.comment text).Opens words := by
  simp [Line.Opens, Line.isRun]

theorem command_opens {text : String} (rest : List Segment) (h : TextOpens words text) :
    (Line.command (.fixed text :: rest)).Opens words := fun _ => h

theorem copy_opens (source target : List Segment) (h : TextOpens words "COPY ") :
    (Line.copy source target).Opens words := fun _ => h

@[simp] theorem opensWith_nil : OpensWith words [] := by simp [OpensWith]

@[simp] theorem opensWith_cons {l : Line} {lines : List Line} :
    OpensWith words (l :: lines) ↔ l.Opens words ∧ OpensWith words lines := by
  simp [OpensWith]

@[simp] theorem opensWith_append {xs ys : List Line} :
    OpensWith words (xs ++ ys) ↔ OpensWith words xs ∧ OpensWith words ys := by
  simp [OpensWith, or_imp, forall_and]

theorem opensWith_flatMap {α : Type} {f : α → List Line} {xs : List α}
    (h : ∀ x ∈ xs, OpensWith words (f x)) : OpensWith words (xs.flatMap f) := by
  intro l hl
  obtain ⟨x, hx, hl⟩ := List.mem_flatMap.mp hl
  exact h x hx l hl

theorem opensWith_map {α : Type} {f : α → Line} {xs : List α} (h : ∀ x ∈ xs, (f x).Opens words) :
    OpensWith words (xs.map f) := by
  intro l hl
  obtain ⟨x, hx, rfl⟩ := List.mem_map.mp hl
  exact h x hx

theorem opensWith_filterMap {α : Type} {f : α → Option Line} {xs : List α}
    (h : ∀ x ∈ xs, ∀ l, f x = some l → l.Opens words) : OpensWith words (xs.filterMap f) := by
  intro l hl
  obtain ⟨x, hx, hl⟩ := List.mem_filterMap.mp hl
  exact h x hx l hl

theorem opensWith_ite {p : Prop} [Decidable p] {xs ys : List Line} (hx : OpensWith words xs)
    (hy : OpensWith words ys) : OpensWith words (if p then xs else ys) := by
  split
  · exact hx
  · exact hy

theorem OpensWith.weaken {others : List String} {lines : List Line} (h : OpensWith words lines)
    (subset : words ⊆ others) : OpensWith others lines := by
  intro l hl run
  obtain ⟨w, hw, opens⟩ := h l hl run
  exact ⟨w, subset hw, opens⟩

end

theorem run_of_prefix {l : Line} {c : Char} {word : List Char} (begins : c :: word <+: l.text.toList)
    (no_mark : c ≠ '#') : l.isRun := by
  cases l with
  | blank => simp [Line.text] at begins
  | comment text =>
    simp only [Line.text, String.toList_append] at begins
    exact absurd (List.cons_prefix_cons.mp begins).1 no_mark
  | command segments => rfl
  | copy source target => rfl

/-- Neither text begins with the other. -/
def clash (s t : String) : Bool := !(s.toList.isPrefixOf t.toList) && !(t.toList.isPrefixOf s.toList)

theorem OpensWith.not_leading {words : List String} {lines : List Line} {word : String}
    (h : OpensWith words lines) (clashes : words.all (clash word)) {l : Line} (hl : l ∈ lines)
    (run : l.isRun) : ¬ word.toList <+: l.text.toList := by
  intro begins
  obtain ⟨w, hw, opens⟩ := h l hl run
  have apart := List.all_eq_true.mp clashes w hw
  simp only [clash, Bool.and_eq_true, Bool.not_eq_true', ← Bool.not_eq_true,
    List.isPrefixOf_iff_prefix] at apart
  obtain one | other := List.prefix_or_prefix_of_prefix begins (opens.trans (opening_leads l))
  · exact apart.1 one
  · exact apart.2 other

end BuildScript
