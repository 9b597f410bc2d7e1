import Inspectah.Core.ByteCuts
import Inspectah.Redact.Scrubbers

/-!
Where the value of a key stands in its line, in bytes. What is located is what is written there,
and it is the place the scrubbers work with, which count characters.
-/
namespace Inspectah

def quotedRunBytes (line : List Char) (place : Nat) (quotes : List Char) : Option (Nat × Nat) := do
  let rest ← fromByte place line
  let opening := place + leadingBytes rest
  let quote ← (← fromByte opening line).head?
  if !quotes.contains quote then none
  else
    let inner := opening + quote.utf8Size
    let close ← findByte (· == quote) (← fromByte inner line)
    some (inner, inner + close)

def Parsed.ofOption {α : Type} : Option α → Parsed α
  | none => .nothing
  | some a => .entry a

def valueSpanBytes (line : List Char) (keyEnd : Nat) (syn : ValueSyntax) : Parsed (Nat × Nat) :=
  match splitAtByte keyEnd line with
  | none => .nothing
  | some (_, rest) =>
    match syn with
    | .jsonMember =>
      match findByte (· == ':') rest with
      | none => .nothing
      | some colon =>
        match splitAtByte colon rest with
        | none => .panics
        | some (between, _) =>
          -- A colon with more than blanks before it belongs to another member.
          if !(Text.trimChars between).isEmpty then .nothing
          else Parsed.ofOption (quotedRunBytes line (keyEnd + colon + 1) ['"'])
    | .quotedArgument => Parsed.ofOption (quotedRunBytes line keyEnd ['"', '\''])
    | .optionArgument =>
      match rest with
      | [] => .nothing
      | sep :: _ =>
        if sep != '=' && !Text.isWhitespace sep then .nothing
        else
          match fromByte (keyEnd + sep.utf8Size) line with
          | none => .panics
          | some text =>
            let start := keyEnd + sep.utf8Size + leadingBytes text
            if lineBytes line ≤ start then .nothing
            else
              match fromByte start line with
              | none => .panics
              | some value =>
                .entry (start,
                  ((findByte Text.isWhitespace value).map (start + ·)).getD (lineBytes line))
    | .assignment =>
      match rest with
      | [] => .nothing
      | sep :: _ =>
        if sep != '=' && sep != ':' then .nothing
        else
          match fromByte (keyEnd + sep.utf8Size) line with
          | none => .panics
          | some text => .entry (keyEnd + sep.utf8Size + leadingBytes text, lineBytes line)

structure ValueParts where
  lead : List Char
  value : List Char
  after : List Char

namespace ValueParts

def text (p : ValueParts) : List Char := p.lead ++ (p.value ++ p.after)

def IsQuoted (quotes : List Char) (p : ValueParts) : Prop :=
  ∃ blanks quote, p.lead = blanks ++ [quote] ∧ (∀ c ∈ blanks, Text.isWhitespace c = true) ∧
    quote ∈ quotes ∧ quote ∉ p.value ∧ p.after.head? = some quote

def IsWritten (p : ValueParts) : ValueSyntax → Prop
  | .jsonMember => ∃ blanks more, p.lead = blanks ++ ':' :: more ∧
      (∀ c ∈ blanks, Text.isWhitespace c = true) ∧ IsQuoted ['"'] { p with lead := more }
  | .quotedArgument => IsQuoted ['"', '\''] p
  | .optionArgument => ∃ sep blanks, p.lead = sep :: blanks ∧
      (sep = '=' ∨ Text.isWhitespace sep = true) ∧ (∀ c ∈ blanks, Text.isWhitespace c = true) ∧
      p.value ≠ [] ∧ (∀ c ∈ p.value, Text.isWhitespace c = false) ∧
      ∀ c ∈ p.after.head?, Text.isWhitespace c = true
  | .assignment => ∃ sep blanks, p.lead = sep :: blanks ∧ (sep = '=' ∨ sep = ':') ∧
      (∀ c ∈ blanks, Text.isWhitespace c = true) ∧
      (∀ c ∈ p.value.head?, Text.isWhitespace c = false) ∧ p.after = []

end ValueParts

def ValueSpan (line : List Char) (keyEnd : Nat) (syn : ValueSyntax) (a b : Nat) : Prop :=
  ∃ (before : List Char) (p : ValueParts), line = before ++ p.text ∧ lineBytes before = keyEnd ∧
    p.IsWritten syn ∧ a = keyEnd + lineBytes p.lead ∧ b = a + lineBytes p.value

def IsCharBoundary (line : List Char) (n : Nat) : Prop :=
  ∃ before after, line = before ++ after ∧ lineBytes before = n

def quotedParts (rest : List Char) (quotes : List Char) : Option ValueParts :=
  match rest.dropWhile Text.isWhitespace with
  | [] => none
  | quote :: inner =>
    if quotes.contains quote then
      match inner.dropWhile (· != quote) with
      | [] => none
      | close :: after =>
        some ⟨rest.takeWhile Text.isWhitespace ++ [quote], inner.takeWhile (· != quote),
          close :: after⟩
    else none

def memberParts (rest : List Char) : Option ValueParts :=
  match rest.dropWhile (· != ':') with
  | [] => none
  | colon :: more =>
    if (rest.takeWhile (· != ':')).all Text.isWhitespace then
      (quotedParts more ['"']).map fun p =>
        { p with lead := rest.takeWhile (· != ':') ++ colon :: p.lead }
    else none

def optionParts : List Char → Option ValueParts
  | [] => none
  | sep :: more =>
    if sep != '=' && !Text.isWhitespace sep then none
    else
      match more.dropWhile Text.isWhitespace with
      | [] => none
      | c :: text =>
        some ⟨sep :: more.takeWhile Text.isWhitespace, (c :: text).takeWhile (!Text.isWhitespace ·),
          (c :: text).dropWhile (!Text.isWhitespace ·)⟩

def assignmentParts : List Char → Option ValueParts
  | [] => none
  | sep :: more =>
    if sep != '=' && sep != ':' then none
    else some ⟨sep :: more.takeWhile Text.isWhitespace, more.dropWhile Text.isWhitespace, []⟩

def valueParts (rest : List Char) : ValueSyntax → Option ValueParts
  | .jsonMember => memberParts rest
  | .quotedArgument => quotedParts rest ['"', '\'']
  | .optionArgument => optionParts rest
  | .assignment => assignmentParts rest

theorem cut_iff {p : Char → Bool} {cs run rest : List Char} :
    cs.takeWhile p = run ∧ cs.dropWhile p = rest ↔
      cs = run ++ rest ∧ (∀ c ∈ run, p c = true) ∧ ∀ c ∈ rest.head?, p c = false := by
  constructor
  · rintro ⟨rfl, rfl⟩
    refine ⟨List.takeWhile_append_dropWhile.symm, fun c mem => List.mem_takeWhile_imp mem, ?_⟩
    intro c first
    have stops := List.head?_dropWhile_not p cs
    rw [Option.mem_def.mp first] at stops
    simpa using stops
  · rintro ⟨rfl, all, stops⟩
    rw [List.takeWhile_append_of_pos all, List.dropWhile_append_of_pos all]
    cases rest with
    | nil => simp
    | cons c rest =>
      have stop := stops c rfl
      simp [stop]

theorem quotedParts_iff {rest quotes : List Char} {p : ValueParts}
    (solid : ∀ q ∈ quotes, Text.isWhitespace q = false) :
    quotedParts rest quotes = some p ↔ rest = p.text ∧ p.IsQuoted quotes := by
  constructor
  · intro found
    rw [quotedParts] at found
    split at found
    · cases found
    next quote inner opened =>
    split at found
    · next known =>
      split at found
      · cases found
      next close after closed =>
      cases found
      obtain ⟨whole, blank, -⟩ := cut_iff.mp ⟨rfl, opened⟩
      obtain ⟨inside, plain, stops⟩ := cut_iff.mp ⟨rfl, closed⟩
      have same : close = quote := by simpa using stops close rfl
      refine ⟨?_, _, quote, rfl, blank, List.contains_iff_mem.mp known, ?_, congrArg some same⟩
      · rw [ValueParts.text, ← inside, List.append_assoc]
        exact whole
      · intro mem
        simpa using plain quote mem
    · cases found
  · rintro ⟨rfl, blanks, quote, lead, blank, known, plain, closed⟩
    obtain ⟨pLead, value, after⟩ := p
    cases after with
    | nil => cases closed
    | cons close after =>
      cases closed
      dsimp only at lead plain
      subst lead
      have text : ValueParts.text ⟨blanks ++ [quote], value, quote :: after⟩ =
          blanks ++ (quote :: (value ++ quote :: after)) := by
        simp [ValueParts.text]
      obtain ⟨taken, opened⟩ := cut_iff.mpr
        ⟨text, blank, fun c first => by cases first; exact solid quote known⟩
      obtain ⟨inside, closed⟩ := (@cut_iff (· != quote) (value ++ quote :: after) value _).mpr
        ⟨rfl, fun c mem => by rw [bne_iff_ne]; exact fun same => plain (same ▸ mem),
          fun c first => by cases first; simp⟩
      rw [quotedParts, taken, opened]
      dsimp only
      rw [if_pos (List.contains_iff_mem.mpr known), inside, closed]

section Written

variable {rest : List Char} {p : ValueParts}

theorem memberParts_iff :
    memberParts rest = some p ↔ rest = p.text ∧ p.IsWritten .jsonMember := by
  rw [memberParts]
  constructor
  · intro found
    split at found
    · cases found
    next colon more marked =>
    split at found
    · next blank =>
      obtain ⟨q, quoted, rfl⟩ := Option.map_eq_some_iff.mp found
      obtain ⟨rfl, written⟩ := (quotedParts_iff (by decide)).mp quoted
      obtain ⟨whole, -, stops⟩ := cut_iff.mp ⟨rfl, marked⟩
      have same : colon = ':' := by simpa using stops colon rfl
      subst same
      refine ⟨?_, _, _, rfl, List.all_eq_true.mp blank, written⟩
      rw [ValueParts.text, List.append_assoc]
      exact whole
    · cases found
  · rintro ⟨rfl, blanks, more, lead, blank, written⟩
    obtain ⟨_, value, after⟩ := p
    dsimp only at lead
    subst lead
    have text : ValueParts.text ⟨blanks ++ ':' :: more, value, after⟩ =
        blanks ++ (':' :: ValueParts.text ⟨more, value, after⟩) := by
      simp [ValueParts.text]
    have unmarked : ∀ c ∈ blanks, (c != ':') = true := by
      intro c mem
      rw [bne_iff_ne]
      rintro rfl
      exact absurd (blank ':' mem) (by decide)
    obtain ⟨taken, marked⟩ := (@cut_iff (· != ':') _ blanks _).mpr
      ⟨text, unmarked, fun c first => by cases first; rfl⟩
    rw [taken, marked]
    dsimp only
    rw [if_pos (List.all_eq_true.mpr blank),
      (quotedParts_iff (by decide)).mpr ⟨rfl, written⟩, Option.map_some]

theorem optionParts_iff :
    optionParts rest = some p ↔ rest = p.text ∧ p.IsWritten .optionArgument := by
  constructor
  · intro found
    unfold optionParts at found
    split at found
    · cases found
    next sep more =>
    split at found
    · cases found
    next parted =>
    split at found
    · cases found
    next c text reached =>
    cases found
    obtain ⟨whole, blank, stops⟩ := cut_iff.mp ⟨rfl, reached⟩
    have begun := stops c rfl
    obtain ⟨inside, solid, ends⟩ :=
      (@cut_iff (!Text.isWhitespace ·) (c :: text) _ _).mp ⟨rfl, rfl⟩
    refine ⟨?_, sep, _, rfl, ?_, blank, ?_, ?_, ?_⟩
    · rw [ValueParts.text, ← inside, List.cons_append, ← whole]
    · by_contra neither
      rw [not_or] at neither
      exact parted (by simp [neither])
    · simp [begun]
    · simpa using solid
    · simpa using ends
  · rintro ⟨rfl, sep, blanks, lead, parted, blank, filled, solid, ends⟩
    obtain ⟨_, value, after⟩ := p
    dsimp only at lead filled solid ends
    subst lead
    obtain ⟨c, text, rfl⟩ := List.exists_cons_of_ne_nil filled
    have separates : ¬ (sep != '=' && !Text.isWhitespace sep) = true := by
      rcases parted with same | blank
      · simp [same]
      · simp [blank]
    obtain ⟨taken, reached⟩ := (@cut_iff Text.isWhitespace _ blanks (c :: text ++ after)).mpr
      ⟨rfl, blank, fun d first => by cases first; exact solid c List.mem_cons_self⟩
    obtain ⟨inside, ended⟩ := (@cut_iff (!Text.isWhitespace ·) _ (c :: text) after).mpr
      ⟨rfl, fun d mem => by simp [solid d mem], fun d first => by simp [ends d first]⟩
    rw [ValueParts.text, List.cons_append, optionParts, if_neg separates, taken, reached]
    dsimp only [List.cons_append]
    rw [← List.cons_append, inside, ended]

theorem assignmentParts_iff :
    assignmentParts rest = some p ↔ rest = p.text ∧ p.IsWritten .assignment := by
  constructor
  · intro found
    unfold assignmentParts at found
    split at found
    · cases found
    next sep more =>
    split at found
    · cases found
    next parted =>
    cases found
    obtain ⟨whole, blank, stops⟩ := (@cut_iff Text.isWhitespace more _ _).mp ⟨rfl, rfl⟩
    refine ⟨?_, sep, _, rfl, ?_, blank, stops, rfl⟩
    · rw [ValueParts.text, List.append_nil, List.cons_append, ← whole]
    · by_contra neither
      rw [not_or] at neither
      exact parted (by simp [neither])
  · rintro ⟨rfl, sep, blanks, lead, parted, blank, begins, ends⟩
    obtain ⟨_, value, after⟩ := p
    dsimp only at lead begins ends
    subst lead ends
    have separates : ¬ (sep != '=' && sep != ':') = true := by
      rcases parted with same | same
      · simp [same]
      · simp [same]
    obtain ⟨taken, reached⟩ := (@cut_iff Text.isWhitespace _ blanks value).mpr
      ⟨rfl, blank, begins⟩
    rw [ValueParts.text, List.append_nil, List.cons_append, assignmentParts, if_neg separates,
      taken, reached]

theorem valueParts_iff {syn : ValueSyntax} :
    valueParts rest syn = some p ↔ rest = p.text ∧ p.IsWritten syn := by
  cases syn with
  | jsonMember => exact memberParts_iff
  | quotedArgument => exact quotedParts_iff (by decide)
  | optionArgument => exact optionParts_iff
  | assignment => exact assignmentParts_iff

end Written

section Search

variable (before rest : List Char)

def ValueParts.bytes (p : ValueParts) : Nat × Nat :=
  (lineBytes (before ++ p.lead), lineBytes (before ++ p.lead ++ p.value))

theorem quotedRunBytes_eq (quotes : List Char) :
    quotedRunBytes (before ++ rest) (lineBytes before) quotes =
      (quotedParts rest quotes).map (ValueParts.bytes before) := by
  have whole : before ++ rest = before ++ rest.takeWhile Text.isWhitespace ++
      rest.dropWhile Text.isWhitespace := by
    rw [List.append_assoc, List.takeWhile_append_dropWhile]
  have opens : lineBytes before + leadingBytes rest =
      lineBytes (before ++ rest.takeWhile Text.isWhitespace) := by
    rw [leadingBytes_eq, lineBytes_append]
  rw [quotedRunBytes, fromByte_lineBytes, quotedParts]
  simp only [Option.bind_eq_bind, Option.bind_some, opens]
  rw [whole, fromByte_lineBytes, Option.bind_some]
  cases rest.dropWhile Text.isWhitespace with
  | nil => rfl
  | cons quote inner =>
    dsimp only [List.head?_cons, Option.bind_some]
    cases known : quotes.contains quote with
    | false => rfl
    | true =>
      have behind : before ++ rest.takeWhile Text.isWhitespace ++ quote :: inner =
          (before ++ (rest.takeWhile Text.isWhitespace ++ [quote])) ++ inner := by simp
      have within : lineBytes (before ++ rest.takeWhile Text.isWhitespace) + quote.utf8Size =
          lineBytes (before ++ (rest.takeWhile Text.isWhitespace ++ [quote])) := by
        simp [lineBytes, Nat.add_assoc]
      rw [Bool.not_true, if_neg Bool.false_ne_true, within, behind, fromByte_lineBytes,
        if_pos rfl, Option.bind_some, findByte_eq,
        show (fun c => !(c == quote)) = (· != quote) from rfl]
      cases inner.dropWhile (· != quote) with
      | nil => rfl
      | cons close after => simp [ValueParts.bytes, lineBytes, Nat.add_assoc]

theorem bytes_behind (first : List Char) (p : ValueParts) :
    p.bytes (before ++ first) = ValueParts.bytes before { p with lead := first ++ p.lead } := by
  simp [ValueParts.bytes]

theorem trimChars_isEmpty (cs : List Char) :
    (Text.trimChars cs).isEmpty = cs.all Text.isWhitespace := by
  rw [Bool.eq_iff_iff, List.isEmpty_iff, List.all_eq_true, Text.trimChars, List.reverse_eq_nil_iff,
    List.dropWhile_eq_nil_iff]
  constructor
  · intro all c mem
    rw [← @List.takeWhile_append_dropWhile _ Text.isWhitespace cs] at mem
    rcases List.mem_append.mp mem with early | late
    · exact List.mem_takeWhile_imp early
    · exact all c (List.mem_reverse.mpr late)
  · intro all c mem
    exact all c ((List.dropWhile_suffix _).subset (List.mem_reverse.mp mem))

theorem after_sep (sep : Char) :
    lineBytes before + sep.utf8Size = lineBytes (before ++ [sep]) := by
  simp [lineBytes]

theorem behind_sep (sep : Char) (more : List Char) :
    before ++ sep :: more = (before ++ [sep]) ++ more := by
  simp

theorem valueSpanBytes_eq (syn : ValueSyntax) :
    valueSpanBytes (before ++ rest) (lineBytes before) syn =
      Parsed.ofOption ((valueParts rest syn).map (ValueParts.bytes before)) := by
  rw [valueSpanBytes, splitAtByte_lineBytes]
  dsimp only
  cases syn with
  | jsonMember =>
    dsimp only
    rw [findByte_eq, valueParts, memberParts, show (fun c => !(c == ':')) = (· != ':') from rfl]
    cases marked : rest.dropWhile (· != ':') with
    | nil => rfl
    | cons colon more =>
      dsimp only
      obtain ⟨whole, -, stops⟩ := cut_iff.mp ⟨rfl, marked⟩
      have same : colon = ':' := by simpa using stops colon rfl
      have between := splitAtByte_lineBytes (rest.takeWhile (· != ':')) (colon :: more)
      rw [← whole] at between
      have behind : before ++ rest =
          (before ++ (rest.takeWhile (· != ':') ++ [colon])) ++ more := by
        rw [List.append_assoc, List.append_assoc, List.singleton_append, ← whole]
      have place : lineBytes before + lineBytes (rest.takeWhile (· != ':')) + 1 =
          lineBytes (before ++ (rest.takeWhile (· != ':') ++ [colon])) := by
        rw [lineBytes_append, lineBytes_append, same, Nat.add_assoc]
        rfl
      rw [between]
      dsimp only
      rw [place, behind, quotedRunBytes_eq]
      rw [trimChars_isEmpty]
      cases blank : (rest.takeWhile (· != ':')).all Text.isWhitespace with
      | false => rfl
      | true =>
        rw [Bool.not_true, if_neg Bool.false_ne_true, if_pos rfl, Option.map_map]
        congr 2
        funext p
        rw [bytes_behind, Function.comp_apply, List.append_assoc, List.singleton_append]
  | quotedArgument => exact congrArg Parsed.ofOption (quotedRunBytes_eq before rest _)
  | optionArgument =>
    cases rest with
    | nil => rfl
    | cons sep more =>
      dsimp only
      rw [after_sep, valueParts, optionParts]
      cases parted : sep != '=' && !Text.isWhitespace sep with
      | true => rfl
      | false =>
        rw [if_neg Bool.false_ne_true, if_neg Bool.false_ne_true, behind_sep before sep more,
          fromByte_lineBytes]
        dsimp only
        have whole : before ++ [sep] ++ more =
            before ++ [sep] ++ more.takeWhile Text.isWhitespace ++
              more.dropWhile Text.isWhitespace := by
          rw [List.append_assoc _ (more.takeWhile _), List.takeWhile_append_dropWhile]
        rw [leadingBytes_eq, ← lineBytes_append, whole]
        cases more.dropWhile Text.isWhitespace with
        | nil =>
          rw [List.append_nil, if_pos le_rfl]
          rfl
        | cons c text =>
          have longer :
              ¬ lineBytes (before ++ [sep] ++ more.takeWhile Text.isWhitespace ++ c :: text) ≤
                lineBytes (before ++ [sep] ++ more.takeWhile Text.isWhitespace) := by
            have size := c.utf8Size_pos
            rw [lineBytes_append _ (c :: text), lineBytes, lineBytes, List.map_cons, List.sum_cons]
            omega
          rw [if_neg longer, fromByte_lineBytes]
          dsimp only
          rw [findByte_eq]
          have value : (c :: text).takeWhile (!Text.isWhitespace ·) ++
              (c :: text).dropWhile (!Text.isWhitespace ·) = c :: text :=
            List.takeWhile_append_dropWhile
          cases ended : (c :: text).dropWhile (!Text.isWhitespace ·) with
          | nil =>
            rw [ended, List.append_nil] at value
            rw [value]
            simp [Parsed.ofOption, ValueParts.bytes]
          | cons d after =>
            simp [Parsed.ofOption, ValueParts.bytes, lineBytes, Nat.add_assoc]
  | assignment =>
    cases rest with
    | nil => rfl
    | cons sep more =>
      dsimp only
      rw [after_sep, valueParts, assignmentParts]
      cases parted : sep != '=' && sep != ':' with
      | true => rfl
      | false =>
        rw [if_neg Bool.false_ne_true, if_neg Bool.false_ne_true, behind_sep before sep more,
          fromByte_lineBytes]
        dsimp only
        rw [leadingBytes_eq, ← lineBytes_append]
        simp [Parsed.ofOption, ValueParts.bytes]

def ValueParts.chars (p : ValueParts) : Nat × Nat :=
  ((before ++ p.lead).length, (before ++ p.lead ++ p.value).length)

theorem findIdx_eq (p : Char → Bool) (cs : List Char) :
    cs.findIdx? p = match cs.dropWhile (!p ·) with
      | [] => none
      | _ :: _ => some (cs.takeWhile (!p ·)).length := by
  induction cs with
  | nil => rfl
  | cons c cs ih =>
    rw [List.findIdx?_cons]
    cases hit : p c with
    | true => simp [hit]
    | false =>
      rw [if_neg Bool.false_ne_true, ih, List.dropWhile_cons_of_pos (by simp [hit]),
        List.takeWhile_cons_of_pos (by simp [hit])]
      cases cs.dropWhile (!p ·) with
      | nil => rfl
      | cons d more => simp

theorem quotedRun_eq (quotes : List Char) :
    quotedRun (before ++ rest) before.length quotes =
      (quotedParts rest quotes).map (ValueParts.chars before) := by
  have whole : before ++ rest = before ++ rest.takeWhile Text.isWhitespace ++
      rest.dropWhile Text.isWhitespace := by
    rw [List.append_assoc, List.takeWhile_append_dropWhile]
  have opens : before.length + leadingWhitespace ((before ++ rest).drop before.length) =
      (before ++ rest.takeWhile Text.isWhitespace).length := by
    rw [List.drop_left, leadingWhitespace, List.length_append]
  rw [quotedRun, quotedParts, opens, whole, List.drop_left]
  cases rest.dropWhile Text.isWhitespace with
  | nil => rfl
  | cons quote inner =>
    dsimp only
    cases known : quotes.contains quote with
    | false => rfl
    | true =>
      rw [if_pos rfl, if_pos rfl, findIdx_eq,
        show (fun c => !(c == quote)) = (· != quote) from rfl]
      cases inner.dropWhile (· != quote) with
      | nil => rfl
      | cons close after =>
        simp only [ValueParts.chars, Option.map_some, List.length_append, List.length_singleton,
          Option.some.injEq, Prod.mk.injEq]
        omega

theorem chars_behind (first : List Char) (p : ValueParts) :
    p.chars (before ++ first) = ValueParts.chars before { p with lead := first ++ p.lead } := by
  simp [ValueParts.chars]

theorem valueSpanAfterKey_eq (syn : ValueSyntax) :
    valueSpanAfterKey (before ++ rest) before.length syn =
      (valueParts rest syn).map (ValueParts.chars before) := by
  cases syn with
  | jsonMember =>
    rw [valueSpanAfterKey, List.drop_left, valueParts, memberParts, findIdx_eq,
      show (fun c => !(c == ':')) = (· != ':') from rfl]
    cases marked : rest.dropWhile (· != ':') with
    | nil => rfl
    | cons colon more =>
      dsimp only [Option.bind_some]
      obtain ⟨whole, -, -⟩ := cut_iff.mp ⟨rfl, marked⟩
      have between : rest.take (rest.takeWhile (· != ':')).length = rest.takeWhile (· != ':') :=
        (List.prefix_iff_eq_take.mp (List.takeWhile_prefix _)).symm
      have behind : before ++ rest =
          (before ++ (rest.takeWhile (· != ':') ++ [colon])) ++ more := by
        rw [List.append_assoc, List.append_assoc, List.singleton_append, ← whole]
      have place : before.length + (rest.takeWhile (· != ':')).length + 1 =
          (before ++ (rest.takeWhile (· != ':') ++ [colon])).length := by
        simp [Nat.add_assoc]
      rw [between, place, behind, quotedRun_eq]
      cases blank : (rest.takeWhile (· != ':')).all Text.isWhitespace with
      | false => rfl
      | true =>
        rw [if_pos rfl, if_pos rfl, Option.map_map]
        congr 2
        funext p
        rw [chars_behind, Function.comp_apply, List.append_assoc, List.singleton_append]
  | quotedArgument => exact quotedRun_eq before rest _
  | optionArgument =>
    rw [valueSpanAfterKey, List.drop_left, valueParts]
    cases rest with
    | nil => rfl
    | cons sep more =>
      dsimp only
      rw [optionParts]
      cases parted : sep != '=' && !Text.isWhitespace sep with
      | true => rfl
      | false =>
        have whole : before ++ sep :: more = (before ++ sep :: more.takeWhile Text.isWhitespace) ++
            more.dropWhile Text.isWhitespace := by
          rw [List.append_assoc, List.cons_append, List.takeWhile_append_dropWhile]
        have start : before.length + 1 + leadingWhitespace more =
            (before ++ sep :: more.takeWhile Text.isWhitespace).length := by
          simp only [leadingWhitespace, List.length_append, List.length_cons]
          omega
        rw [if_neg Bool.false_ne_true, if_neg Bool.false_ne_true, start, whole, List.drop_left]
        cases more.dropWhile Text.isWhitespace with
        | nil =>
          rw [List.append_nil, if_pos le_rfl]
          rfl
        | cons c text =>
          rw [if_neg (by simp)]
          simp only [ValueParts.chars, Option.map_some, List.length_append, List.length_cons]
  | assignment =>
    rw [valueSpanAfterKey, List.drop_left, valueParts]
    cases rest with
    | nil => rfl
    | cons sep more =>
      dsimp only
      rw [assignmentParts]
      cases parted : sep != '=' && sep != ':' with
      | true => rfl
      | false =>
        rw [if_neg Bool.false_ne_true, if_neg Bool.false_ne_true]
        have run : (more.takeWhile Text.isWhitespace).length +
            (more.dropWhile Text.isWhitespace).length = more.length := by
          rw [← List.length_append, List.takeWhile_append_dropWhile]
        simp only [ValueParts.chars, Option.map_some, List.length_append, List.length_cons,
          leadingWhitespace, Option.some.injEq, Prod.mk.injEq]
        omega

theorem valueSpanBytes_of_chars (syn : ValueSyntax) :
    valueSpanBytes (before ++ rest) (lineBytes before) syn =
      Parsed.ofOption ((valueSpanAfterKey (before ++ rest) before.length syn).map fun span =>
        (lineBytes ((before ++ rest).take span.1), lineBytes ((before ++ rest).take span.2))) := by
  rw [valueSpanBytes_eq, valueSpanAfterKey_eq, Option.map_map]
  cases found : valueParts rest syn with
  | none => rfl
  | some p =>
    obtain ⟨rfl, -⟩ := valueParts_iff.mp found
    have opened : before ++ p.text = (before ++ p.lead) ++ (p.value ++ p.after) := by
      rw [ValueParts.text, List.append_assoc]
    have closed : before ++ p.text = (before ++ p.lead ++ p.value) ++ p.after := by
      simp [ValueParts.text]
    have first : (before ++ p.text).take (before ++ p.lead).length = before ++ p.lead := by
      rw [opened, List.take_left]
    have second : (before ++ p.text).take (before ++ p.lead ++ p.value).length =
        before ++ p.lead ++ p.value := by
      rw [closed, List.take_left]
    rw [Option.map_some, Option.map_some, Function.comp_apply, ValueParts.chars, first, second,
      ValueParts.bytes]

end Search

theorem valueSpan_iff {before rest : List Char} {syn : ValueSyntax} {a b : Nat} :
    ValueSpan (before ++ rest) (lineBytes before) syn a b ↔
      ∃ p, valueParts rest syn = some p ∧ (a, b) = p.bytes before := by
  constructor
  · rintro ⟨start, p, whole, place, written, rfl, rfl⟩
    have cut := splitAtByte_lineBytes start p.text
    rw [place, ← whole, splitAtByte_lineBytes] at cut
    cases cut
    refine ⟨p, valueParts_iff.mpr ⟨rfl, written⟩, ?_⟩
    rw [ValueParts.bytes, lineBytes_append, lineBytes_append, lineBytes_append]
  · rintro ⟨p, found, same⟩
    obtain ⟨rfl, written⟩ := valueParts_iff.mp found
    cases same
    refine ⟨before, p, rfl, rfl, written, ?_, ?_⟩
    · rw [lineBytes_append]
    · rw [lineBytes_append]

theorem ValueSpan.bounds {line : List Char} {keyEnd a b : Nat} {syn : ValueSyntax}
    (span : ValueSpan line keyEnd syn a b) :
    keyEnd ≤ a ∧ a ≤ b ∧ b ≤ lineBytes line ∧ IsCharBoundary line a ∧ IsCharBoundary line b := by
  obtain ⟨before, p, rfl, rfl, -, rfl, rfl⟩ := span
  refine ⟨by omega, by omega, ?_, ⟨before ++ p.lead, p.value ++ p.after, ?_, ?_⟩,
    ⟨before ++ p.lead ++ p.value, p.after, ?_, ?_⟩⟩
  · simp only [ValueParts.text, lineBytes_append]
    omega
  · rw [ValueParts.text, List.append_assoc]
  · rw [lineBytes_append]
  · simp [ValueParts.text]
  · rw [lineBytes_append, lineBytes_append]

/-- A value is located where one is written behind the key, on character boundaries, and only
    there. -/
theorem valueSpan_located (line : List Char) (keyEnd : Nat) (syn : ValueSyntax) :
    (∀ a b, valueSpanBytes line keyEnd syn = .entry (a, b) →
      keyEnd ≤ a ∧ a ≤ b ∧ b ≤ lineBytes line ∧ IsCharBoundary line a ∧ IsCharBoundary line b ∧
        ValueSpan line keyEnd syn a b) ∧
    (valueSpanBytes line keyEnd syn = .nothing → ¬∃ a b, ValueSpan line keyEnd syn a b) ∧
    valueSpanBytes line keyEnd syn ≠ .panics := by
  cases cut : splitAtByte keyEnd line with
  | none =>
    have nowhere : valueSpanBytes line keyEnd syn = .nothing := by
      rw [valueSpanBytes, cut]
    rw [nowhere]
    refine ⟨fun a b same => (by cases same), ?_, fun same => (by cases same)⟩
    rintro - ⟨a, b, before, p, rfl, rfl, -⟩
    rw [splitAtByte_lineBytes] at cut
    cases cut
  | some parts =>
    obtain ⟨before, rest⟩ := parts
    obtain ⟨rfl, rfl⟩ := splitAtByte_append cut
    rw [valueSpanBytes_eq]
    cases found : valueParts rest syn with
    | none =>
      refine ⟨fun a b same => (by cases same), ?_, fun same => (by cases same)⟩
      rintro - ⟨a, b, span⟩
      obtain ⟨p, written, -⟩ := valueSpan_iff.mp span
      rw [found] at written
      cases written
    | some p =>
      refine ⟨?_, fun same => (by cases same), fun same => (by cases same)⟩
      intro a b same
      cases same
      have span : ValueSpan (before ++ rest) (lineBytes before) syn _ _ :=
        valueSpan_iff.mpr ⟨p, found, rfl⟩
      obtain ⟨low, order, high, first, last⟩ := span.bounds
      exact ⟨low, order, high, first, last, span⟩

end Inspectah
