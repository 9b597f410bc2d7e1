import Inspectah.Redact.Scrubbers

/-!
What scrubbing a compose file does to a line: an assignment keeps its key and gets a new value, any
other line stays, and a line that is scrubbed stays when it is scrubbed again.
-/
namespace Inspectah

open Spans

/-- An assignment as a line of a compose file. With a colon it is one to a variable and has a
    value. -/
structure ComposeAssignment where
  indent : List Char
  dash : List Char
  key : List Char
  sep : Char
  rest : List Char
  indented : ∀ c ∈ indent, Text.isWhitespace c = true
  dashed : dash = [] ∨ dash = ['-', ' ']
  keyed : key ≠ [] ∧ ∀ c ∈ key, isKeyChar c = true
  separated : sep = '=' ∨ sep = ':' ∧ (∀ c ∈ key, isEnvNameChar c = true) ∧
    (∃ c ∈ key, c.isUpper = true) ∧ ∃ c ∈ rest, Text.isWhitespace c = false

def hasSecretName (text : List Char) : Bool :=
  SECRET_NAMES.any fun name => Text.containsChars name.toList (text.flatMap upperChars)

def USER_REDACTED : List Char := COMPOSE_REDACTED ++ ':' :: COMPOSE_REDACTED

namespace ComposeAssignment

variable (a : ComposeAssignment)

def head : List Char := a.indent ++ a.dash ++ a.key ++ [a.sep]

def line : List Char := a.head ++ a.rest

def value : List Char := Text.trimChars a.rest

def lead : List Char := if a.value = [] then [] else a.rest.takeWhile Text.isWhitespace

def Routed : Prop := hasUrlCredentials a.value = true ∨ hasSecretName (Text.trimChars a.line) = true

def withValue (new : List Char) : List Char := a.head ++ (a.lead ++ new)

end ComposeAssignment

theorem hasSecretName_of_infix {part text : List Char} (inside : part <:+: text)
    (named : hasSecretName part = true) : hasSecretName text = true := by
  obtain ⟨name, listed, found⟩ := List.any_eq_true.mp named
  refine List.any_eq_true.mpr ⟨name, listed, ?_⟩
  obtain ⟨front, back, rfl⟩ := inside
  rw [containsChars_iff] at found ⊢
  rw [List.flatMap_append, List.flatMap_append]
  exact found.trans (List.infix_append _ _ _)

theorem keyChar_plain {c : Char} (h : isKeyChar c = true) : Text.isWhitespace c = false := by
  rw [isKeyChar, Bool.or_eq_true, Bool.or_eq_true, Bool.or_eq_true] at h
  rcases h with ((letter | under) | dot) | dash
  · exact Text.isWhitespace_alphanum letter
  · rw [eq_of_beq under]
    rfl
  · rw [eq_of_beq dot]
    rfl
  · rw [eq_of_beq dash]
    rfl

namespace ComposeAssignment

variable (a : ComposeAssignment)

theorem sep_cases : a.sep = '=' ∨ a.sep = ':' := a.separated.imp id And.left

theorem sep_plain : Text.isWhitespace a.sep = false := by
  rcases a.sep_cases with h | h <;> rw [h] <;> rfl

theorem sep_not_key : isKeyChar a.sep = false := by
  rcases a.sep_cases with h | h <;> rw [h] <;> rfl

theorem lead_blank : ∀ c ∈ a.lead, Text.isWhitespace c = true := by
  intro c mem
  rw [lead] at mem
  split at mem
  · cases mem
  · exact List.mem_takeWhile_imp mem

theorem rest_split : ∃ tail, (∀ c ∈ tail, Text.isWhitespace c = true) ∧
    a.rest = a.lead ++ a.value ++ tail := by
  obtain ⟨lead, tail, before, after, whole⟩ := exists_trimChars a.rest
  change a.rest = lead ++ a.value ++ tail at whole
  rw [ComposeAssignment.lead]
  split
  · next none =>
    rw [none, List.append_nil] at whole
    refine ⟨a.rest, fun c mem => ?_, by rw [none]; rfl⟩
    rw [whole] at mem
    exact (List.mem_append.mp mem).elim (before c) (after c)
  · next some =>
    obtain ⟨c, more, first⟩ := List.exists_cons_of_ne_nil some
    have plain : Text.isWhitespace c = false := ends_trimChars (.inl (by
      change a.value.head? = _
      rw [first, List.head?_cons]))
    have blanks : a.rest.takeWhile Text.isWhitespace = lead := by
      rw [whole, List.append_assoc, List.takeWhile_append_of_pos before, first, List.cons_append,
        List.takeWhile_cons_of_neg (by rw [plain]; exact Bool.false_ne_true), List.append_nil]
    exact ⟨tail, after, by rw [blanks]; exact whole⟩

/-- The line without its indentation, up to where the value ends. -/
def body : List Char := a.key ++ a.sep :: (a.lead ++ a.value)

theorem body_opens : ∃ c more, a.dash ++ a.body = c :: more ∧ isKeyChar c = true := by
  rcases a.dashed with none | dash
  · obtain ⟨c, more, whole⟩ := List.exists_cons_of_ne_nil a.keyed.1
    refine ⟨c, more ++ a.sep :: (a.lead ++ a.value), ?_, a.keyed.2 c (by simp [whole])⟩
    rw [none, List.nil_append, body, whole, List.cons_append]
  · exact ⟨'-', ' ' :: a.body, by rw [dash]; rfl, rfl⟩

theorem body_ends {c : Char} (h : (a.dash ++ a.body).head? = some c ∨
    (a.dash ++ a.body).getLast? = some c) : Text.isWhitespace c = false := by
  rcases h with first | last
  · obtain ⟨d, more, whole, letter⟩ := a.body_opens
    rw [whole, List.head?_cons] at first
    cases first
    exact keyChar_plain letter
  · rw [body, ← List.append_assoc, List.getLast?_append] at last
    by_cases none : a.value = []
    · rw [none, lead, if_pos none] at last
      cases last
      exact a.sep_plain
    · obtain ⟨front, d, whole⟩ := List.eq_nil_or_concat a.value |>.resolve_left none
      rw [← List.cons_append, List.getLast?_append, whole, List.concat_eq_append,
        List.getLast?_concat] at last
      cases last
      exact ends_trimChars (.inr (by
        change a.value.getLast? = _
        rw [whole, List.concat_eq_append, List.getLast?_concat]))

theorem trimChars_line : Text.trimChars a.line = a.dash ++ a.body := by
  obtain ⟨tail, after, whole⟩ := a.rest_split
  have parts : a.line = a.indent ++ (a.dash ++ a.body) ++ tail := by
    rw [line, head, whole, body]
    simp
  rw [parts]
  exact trimChars_between a.indented after fun c => a.body_ends

theorem takeWhile_line : a.line.takeWhile Text.isWhitespace = a.indent := by
  obtain ⟨tail, -, whole⟩ := a.rest_split
  have parts : a.line = a.indent ++ ((a.dash ++ a.body) ++ tail) := by
    rw [line, head, whole, body]
    simp
  obtain ⟨c, more, first, letter⟩ := a.body_opens
  have plain := keyChar_plain letter
  rw [parts, List.takeWhile_append_of_pos a.indented, first, List.cons_append,
    List.takeWhile_cons_of_neg (by rw [plain]; exact Bool.false_ne_true), List.append_nil]

theorem dash_read : (if ['-', ' '].isPrefixOf (a.dash ++ a.body) then 2 else 0) =
    a.dash.length := by
  rcases a.dashed with none | some
  · rw [none, if_neg]
    · rfl
    · rw [List.nil_append, body]
      obtain ⟨k, more, whole⟩ := List.exists_cons_of_ne_nil a.keyed.1
      intro here
      rw [whole, List.cons_append, List.isPrefixOf_cons_cons, Bool.and_eq_true] at here
      cases more with
      | nil =>
        have same := here.2
        rw [List.nil_append, List.isPrefixOf_cons_cons, Bool.and_eq_true] at same
        have blank := a.sep_plain
        rw [← eq_of_beq same.1] at blank
        cases blank
      | cons d others =>
        have same := here.2
        rw [List.cons_append, List.isPrefixOf_cons_cons, Bool.and_eq_true] at same
        have blank := keyChar_plain (a.keyed.2 d (by rw [whole]; simp))
        rw [← eq_of_beq same.1] at blank
        cases blank
  · rw [some, if_pos]
    · rfl
    · exact List.isPrefixOf_iff_prefix.mpr (List.prefix_append _ _)

theorem value_of_colon (h : a.sep = ':') : a.value ≠ [] := by
  rcases a.separated with other | ⟨-, -, -, c, mem, plain⟩
  · rw [h] at other
    cases other
  · intro none
    obtain ⟨lead, tail, before, after, whole⟩ := exists_trimChars a.rest
    change a.rest = lead ++ a.value ++ tail at whole
    rw [whole, none, List.append_nil, List.mem_append] at mem
    rcases mem with front | back
    · rw [before c front] at plain
      cases plain
    · rw [after c back] at plain
      cases plain

theorem takeWhile_body : a.body.takeWhile isKeyChar = a.key := by
  rw [body, List.takeWhile_append_of_pos a.keyed.2,
    List.takeWhile_cons_of_neg (by rw [a.sep_not_key]; exact Bool.false_ne_true), List.append_nil]

theorem dropWhile_body : a.body.dropWhile isKeyChar = a.sep :: (a.lead ++ a.value) := by
  rw [body, List.dropWhile_append_of_pos a.keyed.2,
    List.dropWhile_cons_of_neg (by rw [a.sep_not_key]; exact Bool.false_ne_true)]

theorem assignmentKeyLen_body : assignmentKeyLen a.body = some a.key.length := by
  have filled : a.key.isEmpty = false := by simpa using a.keyed.1
  rw [assignmentKeyLen, a.takeWhile_body, a.dropWhile_body]
  dsimp only
  rw [filled, if_neg Bool.false_ne_true]
  rcases a.separated with eq | ⟨colon, upper, ⟨c, mem, letter⟩, -⟩
  · rw [if_pos eq]
  · have value : (a.lead ++ a.value).all Text.isWhitespace = false := by
      obtain ⟨c, more, first⟩ := List.exists_cons_of_ne_nil (a.value_of_colon colon)
      have plain : Text.isWhitespace c = false := ends_trimChars (.inl (by
        change a.value.head? = _
        rw [first, List.head?_cons]))
      simp [first, plain]
    have all : a.key.all isEnvNameChar = true := List.all_eq_true.mpr upper
    have any : a.key.any Char.isUpper = true := List.any_eq_true.mpr ⟨c, mem, letter⟩
    rw [colon, if_neg (by decide), if_pos rfl, all, any, value]
    rfl

theorem leadingWhitespace_value : leadingWhitespace (a.lead ++ a.value) = a.lead.length := by
  rw [leadingWhitespace, List.takeWhile_append_of_pos a.lead_blank]
  cases first : a.value with
  | nil => simp
  | cons c more =>
    have plain : Text.isWhitespace c = false := ends_trimChars (.inl (by
      change a.value.head? = _
      rw [first, List.head?_cons]))
    rw [List.takeWhile_cons_of_neg (by rw [plain]; exact Bool.false_ne_true), List.append_nil]

theorem valueSpan_body : valueSpanAfterKey a.body a.key.length .assignment =
    some (a.key.length + 1 + a.lead.length, a.body.length) := by
  have after : a.body.drop a.key.length = a.sep :: (a.lead ++ a.value) := by
    rw [body, List.drop_left]
  rw [valueSpanAfterKey, after]
  dsimp only
  rw [if_neg, a.leadingWhitespace_value]
  rcases a.sep_cases with h | h <;> rw [h] <;> decide

theorem body_parts : a.body = (a.key ++ a.sep :: a.lead) ++ a.value := by
  rw [body]
  simp

theorem length_front : (a.key ++ a.sep :: a.lead).length = a.key.length + 1 + a.lead.length := by
  rw [List.length_append, List.length_cons]
  omega

theorem scrubComposeLine_line : scrubComposeLine a.line =
    if hasUrlCredentials a.value then a.withValue (scrubUrlCredentials a.value)
    else if hasSecretName (Text.trimChars a.line) then a.withValue COMPOSE_REDACTED
    else a.line := by
  have value : slice a.body (a.key.length + 1 + a.lead.length) a.body.length = a.value := by
    rw [slice, List.take_length, ← a.length_front, a.body_parts, List.drop_left]
  have front : a.body.take (a.key.length + 1 + a.lead.length) = a.key ++ a.sep :: a.lead := by
    rw [← a.length_front, a.body_parts, List.take_left]
  have comment : ((a.dash ++ a.body).isEmpty || ['#'].isPrefixOf (a.dash ++ a.body)) = false := by
    obtain ⟨c, more, first, letter⟩ := a.body_opens
    have other : c ≠ '#' := by
      rintro rfl
      cases letter
    simp [first, List.isPrefixOf, other.symm]
  have written (new : List Char) : a.indent ++ (a.dash ++ a.body).take a.dash.length ++
      (a.key ++ a.sep :: a.lead) ++ new = a.withValue new := by
    rw [List.take_left, withValue, head]
    simp
  rw [hasSecretName, scrubComposeLine, a.trimChars_line]
  dsimp only
  rw [comment, if_neg Bool.false_ne_true, a.dash_read, List.drop_left, a.assignmentKeyLen_body,
    Option.bind_some, a.valueSpan_body]
  dsimp only
  rw [value, front, a.takeWhile_line, written, written]

end ComposeAssignment

theorem assignmentKeyLen_some {body : List Char} {len : Nat} (h : assignmentKeyLen body = some len) :
    ∃ key sep rest, body = key ++ sep :: rest ∧ key ≠ [] ∧ (∀ c ∈ key, isKeyChar c = true) ∧
      (sep = '=' ∨ sep = ':' ∧ (∀ c ∈ key, isEnvNameChar c = true) ∧
        (∃ c ∈ key, c.isUpper = true) ∧ ∃ c ∈ rest, Text.isWhitespace c = false) := by
  rw [assignmentKeyLen] at h
  split at h
  · cases h
  · next sep rest after =>
    refine ⟨body.takeWhile isKeyChar, sep, rest, ?_, ?_, fun c mem => List.mem_takeWhile_imp mem, ?_⟩
    · rw [← after, List.takeWhile_append_dropWhile]
    · rintro none
      rw [none] at h
      cases h
    · split at h
      · cases h
      · split at h
        · next eq => exact .inl eq
        · split at h
          · next colon =>
            split at h
            · cases h
            · next upper =>
              split at h
              · cases h
              · next filled =>
                rw [Bool.or_eq_true, not_or, Bool.not_eq_true', Bool.not_eq_false,
                  Bool.not_eq_true', Bool.not_eq_false] at upper
                refine .inr ⟨colon, List.all_eq_true.mp upper.1, List.any_eq_true.mp upper.2, ?_⟩
                rw [List.all_eq_true] at filled
                push Not at filled
                simpa using filled
          · cases h

theorem scrubComposeLine_other {line : List Char} (other : ∀ a : ComposeAssignment, a.line ≠ line) :
    scrubComposeLine line = line := by
  obtain ⟨indent, tail, before, after, whole⟩ := exists_trimChars line
  rw [scrubComposeLine]
  dsimp only
  split
  · rfl
  · split
    · rfl
    · next span found =>
      exfalso
      obtain ⟨len, key, -⟩ := Option.bind_eq_some_iff.mp found
      obtain ⟨key, sep, rest, body, ne, letters, separated⟩ := assignmentKeyLen_some key
      obtain ⟨dash, dashed, parts⟩ : ∃ dash, (dash = [] ∨ dash = ['-', ' ']) ∧
          Text.trimChars line = dash ++ (key ++ sep :: rest) := by
        by_cases entry : ['-', ' '].isPrefixOf (Text.trimChars line) = true
        · obtain ⟨more, dash⟩ := List.isPrefixOf_iff_prefix.mp entry
          refine ⟨['-', ' '], .inr rfl, ?_⟩
          rw [if_pos entry, ← dash] at body
          rw [← dash, ← body]
          rfl
        · refine ⟨[], .inl rfl, ?_⟩
          rw [if_neg entry] at body
          exact body
      refine other ⟨indent, dash, key, sep, rest ++ tail, before, dashed, ⟨ne, letters⟩,
        separated.imp id fun colon => ⟨colon.1, colon.2.1, colon.2.2.1, ?_⟩⟩ ?_
      · obtain ⟨c, mem, plain⟩ := colon.2.2.2
        exact ⟨c, List.mem_append_left _ mem, plain⟩
      · rw [whole, parts]
        simp [ComposeAssignment.line, ComposeAssignment.head]

theorem urlUser_eq_some {value front user back : List Char} :
    urlUser value = some (front, user, back) ↔ ∃ scheme rest after,
      Text.findChars SCHEME_END value = some (scheme, rest) ∧
      Text.findChars ['@'] rest = some (user, after) ∧
      front = scheme ++ SCHEME_END ∧ back = '@' :: after := by
  rw [urlUser, Option.bind_eq_some_iff]
  constructor
  · rintro ⟨⟨scheme, rest⟩, found, h⟩
    obtain ⟨⟨name, after⟩, at_sign, same⟩ := Option.map_eq_some_iff.mp h
    cases same
    exact ⟨scheme, rest, after, found, at_sign, rfl, rfl⟩
  · rintro ⟨scheme, rest, after, found, at_sign, rfl, rfl⟩
    exact ⟨(scheme, rest), found, Option.map_eq_some_iff.mpr ⟨(user, after), at_sign, rfl⟩⟩

theorem urlUser_split {value front user back : List Char}
    (h : urlUser value = some (front, user, back)) : value = front ++ user ++ back := by
  obtain ⟨scheme, rest, after, found, at_sign, rfl, rfl⟩ := urlUser_eq_some.mp h
  rw [findChars_split found, findChars_split at_sign]
  simp

/-- The user can be another that has no `@`. -/
theorem urlUser_other {value front user back : List Char}
    (h : urlUser value = some (front, user, back)) {other : List Char} (plain : '@' ∉ other) :
    urlUser (front ++ other ++ back) = some (front, other, back) := by
  obtain ⟨scheme, rest, after, found, at_sign, rfl, rfl⟩ := urlUser_eq_some.mp h
  have whole := findChars_split found
  rw [whole] at found
  refine urlUser_eq_some.mpr ⟨scheme, other ++ '@' :: after, after, ?_, ?_, rfl, rfl⟩
  · rw [List.append_assoc]
    exact findChars_after (by decide) found _
  · have hit := @findChars_first '@' [] other plain after
    rwa [List.append_assoc] at hit

theorem plain_user : '@' ∉ USER_REDACTED := by decide

theorem scrubUrlCredentials_some {value front user back : List Char}
    (h : urlUser value = some (front, user, back)) :
    scrubUrlCredentials value = front ++ USER_REDACTED ++ back := by
  rw [scrubUrlCredentials, h]
  simp [USER_REDACTED]

theorem urlUser_scrubbed {value front user back : List Char}
    (h : urlUser value = some (front, user, back)) :
    urlUser (scrubUrlCredentials value) = some (front, USER_REDACTED, back) := by
  rw [scrubUrlCredentials_some h]
  exact urlUser_other h plain_user

theorem urlUser_of_credentials {value : List Char} (h : hasUrlCredentials value = true) :
    ∃ front user back, urlUser value = some (front, user, back) ∧ ':' ∈ user := by
  rw [hasUrlCredentials, Option.any_eq_true] at h
  obtain ⟨⟨front, user, back⟩, found, colon⟩ := h
  exact ⟨front, user, back, found, List.contains_iff_mem.mp colon⟩

theorem credentials_of_urlUser {value front user back : List Char}
    (h : urlUser value = some (front, user, back)) (colon : ':' ∈ user) :
    hasUrlCredentials value = true := by
  rw [hasUrlCredentials, h, Option.any_some]
  exact List.contains_iff_mem.mpr colon

/-- A text that has no blank at either end. -/
def IsValue (text : List Char) : Prop :=
  text ≠ [] ∧ ∀ c, text.head? = some c ∨ text.getLast? = some c → Text.isWhitespace c = false

theorem isValue_redacted : IsValue COMPOSE_REDACTED := by
  refine ⟨by decide, ?_⟩
  rintro c (h | h) <;> cases h <;> rfl

namespace ComposeAssignment

variable (a : ComposeAssignment)

theorem isValue_scrubbed (found : hasUrlCredentials a.value = true) :
    IsValue (scrubUrlCredentials a.value) := by
  obtain ⟨front, user, back, found, -⟩ := urlUser_of_credentials found
  have split := urlUser_split found
  obtain ⟨scheme, rest, after, -, -, rfl, rfl⟩ := urlUser_eq_some.mp found
  rw [scrubUrlCredentials_some found]
  refine ⟨by simp, ?_⟩
  rintro c (first | last)
  · refine ends_trimChars (.inl (?_ : a.value.head? = some c))
    rw [split]
    cases scheme <;> exact first
  · refine ends_trimChars (.inr (?_ : a.value.getLast? = some c))
    rw [split, List.getLast?_append]
    rw [List.getLast?_append] at last
    exact last

variable {new : List Char} (is : IsValue new)

def assign : ComposeAssignment where
  indent := a.indent
  dash := a.dash
  key := a.key
  sep := a.sep
  rest := a.lead ++ new
  indented := a.indented
  dashed := a.dashed
  keyed := a.keyed
  separated := a.separated.imp id fun colon => ⟨colon.1, colon.2.1, colon.2.2.1, by
    obtain ⟨c, more, first⟩ := List.exists_cons_of_ne_nil is.1
    exact ⟨c, by simp [first], is.2 c (.inl (by rw [first, List.head?_cons]))⟩⟩

theorem line_assign : (a.assign is).line = a.withValue new := rfl

theorem value_assign : (a.assign is).value = new := trimChars_after a.lead_blank is.2

theorem lead_assign : (a.assign is).lead = a.lead := by
  obtain ⟨c, more, first⟩ := List.exists_cons_of_ne_nil is.1
  have plain := is.2 c (.inl (by rw [first, List.head?_cons]))
  rw [lead, a.value_assign is, if_neg is.1]
  change (a.lead ++ new).takeWhile Text.isWhitespace = _
  rw [List.takeWhile_append_of_pos a.lead_blank, first,
    List.takeWhile_cons_of_neg (by rw [plain]; exact Bool.false_ne_true), List.append_nil]

theorem withValue_assign (other : List Char) :
    (a.assign is).withValue other = a.withValue other := by
  rw [withValue, a.lead_assign is]
  rfl

include is in
theorem getLast?_withValue : (a.withValue new).getLast? = new.getLast? := by
  obtain ⟨front, c, whole⟩ := List.eq_nil_or_concat new |>.resolve_left is.1
  rw [withValue, whole, List.concat_eq_append, ← List.append_assoc, ← List.append_assoc,
    List.getLast?_concat, List.getLast?_concat]

theorem scrub_line_again : scrubComposeLine (scrubComposeLine a.line) = scrubComposeLine a.line := by
  rw [a.scrubComposeLine_line]
  split
  · next credentials =>
    have is := a.isValue_scrubbed credentials
    obtain ⟨front, user, back, found, colon⟩ := urlUser_of_credentials credentials
    have found' := urlUser_scrubbed found
    have again : hasUrlCredentials (scrubUrlCredentials a.value) = true :=
      credentials_of_urlUser found' (by decide)
    rw [← a.line_assign is, (a.assign is).scrubComposeLine_line, a.value_assign is, if_pos again,
      a.withValue_assign is, a.line_assign is, scrubUrlCredentials_some found',
      scrubUrlCredentials_some found]
  · split
    · have none : hasUrlCredentials COMPOSE_REDACTED = false := by decide
      rw [← a.line_assign isValue_redacted, (a.assign isValue_redacted).scrubComposeLine_line,
        a.value_assign isValue_redacted, none, if_neg Bool.false_ne_true,
        a.withValue_assign isValue_redacted]
      split <;> rfl
    · next plain unnamed =>
      rw [a.scrubComposeLine_line, if_neg plain, if_neg unnamed]

theorem scrub_routed (routed : a.Routed) : ∃ new, IsValue new ∧
    scrubComposeLine a.line = a.withValue new := by
  rw [a.scrubComposeLine_line]
  by_cases credentials : hasUrlCredentials a.value = true
  · exact ⟨_, a.isValue_scrubbed credentials, if_pos credentials⟩
  · exact ⟨_, isValue_redacted, by
      rw [if_neg credentials, if_pos (routed.resolve_left credentials)]⟩

theorem scrub_unrouted (unrouted : ¬a.Routed) : scrubComposeLine a.line = a.line := by
  rw [Routed, not_or] at unrouted
  rw [a.scrubComposeLine_line, if_neg unrouted.1, if_neg unrouted.2]

end ComposeAssignment

theorem scrubComposeLine_again (line : List Char) :
    scrubComposeLine (scrubComposeLine line) = scrubComposeLine line := by
  by_cases some : ∃ a : ComposeAssignment, a.line = line
  · obtain ⟨a, rfl⟩ := some
    exact a.scrub_line_again
  · rw [scrubComposeLine_other (not_exists.mp some), scrubComposeLine_other (not_exists.mp some)]

end Inspectah
