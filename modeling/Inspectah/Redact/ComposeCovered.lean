import Inspectah.Redact.ComposeScrub
import Mathlib.Data.List.Forall2

/-!
What a scrubbed compose file still shows of its secrets. The user of a URL ends at the last `@` of
the authority, and a value may hold several URLs; the scrubber reads up to the first `@` behind the
first `://`.
-/
namespace Inspectah

variable (text : List Char) {line : List Char}

def isSchemeChar (c : Char) : Bool := c.isAlphanum || c == '+' || c == '-' || c == '.'

def isAuthorityEnd (c : Char) : Bool := isUrlDelimiter c || isAuthorityTerminator c

def authority : List Char := text.takeWhile (!isAuthorityEnd ·)

def EndsScheme : Prop := ∃ c, text.getLast? = some c ∧ isSchemeChar c = true

def IsScheme : Prop :=
  (∃ c, text.head? = some c ∧ c.isAlpha = true) ∧ ∀ c ∈ text, isSchemeChar c = true

structure UrlUserAt (text before user password after : List Char) : Prop where
  whole : text = before ++ SCHEME_END ++ (user ++ ':' :: (password ++ '@' :: after))
  scheme : EndsScheme before
  user : ∀ c ∈ user, c ≠ ':' ∧ isAuthorityEnd c = false
  password : ∀ c ∈ password, isAuthorityEnd c = false
  last : '@' ∉ authority after

def OnlyRedactedUsers : Prop :=
  ∀ before user password after, UrlUserAt text before user password after →
    user = COMPOSE_REDACTED ∧ password = COMPOSE_REDACTED

def hostAndPath (rest : List Char) : List Char :=
  let host := match splitLastAt (authority rest) with
    | some (_, host) => host
    | none => authority rest
  let tail := rest.dropWhile (!isAuthorityEnd ·)
  host ++ if tail.head? = some '/' then
    tail.takeWhile fun c => !(isUrlDelimiter c || c == '?' || c == '#') else []

def IsQuote : Prop := text = [] ∨ text = ['"'] ∨ text = ['\'']

/-- The URL stays in its quotes, with its user redacted and no text but of its host and path. -/
def KeepsHostAndPath (value new : List Char) : Prop :=
  ∃ quote scheme rest kept, IsQuote quote ∧ IsScheme scheme ∧
    value = quote ++ scheme ++ SCHEME_END ++ (rest ++ quote) ∧
    new = quote ++ scheme ++ SCHEME_END ++ (USER_REDACTED ++ '@' :: (kept ++ quote)) ∧
    kept <:+: hostAndPath rest

def ComposeAssignment.Covered (a : ComposeAssignment) (new : List Char) : Prop :=
  ∃ b : ComposeAssignment, b.line = new ∧ b.head = a.head ∧
    (hasSecretName a.key = true → b.value = COMPOSE_REDACTED ∨ KeepsHostAndPath a.value b.value) ∧
    OnlyRedactedUsers b.value

structure ComposeScrubbed (content out : String) : Prop where
  lines : List.Forall₂ (fun line new =>
    (∀ a : ComposeAssignment, a.line = line.toList → a.Covered new.toList) ∧
      ((∀ a : ComposeAssignment, a.line ≠ line.toList) → new = line))
    (Text.lines content) (Text.lines out)
  final : Text.endsWith out "\n" = Text.endsWith content "\n"
  again : scrubComposeSecrets out = out

structure ComposeAssignment.IsRead (a : ComposeAssignment) : Prop where
  unfound : hasUrlCredentials a.value = false →
    hasSecretName (Text.trimChars a.line) = true ∨ OnlyRedactedUsers a.value
  found : ∀ scheme user after, urlUser a.value = some (scheme ++ SCHEME_END, user, '@' :: after) →
    ':' ∈ user → (EndsScheme scheme → '@' ∉ authority after) ∧ OnlyRedactedUsers after
  secret : hasSecretName a.key = true → ∀ scheme user after,
    urlUser a.value = some (scheme ++ SCHEME_END, user, '@' :: after) → ':' ∈ user →
      ∃ quote name kept, IsQuote quote ∧ IsScheme name ∧ scheme = quote ++ name ∧
        after = kept ++ quote ∧ kept <:+: hostAndPath (user ++ '@' :: kept)

theorem redacted_chars {c : Char} (mem : c ∈ COMPOSE_REDACTED) :
    c ≠ ':' ∧ c ≠ '@' ∧ isAuthorityEnd c = false := by
  have all : ∀ c ∈ COMPOSE_REDACTED, c ≠ ':' ∧ c ≠ '@' ∧ isAuthorityEnd c = false := by decide
  exact all c mem

theorem authority_append {front : List Char} (plain : ∀ c ∈ front, isAuthorityEnd c = false)
    (back : List Char) : authority (front ++ back) = front ++ authority back :=
  List.takeWhile_append_of_pos fun c mem => by rw [plain c mem]; rfl

theorem authority_plain {c : Char} (mem : c ∈ authority text) :
    isAuthorityEnd c = false := by
  have plain := List.mem_takeWhile_imp mem
  simpa using plain

/-- The last `@` of the authority is found. -/
theorem exists_last_at {text : List Char} (mem : '@' ∈ authority text) : ∃ front back,
    text = front ++ '@' :: back ∧ (∀ c ∈ front, isAuthorityEnd c = false) ∧
      '@' ∉ authority back := by
  obtain ⟨after, before, split, fresh⟩ := List.eq_append_cons_of_mem (List.mem_reverse.mpr mem)
  have whole : authority text = before.reverse ++ '@' :: after.reverse := by
    rw [← List.reverse_reverse (authority text), split]
    simp
  refine ⟨before.reverse, after.reverse ++ text.dropWhile (!isAuthorityEnd ·), ?_, ?_, ?_⟩
  · rw [← List.cons_append, ← List.append_assoc, ← whole, authority, List.takeWhile_append_dropWhile]
  · intro c mem
    exact authority_plain text (by rw [whole]; exact List.mem_append_left _ mem)
  · have rest : authority (text.dropWhile (!isAuthorityEnd ·)) = [] := by
      have stop := List.head?_dropWhile_not (!isAuthorityEnd ·) text
      cases tail : text.dropWhile (!isAuthorityEnd ·) with
      | nil => rfl
      | cons c more =>
        rw [tail, List.head?_cons] at stop
        rw [authority, List.takeWhile_cons_of_neg (by simpa using stop)]
    rw [authority_append, rest, List.append_nil, List.mem_reverse]
    · exact fresh
    · intro c mem
      exact authority_plain text (by
        rw [whole]
        exact List.mem_append_right _ (List.mem_cons_of_mem _ mem))

/-- No other `://` begins in the redacted user. -/
theorem no_later_mark {lead back after rest : List Char}
    (cut : SCHEME_END ++ (USER_REDACTED ++ ['@']) = lead ++ back)
    (same : SCHEME_END ++ rest = back ++ after) (filled : back ≠ []) : lead = [] := by
  by_contra ne
  have marks : ∀ n < 25, 0 < n →
      ((SCHEME_END ++ (USER_REDACTED ++ ['@'])).drop n).head? = some ':' →
        ((SCHEME_END ++ (USER_REDACTED ++ ['@'])).drop n)[1]? = some '<' := by decide
  have tail : (SCHEME_END ++ (USER_REDACTED ++ ['@'])).drop lead.length = back := by
    rw [cut, List.drop_left]
  have size : lead.length + back.length = 25 := by
    rw [← List.length_append, ← cut]
    rfl
  obtain ⟨c, others, rfl⟩ := List.exists_cons_of_ne_nil filled
  have colon : c = ':' := (List.cons.inj same).1.symm
  have next := marks lead.length (by rw [List.length_cons] at size; omega)
    (List.length_pos_of_ne_nil ne) (by rw [tail, colon]; rfl)
  rw [tail] at next
  cases others with
  | nil => cases next
  | cons d more =>
    have slash : '/' = d := (List.cons.inj (List.cons.inj same).2).1
    rw [← slash] at next
    cases next

section Redacted

variable {scheme after : List Char}
  (first : Text.findChars SCHEME_END (scheme ++ SCHEME_END ++ (USER_REDACTED ++ '@' :: after)) =
    some (scheme, USER_REDACTED ++ '@' :: after))
include first

/-- A scheme of the redacted value ends at the first `://`, or behind the redacted user. -/
theorem scheme_cases {before rest : List Char}
    (whole : scheme ++ SCHEME_END ++ (USER_REDACTED ++ '@' :: after) =
      before ++ SCHEME_END ++ rest) :
    (before = scheme ∧ rest = USER_REDACTED ++ '@' :: after) ∨
      ∃ more, before = scheme ++ SCHEME_END ++ (USER_REDACTED ++ '@' :: more) ∧
        after = more ++ SCHEME_END ++ rest := by
  have long : before <+: scheme ++ SCHEME_END ++ (USER_REDACTED ++ '@' :: after) :=
    ⟨SCHEME_END ++ rest, by rw [whole, List.append_assoc]⟩
  obtain ⟨lead, rfl⟩ : scheme <+: before :=
    List.prefix_of_prefix_length_le ⟨_, (List.append_assoc _ _ _).symm⟩ long
      (findChars_least first whole)
  have marks : (SCHEME_END ++ (USER_REDACTED ++ ['@'])) ++ after = lead ++ (SCHEME_END ++ rest) := by
    simpa using whole
  rcases List.append_eq_append_iff.mp marks with ⟨more, rfl, same⟩ | ⟨back, cut, same⟩
  · refine .inr ⟨more, by simp, ?_⟩
    rw [same, List.append_assoc]
  · by_cases filled : back = []
    · rw [filled, List.append_nil] at cut
      rw [filled, List.nil_append] at same
      exact .inr ⟨[], by rw [← cut, List.append_assoc], by rw [← same]; rfl⟩
    · have start := no_later_mark cut same filled
      rw [start, List.nil_append] at cut
      rw [← cut, List.append_assoc] at same
      exact .inl ⟨by rw [start, List.append_nil], by simpa using List.append_cancel_left same⟩

omit first in
/-- The user of a scheme is the redacted one when no other `@` follows it. -/
theorem redacted_of_userAt {user password rest : List Char}
    (at_scheme : UrlUserAt (scheme ++ SCHEME_END ++ (USER_REDACTED ++ '@' :: after)) scheme user
      password rest) (none : '@' ∉ authority after) :
    user = COMPOSE_REDACTED ∧ password = COMPOSE_REDACTED := by
  have text := List.append_cancel_left at_scheme.whole
  have named := @findChars_first ':' [] user (fun mem => (at_scheme.user _ mem).1 rfl)
    (password ++ '@' :: rest)
  have redacted := @findChars_first ':' [] COMPOSE_REDACTED
    (fun mem => (redacted_chars mem).1 rfl) (COMPOSE_REDACTED ++ '@' :: after)
  have same : user ++ [':'] ++ (password ++ '@' :: rest) =
      COMPOSE_REDACTED ++ [':'] ++ (COMPOSE_REDACTED ++ '@' :: after) := by
    simpa [USER_REDACTED] using text.symm
  rw [same, redacted] at named
  injection named with parts
  obtain ⟨rfl, back⟩ := Prod.mk.inj parts
  refine ⟨rfl, ?_⟩
  rcases List.append_eq_append_iff.mp back with ⟨more, long, tail⟩ | ⟨more, short, tail⟩
  · cases more with
    | nil => rw [long, List.append_nil]
    | cons c inner =>
      obtain ⟨rfl, whole⟩ := List.cons.inj tail
      refine absurd ?_ none
      have plain : ∀ c ∈ inner ++ ['@'], isAuthorityEnd c = false := by
        intro c mem
        rcases List.mem_append.mp mem with early | last
        · exact at_scheme.password c (by rw [long]; simp [early])
        · rw [List.mem_singleton.mp last]
          rfl
      have split : after = (inner ++ ['@']) ++ rest := by
        rw [whole]
        simp
      rw [split, authority_append plain]
      simp
  · cases more with
    | nil => rw [short, List.append_nil]
    | cons c inner =>
      obtain ⟨rfl, -⟩ := List.cons.inj tail
      exact absurd rfl (redacted_chars (by rw [short]; simp : '@' ∈ COMPOSE_REDACTED)).2.1

theorem onlyRedacted_iff :
    OnlyRedactedUsers (scheme ++ SCHEME_END ++ (USER_REDACTED ++ '@' :: after)) ↔
      (EndsScheme scheme → '@' ∉ authority after) ∧ OnlyRedactedUsers after := by
  constructor
  · intro only
    constructor
    · intro ends mem
      obtain ⟨front, back, rfl, plain, last⟩ := exists_last_at mem
      have shown := only scheme COMPOSE_REDACTED (COMPOSE_REDACTED ++ '@' :: front) back {
        whole := by simp [USER_REDACTED]
        scheme := ends
        user := fun c mem => ⟨(redacted_chars mem).1, (redacted_chars mem).2.2⟩
        password := by
          intro c mem
          rcases List.mem_append.mp mem with early | late
          · exact (redacted_chars early).2.2
          · rcases List.mem_cons.mp late with rfl | inner
            · rfl
            · exact plain c inner
        last := last }
      have long := congrArg List.length shown.2
      rw [List.length_append, List.length_cons] at long
      omega
    · intro before user password rest shown
      refine only (scheme ++ SCHEME_END ++ (USER_REDACTED ++ '@' :: before)) user password rest {
        whole := by
          rw [shown.whole]
          simp
        scheme := ?_
        user := shown.user
        password := shown.password
        last := shown.last }
      obtain ⟨c, last, letter⟩ := shown.scheme
      refine ⟨c, ?_, letter⟩
      have parts : scheme ++ SCHEME_END ++ (USER_REDACTED ++ '@' :: before) =
          (scheme ++ SCHEME_END ++ (USER_REDACTED ++ ['@'])) ++ before := by simp
      rw [parts, List.getLast?_append, last, Option.some_or]
  · rintro ⟨single, only⟩ before user password rest shown
    rcases scheme_cases first shown.whole with ⟨rfl, -⟩ | ⟨more, rfl, later⟩
    · exact redacted_of_userAt shown (single shown.scheme)
    · refine only more user password rest ⟨later, ?_, shown.user, shown.password, shown.last⟩
      obtain ⟨c, last, letter⟩ := shown.scheme
      refine ⟨c, ?_, letter⟩
      have parts : scheme ++ SCHEME_END ++ (USER_REDACTED ++ '@' :: more) =
          (scheme ++ SCHEME_END ++ USER_REDACTED) ++ '@' :: more := by simp
      rw [parts, List.getLast?_append, List.getLast?_cons] at last
      cases tail : more.getLast? with
      | some d =>
        rw [tail] at last
        exact last
      | none =>
        rw [tail] at last
        cases last
        cases letter

end Redacted

theorem redacted_only : OnlyRedactedUsers COMPOSE_REDACTED := by
  intro before user password after shown
  have mem : ':' ∈ COMPOSE_REDACTED := by
    rw [shown.whole]
    simp
  exact absurd rfl (redacted_chars mem).1

theorem colon_not_quote {quote name : List Char} (is : IsQuote quote) (scheme : IsScheme name) :
    ':' ∉ quote ++ name := by
  intro mem
  rcases List.mem_append.mp mem with quoted | letter
  · rcases is with rfl | rfl | rfl <;> revert quoted <;> decide
  · exact absurd (scheme.2 _ letter) (by decide)

theorem keepsHostAndPath_iff {value scheme user after : List Char}
    (found : urlUser value = some (scheme ++ SCHEME_END, user, '@' :: after)) :
    KeepsHostAndPath value (scheme ++ SCHEME_END ++ (USER_REDACTED ++ '@' :: after)) ↔
      ∃ quote name kept, IsQuote quote ∧ IsScheme name ∧ scheme = quote ++ name ∧
        after = kept ++ quote ∧ kept <:+: hostAndPath (user ++ '@' :: kept) := by
  have split := urlUser_split found
  constructor
  · rintro ⟨quote, name, rest, kept, is, letters, old, new, inside⟩
    obtain ⟨before, tail, last, at_scheme, at_sign, front, back⟩ := urlUser_eq_some.mp found
    have here := @findChars_first ':' ['/', '/'] _ (colon_not_quote is letters) (rest ++ quote)
    change Text.findChars SCHEME_END (quote ++ name ++ SCHEME_END ++ (rest ++ quote)) = _ at here
    rw [← old, at_scheme] at here
    injection here with parts
    obtain ⟨rfl, -⟩ := Prod.mk.inj parts
    have own : scheme = quote ++ name := List.append_cancel_right front
    rw [← own] at old new
    have later : after = kept ++ quote :=
      (List.cons.inj (List.append_cancel_left (List.append_cancel_left new))).2
    refine ⟨quote, name, kept, is, letters, own, later, ?_⟩
    have same : user ++ '@' :: kept = rest := by
      rw [split, later, List.append_assoc] at old
      have tails := List.append_cancel_left old
      rw [← List.cons_append, ← List.append_assoc] at tails
      exact List.append_cancel_right tails
    rwa [same]
  · rintro ⟨quote, name, kept, is, letters, rfl, rfl, inside⟩
    refine ⟨quote, name, user ++ '@' :: kept, kept, is, letters, ?_, by simp, inside⟩
    rw [split]
    simp

namespace ComposeAssignment

variable (a : ComposeAssignment)

theorem covered_withValue {new : List Char} (is : IsValue new) :
    a.Covered (a.withValue new) ↔
      (hasSecretName a.key = true → new = COMPOSE_REDACTED ∨ KeepsHostAndPath a.value new) ∧
        OnlyRedactedUsers new := by
  constructor
  · rintro ⟨b, same, head, secret, only⟩
    have rest : b.rest = a.lead ++ new := by
      rw [line, head, withValue] at same
      exact List.append_cancel_left same
    have value : b.value = new := by
      rw [ComposeAssignment.value, rest]
      exact a.value_assign is
    rw [value] at secret only
    exact ⟨secret, only⟩
  · rintro ⟨secret, only⟩
    refine ⟨a.assign is, a.line_assign is, rfl, ?_, ?_⟩
    · rwa [a.value_assign is]
    · rwa [a.value_assign is]

theorem covered_line (unnamed : hasSecretName a.key = false) :
    a.Covered a.line ↔ OnlyRedactedUsers a.value := by
  constructor
  · rintro ⟨b, same, head, -, only⟩
    have rest : b.rest = a.rest := by
      rw [line, line, head] at same
      exact List.append_cancel_left same
    rwa [ComposeAssignment.value, rest] at only
  · intro only
    refine ⟨a, rfl, rfl, fun named => ?_, only⟩
    rw [unnamed] at named
    cases named

theorem named_line (named : hasSecretName a.key = true) :
    hasSecretName (Text.trimChars a.line) = true := by
  refine hasSecretName_of_infix ?_ named
  rw [a.trimChars_line, body]
  exact ⟨a.dash, a.sep :: (a.lead ++ a.value), by rw [List.append_assoc]⟩

theorem covered_found {scheme user after : List Char}
    (found : urlUser a.value = some (scheme ++ SCHEME_END, user, '@' :: after))
    (colon : ':' ∈ user) :
    a.Covered (scrubComposeLine a.line) ↔
      ((EndsScheme scheme → '@' ∉ authority after) ∧ OnlyRedactedUsers after) ∧
        (hasSecretName a.key = true → ∃ quote name kept, IsQuote quote ∧ IsScheme name ∧
          scheme = quote ++ name ∧ after = kept ++ quote ∧
            kept <:+: hostAndPath (user ++ '@' :: kept)) := by
  have credentials := credentials_of_urlUser found colon
  have new : scrubUrlCredentials a.value =
      scheme ++ SCHEME_END ++ (USER_REDACTED ++ '@' :: after) := by
    rw [scrubUrlCredentials_some found]
    simp
  have first : Text.findChars SCHEME_END
      (scheme ++ SCHEME_END ++ (USER_REDACTED ++ '@' :: after)) =
        some (scheme, USER_REDACTED ++ '@' :: after) := by
    obtain ⟨before, rest, last, at_scheme, -, front, -⟩ := urlUser_eq_some.mp found
    obtain rfl : scheme = before := List.append_cancel_right front
    rw [findChars_split at_scheme] at at_scheme
    exact findChars_after (by decide) at_scheme _
  have not_word : scheme ++ SCHEME_END ++ (USER_REDACTED ++ '@' :: after) ≠ COMPOSE_REDACTED := by
    intro same
    have mem : ':' ∈ COMPOSE_REDACTED := by
      rw [← same]
      simp [SCHEME_END]
    exact absurd rfl (redacted_chars mem).1
  rw [a.scrubComposeLine_line, if_pos credentials,
    a.covered_withValue (a.isValue_scrubbed credentials), new, onlyRedacted_iff first,
    keepsHostAndPath_iff found, and_comm]
  simp only [not_word, false_or]

theorem covered_unfound (plain : hasUrlCredentials a.value = false) :
    a.Covered (scrubComposeLine a.line) ↔
      hasSecretName (Text.trimChars a.line) = true ∨ OnlyRedactedUsers a.value := by
  rw [a.scrubComposeLine_line, plain, if_neg Bool.false_ne_true]
  by_cases named : hasSecretName (Text.trimChars a.line) = true
  · rw [if_pos named, a.covered_withValue isValue_redacted]
    exact ⟨fun _ => .inl named, fun _ => ⟨fun _ => .inl rfl, redacted_only⟩⟩
  · have unnamed : hasSecretName a.key = false := by
      rw [← Bool.not_eq_true]
      exact fun key => named (a.named_line key)
    rw [if_neg named, a.covered_line unnamed]
    exact ⟨.inr, fun only => only.resolve_left named⟩

theorem covered_iff : a.Covered (scrubComposeLine a.line) ↔ a.IsRead := by
  by_cases credentials : hasUrlCredentials a.value = true
  · obtain ⟨front, user, back, found, colon⟩ := urlUser_of_credentials credentials
    obtain ⟨scheme, rest, after, -, -, rfl, rfl⟩ := urlUser_eq_some.mp found
    rw [a.covered_found found colon]
    have only : ∀ {scheme' user' after'},
        urlUser a.value = some (scheme' ++ SCHEME_END, user', '@' :: after') →
          scheme = scheme' ∧ user = user' ∧ after = after' := by
      intro scheme' user' after' other
      rw [found] at other
      injection other with parts
      obtain ⟨front, parts⟩ := Prod.mk.inj parts
      obtain ⟨rfl, back⟩ := Prod.mk.inj parts
      exact ⟨List.append_cancel_right front, rfl, (List.cons.inj back).2⟩
    constructor
    · rintro ⟨single, secret⟩
      refine ⟨fun none => ?_, fun _ _ _ other _ => ?_, fun named _ _ _ other _ => ?_⟩
      · rw [credentials] at none
        cases none
      · obtain ⟨rfl, rfl, rfl⟩ := only other
        exact single
      · obtain ⟨rfl, rfl, rfl⟩ := only other
        exact secret named
    · intro read
      exact ⟨read.found _ _ _ found colon, fun named => read.secret named _ _ _ found colon⟩
  · rw [Bool.not_eq_true] at credentials
    rw [a.covered_unfound credentials]
    have never {front user back : List Char} (found : urlUser a.value = some (front, user, back)) :
        ':' ∉ user := by
      intro colon
      rw [credentials_of_urlUser found colon] at credentials
      cases credentials
    constructor
    · intro unfound
      exact ⟨fun _ => unfound, fun _ _ _ found colon => absurd colon (never found),
        fun _ _ _ _ found colon => absurd colon (never found)⟩
    · intro read
      exact read.unfound credentials

end ComposeAssignment

def endedLines (content : String) : List (List Char) :=
  (Text.splitChars (· == '\n') content.toList).dropLast.map Text.dropCarriageReturn

structure ComposeRead (content : String) : Prop where
  values : ∀ line ∈ Text.lines content, ∀ a : ComposeAssignment, a.line = line.toList → a.IsRead
  returns : ∀ line ∈ endedLines content, line.getLast? = some '\r' →
    ∃ a : ComposeAssignment, a.line = line ∧ a.Routed

theorem scrub_stays (cold : ¬∃ a : ComposeAssignment, a.line = line ∧ a.Routed) : scrubComposeLine line = line := by
  by_cases some : ∃ a : ComposeAssignment, a.line = line
  · obtain ⟨a, rfl⟩ := some
    exact a.scrub_unrouted fun hot => cold ⟨a, rfl, hot⟩
  · exact scrubComposeLine_other (not_exists.mp some)

theorem scrub_ne_nil (ne : line ≠ []) : scrubComposeLine line ≠ [] := by
  by_cases routed : ∃ a : ComposeAssignment, a.line = line ∧ a.Routed
  · obtain ⟨a, rfl, hot⟩ := routed
    obtain ⟨new, is, written⟩ := a.scrub_routed hot
    rw [written]
    simp [ComposeAssignment.withValue, is.1]
  · rwa [scrub_stays routed]

theorem scrub_plain (plain : '\n' ∉ line) : '\n' ∉ scrubComposeLine line := by
  by_cases routed : ∃ a : ComposeAssignment, a.line = line ∧ a.Routed
  · obtain ⟨a, rfl, -⟩ := routed
    obtain ⟨tail, -, whole⟩ := a.rest_split
    rw [ComposeAssignment.line, whole, List.mem_append, List.mem_append, List.mem_append, not_or,
      not_or, not_or] at plain
    have written : ∀ {new : List Char}, '\n' ∉ new → '\n' ∉ a.withValue new := by
      intro new none
      rw [ComposeAssignment.withValue, List.mem_append, List.mem_append, not_or, not_or]
      exact ⟨plain.1, plain.2.1.1, none⟩
    rw [a.scrubComposeLine_line]
    split
    · next credentials =>
      obtain ⟨front, user, back, found, -⟩ := urlUser_of_credentials credentials
      refine written ?_
      have value := plain.2.1.2
      have redacted : '\n' ∉ USER_REDACTED := by decide
      rw [urlUser_split found] at value
      rw [scrubUrlCredentials_some found]
      simp only [List.mem_append, not_or] at value ⊢
      exact ⟨⟨value.1.1, redacted⟩, value.2⟩
    · split
      · exact written (by decide)
      · rw [ComposeAssignment.line, whole, List.mem_append, List.mem_append, List.mem_append,
          not_or, not_or, not_or]
        exact plain
  · rwa [scrub_stays routed]

theorem returns_iff : (scrubComposeLine line).getLast? = some '\r' ↔
    line.getLast? = some '\r' ∧ ¬∃ a : ComposeAssignment, a.line = line ∧ a.Routed := by
  by_cases routed : ∃ a : ComposeAssignment, a.line = line ∧ a.Routed
  · obtain ⟨a, rfl, hot⟩ := routed
    obtain ⟨new, is, written⟩ := a.scrub_routed hot
    rw [written, a.getLast?_withValue is]
    constructor
    · intro last
      have plain := is.2 _ (.inr last)
      cases plain
    · rintro ⟨-, none⟩
      exact absurd ⟨a, rfl, hot⟩ none
  · rw [scrub_stays routed]
    exact (and_iff_left routed).symm

theorem scrub_read_iff :
    scrubComposeLine (Text.dropCarriageReturn (scrubComposeLine line)) = scrubComposeLine line ↔
      (scrubComposeLine line).getLast? ≠ some '\r' := by
  constructor
  · intro same last
    obtain ⟨short, whole⟩ : ∃ short, scrubComposeLine line = short ++ ['\r'] :=
      List.getLast?_eq_some_iff.mp last
    rw [whole, dropCarriageReturn_concat] at same
    have ends : (scrubComposeLine short).getLast? = some '\r' := by
      rw [same, List.getLast?_concat]
    rw [scrub_stays (returns_iff.mp ends).2] at same
    have long := congrArg List.length same
    rw [List.length_append, List.length_singleton] at long
    omega
  · intro last
    rw [dropCarriageReturn_of_last last, scrubComposeLine_again]

section

variable {ended : List (List Char)} {last : List Char}

theorem scrubComposeSecrets_joinLines (plain : ∀ row ∈ ended, '\n' ∉ row) (still : '\n' ∉ last) :
    scrubComposeSecrets (String.ofList (joinLines ended last)) = String.ofList
      (joinLines (ended.map fun row => scrubComposeLine (Text.dropCarriageReturn row))
        (scrubComposeLine last)) := by
  rw [scrubComposeSecrets]
  refine congrArg String.ofList ?_
  by_cases none : last = []
  · subst none
    rw [lines_joinLines plain still]
    by_cases rows : ended = []
    · subst rows
      rfl
    · rw [if_pos ((endsWith_joinLines still).mpr ⟨rfl, rows⟩), List.filter_singleton,
        List.isEmpty_nil, Bool.not_true, cond_false, List.append_nil, List.map_map, List.map_map,
        joinLines, List.flatMap_map, List.flatMap_def]
      simp [Function.comp_def, scrubComposeLine, Text.trimChars]
  · have open_end : ¬Text.endsWith (String.ofList (joinLines ended last)) "\n" = true := fun h =>
      none ((endsWith_joinLines still).mp h).1
    rw [if_neg open_end, lines_joinLines plain still, List.filter_singleton]
    have filled : (!last.isEmpty) = true := by simpa using none
    rw [filled, cond_true, List.map_append, List.map_append, List.flatten_append, List.map_singleton,
      List.map_singleton, List.flatten_singleton, String.toList_ofList, ← List.append_assoc,
      List.dropLast_concat, List.map_map, List.map_map, joinLines, List.flatMap_map,
      List.flatMap_def]
    simp [Function.comp_def]

theorem endedLines_joinLines (plain : ∀ row ∈ ended, '\n' ∉ row) (still : '\n' ∉ last) :
    endedLines (String.ofList (joinLines ended last)) = ended.map Text.dropCarriageReturn := by
  rw [endedLines, String.toList_ofList, splitChars_joinLines plain still, List.dropLast_concat]

theorem joinLines_inj {rows : List (List Char)} {row : List Char}
    (plain : ∀ row ∈ ended, '\n' ∉ row) (still : '\n' ∉ last) (plain' : ∀ row ∈ rows, '\n' ∉ row)
    (still' : '\n' ∉ row) : joinLines ended last = joinLines rows row ↔ ended = rows ∧ last = row := by
  constructor
  · intro same
    have pieces := congrArg (Text.splitChars (· == '\n')) same
    rw [splitChars_joinLines plain still, splitChars_joinLines plain' still'] at pieces
    exact ⟨List.append_inj_left' pieces rfl, List.singleton_inj.mp (List.append_inj_right' pieces rfl)⟩
  · rintro ⟨rfl, rfl⟩
    rfl

theorem dropped_plain (plain : ∀ row ∈ ended, '\n' ∉ row) :
    ∀ row ∈ ended.map Text.dropCarriageReturn, '\n' ∉ row := by
  intro row mem cut
  obtain ⟨before, there, rfl⟩ := List.mem_map.mp mem
  have start := dropCarriageReturn_prefix before
  exact plain before there (start.subset cut)

theorem map_plain {f : List Char → List Char} (plain : ∀ row ∈ ended, '\n' ∉ row)
    (kept : ∀ row, '\n' ∉ row → '\n' ∉ f row) :
    ∀ row ∈ ended.map fun row => f (Text.dropCarriageReturn row), '\n' ∉ row := by
  intro row mem
  obtain ⟨before, there, rfl⟩ := List.mem_map.mp mem
  exact kept _ (dropped_plain plain _ (List.mem_map_of_mem there))

theorem forall₂_lines {r : String → String → Prop} {f : List Char → List Char}
    (plain : ∀ row ∈ ended, '\n' ∉ row) (still : '\n' ∉ last)
    (kept : ∀ row, '\n' ∉ row → '\n' ∉ f row) (filled : f last = [] ↔ last = [])
    (ends : ∀ row ∈ ended, (f (Text.dropCarriageReturn row)).getLast? ≠ some '\r') :
    List.Forall₂ r (Text.lines (String.ofList (joinLines ended last)))
        (Text.lines (String.ofList
          (joinLines (ended.map fun row => f (Text.dropCarriageReturn row)) (f last)))) ↔
      ∀ line ∈ Text.lines (String.ofList (joinLines ended last)),
        r line (String.ofList (f line.toList)) := by
  have plain' := map_plain plain kept
  have after : Text.lines (String.ofList
      (joinLines (ended.map fun row => f (Text.dropCarriageReturn row)) (f last))) =
      (Text.lines (String.ofList (joinLines ended last))).map
        fun line => String.ofList (f line.toList) := by
    rw [lines_joinLines plain still, lines_joinLines plain' (kept last still), List.map_map,
      List.map_append, List.map_append, List.map_append, List.map_map, List.map_map, List.map_map]
    congr 1
    · refine List.map_congr_left fun row mem => ?_
      simp [Function.comp_def, dropCarriageReturn_of_last (ends row mem)]
    · by_cases none : last = []
      · rw [filled.mpr none, none]
        rfl
      · have some := mt filled.mp none
        simp [none, some]
  rw [after, List.forall₂_map_right_iff, List.forall₂_same]

theorem scrub_again_iff (plain : ∀ row ∈ ended, '\n' ∉ row) (still : '\n' ∉ last) :
    scrubComposeSecrets (scrubComposeSecrets (String.ofList (joinLines ended last))) =
        scrubComposeSecrets (String.ofList (joinLines ended last)) ↔
      ∀ row ∈ ended,
        (scrubComposeLine (Text.dropCarriageReturn row)).getLast? ≠ some '\r' := by
  have plain' := map_plain plain @scrub_plain
  have still' := scrub_plain still
  rw [scrubComposeSecrets_joinLines plain still, scrubComposeSecrets_joinLines plain' still',
    String.ofList_inj, joinLines_inj (map_plain plain' @scrub_plain) (scrub_plain still') plain'
      still', List.map_map, List.map_inj_left, and_iff_left (scrubComposeLine_again last)]
  refine forall₂_congr fun row mem => ?_
  rw [Function.comp_apply]
  exact scrub_read_iff

theorem scrub_nil_iff : scrubComposeLine last = [] ↔ last = [] := by
  constructor
  · intro none
    by_contra some
    exact scrub_ne_nil some none
  · rintro rfl
    rfl

theorem scrub_final (plain : ∀ row ∈ ended, '\n' ∉ row) (still : '\n' ∉ last) :
    Text.endsWith (scrubComposeSecrets (String.ofList (joinLines ended last))) "\n" =
      Text.endsWith (String.ofList (joinLines ended last)) "\n" := by
  have rows : ended.map (fun row => scrubComposeLine (Text.dropCarriageReturn row)) ≠ [] ↔
      ended ≠ [] := by
    rw [Ne, List.map_eq_nil_iff]
  rw [scrubComposeSecrets_joinLines plain still, Bool.eq_iff_iff,
    endsWith_joinLines (scrub_plain still), endsWith_joinLines still, scrub_nil_iff, rows]

theorem returns_iff_ends (plain : ∀ row ∈ ended, '\n' ∉ row) (still : '\n' ∉ last) :
    (∀ row ∈ ended, (scrubComposeLine (Text.dropCarriageReturn row)).getLast? ≠ some '\r') ↔
      ∀ line ∈ endedLines (String.ofList (joinLines ended last)), line.getLast? = some '\r' →
        ∃ a : ComposeAssignment, a.line = line ∧ a.Routed := by
  rw [endedLines_joinLines plain still, List.forall_mem_map]
  refine forall₂_congr fun row mem => ?_
  rw [Ne, returns_iff, not_and, not_not]

end

theorem scrubbed_line_iff (line : String) :
    ((∀ a : ComposeAssignment, a.line = line.toList →
        a.Covered (String.ofList (scrubComposeLine line.toList)).toList) ∧
      ((∀ a : ComposeAssignment, a.line ≠ line.toList) →
        String.ofList (scrubComposeLine line.toList) = line)) ↔
      ∀ a : ComposeAssignment, a.line = line.toList → a.IsRead := by
  rw [String.toList_ofList]
  constructor
  · rintro ⟨covered, -⟩ a same
    rw [← a.covered_iff, same]
    exact covered a same
  · intro read
    refine ⟨fun a same => ?_, fun other => ?_⟩
    · rw [← same, a.covered_iff]
      exact read a same
    · rw [scrubComposeLine_other other, String.ofList_toList]

/-- The scrubber leaves no secret exactly when it reads every value as it is. -/
theorem composeScrubbed_iff (content : String) :
    ComposeScrubbed content (scrubComposeSecrets content) ↔ ComposeRead content := by
  obtain ⟨ended, last, plain, still, whole⟩ := exists_joinLines content.toList
  obtain rfl : content = String.ofList (joinLines ended last) := by
    rw [← whole, String.ofList_toList]
  have written := scrubComposeSecrets_joinLines plain still
  constructor
  · intro scrubbed
    have ends := (scrub_again_iff plain still).mp scrubbed.again
    have pairs := scrubbed.lines
    rw [written, forall₂_lines plain still @scrub_plain scrub_nil_iff ends] at pairs
    exact ⟨fun line mem => (scrubbed_line_iff line).mp (pairs line mem),
      (returns_iff_ends plain still).mp ends⟩
  · intro read
    have ends := (returns_iff_ends plain still).mpr read.returns
    refine ⟨?_, scrub_final plain still, (scrub_again_iff plain still).mpr ends⟩
    rw [written, forall₂_lines plain still @scrub_plain scrub_nil_iff ends]
    exact fun line mem => (scrubbed_line_iff line).mpr (read.values line mem)

/-- A list entry whose URL has an `@` in its password. -/
def signedPassword : ComposeAssignment where
  indent := []
  dash := ['-', ' ']
  key := "DATABASE_URL".toList
  sep := '='
  rest := "postgres://app:p@ss@db/app".toList
  indented := by simp
  dashed := .inr rfl
  keyed := by decide
  separated := .inl rfl

theorem password_tail_shown : ¬ComposeScrubbed "- DATABASE_URL=postgres://app:p@ss@db/app\n"
    (scrubComposeSecrets "- DATABASE_URL=postgres://app:p@ss@db/app\n") := by
  intro scrubbed
  have before : Text.lines "- DATABASE_URL=postgres://app:p@ss@db/app\n" =
      [String.ofList signedPassword.line] := by decide +kernel
  have after : Text.lines (scrubComposeSecrets "- DATABASE_URL=postgres://app:p@ss@db/app\n") =
      [String.ofList (scrubComposeLine signedPassword.line)] := by decide +kernel
  have pairs := scrubbed.lines
  rw [before, after, List.forall₂_cons] at pairs
  have covered := pairs.1.1 signedPassword (String.toList_ofList).symm
  rw [String.toList_ofList, signedPassword.covered_iff] at covered
  have read := (covered.found "postgres".toList "app:p".toList "ss@db/app".toList
    (by decide +kernel) (by decide)).1
  exact read ⟨'s', by decide, by decide⟩ (by decide)

end Inspectah
