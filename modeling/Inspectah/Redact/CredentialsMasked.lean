import Inspectah.Redact.CredentialMasks

/-!
What the masks leave. Nothing is left to mask exactly when a line holds one password and
one token at the most: the first of each is rewritten, and what stands beside it stays.
-/
namespace Inspectah

open Masking
open Words (takeWhile_run)

inductive Credential where
  | proxyCred
  | proxyPassword
  | tokenUsername
  deriving DecidableEq

def Credential.shape : Credential → Shape Char
  | proxyCred => PROXY_CRED
  | proxyPassword => PROXY_PASSWORD_KV
  | tokenUsername => TOKEN_USERNAME

theorem afterScheme_iff {text rest : List Char} :
    afterScheme text = some rest ↔ text = ':' :: '/' :: '/' :: rest := by
  unfold afterScheme
  split <;> simp_all

theorem takeFolded_iff {key text taken rest : List Char} :
    takeFolded key text = some (taken, rest) ↔
      text = taken ++ rest ∧ List.Forall₂ (fun k c => folds k c = true) key taken := by
  induction key generalizing text taken with
  | nil =>
    simp only [takeFolded, Option.some.injEq, Prod.mk.injEq, List.forall₂_nil_left_iff]
    constructor
    · rintro ⟨rfl, rfl⟩
      exact ⟨rfl, rfl⟩
    · rintro ⟨rfl, rfl⟩
      exact ⟨rfl, rfl⟩
  | cons k key ih =>
    cases text with
    | nil =>
      simp only [takeFolded, reduceCtorEq, false_iff]
      rintro ⟨empty, folded⟩
      rw [(List.append_eq_nil_iff.mp empty.symm).1] at folded
      cases folded
    | cons c text =>
      simp only [takeFolded, List.forall₂_cons_left_iff]
      split
      next hit =>
        simp only [Option.map_eq_some_iff, Prod.mk.injEq, Prod.exists]
        constructor
        · rintro ⟨more, others, found, rfl, rfl⟩
          obtain ⟨rfl, folded⟩ := ih.mp found
          exact ⟨rfl, c, more, hit, folded, rfl⟩
        · rintro ⟨whole, d, more, -, folded, rfl⟩
          obtain ⟨rfl, rest_eq⟩ := List.cons.inj whole
          exact ⟨more, rest, ih.mpr ⟨rest_eq, folded⟩, rfl, rfl⟩
      next miss =>
        simp only [reduceCtorEq, false_iff]
        rintro ⟨whole, d, more, hit, -, rfl⟩
        obtain ⟨rfl, -⟩ := List.cons.inj whole
        exact miss hit

theorem proxyCredLead_iff {text head rest : List Char} :
    proxyCredLead text = some (head, rest) ↔ ∃ user, user ≠ [] ∧
      (∀ c ∈ user, userChar c = true) ∧ head = [':', '/', '/'] ++ user ++ [':'] ∧
      text = head ++ rest := by
  unfold proxyCredLead
  rw [Option.bind_eq_some_iff]
  constructor
  · rintro ⟨after, scheme, found⟩
    obtain rfl := afterScheme_iff.mp scheme
    split at found
    · cases found
    next some_user =>
      split at found
      next more stop =>
        simp only [Option.some.injEq, Prod.mk.injEq] at found
        obtain ⟨rfl, rfl⟩ := found
        refine ⟨after.takeWhile userChar, by simpa using some_user,
          fun c hc => List.mem_takeWhile_imp hc, rfl, ?_⟩
        have whole : after.takeWhile userChar ++ ':' :: more = after := by
          rw [← stop, List.takeWhile_append_dropWhile]
        conv_lhs => rw [← whole]
        simp
      · cases found
  · rintro ⟨user, ne, all, rfl, rfl⟩
    have ends : ∀ c ∈ (':' :: rest).head?, userChar c = false := fun c hc => by
      rw [← Option.some.inj hc]
      decide
    obtain ⟨run, stop⟩ := takeWhile_run all ends
    refine ⟨user ++ ':' :: rest, afterScheme_iff.mpr (by simp), ?_⟩
    rw [run, stop, if_neg (by simpa using ne)]
    rfl

theorem proxyPasswordLead_iff {text head rest : List Char} :
    proxyPasswordLead text = some (head, rest) ↔ ∃ key before after,
      List.Forall₂ (fun k c => folds k c = true) PROXY_PASSWORD key ∧
      (∀ c ∈ before, Text.isWhitespace c = true) ∧ (∀ c ∈ after, Text.isWhitespace c = true) ∧
      (∀ c ∈ rest.head?, Text.isWhitespace c = false) ∧
      head = key ++ before ++ '=' :: after ∧ text = head ++ rest := by
  unfold proxyPasswordLead
  rw [Option.bind_eq_some_iff]
  constructor
  · rintro ⟨⟨key, others⟩, taken, found⟩
    obtain ⟨rfl, folded⟩ := takeFolded_iff.mp taken
    dsimp only at found
    split at found
    next more stop =>
      simp only [Option.some.injEq, Prod.mk.injEq] at found
      obtain ⟨rfl, rfl⟩ := found
      refine ⟨key, _, _, folded, fun c hc => List.mem_takeWhile_imp hc,
        fun c hc => List.mem_takeWhile_imp hc, fun c hc => ?_, rfl, ?_⟩
      · have head := List.head?_dropWhile_not Text.isWhitespace more
        rw [Option.mem_def.mp hc] at head
        simpa using head
      · have whole : others.takeWhile Text.isWhitespace ++ '=' :: more = others := by
          rw [← stop, List.takeWhile_append_dropWhile]
        conv_lhs => rw [← whole]
        simp
    · cases found
  · rintro ⟨key, before, after, folded, blank, blanks, stops, rfl, rfl⟩
    have sign : ∀ c ∈ ('=' :: (after ++ rest)).head?, Text.isWhitespace c = false := fun c hc => by
      rw [← Option.some.inj hc]
      decide
    obtain ⟨run, stop⟩ := takeWhile_run blank sign
    obtain ⟨gap, ends⟩ := takeWhile_run blanks stops
    refine ⟨(key, before ++ '=' :: (after ++ rest)), takeFolded_iff.mpr ⟨by simp, folded⟩, ?_⟩
    dsimp only
    rw [run, stop]
    simp only [gap, ends]

theorem tokenLead_iff {text head rest : List Char} :
    TOKEN_USERNAME.lead text = some (head, rest) ↔
      head = [':', '/', '/'] ∧ text = head ++ rest := by
  simp only [TOKEN_USERNAME, Option.map_eq_some_iff, Prod.mk.injEq]
  constructor
  · rintro ⟨after, scheme, rfl, rfl⟩
    exact ⟨rfl, afterScheme_iff.mp scheme⟩
  · rintro ⟨rfl, rfl⟩
    exact ⟨rest, afterScheme_iff.mpr rfl, rfl, rfl⟩

/-- The characters a head of each shape can end with. -/
def Credential.edge : Credential → Char → Bool
  | proxyCred, c => c == ':'
  | proxyPassword, c => c == '=' || Text.isWhitespace c
  | tokenUsername, c => c == '/'

theorem lawful (k : Credential) : k.shape.Lawful := by
  cases k with
  | proxyCred =>
    refine ⟨fun lead => ?_, fun lead _ => ?_⟩
    · obtain ⟨user, -, -, rfl, whole⟩ := proxyCredLead_iff.mp lead
      exact ⟨whole, by simp⟩
    · obtain ⟨user, ne, all, head, -⟩ := proxyCredLead_iff.mp lead
      exact proxyCredLead_iff.mpr ⟨user, ne, all, head, rfl⟩
  | proxyPassword =>
    refine ⟨fun lead => ?_, fun {head rest c other} lead plain => ?_⟩
    · obtain ⟨key, before, after, -, -, -, -, rfl, whole⟩ := proxyPasswordLead_iff.mp lead
      exact ⟨whole, by simp⟩
    · obtain ⟨key, before, after, folded, blank, blanks, -, head, -⟩ :=
        proxyPasswordLead_iff.mp lead
      refine proxyPasswordLead_iff.mpr ⟨key, before, after, folded, blank, blanks, ?_, head, rfl⟩
      intro d hd
      rw [← Option.some.inj hd]
      simpa [Credential.shape, PROXY_PASSWORD_KV, settingChar] using plain
  | tokenUsername =>
    refine ⟨fun lead => ?_, fun lead _ => ?_⟩
    · obtain ⟨rfl, whole⟩ := tokenLead_iff.mp lead
      exact ⟨whole, by simp⟩
    · exact tokenLead_iff.mpr ⟨(tokenLead_iff.mp lead).1, rfl⟩

section

variable {k q : Credential} {text head rest : List Char}

theorem head_edge (lead : q.shape.lead text = some (head, rest)) :
    ∃ c, head.getLast? = some c ∧ q.edge c = true := by
  cases q with
  | proxyCred =>
    obtain ⟨user, -, -, rfl, -⟩ := proxyCredLead_iff.mp lead
    exact ⟨':', List.getLast?_concat .., rfl⟩
  | proxyPassword =>
    obtain ⟨key, before, after, -, -, blanks, -, rfl, -⟩ := proxyPasswordLead_iff.mp lead
    cases last : after.getLast? with
    | none =>
      rw [List.getLast?_eq_none_iff] at last
      exact ⟨'=', by simp [last], by decide⟩
    | some c =>
      refine ⟨c, ?_, ?_⟩
      · rw [List.getLast?_append_of_ne_nil _ (List.cons_ne_nil _ _), List.getLast?_cons, last]
        rfl
      · simp [Credential.edge, blanks c (List.mem_of_getLast? last)]
  | tokenUsername =>
    obtain ⟨rfl, -⟩ := tokenLead_iff.mp lead
    exact ⟨'/', rfl, by decide⟩

theorem edge_apart {c : Char} (own : k.edge c = true) (other : q.edge c = true) : k = q := by
  cases k <;> cases q <;> simp only [Credential.edge, Bool.or_eq_true, beq_iff_eq] at own other
  all_goals
    first
    | rfl
    | (subst own; exact absurd other (by decide))
    | (subst other; exact absurd own (by decide))

theorem edge_not_redacted {c : Char} (h : k.edge c = true) : c ∉ REDACTED := by
  intro hc
  have none : ∀ c ∈ REDACTED, ∀ k : Credential, k.edge c = false := by
    intro c hc k
    revert c
    cases k <;> decide
  rw [none c hc k] at h
  cases h

theorem folded_mem {key taken : List Char}
    (h : List.Forall₂ (fun k c => folds k c = true) key taken) {c : Char} (hc : c ∈ taken) : ∃ k ∈ key, folds k c = true := by
  induction h with
  | nil => cases hc
  | cons hit _ ih =>
    obtain rfl | hc := List.mem_cons.mp hc
    · exact ⟨_, List.mem_cons_self .., hit⟩
    · obtain ⟨k, hk, folded⟩ := ih hc
      exact ⟨k, List.mem_cons_of_mem _ hk, folded⟩

theorem head_first (lead : q.shape.lead text = some (head, rest)) :
    ∃ c more, head = c :: more ∧ c ∉ REDACTED := by
  cases q with
  | proxyCred =>
    obtain ⟨user, -, -, rfl, -⟩ := proxyCredLead_iff.mp lead
    exact ⟨':', _, rfl, by decide⟩
  | proxyPassword =>
    obtain ⟨key, before, after, folded, -, -, -, rfl, -⟩ := proxyPasswordLead_iff.mp lead
    cases folded with
    | cons hit _ =>
      refine ⟨_, _, rfl, fun hc => ?_⟩
      have missed : ∀ c ∈ REDACTED, folds 'p' c = false := by decide
      rw [missed _ hc] at hit
      cases hit
  | tokenUsername =>
    obtain ⟨rfl, -⟩ := tokenLead_iff.mp lead
    exact ⟨':', _, rfl, by decide⟩

/-- Only the name of a user can hold a bracket. -/
theorem head_no_bracket (named : q ≠ .proxyCred) (lead : q.shape.lead text = some (head, rest)) :
    '[' ∉ head := by
  cases q with
  | proxyCred => exact absurd rfl named
  | proxyPassword =>
    obtain ⟨key, before, after, folded, blank, blanks, -, rfl, -⟩ := proxyPasswordLead_iff.mp lead
    simp only [List.mem_append, List.mem_cons, not_or]
    refine ⟨⟨fun hc => ?_, fun hc => ?_⟩, by decide, fun hc => ?_⟩
    · obtain ⟨k, hk, hit⟩ := folded_mem folded hc
      have missed : ∀ k ∈ PROXY_PASSWORD, folds k '[' = false := by decide
      rw [missed k hk] at hit
      cases hit
    · exact absurd (blank _ hc) (by decide)
    · exact absurd (blanks _ hc) (by decide)
  | tokenUsername =>
    obtain ⟨rfl, -⟩ := tokenLead_iff.mp lead
    decide

theorem proxyCred_head (lead : proxyCredLead text = some (head, rest)) :
    ∀ c ∈ head, c ≠ '@' ∧ Text.isWhitespace c = false := by
  obtain ⟨user, -, all, rfl, -⟩ := proxyCredLead_iff.mp lead
  intro c hc
  have ends : ∀ c ∈ [':', '/', '/', ':'], c ≠ '@' ∧ Text.isWhitespace c = false := by decide
  simp only [List.cons_append, List.nil_append, List.mem_cons, List.mem_append, List.not_mem_nil,
    or_false] at hc
  obtain rfl | rfl | rfl | hc | rfl := hc
  · exact ends _ (by decide)
  · exact ends _ (by decide)
  · exact ends _ (by decide)
  · have plain := all c hc
    simp only [userChar, Bool.not_eq_true', Bool.or_eq_false_iff, beq_eq_false_iff_ne] at plain
    exact ⟨plain.1.2, plain.2⟩
  · exact ends _ (by decide)

end

structure MaskedAt (k : Credential) (under secret rest : List Char) : Prop where
  last : ∃ c, under.getLast? = some c ∧ k.edge c = true
  starts : secret ≠ []
  plain : ∀ c ∈ secret, k.shape.plain c = true
  stops : ∀ c ∈ rest.head?, k.shape.plain c = false
  closes : k.shape.closes rest.head? = true

theorem maskedAt {k : Credential} {text : List Char} {found : Found Char}
    (fits : k.shape.fits text = some found) (before : List Char) :
    MaskedAt k (before ++ found.head) found.secret found.tail := by
  obtain ⟨rest, lead, closed, secret, tail⟩ := fits_eq_some.mp fits
  rw [Shape.closed, Bool.and_eq_true, Bool.and_eq_true] at closed
  refine ⟨?_, ?_, ?_, ?_, ?_⟩
  · obtain ⟨c, last, edge⟩ := head_edge lead
    refine ⟨c, ?_, edge⟩
    rw [List.getLast?_append_of_ne_nil _ ((lawful k).whole lead).2]
    exact last
  · rw [secret]
    simpa using closed.1.1
  · rw [secret]
    exact fun c hc => List.mem_takeWhile_imp hc
  · intro c hc
    have head := List.head?_dropWhile_not k.shape.plain rest
    rw [← tail, Option.mem_def.mp hc] at head
    simpa using head
  · rw [tail]
    exact closed.2

section

variable {k q : Credential} {under secret rest : List Char}

theorem MaskedAt.not_redacted (h : MaskedAt k under secret rest) :
    ∀ c ∈ under.getLast?, c ∉ REDACTED := by
  obtain ⟨d, last, edge⟩ := h.last
  intro c hc
  rw [last] at hc
  exact Option.some.inj hc ▸ edge_not_redacted edge

theorem MaskedAt.nonblank (h : MaskedAt k under secret rest) :
    ∀ c ∈ secret, Text.isWhitespace c = false := by
  intro c hc
  have plain := h.plain c hc
  cases k with
  | proxyCred =>
    simp only [Credential.shape, PROXY_CRED, passwordChar, Bool.not_eq_true',
      Bool.or_eq_false_iff] at plain
    exact plain.2
  | proxyPassword =>
    simpa [Credential.shape, PROXY_PASSWORD_KV, settingChar] using plain
  | tokenUsername =>
    simp only [Credential.shape, TOKEN_USERNAME, tokenChar, Bool.or_eq_true, beq_iff_eq] at plain
    obtain (alphanum | rfl) | rfl := plain
    · exact Text.isWhitespace_alphanum alphanum
    · decide
    · decide

theorem MaskedAt.rest_head (h : MaskedAt k under secret rest) :
    ∀ c ∈ rest.head?, c = '@' ∨ Text.isWhitespace c = true := by
  intro c hc
  have stops := h.stops c hc
  have closes := h.closes
  rw [Option.mem_def.mp hc] at closes
  cases k with
  | proxyCred => exact .inl (by simpa [Credential.shape, PROXY_CRED] using closes)
  | proxyPassword =>
    exact .inr (by simpa [Credential.shape, PROXY_PASSWORD_KV, settingChar] using stops)
  | tokenUsername => exact .inl (by simpa [Credential.shape, TOKEN_USERNAME] using closes)

theorem MaskedAt.in_url (h : MaskedAt k under secret rest) (url : k ≠ .proxyPassword) :
    rest.head? = some '@' ∧ ∀ c ∈ secret, passwordChar c = true := by
  have closes := h.closes
  cases k with
  | proxyCred => exact ⟨by simpa [Credential.shape, PROXY_CRED] using closes, h.plain⟩
  | proxyPassword => exact absurd rfl url
  | tokenUsername =>
    refine ⟨by simpa [Credential.shape, TOKEN_USERNAME] using closes, fun c hc => ?_⟩
    have plain := h.plain c hc
    have blank := h.nonblank c hc
    have at_sign : c ≠ '@' := by
      rintro rfl
      exact absurd plain (by decide)
    simp [passwordChar, blank, at_sign]

theorem bracket_redacted : ∃ others, REDACTED = '[' :: others := ⟨_, rfl⟩

theorem head_reach (h : MaskedAt k under secret rest) {u : List Char} {found : Found Char}
    (fits : q.shape.fits (u ++ (REDACTED ++ rest)) = some found) :
    found.head.length ≤ u.length := by
  by_contra long
  rw [Nat.not_le] at long
  have whole := fits_whole (lawful q) fits
  obtain ⟨after, lead, -⟩ := fits_eq_some.mp fits
  obtain ⟨x, head, cut⟩ := Masking.head_within whole.symm (by omega)
  have some_x : x ≠ [] := by
    rintro rfl
    rw [head, List.append_nil] at long
    exact lt_irrefl _ long
  by_cases url : q = .proxyCred
  · subst url
    obtain ⟨c, last, edge⟩ := head_edge lead
    obtain rfl : c = ':' := by simpa [Credential.edge] using edge
    rw [head, List.getLast?_append_of_ne_nil _ some_x] at last
    have colon := List.mem_of_getLast? last
    obtain ⟨more, own, -⟩ | ⟨more, own, rest_eq⟩ := List.append_eq_append_iff.mp cut.symm
    · have within : ':' ∈ REDACTED := by
        rw [own]
        exact List.mem_append_left _ colon
      exact absurd within (by decide)
    · cases more with
      | nil =>
        rw [own, List.append_nil] at colon
        exact absurd colon (by decide)
      | cons d others =>
        have plain := proxyCred_head lead d (by rw [head, own]; simp)
        obtain rfl | blank := h.rest_head d (by rw [rest_eq]; rfl)
        · exact plain.1 rfl
        · rw [plain.2] at blank
          cases blank
  · refine head_no_bracket url lead ?_
    cases x with
    | nil => exact absurd rfl some_x
    | cons d others =>
      obtain ⟨more, mask⟩ := bracket_redacted
      rw [mask] at cut
      obtain rfl := (List.cons.inj cut).1
      rw [head]
      simp

theorem redacted_plain (password : q ≠ .tokenUsername) :
    ∀ c ∈ REDACTED, q.shape.plain c = true := by
  cases q with
  | proxyCred => simp only [Credential.shape, PROXY_CRED]; decide
  | proxyPassword => simp only [Credential.shape, PROXY_PASSWORD_KV]; decide
  | tokenUsername => exact absurd rfl password

theorem not_closed_redacted : TOKEN_USERNAME.closed (REDACTED ++ rest) = false := by
  by_contra closed
  rw [Bool.not_eq_false] at closed
  obtain ⟨c, more, starts, plain⟩ := closed_starts closed
  obtain ⟨others, mask⟩ := bracket_redacted
  rw [mask] at starts
  obtain rfl := (List.cons.inj starts).1
  exact absurd plain (by decide)

theorem MaskedAt.suffix_edge (h : MaskedAt k under secret rest) {v : List Char}
    (suffix : v <:+ under) (some_v : v ≠ []) : ∃ c ∈ v, v.getLast? = some c ∧ k.edge c = true := by
  obtain ⟨c, last, edge⟩ := h.last
  obtain ⟨front, rfl⟩ := suffix
  rw [List.getLast?_append_of_ne_nil _ some_v] at last
  exact ⟨c, List.mem_of_getLast? last, last, edge⟩

theorem edge_not_token {c : Char} (edge : k.edge c = true) : tokenChar c = false := by
  rw [Bool.eq_false_iff]
  intro token
  have plain : c.isAlphanum = true ∨ c = '_' ∨ c = '-' := by
    simpa [tokenChar, or_assoc] using token
  cases k with
  | proxyCred =>
    obtain rfl : c = ':' := by simpa [Credential.edge] using edge
    exact absurd token (by decide)
  | proxyPassword =>
    obtain rfl | blank : c = '=' ∨ Text.isWhitespace c = true := by
      simpa [Credential.edge] using edge
    · exact absurd token (by decide)
    · obtain alphanum | rfl | rfl := plain
      · rw [Text.isWhitespace_alphanum alphanum] at blank
        cases blank
      · exact absurd blank (by decide)
      · exact absurd blank (by decide)
  | tokenUsername =>
    obtain rfl : c = '/' := by simpa [Credential.edge] using edge
    exact absurd token (by decide)

theorem MaskedAt.not_token_run (h : MaskedAt k under secret rest) {v : List Char}
    (suffix : v <:+ under) (some_v : v ≠ []) :
    ¬ ∀ c ∈ v, Credential.tokenUsername.shape.plain c = true := by
  intro all
  obtain ⟨c, hc, -, edge⟩ := h.suffix_edge suffix some_v
  have token : tokenChar c = true := all c hc
  rw [edge_not_token edge] at token
  cases token

theorem setting_closed {xs : List Char} (starts : xs ≠ [])
    (plain : ∀ c ∈ xs.head?, Text.isWhitespace c = false) : PROXY_PASSWORD_KV.closed xs = true := by
  cases xs with
  | nil => exact absurd rfl starts
  | cons c more =>
    have first : settingChar c = true := by simp [settingChar, plain c rfl]
    simp [Shape.closed, PROXY_PASSWORD_KV, first]

theorem setting_closed_append {v xs : List Char} (all : ∀ c ∈ v, settingChar c = true)
    (starts : xs ≠ []) (plain : ∀ c ∈ xs, Text.isWhitespace c = false) :
    PROXY_PASSWORD_KV.closed (v ++ (xs ++ rest)) = true := by
  refine setting_closed (by simp [starts]) fun c hc => ?_
  rw [← List.append_assoc, List.head?_append_of_ne_nil _ (by simp [starts])] at hc
  obtain mem | mem := List.mem_append.mp (List.mem_of_head? hc)
  · simpa [settingChar] using all c mem
  · exact plain c mem

theorem url_closed_iff {v xs : List Char} (all : ∀ c ∈ v ++ xs, passwordChar c = true)
    (starts : xs ≠ []) (ends : ∀ c ∈ rest.head?, passwordChar c = false) :
    PROXY_CRED.closed (v ++ (xs ++ rest)) = true ↔ rest.head? = some '@' := by
  obtain ⟨run, stop⟩ := takeWhile_run all ends
  rw [← List.append_assoc]
  have whole : PROXY_CRED.closed (v ++ xs ++ rest) =
      (!(v ++ xs).isEmpty && true && rest.head? == some '@') := by
    rw [Shape.closed]
    simp only [PROXY_CRED, run, stop]
  rw [whole]
  simp [starts]

theorem MaskedAt.ends (h : MaskedAt k under secret rest) :
    ∀ c ∈ rest.head?, passwordChar c = false := by
  intro c hc
  obtain rfl | blank := h.rest_head c hc
  · decide
  · simp [passwordChar, blank]

theorem spliced (h : MaskedAt k under secret rest) (q : Credential) :
    Spliced q.shape under secret REDACTED rest where
  inner := by
    intro part some_part suffix
    by_contra fitting
    obtain ⟨found, fits⟩ := Option.ne_none_iff_exists'.mp fitting
    obtain ⟨after, lead, -⟩ := fits_eq_some.mp fits
    obtain ⟨c, more, head, bare⟩ := head_first lead
    cases part with
    | nil => exact some_part rfl
    | cons d others =>
      have whole := (lawful q).whole lead
      rw [head] at whole
      obtain rfl := (List.cons.inj whole.1).1
      exact bare (suffix.subset (List.mem_cons_self ..))
  reach := fun u found _ _ fits => head_reach h fits
  touch := by
    intro u found suffix fits own
    obtain ⟨after, lead, closed, secret_eq, -⟩ := fits_eq_some.mp fits
    obtain ⟨whole, some_head⟩ := (lawful q).whole lead
    rw [own] at whole some_head
    obtain rfl := List.append_cancel_left whole
    obtain ⟨c, -, last, edge⟩ := h.suffix_edge suffix some_head
    obtain ⟨d, own_last, own_edge⟩ := head_edge lead
    rw [own, last] at own_last
    obtain rfl := Option.some.inj own_last
    obtain rfl := edge_apart edge own_edge
    by_cases password : k = .tokenUsername
    · subst password
      rw [show Credential.tokenUsername.shape = TOKEN_USERNAME from rfl,
        not_closed_redacted] at closed
      cases closed
    · rw [secret_eq]
      exact (takeWhile_run (redacted_plain password) h.stops).1
  back := by
    intro v suffix all closed
    cases q with
    | proxyCred =>
      have mask : ∀ c ∈ v ++ REDACTED, passwordChar c = true := fun c hc =>
        (List.mem_append.mp hc).elim (all c) (redacted_plain (q := .proxyCred) (by decide) c)
      have at_sign := (url_closed_iff mask (by decide) h.ends).mp closed
      by_cases setting : k = .proxyPassword
      · subst setting
        exact absurd (h.stops '@' at_sign) (by decide)
      · obtain ⟨-, plain⟩ := h.in_url setting
        have own : ∀ c ∈ v ++ secret, passwordChar c = true := fun c hc =>
          (List.mem_append.mp hc).elim (all c) (plain c)
        exact (url_closed_iff own h.starts h.ends).mpr at_sign
    | proxyPassword => exact setting_closed_append all h.starts h.nonblank
    | tokenUsername =>
      by_cases empty : v = []
      · subst empty
        rw [List.nil_append] at closed
        rw [show Credential.tokenUsername.shape = TOKEN_USERNAME from rfl,
          not_closed_redacted] at closed
        cases closed
      · exact absurd all (h.not_token_run suffix empty)

theorem forth (h : MaskedAt k under secret rest) (order : q = .proxyCred → k ≠ .proxyPassword)
    {v : List Char} (suffix : v <:+ under) (some_v : v ≠ [])
    (all : ∀ c ∈ v, q.shape.plain c = true) : q.shape.closed (v ++ (REDACTED ++ rest)) = true := by
  cases q with
  | proxyCred =>
    have mask : ∀ c ∈ v ++ REDACTED, passwordChar c = true := fun c hc =>
      (List.mem_append.mp hc).elim (all c) (redacted_plain (q := .proxyCred) (by decide) c)
    exact (url_closed_iff mask (by decide) h.ends).mpr (h.in_url (order rfl)).1
  | proxyPassword => exact setting_closed_append all (by decide) (by decide)
  | tokenUsername => exact absurd all (h.not_token_run suffix some_v)

theorem redacted_closed (h : MaskedAt k under secret rest) (password : k ≠ .tokenUsername) :
    k.shape.closed (REDACTED ++ rest) = true := by
  obtain ⟨run, stop⟩ := takeWhile_run (redacted_plain password) h.stops
  rw [Shape.closed, run, stop, h.closes]
  cases k with
  | proxyCred => rfl
  | proxyPassword => rfl
  | tokenUsername => exact absurd rfl password

end

def passwordAt (line : List Char) : Option (Credential × List Char × Found Char) :=
  match PROXY_CRED.first line with
  | some place => some (.proxyCred, place)
  | none => (PROXY_PASSWORD_KV.first line).map fun place => (.proxyPassword, place)

def PasswordsMasked (text : List Char) : Prop :=
  ∀ q : Credential, q ≠ .tokenUsername → ∀ before found, q.shape.Occurs text before found →
    found.secret = REDACTED

def NoToken (text : List Char) : Prop :=
  ∀ before found, ¬ TOKEN_USERNAME.Occurs text before found

structure NothingLeft (line path : String) : Prop where
  proxy : PasswordsMasked (maskProxyCredentials line path).1.toList
  token : NoToken (maskTokenUsername line path).1.toList
  proxy_again : (maskProxyCredentials (maskProxyCredentials line path).1 path).1 =
    (maskProxyCredentials line path).1
  token_again : (maskTokenUsername (maskTokenUsername line path).1 path).1 =
    (maskTokenUsername line path).1
  remote : PasswordsMasked (maskGitRemote line path).1.toList ∧
    NoToken (maskGitRemote line path).1.toList

def OneToken (line : List Char) : Prop := ∀ place other found again,
  TOKEN_USERNAME.Occurs line place found → TOKEN_USERNAME.Occurs line other again → place = other

structure OneEach (line : List Char) : Prop where
  password : ∀ k before found, passwordAt line = some (k, before, found) →
    ∀ q : Credential, q ≠ .tokenUsername → ∀ place other, q.shape.Occurs line place other →
      Beside (before ++ found.head) found.secret place other.head → other.secret = REDACTED
  token : OneToken line

def proxyMasked (line : List Char) : List Char :=
  match passwordAt line with
  | some (_, before, found) => before ++ found.head ++ (REDACTED ++ found.tail)
  | none => line

def tokenMasked (line : List Char) : List Char :=
  match TOKEN_USERNAME.first line with
  | some (before, found) => before ++ found.head ++ (REDACTED ++ found.tail)
  | none => line

theorem maskProxyCredentials_text (line path : String) :
    (maskProxyCredentials line path).1.toList = proxyMasked line.toList := by
  unfold maskProxyCredentials proxyMasked passwordAt Shape.mask
  cases PROXY_CRED.first line.toList with
  | some place => simp
  | none => cases PROXY_PASSWORD_KV.first line.toList <;> simp

theorem maskTokenUsername_text (line path : String) :
    (maskTokenUsername line path).1.toList = tokenMasked line.toList := by
  unfold maskTokenUsername tokenMasked Shape.mask
  cases TOKEN_USERNAME.first line.toList <;> simp

theorem maskGitRemote_text (remote path : String) :
    (maskGitRemote remote path).1.toList = tokenMasked (proxyMasked remote.toList) := by
  have token := maskTokenUsername_text (maskProxyCredentials remote path).1 path
  rw [maskProxyCredentials_text] at token
  exact token

section

variable {line before : List Char} {found : Found Char} {k : Credential}

theorem first_place (h : k.shape.first line = some (before, found)) :
    line = before ++ found.head ++ (found.secret ++ found.tail) ∧
      MaskedAt k (before ++ found.head) found.secret found.tail := by
  obtain ⟨⟨rest, whole, fits⟩, -⟩ := (first_eq_some (lawful k)).mp h
  refine ⟨?_, maskedAt fits before⟩
  rw [whole, fits_whole (lawful k) fits, List.append_assoc]

theorem passwordAt_eq_some (h : passwordAt line = some (k, before, found)) :
    k ≠ .tokenUsername ∧ k.shape.first line = some (before, found) ∧
      (k = .proxyPassword → PROXY_CRED.first line = none) := by
  unfold passwordAt at h
  cases url : PROXY_CRED.first line with
  | some place =>
    rw [url] at h
    cases h
    exact ⟨by decide, url, fun h => nomatch h⟩
  | none =>
    rw [url] at h
    obtain ⟨place, setting, same⟩ := Option.map_eq_some_iff.mp h
    cases same
    exact ⟨by decide, setting, fun _ => rfl⟩

theorem passwordAt_eq_none (h : passwordAt line = none) (password : k ≠ .tokenUsername) :
    k.shape.first line = none := by
  unfold passwordAt at h
  cases url : PROXY_CRED.first line with
  | some place => simp [url] at h
  | none =>
    rw [url] at h
    cases k with
    | proxyCred => exact url
    | proxyPassword => exact Option.map_eq_none_iff.mp h
    | tokenUsername => exact absurd rfl password

theorem passwordsMasked_iff : PasswordsMasked (proxyMasked line) ↔
    ∀ k before found, passwordAt line = some (k, before, found) →
      ∀ q : Credential, q ≠ .tokenUsername → ∀ place other, q.shape.Occurs line place other →
        Beside (before ++ found.head) found.secret place other.head → other.secret = REDACTED := by
  unfold proxyMasked
  cases masked : passwordAt line with
  | none =>
    refine iff_of_true (fun q password place other occurs => ?_) fun _ _ _ h => nomatch h
    exact absurd occurs ((first_eq_none (lawful q)).mp (passwordAt_eq_none masked password) _ _)
  | some at_place =>
    obtain ⟨k, before, found⟩ := at_place
    obtain ⟨-, first, order⟩ := passwordAt_eq_some masked
    obtain ⟨whole, place_ok⟩ := first_place first
    constructor
    · rintro all _ _ _ ⟨rfl, rfl, rfl⟩ q password place other occurs beside
      by_contra bare
      have ordered : q = .proxyCred → k ≠ .proxyPassword := by
        rintro rfl rfl
        exact (first_eq_none (lawful .proxyCred)).mp (order rfl) _ _ occurs
      rw [whole] at occurs
      obtain ⟨there, still, again, left⟩ := masked_of_occurs (lawful q) place_ok.not_redacted
        (fun v suffix some_v plain _ => forth place_ok ordered suffix some_v plain) occurs beside
        bare
      exact left (all q password there still again)
    · intro all q password place other occurs
      by_contra bare
      obtain ⟨own, again, head, -, ahead⟩ | ⟨after, -, again⟩ :=
        occurs_of_masked (lawful q) (spliced place_ok q) place_ok.not_redacted occurs
      · rw [← whole] at again
        obtain ⟨short, left⟩ := ahead bare
        rw [← head] at short
        exact left (all k before found rfl q password place own again (.inl short))
      · rw [← whole] at again
        refine bare (all k before found rfl q password _ other again (.inr ?_))
        simp only [List.length_append]
        omega

theorem token_bare {rest : List Char} (fits : TOKEN_USERNAME.fits rest = some found) :
    found.secret ≠ REDACTED := by
  intro same
  have place := maskedAt (k := .tokenUsername) fits []
  exact absurd (place.plain '[' (by rw [same]; decide)) (by decide)

theorem token_behind {place : List Char} {other : Found Char}
    (first : TOKEN_USERNAME.first line = some (before, found))
    (occurs : TOKEN_USERNAME.Occurs line place other) (apart : place ≠ before) :
    (before ++ found.head).length + found.secret.length ≤ place.length := by
  obtain ⟨whole, place_ok⟩ := first_place (k := .tokenUsername) first
  obtain ⟨⟨own_text, own_line, own_fits⟩, least⟩ := (first_eq_some (lawful .tokenUsername)).mp first
  obtain ⟨own_rest, own_lead, -⟩ := fits_eq_some.mp own_fits
  obtain ⟨head, -⟩ := tokenLead_iff.mp own_lead
  have later := least place other occurs
  obtain ⟨text, cut, fits⟩ := occurs
  obtain ⟨rest, lead, -⟩ := fits_eq_some.mp fits
  obtain ⟨other_head, starts⟩ := tokenLead_iff.mp lead
  have colon : (line)[place.length]? = some ':' := by
    rw [cut, starts, other_head]
    simp
  have ne : before.length ≠ place.length := by
    intro same
    exact apart (List.append_inj (cut.symm.trans own_line) same.symm).1
  by_contra short
  simp only [List.length_append, head, List.length_cons, List.length_nil, Nat.not_le] at short
  -- the place is within the first token, whose only colon is its first character
  have run : line = before ++ ':' :: (['/', '/'] ++ found.secret ++ found.tail) := by
    rw [whole, head]
    simp
  obtain ⟨m, at_m⟩ : ∃ m, place.length = before.length + (m + 1) :=
    ⟨place.length - before.length - 1, by omega⟩
  have within : m < (['/', '/'] ++ found.secret).length := by
    simp only [List.length_append, List.length_cons, List.length_nil]
    omega
  rw [run, at_m, List.getElem?_append_right (by omega), Nat.add_sub_cancel_left,
    List.getElem?_cons_succ, List.getElem?_append_left within] at colon
  have mem := List.mem_of_getElem? colon
  simp only [List.cons_append, List.nil_append, List.mem_cons] at mem
  obtain slash | slash | mem := mem
  · exact absurd slash (by decide)
  · exact absurd slash (by decide)
  · exact absurd (place_ok.plain ':' mem) (by decide)

theorem noToken_iff : NoToken (tokenMasked line) ↔ OneToken line := by
  unfold tokenMasked
  cases first : TOKEN_USERNAME.first line with
  | none =>
    have none := (first_eq_none (lawful .tokenUsername)).mp first
    exact iff_of_true none fun place _ found _ occurs _ => absurd occurs (none place found)
  | some at_place =>
    obtain ⟨before, found⟩ := at_place
    obtain ⟨whole, place_ok⟩ := first_place (k := .tokenUsername) first
    constructor
    · intro none
      have only : ∀ place other, TOKEN_USERNAME.Occurs line place other → place = before := by
        intro place other occurs
        by_contra apart
        have behind := token_behind first occurs apart
        have bare : other.secret ≠ REDACTED := by
          obtain ⟨rest, -, fits⟩ := occurs
          exact token_bare fits
        have again := occurs
        rw [whole] at again
        obtain ⟨there, still, left, -⟩ := masked_of_occurs (lawful .tokenUsername)
          place_ok.not_redacted (fun v suffix some_v plain _ =>
            forth (q := .tokenUsername) place_ok (fun h => nomatch h) suffix some_v plain)
          again (.inr behind) bare
        exact none there still left
      exact fun place other found again one two =>
        (only place found one).trans (only other again two).symm
    · intro one place other occurs
      have own := ((first_eq_some (lawful .tokenUsername)).mp first).1
      obtain ⟨still, again, -, -, ahead⟩ | ⟨after, -, again⟩ :=
        occurs_of_masked (lawful .tokenUsername) (spliced place_ok .tokenUsername)
          place_ok.not_redacted occurs
      · rw [← whole] at again
        have same := one place before still found again own
        obtain ⟨rest, -, fits⟩ := occurs
        obtain ⟨after, lead, -⟩ := fits_eq_some.mp fits
        obtain ⟨rest', -, fits'⟩ := own
        obtain ⟨after', lead', -⟩ := fits_eq_some.mp fits'
        have short := (ahead (token_bare fits)).1
        rw [same, (tokenLead_iff.mp lead).1, List.length_append,
          (tokenLead_iff.mp lead').1] at short
        exact lt_irrefl _ short
      · rw [← whole] at again
        have same := congrArg List.length (one _ before other found again own)
        have size := List.length_pos_iff.mpr place_ok.starts
        simp only [List.length_append] at same
        omega

theorem oneToken_proxyMasked (one : OneToken line) : OneToken (proxyMasked line) := by
  unfold proxyMasked
  cases masked : passwordAt line with
  | none => exact one
  | some at_place =>
    obtain ⟨k, before, found⟩ := at_place
    obtain ⟨whole, place_ok⟩ := first_place (passwordAt_eq_some masked).2.1
    have from_line := fun {place other} => @occurs_of_masked _ _ _ _ _ _ (lawful .tokenUsername)
      (spliced place_ok .tokenUsername) place_ok.not_redacted place other
    intro a b f g occurs_a occurs_b
    obtain ⟨own, in_a, -, short, -⟩ | ⟨after, rfl, in_a⟩ := from_line occurs_a <;>
      obtain ⟨own', in_b, -, short', -⟩ | ⟨after', rfl, in_b⟩ := from_line occurs_b <;>
      rw [← whole] at in_a in_b <;> have same := one _ _ _ _ in_a in_b
    · exact same
    · exfalso
      have size := congrArg List.length same
      have some_secret := List.length_pos_iff.mpr place_ok.starts
      simp only [List.length_append] at size short
      omega
    · exfalso
      have size := congrArg List.length same
      have some_secret := List.length_pos_iff.mpr place_ok.starts
      simp only [List.length_append] at size short'
      omega
    · rw [List.append_cancel_left (List.append_cancel_left same)]

theorem proxyMasked_again : proxyMasked (proxyMasked line) = proxyMasked line := by
  cases masked : passwordAt line with
  | none =>
    have same : proxyMasked line = line := by rw [proxyMasked, masked]
    rw [same, same]
  | some at_place =>
    obtain ⟨k, before, found⟩ := at_place
    obtain ⟨password, first, order⟩ := passwordAt_eq_some masked
    obtain ⟨whole, place_ok⟩ := first_place first
    have text : proxyMasked line = before ++ found.head ++ (REDACTED ++ found.tail) := by
      rw [proxyMasked, masked]
    have again := first_masked (lawful k) first (spliced place_ok k) place_ok.not_redacted
      (takeWhile_run (redacted_plain password) place_ok.stops) (redacted_closed place_ok password)
    rw [← text] at again
    have place : passwordAt (proxyMasked line) =
        some (k, before, ⟨found.head, REDACTED, found.tail⟩) := by
      cases k with
      | proxyCred =>
        unfold passwordAt
        rw [show PROXY_CRED.first _ = _ from again]
      | proxyPassword =>
        have no_url : PROXY_CRED.first (proxyMasked line) = none := by
          refine (first_eq_none (lawful .proxyCred)).mpr fun other g occurs => ?_
          have none := (first_eq_none (lawful .proxyCred)).mp (order rfl)
          rw [text] at occurs
          obtain ⟨own, there, -⟩ | ⟨after, -, there⟩ := occurs_of_masked (lawful .proxyCred)
            (spliced place_ok .proxyCred) place_ok.not_redacted occurs
          · exact none _ _ (whole ▸ there)
          · exact none _ _ (whole ▸ there)
        unfold passwordAt
        rw [no_url, show PROXY_PASSWORD_KV.first _ = _ from again]
        rfl
      | tokenUsername => exact absurd rfl password
    conv_lhs => rw [proxyMasked, place]
    exact text.symm

theorem tokenMasked_eq (none : NoToken line) : tokenMasked line = line := by
  have first : TOKEN_USERNAME.first line = .none := (first_eq_none (lawful .tokenUsername)).mpr none
  rw [tokenMasked, first]

theorem passwordsMasked_tokenMasked (all : PasswordsMasked line) :
    PasswordsMasked (tokenMasked line) := by
  unfold tokenMasked
  cases first : TOKEN_USERNAME.first line with
  | none => exact all
  | some at_place =>
    obtain ⟨before, found⟩ := at_place
    obtain ⟨whole, place_ok⟩ := first_place (k := .tokenUsername) first
    intro q password place other occurs
    by_contra bare
    obtain ⟨own, there, -, -, ahead⟩ | ⟨after, -, there⟩ := occurs_of_masked (lawful q)
      (spliced place_ok q) place_ok.not_redacted occurs
    · exact (ahead bare).2 (all q password _ own (whole ▸ there))
    · exact bare (all q password _ other (whole ▸ there))

end

/-- For every line. -/
theorem nothing_left_iff (line path : String) : NothingLeft line path ↔ OneEach line.toList := by
  constructor
  · intro left
    refine ⟨passwordsMasked_iff.mp ?_, noToken_iff.mp ?_⟩
    · rw [← maskProxyCredentials_text line path]
      exact left.proxy
    · rw [← maskTokenUsername_text line path]
      exact left.token
  · intro one
    have proxy : PasswordsMasked (proxyMasked line.toList) := passwordsMasked_iff.mpr one.password
    have token : NoToken (tokenMasked line.toList) := noToken_iff.mpr one.token
    constructor
    case proxy => rwa [maskProxyCredentials_text]
    case token => rwa [maskTokenUsername_text]
    case proxy_again =>
      rw [← String.toList_inj, maskProxyCredentials_text, maskProxyCredentials_text,
        proxyMasked_again]
    case token_again =>
      rw [← String.toList_inj, maskTokenUsername_text, maskTokenUsername_text,
        tokenMasked_eq token]
    case remote =>
      rw [maskGitRemote_text]
      exact ⟨passwordsMasked_tokenMasked proxy,
        noToken_iff.mpr (oneToken_proxyMasked one.token)⟩

/-- Of two URLs with a password, the second keeps its own. -/
theorem second_password_left : ¬ ∀ line path, NothingLeft line path := by
  intro left
  have masked := (left "http://a:b@h http://c:d@h" "/etc/dnf/dnf.conf").proxy .proxyCred
    (by decide) "http://a:[REDACTED]@h http".toList
    ⟨"://c:".toList, ['d'], "@h".toList⟩ ⟨"://c:d@h".toList, by decide +kernel, by decide +kernel⟩
  revert masked
  decide

end Inspectah
