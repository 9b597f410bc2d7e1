import Inspectah.Library.Words
import Mathlib.Data.List.Basic
import Mathlib.Data.List.TakeWhile

/-!
Secrets in a text. A shape is a head, a run of plain characters, which is the secret, and what
may follow; the first place where it fits is masked.
-/
namespace Masking

open Words (takeWhile_run)

variable {α : Type}

structure Shape (α : Type) where
  /-- The head at the beginning of a text, and the text after it. -/
  lead : List α → Option (List α × List α)
  plain : α → Bool
  accepts : List α → Bool
  closes : Option α → Bool

structure Found (α : Type) where
  head : List α
  secret : List α
  tail : List α
  deriving DecidableEq

section

variable (q : Shape α)

/-- A text after a head begins with a secret. -/
def Shape.closed (rest : List α) : Bool :=
  !(rest.takeWhile q.plain).isEmpty && q.accepts (rest.takeWhile q.plain) &&
    q.closes (rest.dropWhile q.plain).head?

def Shape.fits (text : List α) : Option (Found α) :=
  (q.lead text).bind fun (head, rest) =>
    if q.closed rest then some ⟨head, rest.takeWhile q.plain, rest.dropWhile q.plain⟩ else none

def Shape.first : List α → Option (List α × Found α)
  | [] => none
  | c :: rest =>
    match q.fits (c :: rest) with
    | some found => some ([], found)
    | none => (Shape.first rest).map fun (before, found) => (c :: before, found)

def Shape.mask (mask text : List α) : Option (List α) :=
  (q.first text).map fun (before, found) => before ++ found.head ++ (mask ++ found.tail)

def Shape.Occurs (text before : List α) (found : Found α) : Prop :=
  ∃ rest, text = before ++ rest ∧ q.fits rest = some found

structure Shape.Lawful : Prop where
  whole : ∀ {text head rest}, q.lead text = some (head, rest) → text = head ++ rest ∧ head ≠ []
  /-- A head does not depend on the secret after it. -/
  stable : ∀ {head rest c other}, q.lead (head ++ rest) = some (head, rest) → q.plain c = true →
    q.lead (head ++ c :: other) = some (head, c :: other)

end

section

variable {q : Shape α}

theorem fits_eq_some {text : List α} {found : Found α} : q.fits text = some found ↔
    ∃ rest, q.lead text = some (found.head, rest) ∧ q.closed rest = true ∧
      found.secret = rest.takeWhile q.plain ∧ found.tail = rest.dropWhile q.plain := by
  obtain ⟨head, secret, tail⟩ := found
  unfold Shape.fits
  rw [Option.bind_eq_some_iff]
  constructor
  · rintro ⟨⟨other, rest⟩, lead, same⟩
    dsimp only at same
    split at same
    next closed =>
      cases Option.some.inj same
      exact ⟨rest, lead, closed, rfl, rfl⟩
    · cases same
  · rintro ⟨rest, lead, closed, rfl, rfl⟩
    exact ⟨_, lead, if_pos closed⟩

theorem fits_whole (lawful : q.Lawful) {text : List α} {found : Found α}
    (h : q.fits text = some found) : text = found.head ++ (found.secret ++ found.tail) := by
  obtain ⟨rest, lead, -, secret, tail⟩ := fits_eq_some.mp h
  rw [secret, tail, List.takeWhile_append_dropWhile]
  exact (lawful.whole lead).1

theorem not_fits_nil (lawful : q.Lawful) : q.fits [] = none := by
  cases fits : q.fits [] with
  | none => rfl
  | some found =>
    obtain ⟨rest, lead, -⟩ := fits_eq_some.mp fits
    obtain ⟨empty, ne⟩ := lawful.whole lead
    exact absurd (List.append_eq_nil_iff.mp empty.symm).1 ne

theorem occurs_cons {c : α} {text before : List α} {found : Found α} :
    q.Occurs (c :: text) before found ↔
      (before = [] ∧ q.fits (c :: text) = some found) ∨
      ∃ more, before = c :: more ∧ q.Occurs text more found := by
  unfold Shape.Occurs
  constructor
  · rintro ⟨rest, whole, fits⟩
    cases before with
    | nil => exact .inl ⟨rfl, by rw [whole]; exact fits⟩
    | cons d more =>
      obtain ⟨rfl, rfl⟩ := List.cons.inj whole
      exact .inr ⟨more, rfl, rest, rfl, fits⟩
  · rintro (⟨rfl, fits⟩ | ⟨more, rfl, rest, rfl, fits⟩)
    · exact ⟨_, rfl, fits⟩
    · exact ⟨rest, rfl, fits⟩

theorem not_occurs_nil (lawful : q.Lawful) {before : List α} {found : Found α} :
    ¬ q.Occurs [] before found := by
  rintro ⟨rest, whole, fits⟩
  rw [(List.append_eq_nil_iff.mp whole.symm).2, not_fits_nil lawful] at fits
  cases fits

theorem first_eq_none (lawful : q.Lawful) {text : List α} :
    q.first text = none ↔ ∀ before found, ¬ q.Occurs text before found := by
  induction text with
  | nil => exact iff_of_true rfl fun _ _ => not_occurs_nil lawful
  | cons c rest ih =>
    rw [Shape.first]
    cases fits : q.fits (c :: rest) with
    | some found =>
      refine iff_of_false (fun none => nomatch none) fun none => ?_
      exact none [] found (occurs_cons.mpr (.inl ⟨rfl, fits⟩))
    | none =>
      simp only [Option.map_eq_none_iff, ih, occurs_cons, fits]
      constructor
      · rintro none before found (⟨-, fits⟩ | ⟨more, -, occurs⟩)
        · cases fits
        · exact none more found occurs
      · exact fun none before found occurs => none _ found (.inr ⟨before, rfl, occurs⟩)

theorem first_eq_some (lawful : q.Lawful) {text before : List α} {found : Found α} :
    q.first text = some (before, found) ↔ q.Occurs text before found ∧
      ∀ other g, q.Occurs text other g → before.length ≤ other.length := by
  induction text generalizing before with
  | nil => exact iff_of_false (fun h => nomatch h) fun h => not_occurs_nil lawful h.1
  | cons c rest ih =>
    rw [Shape.first]
    cases fits : q.fits (c :: rest) with
    | some here =>
      simp only [Option.some.injEq, Prod.mk.injEq]
      constructor
      · rintro ⟨rfl, rfl⟩
        exact ⟨occurs_cons.mpr (.inl ⟨rfl, fits⟩), fun _ _ _ => Nat.zero_le _⟩
      · rintro ⟨occurs, least⟩
        have empty := List.length_eq_zero_iff.mp
          (Nat.le_zero.mp (least [] here (occurs_cons.mpr (.inl ⟨rfl, fits⟩))))
        obtain ⟨-, own⟩ | ⟨more, other, -⟩ := occurs_cons.mp occurs
        · exact ⟨empty.symm, Option.some.inj (fits.symm.trans own)⟩
        · rw [empty] at other
          cases other
    | none =>
      simp only [Option.map_eq_some_iff, Prod.mk.injEq, Prod.exists]
      constructor
      · rintro ⟨more, g, found, rfl, rfl⟩
        obtain ⟨occurs, least⟩ := ih.mp found
        refine ⟨occurs_cons.mpr (.inr ⟨more, rfl, occurs⟩), fun other g again => ?_⟩
        obtain ⟨-, own⟩ | ⟨others, rfl, deeper⟩ := occurs_cons.mp again
        · rw [fits] at own
          cases own
        · exact Nat.succ_le_succ (least others g deeper)
      · rintro ⟨occurs, least⟩
        obtain ⟨-, own⟩ | ⟨more, rfl, deeper⟩ := occurs_cons.mp occurs
        · rw [fits] at own
          cases own
        · refine ⟨more, found, ih.mpr ⟨deeper, fun other g again => ?_⟩, rfl, rfl⟩
          exact Nat.le_of_succ_le_succ (least _ g (occurs_cons.mpr (.inr ⟨other, rfl, again⟩)))

/-- The run in a text that is not plain throughout does not reach what comes after it. -/
theorem run_within {v : List α} (cut : ¬ ∀ c ∈ v, q.plain c = true) (x y : List α) :
    (v ++ x).takeWhile q.plain = (v ++ y).takeWhile q.plain ∧
      ((v ++ x).dropWhile q.plain).head? = ((v ++ y).dropWhile q.plain).head? := by
  have plain : ∀ c ∈ v.takeWhile q.plain, q.plain c = true := fun c hc => List.mem_takeWhile_imp hc
  cases stop : v.dropWhile q.plain with
  | nil => exact absurd (List.dropWhile_eq_nil_iff.mp stop) cut
  | cons d more =>
    have stops : q.plain d = false := by
      have head := List.head?_dropWhile_not q.plain v
      rw [stop] at head
      simpa using head
    have whole : v = v.takeWhile q.plain ++ d :: more := by
      rw [← stop, List.takeWhile_append_dropWhile]
    clear stop
    generalize v.takeWhile q.plain = run at whole plain
    subst whole
    have ends : ∀ z : List α, ∀ c ∈ (d :: more ++ z).head?, q.plain c = false := fun z c hc => by
      rw [← Option.some.inj hc]
      exact stops
    obtain ⟨run_x, next_x⟩ := takeWhile_run plain (ends x)
    obtain ⟨run_y, next_y⟩ := takeWhile_run plain (ends y)
    rw [List.append_assoc, List.append_assoc, run_x, run_y, next_x, next_y]
    exact ⟨rfl, rfl⟩

theorem closed_starts {rest : List α} (h : q.closed rest = true) :
    ∃ c more, rest = c :: more ∧ q.plain c = true := by
  cases rest with
  | nil => simp [Shape.closed] at h
  | cons c more =>
    refine ⟨c, more, rfl, ?_⟩
    by_contra other
    simp [Shape.closed, other] at h

theorem fits_splice (lawful : q.Lawful) {head v x y : List α} {found : Found α}
    (fits : q.fits (head ++ (v ++ x)) = some found) (own : found.head = head)
    (closes : (∀ c ∈ v, q.plain c = true) → q.closed (v ++ x) = true → q.closed (v ++ y) = true) :
    ∃ other, q.fits (head ++ (v ++ y)) = some other ∧ other.head = head ∧
      (other.secret = found.secret ∨ v <+: other.secret) := by
  obtain ⟨rest, lead, closed, secret, -⟩ := fits_eq_some.mp fits
  rw [own] at lead
  obtain rfl := List.append_cancel_left (lawful.whole lead).1
  have closed_y : q.closed (v ++ y) = true := by
    by_cases all : ∀ c ∈ v, q.plain c = true
    · exact closes all closed
    · obtain ⟨run, next⟩ := run_within all x y
      rw [Shape.closed, ← run, ← next]
      exact closed
  obtain ⟨c, more, starts, plain⟩ := closed_starts closed_y
  have lead_y : q.lead (head ++ (v ++ y)) = some (head, v ++ y) := by
    rw [starts]
    exact lawful.stable lead plain
  refine ⟨⟨head, _, _⟩, fits_eq_some.mpr ⟨v ++ y, lead_y, closed_y, rfl, rfl⟩, rfl, ?_⟩
  by_cases all : ∀ c ∈ v, q.plain c = true
  · refine .inr ?_
    rw [List.takeWhile_append_of_pos all]
    exact List.prefix_append ..
  · rw [secret]
    exact .inl (run_within all y x).1

/-- `under ++ secret ++ rest`, its secret masked: what a shape of other secrets needs of the two
    texts. -/
structure Spliced (q : Shape α) (under secret mask rest : List α) : Prop where
  /-- The shape does not fit from within the mask on. -/
  inner : ∀ part, part ≠ [] → part <:+ mask → q.fits (part ++ rest) = none
  /-- A head does not reach into the mask. -/
  reach : ∀ u found, u <:+ under → u ≠ [] → q.fits (u ++ (mask ++ rest)) = some found →
    found.head.length ≤ u.length
  /-- A head that ends at the mask has the mask for its secret. -/
  touch : ∀ u found, u <:+ under → q.fits (u ++ (mask ++ rest)) = some found → found.head = u →
    found.secret = mask
  back : ∀ v, v <:+ under → (∀ c ∈ v, q.plain c = true) →
    q.closed (v ++ (mask ++ rest)) = true → q.closed (v ++ (secret ++ rest)) = true

def Beside (under secret before head : List α) : Prop :=
  before.length + head.length < under.length ∨ under.length + secret.length ≤ before.length

section

variable {under secret mask rest : List α}

/-- A head that ends before a place is the beginning of the text up to there. -/
theorem head_within {u x head more : List α} (whole : u ++ x = head ++ more)
    (short : head.length ≤ u.length) : ∃ v, u = head ++ v ∧ more = v ++ x := by
  obtain ⟨v, longer, rfl⟩ | ⟨v, rfl, rest⟩ := List.append_eq_append_iff.mp whole
  · have empty : v.length = 0 := by
      rw [longer, List.length_append] at short
      omega
    obtain rfl := List.length_eq_zero_iff.mp empty
    exact ⟨[], by rw [longer, List.append_nil, List.append_nil], rfl⟩
  · exact ⟨v, rfl, rest⟩

theorem last_mem {v own : List α} (some_v : v ≠ []) (suffix : v <:+ under)
    (last : ∀ c ∈ under.getLast?, c ∉ mask) (starts : v <+: own) : own ≠ mask := by
  rintro rfl
  obtain ⟨front, rfl⟩ := suffix
  rw [List.getLast?_append_of_ne_nil _ some_v] at last
  exact last _ (List.getLast?_eq_getLast_of_ne_nil some_v)
    (starts.subset (List.getLast_mem some_v))

theorem occurs_of_masked (lawful : q.Lawful) (h : Spliced q under secret mask rest)
    (last : ∀ c ∈ under.getLast?, c ∉ mask) {before : List α} {found : Found α}
    (occurs : q.Occurs (under ++ (mask ++ rest)) before found) :
    (∃ other, q.Occurs (under ++ (secret ++ rest)) before other ∧ other.head = found.head ∧
      before.length + found.head.length ≤ under.length ∧ (found.secret ≠ mask →
        before.length + found.head.length < under.length ∧ other.secret ≠ mask)) ∨
    ∃ after, before = under ++ (mask ++ after) ∧
      q.Occurs (under ++ (secret ++ rest)) (under ++ (secret ++ after)) found := by
  obtain ⟨text, whole, fits⟩ := occurs
  -- from within the mask on nothing fits
  have beyond : ∀ part, mask ++ rest = part ++ text → ∃ after, part = mask ++ after ∧
      rest = after ++ text := by
    intro part cut
    obtain ⟨after, long, more⟩ | ⟨short, own, more⟩ := List.append_eq_append_iff.mp cut
    · exact ⟨after, long, more⟩
    · cases short with
      | nil => exact ⟨[], by rw [own, List.append_nil, List.append_nil], by rw [more]; rfl⟩
      | cons c others =>
        have missed := h.inner (c :: others) (List.cons_ne_nil _ _) ⟨part, own.symm⟩
        rw [more, missed] at fits
        cases fits
  obtain ⟨part, rfl, cut⟩ | ⟨u, rfl, rfl⟩ := List.append_eq_append_iff.mp whole
  · obtain ⟨after, rfl, rfl⟩ := beyond part cut
    exact .inr ⟨after, rfl, text, by simp only [List.append_assoc], fits⟩
  by_cases empty : u = []
  · subst empty
    obtain ⟨after, none, rest_eq⟩ := beyond [] rfl
    refine .inr ⟨[], ?_, mask ++ rest, ?_, fits⟩
    · rw [List.append_nil, (List.append_eq_nil_iff.mp none.symm).1]
      simp
    · rw [(List.append_eq_nil_iff.mp none.symm).1]
      simp
  have short := h.reach u found ⟨before, rfl⟩ empty fits
  obtain ⟨v, rfl, -⟩ := head_within (fits_whole lawful fits) short
  have suffix : v <:+ before ++ (found.head ++ v) := ⟨before ++ found.head, by simp⟩
  have splice := fits
  rw [List.append_assoc] at splice
  obtain ⟨other, fits_other, head, secrets⟩ := fits_splice lawful splice rfl (h.back v suffix)
  refine .inl ⟨other, ⟨_, by simp only [List.append_assoc], fits_other⟩, head, ?_, fun bare => ?_⟩
  · simp only [List.length_append]
    omega
  have some_v : v ≠ [] := by
    rintro rfl
    exact bare (h.touch _ found ⟨before, rfl⟩ fits (by rw [List.append_nil]))
  have size := List.length_pos_iff.mpr some_v
  refine ⟨by simp only [List.length_append]; omega, ?_⟩
  obtain same | starts := secrets
  · rw [same]
    exact bare
  · exact last_mem some_v suffix last starts

theorem masked_of_occurs (lawful : q.Lawful) (last : ∀ c ∈ under.getLast?, c ∉ mask)
    (forth : ∀ v, v <:+ under → v ≠ [] → (∀ c ∈ v, q.plain c = true) →
      q.closed (v ++ (secret ++ rest)) = true → q.closed (v ++ (mask ++ rest)) = true)
    {before : List α} {found : Found α} (occurs : q.Occurs (under ++ (secret ++ rest)) before found)
    (beside : Beside under secret before found.head) (bare : found.secret ≠ mask) :
    ∃ place other, q.Occurs (under ++ (mask ++ rest)) place other ∧ other.secret ≠ mask := by
  obtain ⟨text, whole, fits⟩ := occurs
  obtain ahead | behind := beside
  · obtain ⟨u, rfl, rfl⟩ := head_within whole (by omega)
    rw [List.length_append] at ahead
    obtain ⟨v, rfl, -⟩ := head_within (fits_whole lawful fits) (by omega)
    have suffix : v <:+ before ++ (found.head ++ v) := ⟨before ++ found.head, by simp⟩
    have some_v : v ≠ [] := by
      rintro rfl
      simp at ahead
    have splice := fits
    rw [List.append_assoc] at splice
    obtain ⟨other, fits_other, -, secrets⟩ := fits_splice lawful splice rfl (forth v suffix some_v)
    refine ⟨before, other, ⟨_, by simp only [List.append_assoc], fits_other⟩, ?_⟩
    obtain same | starts := secrets
    · rw [same]
      exact bare
    · exact last_mem some_v suffix last starts
  · rw [← List.append_assoc] at whole
    obtain ⟨after, rfl, rfl⟩ := head_within whole.symm (by simpa using behind)
    exact ⟨under ++ (mask ++ after), found, ⟨text, by simp only [List.append_assoc], fits⟩, bare⟩

theorem first_masked (lawful : q.Lawful) {text before : List α} {found : Found α}
    (h : q.first text = some (before, found))
    (spliced : Spliced q (before ++ found.head) found.secret mask found.tail)
    (last : ∀ c ∈ (before ++ found.head).getLast?, c ∉ mask)
    (run : (mask ++ found.tail).takeWhile q.plain = mask ∧
      (mask ++ found.tail).dropWhile q.plain = found.tail)
    (closes : q.closed (mask ++ found.tail) = true) :
    q.first (before ++ found.head ++ (mask ++ found.tail)) =
      some (before, ⟨found.head, mask, found.tail⟩) := by
  obtain ⟨⟨fitting, whole, fits⟩, least⟩ := (first_eq_some lawful).mp h
  have text_eq : text = before ++ found.head ++ (found.secret ++ found.tail) := by
    rw [whole, fits_whole lawful fits, List.append_assoc]
  refine (first_eq_some lawful).mpr ⟨⟨_, List.append_assoc .., ?_⟩, fun other g occurs => ?_⟩
  · obtain ⟨rest, lead, -⟩ := fits_eq_some.mp fits
    obtain ⟨c, more, starts, plain⟩ := closed_starts closes
    rw [(lawful.whole lead).1] at lead
    refine fits_eq_some.mpr ⟨mask ++ found.tail, ?_, closes, run.1.symm, run.2.symm⟩
    rw [starts]
    exact lawful.stable lead plain
  · obtain ⟨own, again, -⟩ | ⟨after, rfl, -⟩ := occurs_of_masked lawful spliced last occurs
    · exact least other own (text_eq ▸ again)
    · simp only [List.length_append]
      omega

end

end

end Masking
