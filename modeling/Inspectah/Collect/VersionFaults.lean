import Inspectah.Collect.VersionLaw

/-!
Where the comparison of versions is not that of RPM, and which packages are then told to
differ from the baseline's.
-/
namespace Inspectah

open TokenOrder
open Words (takeWhile_run)

def VerToken.text : VerToken → List Char
  | tilde => ['~']
  | stop => []
  | caret => ['^']
  | letters word => '.' :: word
  | digits value => '.' :: Nat.toDigits 10 value

def VerToken.IsPlain : VerToken → Prop
  | tilde => True
  | stop => False
  | caret => True
  | letters word => word ≠ [] ∧ ∀ c ∈ word, c.isAlpha = true
  | digits value => value < U64_RANGE

def spell (ts : List VerToken) : List Char := ts.flatMap VerToken.text

@[simp] theorem spell_cons (t : VerToken) (ts : List VerToken) :
    spell (t :: ts) = t.text ++ spell ts := rfl

theorem spell_head {ts : List VerToken} {c : Char} (first : c ∈ (spell ts).head?) :
    c.toNat < 128 ∧ c.isAlpha = false ∧ c.isDigit = false := by
  induction ts with
  | nil => cases first
  | cons t ts ih =>
    cases t with
    | stop => exact ih first
    | tilde | caret | letters | digits =>
      cases first
      decide

section Reading

variable {reading : SegmentReading} (lawful : reading.OnAscii)
include lawful

theorem nextToken_segment {c : Char} {cs : List Char} (counts : c.isAlphanum = true) :
    nextToken reading ('.' :: c :: cs) = headToken reading (c :: cs) := by
  have ascii := ascii_of_alphanum counts
  have dot : reading.isSkipped '.' = true := by
    rw [lawful.skipped '.' (by decide)]
    decide
  have kept : reading.isSkipped c = false := by
    rw [lawful.skipped c ascii, counts]
    rfl
  rw [nextToken, List.dropWhile_cons_of_pos dot]
  exact nextToken_of_head kept

theorem nextToken_letters {c : Char} {word : List Char} (alpha : ∀ d ∈ c :: word, d.isAlpha = true)
    (ts : List VerToken) :
    nextToken reading ('.' :: c :: (word ++ spell ts)) = (.letters (c :: word), spell ts) := by
  have first := alpha c List.mem_cons_self
  have counts : c.isAlphanum = true := by rw [Char.isAlphanum, first, Bool.true_or]
  have tilde : c ≠ '~' := by rintro rfl; cases first
  have caret : c ≠ '^' := by rintro rfl; cases first
  have letters : ∀ d ∈ c :: word, reading.isLetter d = true := by
    intro d mem
    rw [lawful.letter d (ascii_of_alpha (alpha d mem)), alpha d mem]
  have ends : ∀ d ∈ (spell ts).head?, reading.isLetter d = false := by
    intro d mem
    obtain ⟨ascii, no_letter, -⟩ := spell_head mem
    rw [lawful.letter d ascii, no_letter]
  obtain ⟨run, after⟩ := takeWhile_run letters ends
  rw [List.cons_append] at run after
  rw [nextToken_segment lawful counts, headToken, if_neg tilde, if_neg caret,
    not_digit_of_alpha first, run, after]
  rfl

theorem nextToken_digits {d : Char} {ds : List Char} (digits : ∀ e ∈ d :: ds, e.isDigit = true)
    (fits : digitsValue (d :: ds) < U64_RANGE) (ts : List VerToken) :
    nextToken reading ('.' :: d :: (ds ++ spell ts)) =
      (.digits (digitsValue (d :: ds)), spell ts) := by
  have first := digits d List.mem_cons_self
  have counts : d.isAlphanum = true := by rw [Char.isAlphanum, first, Bool.or_true]
  have tilde : d ≠ '~' := by rintro rfl; cases first
  have caret : d ≠ '^' := by rintro rfl; cases first
  have ends : ∀ e ∈ (spell ts).head?, e.isDigit = false := fun e mem => (spell_head mem).2.2
  obtain ⟨run, after⟩ := takeWhile_run digits ends
  rw [List.cons_append] at run after
  rw [nextToken_segment lawful counts, headToken, if_neg tilde, if_neg caret, if_pos first, run,
    after, lawful.number _ (by simp) digits fits]

theorem nextToken_text {t : VerToken} (plain : t.IsPlain) (ts : List VerToken) :
    nextToken reading (t.text ++ spell ts) = (t, spell ts) := by
  have mark : ∀ c : Char, c = '~' ∨ c = '^' → reading.isSkipped c = false := by
    rintro c (rfl | rfl) <;> rw [lawful.skipped _ (by decide)] <;> decide
  cases t with
  | stop => exact plain.elim
  | tilde => exact nextToken_of_head (mark '~' (.inl rfl))
  | caret => exact nextToken_of_head (mark '^' (.inr rfl))
  | letters word =>
    obtain ⟨filled, alpha⟩ := plain
    obtain ⟨c, word, rfl⟩ := List.exists_cons_of_ne_nil filled
    exact nextToken_letters lawful alpha ts
  | digits value =>
    have digits : ∀ d ∈ Nat.toDigits 10 value, d.isDigit = true := fun d mem =>
      Nat.isDigit_of_mem_toDigits (by decide) (by decide) mem
    have number := digitsValue_toDigits value
    rw [VerToken.text]
    obtain ⟨d, ds, shape⟩ := List.exists_cons_of_ne_nil (Nat.toDigits_ne_nil (b := 10) (n := value))
    rw [shape] at digits number ⊢
    rw [← number]
    exact nextToken_digits lawful digits (number ▸ plain) ts

theorem reads_spell {ts : List VerToken} (plain : ∀ t ∈ ts, t.IsPlain) (us : List VerToken) :
    Reads (nextToken reading) .stop (spell (ts ++ us)) ts (spell us) := by
  induction ts with
  | nil => exact .stay _
  | cons t ts ih =>
    have own := plain t List.mem_cons_self
    have next := nextToken_text lawful own (ts ++ us)
    have inner : t ≠ .stop := by
      rintro rfl
      exact own
    have rest := ih fun u mem => plain u (List.mem_cons_of_mem _ mem)
    have first : (nextToken reading (spell (t :: (ts ++ us)))).1 = t := by rw [spell_cons, next]
    have after : (nextToken reading (spell (t :: (ts ++ us)))).2 = spell (ts ++ us) := by
      rw [spell_cons, next]
    rw [List.cons_append]
    have reads := Reads.token (first.trans_ne inner) (after ▸ rest)
    rwa [first] at reads

theorem ends_spell {ts : List VerToken} (plain : ∀ t ∈ ts, t.IsPlain) :
    Ends (nextToken reading) .stop (spell ts) (ts ++ [.stop]) := by
  have reads := reads_spell lawful plain []
  rw [List.append_nil] at reads
  exact reads.ends (.done rfl)

end Reading

section Spelled

variable {cls : CharClasses} {ts : List VerToken} (plain : ∀ t ∈ ts, t.IsPlain)
include plain

theorem charsKey_spell : charsKey (spell ts) = ts ++ [.stop] :=
  (ends_charsKey _).unique (ends_spell librpmReading_onAscii plain)

theorem spell_ascii {c : Char} (mem : c ∈ spell ts) : c.toNat < 128 := by
  obtain ⟨t, own, within⟩ := List.mem_flatMap.mp mem
  have token := plain t own
  cases t with
  | stop => exact token.elim
  | tilde =>
    rw [List.mem_singleton.mp within]
    decide
  | caret =>
    rw [List.mem_singleton.mp within]
    decide
  | letters word =>
    rcases List.mem_cons.mp within with rfl | letter
    · decide
    · exact ascii_of_alpha (token.2 c letter)
  | digits value =>
    rcases List.mem_cons.mp within with rfl | digit
    · decide
    · exact ascii_of_digit (Nat.isDigit_of_mem_toDigits (by decide) (by decide) digit)

theorem plainChars_spell : PlainChars cls (spell ts) where
  ascii c mem counts := by rwa [cls.alphanumeric_ascii (spell_ascii plain mem)] at counts
  bounded n mem := by
    rw [charsKey_spell plain] at mem
    rcases List.mem_append.mp mem with own | last
    · exact plain _ own
    · cases List.mem_singleton.mp last

end Spelled

theorem takeWhile_snoc {p : Char → Bool} {c : Char} (stops : p c = false) (cs : List Char) :
    (cs ++ [c]).takeWhile p = cs.takeWhile p ∧
      (cs ++ [c]).dropWhile p = cs.dropWhile p ++ [c] := by
  induction cs with
  | nil => simp [stops]
  | cons d cs ih =>
    cases here : p d with
    | false => simp [here]
    | true =>
      rw [List.cons_append, List.takeWhile_cons_of_pos here, List.takeWhile_cons_of_pos here,
        List.dropWhile_cons_of_pos here, List.dropWhile_cons_of_pos here, ih.1, ih.2]
      exact ⟨rfl, rfl⟩

theorem headToken_stop {reading : SegmentReading} {cs : List Char}
    (done : (headToken reading cs).1 = .stop) : cs = [] := by
  cases cs with
  | nil => rfl
  | cons c rest =>
    rw [headToken] at done
    split at done
    · cases done
    · split at done
      · cases done
      · split at done <;> cases done

section Dot

variable {reading : SegmentReading} (lawful : reading.OnAscii)
include lawful

theorem headToken_dot (c : Char) (cs : List Char) :
    headToken reading (c :: cs ++ ['.']) =
      ((headToken reading (c :: cs)).1, (headToken reading (c :: cs)).2 ++ ['.']) := by
  have letter : reading.isLetter '.' = false := by
    rw [lawful.letter '.' (by decide)]
    decide
  have letters := takeWhile_snoc letter (c :: cs)
  have digits := takeWhile_snoc (p := Char.isDigit) (c := '.') (by decide) (c :: cs)
  rw [List.cons_append] at letters digits ⊢
  rw [headToken, headToken, letters.1, letters.2, digits.1, digits.2]
  split
  · rfl
  · split
    · rfl
    · split <;> rfl

theorem nextToken_dot {cs : List Char} (inner : (nextToken reading cs).1 ≠ .stop) :
    nextToken reading (cs ++ ['.']) =
      ((nextToken reading cs).1, (nextToken reading cs).2 ++ ['.']) := by
  rw [nextToken] at inner
  rw [nextToken, nextToken, List.dropWhile_append]
  cases left : cs.dropWhile reading.isSkipped with
  | nil =>
    rw [left] at inner
    exact absurd rfl inner
  | cons c rest => exact headToken_dot lawful c rest

theorem nextToken_dot_last {cs : List Char} (done : (nextToken reading cs).1 = .stop) :
    (nextToken reading (cs ++ ['.'])).1 = .stop := by
  have dot : reading.isSkipped '.' = true := by
    rw [lawful.skipped '.' (by decide)]
    decide
  rw [nextToken, List.dropWhile_append, headToken_stop done]
  simp [dot, headToken]

theorem reads_dot {cs r : List Char} {ts : List VerToken}
    (reads : Reads (nextToken reading) .stop cs ts r) :
    Reads (nextToken reading) .stop (cs ++ ['.']) ts (r ++ ['.']) := by
  induction reads with
  | stay s => exact .stay _
  | @token cs r ts inner _ ih =>
    have next := nextToken_dot lawful inner
    have first := congrArg Prod.fst next
    have after := congrArg Prod.snd next
    dsimp only at first after
    rw [← first] at inner ⊢
    rw [← after] at ih
    exact .token inner ih

theorem ends_dot {cs : List Char} {keys : List VerToken}
    (ends : Ends (nextToken reading) .stop cs keys) :
    Ends (nextToken reading) .stop (cs ++ ['.']) keys := by
  induction ends with
  | done done => exact .done (nextToken_dot_last lawful done)
  | @token cs keys inner _ ih =>
    have next := nextToken_dot lawful inner
    have first := congrArg Prod.fst next
    have after := congrArg Prod.snd next
    dsimp only at first after
    rw [← first] at inner ⊢
    rw [← after] at ih
    exact .token inner ih

end Dot

theorem charsKey_dot (cs : List Char) : charsKey (cs ++ ['.']) = charsKey cs :=
  (ends_charsKey _).unique (ends_dot librpmReading_onAscii (ends_charsKey cs))

theorem PlainChars.dot {cls : CharClasses} {cs : List Char} (plain : PlainChars cls cs) :
    PlainChars cls (cs ++ ['.']) where
  ascii c mem counts := by
    rcases List.mem_append.mp mem with own | last
    · exact plain.ascii c own counts
    · rw [List.mem_singleton.mp last, cls.alphanumeric_ascii (by decide)] at counts
      cases counts
  bounded n mem := plain.bounded n (charsKey_dot cs ▸ mem)

section Fault

variable {cls : CharClasses}

theorem plain_token {cs : List Char} (agrees : TokenAgrees cls cs)
    (inner : (nextToken librpmReading cs).1 ≠ .stop) : (nextToken librpmReading cs).1.IsPlain := by
  have fits := agrees.fits
  have kept := List.head?_dropWhile_not librpmReading.isSkipped cs
  rw [nextToken] at inner fits ⊢
  cases left : cs.dropWhile librpmReading.isSkipped with
  | nil =>
    rw [left] at inner
    exact absurd rfl inner
  | cons c rest =>
    rw [left] at kept fits
    rw [headToken] at fits ⊢
    split at fits
    · next tilde => simp [tilde, VerToken.IsPlain]
    · split at fits
      · next tilde caret => simp [caret, VerToken.IsPlain]
      · split at fits
        · next tilde caret digit =>
          rw [if_neg tilde, if_neg caret, if_pos digit]
          exact fits _ rfl
        · next tilde caret digit =>
          have alpha : c.isAlpha = true := by
            simpa [librpmReading, tilde, caret, digit, Char.isAlphanum] using kept
          rw [if_neg tilde, if_neg caret, if_neg digit]
          refine ⟨?_, fun d mem => List.mem_takeWhile_imp mem⟩
          change (c :: rest).takeWhile Char.isAlpha ≠ []
          rw [List.takeWhile_cons_of_pos alpha]
          exact List.cons_ne_nil _ _

variable (cls) in
theorem plain_or_fault (cs : List Char) : PlainChars cls cs ∨
    ∃ ts r, (∀ t ∈ ts, t.IsPlain) ∧ Reads (nextToken cls.reading) .stop cs ts r ∧
      Reads (nextToken librpmReading) .stop cs ts r ∧ TokenFault cls r := by
  have ends := ends_charsKey cs
  generalize whole : charsKey cs = keys at ends
  clear whole
  induction ends with
  | @done cs done =>
    rcases tokenTurn cls cs with agrees | fault
    · refine .inl ⟨fun c mem counts => ?_, fun n mem => ?_⟩
      · refine (agrees.plain c mem counts).resolve_right fun later => ?_
        rw [nextToken, headToken_stop done] at later
        cases later
      · rw [charsKey_last done] at mem
        cases List.mem_singleton.mp mem
    · exact .inr ⟨[], cs, by simp, .stay cs, .stay cs, fault⟩
  | @token cs keys inner _ ih =>
    rcases tokenTurn cls cs with agrees | fault
    · rcases ih with plain | ⟨ts, r, own, read, meant, fault⟩
      · refine .inl ⟨fun c mem counts => ?_, fun n mem => ?_⟩
        · exact (agrees.plain c mem counts).elim id fun later => plain.ascii c later counts
        · rw [charsKey_inner inner] at mem
          rcases List.mem_cons.mp mem with first | later
          · exact agrees.fits n first.symm
          · exact plain.bounded n later
      · refine .inr ⟨(nextToken librpmReading cs).1 :: ts, r, ?_, ?_, .token inner meant, fault⟩
        · intro t mem
          rcases List.mem_cons.mp mem with rfl | later
          · exact plain_token agrees inner
          · exact own t later
        · rw [← agrees.same] at inner read ⊢
          exact .token inner read
    · exact .inr ⟨[], cs, by simp, .stay cs, .stay cs, fault⟩

end Fault

structure ComparesAsRpm (cls : CharClasses) (s : String) : Prop where
  against : ∀ t, PlainChars cls t.toList →
    ComparesAs cls s t (rpmOrder s t) ∧ ComparesAs cls t s (rpmOrder t s)
  respelled : ComparesAs cls s (s ++ ".") (rpmOrder s (s ++ "."))

theorem ComparesAs.of_loop {cls : CharClasses} {a b : String} {o o' : Ordering} {fuel : Nat}
    (compares : ComparesAs cls a b o) (differ : a ≠ b)
    (run : cls.loop fuel a.toList b.toList = some o') : o' = o := by
  obtain ⟨enough, all⟩ := compares
  have there := all enough le_rfl
  rw [CharClasses.rpmvercmp, if_neg differ, cls.loop_eq] at there
  rw [cls.loop_eq] at run
  exact compareBy_unique run there

theorem compare_tildes {keys : List VerToken} (ended : .stop ∈ keys) {m : Nat}
    (enough : keys.length ≤ m) : compare keys (List.replicate m .tilde ++ [.stop]) = .gt := by
  induction keys generalizing m with
  | nil => cases ended
  | cons t keys ih =>
    cases m with
    | zero => exact absurd enough (Nat.not_succ_le_zero _)
    | succ m =>
      rw [List.replicate_succ, List.cons_append]
      by_cases tilde : t = .tilde
      · subst tilde
        rw [compare_cons_self]
        refine ih ?_ (Nat.le_of_succ_le_succ enough)
        rcases List.mem_cons.mp ended with h | h
        · cases h
        · exact h
      · rw [compare_cons_of_ne tilde]
        cases t with
        | tilde => exact absurd rfl tilde
        | stop | caret | letters | digits => rfl

section Against

variable {cls : CharClasses} {s : String}

theorem ComparesAsRpm.decided (lawful : ComparesAsRpm cls s) {ts us : List VerToken} {r : List Char}
    {x : VerToken} (own : ∀ t ∈ ts, t.IsPlain) (further : ∀ t ∈ x :: us, t.IsPlain)
    (read : Reads (nextToken cls.reading) .stop s.toList ts r)
    (meant : Reads (nextToken librpmReading) .stop s.toList ts r)
    (differ : (nextToken cls.reading r).1 ≠ x) :
    compare (nextToken cls.reading r).1 x = compare (charsKey r) (x :: us ++ [.stop]) := by
  have plain : ∀ t ∈ ts ++ x :: us, t.IsPlain := fun t mem =>
    (List.mem_append.mp mem).elim (own t) (further t)
  have chars : (String.ofList (spell (ts ++ x :: us))).toList = spell (ts ++ x :: us) :=
    String.toList_ofList
  have reads := reads_spell cls.reading_onAscii own (x :: us)
  have first : (nextToken cls.reading (spell (x :: us))).1 = x := by
    rw [spell_cons, nextToken_text cls.reading_onAscii (further x List.mem_cons_self)]
  have decided : compareBy (nextToken cls.reading) .stop 1 r (spell (x :: us)) =
      some (compare (nextToken cls.reading r).1 x) := by
    rw [← first] at differ
    exact (compareBy_ne 0 differ).trans (by rw [first])
  have run := (compareBy_reads read reads 1).trans decided
  rw [← cls.loop_eq, ← chars] at run
  have apart : s ≠ String.ofList (spell (ts ++ x :: us)) := by
    intro same
    rw [same, chars] at read
    exact differ (by rw [read.unique reads, first])
  have spelled : PlainChars cls (String.ofList (spell (ts ++ x :: us))).toList := by
    rw [chars]
    exact plainChars_spell plain
  have compares := (lawful.against _ spelled).1
  have key : charsKey s.toList = ts ++ charsKey r :=
    (ends_charsKey _).unique (meant.ends (ends_charsKey r))
  rw [compares.of_loop apart run, rpmOrder, versionKey, versionKey, chars, charsKey_spell plain,
    key, List.append_assoc, compare_append]

theorem charsKey_head (cs : List Char) :
    ∃ keys, charsKey cs = (nextToken librpmReading cs).1 :: keys ∧
      ((nextToken librpmReading cs).1 ≠ .stop → .stop ∈ keys) := by
  by_cases done : (nextToken librpmReading cs).1 = .stop
  · exact ⟨[], by rw [charsKey_last done, done], fun inner => absurd done inner⟩
  · exact ⟨_, charsKey_inner done, fun _ => (ends_charsKey _).last_mem⟩

theorem compare_foreign {x c : Char} (other : 128 ≤ x.toNat) (ascii : c.toNat < 128)
    (xs cs : List Char) : compare (x :: xs) (c :: cs) = .gt := by
  have more : compare c.toNat x.toNat = .lt := Nat.compare_eq_lt.mpr (by omega)
  rw [List.compare_cons_cons, ← VerToken.compare_toNat, Std.OrientedOrd.eq_swap,
    more]
  rfl

theorem less_snoc (u : List Char) :
    compare (VerToken.letters u) (.letters (u ++ ['a'])) = .lt := by
  rw [VerToken.compare_letters]
  have appended : compare (u ++ []) (u ++ ['a']) = compare [] ['a'] := compare_append u
  rw [List.append_nil] at appended
  rw [appended]
  rfl

section Stuck

variable {x : Char} {rest : List Char} (no_letter : cls.isAlphabetic x = false)
  (other : 128 ≤ x.toNat)
include no_letter other

theorem stuck_next {r : List Char} (left : r.dropWhile cls.isSkipped = x :: rest) :
    nextToken cls.reading r = (.letters [], x :: rest) := by
  have plain := not_mark_of_foreign other
  have read := read_head left
  rw [headToken, if_neg plain.1, if_neg plain.2.1, plain.2.2] at read
  rw [read]
  change (VerToken.letters ((x :: rest).takeWhile cls.isAlphabetic),
    (x :: rest).dropWhile cls.isAlphabetic) = _
  rw [List.takeWhile_cons_of_neg (by rw [no_letter]; decide),
    List.dropWhile_cons_of_neg (by rw [no_letter]; decide)]

theorem stuck_runs {r : List Char} (left : r.dropWhile cls.isSkipped = x :: rest) (fuel : Nat) :
    compareBy (nextToken cls.reading) .stop fuel r (r ++ ['.']) = none := by
  induction fuel generalizing r with
  | zero => rfl
  | succ fuel ih =>
    have kept : cls.isSkipped x = false := by
      have := List.head?_dropWhile_not cls.isSkipped r
      rw [left] at this
      simpa using this
    have next := stuck_next no_letter other left
    have inner : (nextToken cls.reading r).1 ≠ .stop := by simp [next]
    have dotted := nextToken_dot cls.reading_onAscii inner
    rw [compareBy_token _ (by rw [dotted]) inner, dotted, next]
    exact ih (List.dropWhile_cons_of_neg (by rw [kept]; decide))

end Stuck

section Fault

variable {ts : List VerToken} {r : List Char} (lawful : ComparesAsRpm cls s)
  (own : ∀ t ∈ ts, t.IsPlain) (read : Reads (nextToken cls.reading) .stop s.toList ts r)
  (meant : Reads (nextToken librpmReading) .stop s.toList ts r)
include lawful own read meant

theorem overflow_refuted {n : Nat} (large : U64_RANGE ≤ n)
    (nought : (nextToken cls.reading r).1 = .digits 0)
    (number : (nextToken librpmReading r).1 = .digits n) : False := by
  have one : ∀ t ∈ [VerToken.digits 1], t.IsPlain := by
    simp [VerToken.IsPlain, U64_RANGE]
  have decided := lawful.decided own one read meant (by simp [nought])
  obtain ⟨keys, key, -⟩ := charsKey_head r
  have more : compare n 1 = .gt := Nat.compare_eq_gt.mpr (lt_of_lt_of_le (by decide) large)
  have differ : VerToken.digits n ≠ .digits 1 := by
    simp only [ne_eq, VerToken.digits.injEq]
    rintro rfl
    cases more
  rw [nought, key, number, List.cons_append, compare_cons_of_ne differ, VerToken.compare_digits,
    VerToken.compare_digits, more] at decided
  cases decided

theorem letters_refuted {z u : List Char} (letters : (nextToken cls.reading r).1 = .letters z)
    (ascii : ∀ c ∈ u, c.isAlpha = true) (after : compare z (u ++ ['a']) = .gt)
    (less : compare (nextToken librpmReading r).1 (.letters (u ++ ['a'])) = .lt) : False := by
  have plain : ∀ t ∈ [VerToken.letters (u ++ ['a'])], t.IsPlain := by
    intro t mem
    rw [List.mem_singleton.mp mem]
    refine ⟨by simp, fun c mem => ?_⟩
    rcases List.mem_append.mp mem with h | h
    · exact ascii c h
    · rw [List.mem_singleton.mp h]
      rfl
  have apart : (nextToken cls.reading r).1 ≠ .letters (u ++ ['a']) := by
    rw [letters]
    intro same
    rw [VerToken.letters.inj same, Std.ReflOrd.compare_self] at after
    cases after
  have differ : (nextToken librpmReading r).1 ≠ .letters (u ++ ['a']) := by
    intro same
    rw [same, Std.ReflOrd.compare_self] at less
    cases less
  have decided := lawful.decided own plain read meant apart
  obtain ⟨keys, key, -⟩ := charsKey_head r
  rw [letters, key, List.cons_append, compare_cons_of_ne differ, VerToken.compare_letters, after,
    less] at decided
  cases decided

theorem foreign_start_refuted {more : List Char} {x : Char} (other : 128 ≤ x.toNat)
    (letters : (nextToken cls.reading r).1 = .letters (x :: more)) : False := by
  obtain ⟨keys, key, ended⟩ := charsKey_head r
  obtain ⟨skipped, text, -, -, cut⟩ := nextToken_cut librpmReading r
  have start : compare (x :: more) ['a'] = .gt := compare_foreign other (by decide) more []
  generalize token : (nextToken librpmReading r).1 = t at cut key ended
  cases cut with
  | stop | tilde | caret =>
    exact letters_refuted (u := []) lawful own read meant letters (by simp) start
      (by rw [token]; rfl)
  | letters alpha =>
    refine letters_refuted lawful own read meant letters alpha ?_ (by rw [token, less_snoc])
    cases text with
    | nil => exact start
    | cons c text =>
      have first : c.isAlpha = true := alpha c List.mem_cons_self
      exact compare_foreign other (ascii_of_alpha first) more _
  | digits _ _ =>
    -- Below a number there are only lesser numbers, and nought itself before tildes.
    have plain : ∀ t ∈ .digits 0 :: List.replicate keys.length VerToken.tilde, t.IsPlain := by
      intro t mem
      rcases List.mem_cons.mp mem with rfl | mem
      · simp [VerToken.IsPlain, U64_RANGE]
      · rw [List.eq_of_mem_replicate mem]
        trivial
    have decided := lawful.decided own plain read meant (by simp [letters])
    have greater : compare (charsKey r)
        (.digits 0 :: List.replicate keys.length .tilde ++ [.stop]) = .gt := by
      rw [key, List.cons_append]
      generalize librpmReading.number text = n at key
      cases n with
      | zero =>
        rw [compare_cons_self]
        exact compare_tildes (ended (by simp)) le_rfl
      | succ n =>
        rw [compare_cons_of_ne (by simp), VerToken.compare_digits]
        exact Nat.compare_eq_gt.mpr (Nat.succ_pos n)
    rw [greater, letters] at decided
    cases decided

omit own meant in
theorem stuck_refuted {x : Char} {rest : List Char} (no_letter : cls.isAlphabetic x = false)
    (other : 128 ≤ x.toNat) (left : r.dropWhile cls.isSkipped = x :: rest) : False := by
  obtain ⟨enough, all⟩ := lawful.respelled
  have there := all (ts.length + enough) (Nat.le_add_left _ _)
  have differ : s ≠ s ++ "." := by
    intro same
    have := congrArg String.length same
    simp at this
  have chars : (s ++ ".").toList = s.toList ++ ['.'] := String.toList_append
  rw [CharClasses.rpmvercmp, if_neg differ, cls.loop_eq, chars,
    compareBy_reads read (reads_dot cls.reading_onAscii read),
    stuck_runs no_letter other left] at there
  cases there

end Fault

end Against

theorem comparesAsRpm_iff (cls : CharClasses) (s : String) :
    ComparesAsRpm cls s ↔ PlainChars cls s.toList := by
  constructor
  · intro lawful
    rcases plain_or_fault cls s.toList with plain | ⟨ts, r, own, read, meant, fault⟩
    · exact plain
    · exfalso
      cases fault with
      | overflow n large nought number =>
        exact overflow_refuted lawful own read meant large nought number
      | foreign u x more other within counts letters ascii same =>
        cases u with
        | nil => exact foreign_start_refuted lawful own read meant other letters
        | cons c u =>
          refine letters_refuted lawful own read meant letters ascii ?_ ?_
          · rw [compare_append]
            exact compare_foreign other (by decide) more []
          · rw [same (List.cons_ne_nil c u), less_snoc]
      | stuck x rest other within counts no_letter left =>
        exact stuck_refuted lawful read no_letter other left
  · intro plain
    refine ⟨fun t other => ⟨plain_compares plain other, plain_compares other plain⟩, ?_⟩
    have dotted : (s ++ ".").toList = s.toList ++ ['.'] := String.toList_append
    exact plain_compares plain (by rw [dotted]; exact plain.dot)

end Inspectah

namespace Inspectah

open TokenOrder

def rpmState (baseline : TextMap PackageEntry) (pkg : PackageEntry) : PackageState :=
  match baseline.lookup (canonicalPackageId pkg.name pkg.arch) with
  | none => .added
  | some base => if evrKey pkg = evrKey base then .added else .modified

def rpmChange (baseline : TextMap PackageEntry) (pkg : PackageEntry) : Option VersionChange :=
  (baseline.lookup (canonicalPackageId pkg.name pkg.arch)).bind fun base =>
    match evrOrder pkg base with
    | .eq => none
    | .gt => some (versionChange pkg base .downgrade)
    | .lt => some (versionChange pkg base .upgrade)

def classifiedByRpm (baseline : TextMap PackageEntry) (host : List PackageEntry) :
    ClassificationResult where
  packages := host.map fun pkg => includedAs pkg (rpmState baseline pkg)
  versionChanges := host.filterMap (rpmChange baseline)

structure PlainPackage (cls : CharClasses) (pkg : PackageEntry) : Prop where
  epoch : PlainChars cls pkg.epoch.toList
  version : PlainChars cls pkg.version.toList
  release : PlainChars cls pkg.release.toList

structure PlainPackages (cls : CharClasses) (baseline : TextMap PackageEntry)
    (host : List PackageEntry) : Prop where
  host : ∀ pkg ∈ host, PlainPackage cls pkg
  base : ∀ key base, baseline.lookup key = some base → PlainPackage cls base

theorem evrOrder_eq (pkg base : PackageEntry) :
    evrOrder pkg base = (rpmOrder (normEpoch pkg.epoch) (normEpoch base.epoch)).then
      ((rpmOrder pkg.version base.version).then (rpmOrder pkg.release base.release)) := by
  simp only [evrOrder, evrKey, List.compare_cons_cons, List.compare_nil_nil, Ordering.then_eq,
    rpmOrder]

section Classify

variable {cls : CharClasses} {baseline : TextMap PackageEntry}

theorem plain_normEpoch {e : String} (plain : PlainChars cls e.toList) :
    PlainChars cls (normEpoch e).toList := by
  rw [normEpoch]
  split
  · refine ⟨fun c mem counts => ?_, fun n mem => ?_⟩
    · rw [List.mem_singleton.mp (show c ∈ ['0'] from mem)]
      rfl
    · have key : charsKey ("0" : String).toList = [.digits 0, .stop] := by decide +kernel
      rw [key] at mem
      simp only [List.mem_cons, VerToken.digits.injEq, List.not_mem_nil, reduceCtorEq,
        or_false] at mem
      rw [mem]
      decide
  · exact plain

theorem classifyPackage_plain {pkg : PackageEntry} (plain : PlainPackage cls pkg)
    (bases : ∀ key base, baseline.lookup key = some base → PlainPackage cls base) :
    ∃ enough, ∀ fuel ≥ enough, cls.classifyPackage fuel baseline pkg =
      some (includedAs pkg (rpmState baseline pkg), rpmChange baseline pkg) := by
  cases found : baseline.lookup (canonicalPackageId pkg.name pkg.arch) with
  | none =>
    refine ⟨0, fun fuel _ => ?_⟩
    simp only [CharClasses.classifyPackage, rpmState, rpmChange, found, Option.bind_none]
  | some base =>
    have plain' := bases _ base found
    obtain ⟨n₁, epoch⟩ :=
      plain_compares (plain_normEpoch plain.epoch) (plain_normEpoch plain'.epoch)
    obtain ⟨n₂, version⟩ := plain_compares plain.version plain'.version
    obtain ⟨n₃, release⟩ := plain_compares plain.release plain'.release
    refine ⟨n₁ + n₂ + n₃, fun fuel enough => ?_⟩
    have same : (evrKey pkg = evrKey base) ↔ evrOrder pkg base = .eq :=
      Std.LawfulEqOrd.compare_eq_iff_eq.symm
    simp only [CharClasses.classifyPackage, rpmState, rpmChange, found, Option.bind_some, same,
      epoch fuel (by omega), version fuel (by omega), release fuel (by omega), evrOrder_eq]
    generalize rpmOrder (normEpoch pkg.epoch) (normEpoch base.epoch) = o₁
    generalize rpmOrder pkg.version base.version = o₂
    generalize rpmOrder pkg.release base.release = o₃
    cases o₁ <;> cases o₂ <;> cases o₃ <;> rfl

theorem mapM_classify {host : List PackageEntry} (plain : ∀ pkg ∈ host, PlainPackage cls pkg)
    (bases : ∀ key base, baseline.lookup key = some base → PlainPackage cls base) :
    ∃ enough, ∀ fuel ≥ enough, host.mapM (cls.classifyPackage fuel baseline) =
      some (host.map fun pkg =>
        (includedAs pkg (rpmState baseline pkg), rpmChange baseline pkg)) := by
  induction host with
  | nil => exact ⟨0, fun _ _ => rfl⟩
  | cons pkg host ih =>
    obtain ⟨n, first⟩ := classifyPackage_plain (plain pkg List.mem_cons_self) bases
    obtain ⟨m, others⟩ := ih fun other mem => plain other (List.mem_cons_of_mem _ mem)
    refine ⟨n + m, fun fuel le => ?_⟩
    rw [List.mapM_cons, first fuel (by omega), others fuel (by omega)]
    rfl

theorem classifyPackages_plain {host : List PackageEntry}
    (plain : PlainPackages cls baseline host) :
    ∃ enough, ∀ fuel ≥ enough,
      cls.classifyPackages fuel baseline host = some (classifiedByRpm baseline host) := by
  obtain ⟨enough, all⟩ := mapM_classify plain.host plain.base
  refine ⟨enough, fun fuel le => ?_⟩
  rw [CharClasses.classifyPackages, all fuel le]
  simp only [Option.bind_eq_bind, Option.bind_some, List.map_map, List.filterMap_map,
    classifiedByRpm]
  rfl

end Classify

/-- Versions with ASCII letters and digits and numbers of 64 bits, and no others, compare as RPM
    has it. -/
theorem rpm_order_iff_plain (cls : CharClasses) :
    (∀ s, ComparesAsRpm cls s ↔ PlainChars cls s.toList) ∧
      (∀ a b, rpmOrder b a = (rpmOrder a b).swap) ∧
      (∀ a b c, (rpmOrder a b).isLE → (rpmOrder b c).isLE → (rpmOrder a c).isLE) ∧
      ∀ baseline host, PlainPackages cls baseline host → ∃ enough, ∀ fuel ≥ enough,
        cls.classifyPackages fuel baseline host = some (classifiedByRpm baseline host) :=
  ⟨comparesAsRpm_iff cls, fun _ _ => Std.OrientedOrd.eq_swap, fun _ _ _ => Std.TransOrd.isLE_trans,
    fun _ _ plain => classifyPackages_plain plain⟩

def asciiClasses : CharClasses := ⟨Char.isAlpha, Char.isDigit, fun _ _ => rfl, fun _ _ => rfl⟩

/-- A number of 65 bits is taken for less than one. -/
theorem large_number_below_one :
    ¬ ∀ a b : String, ComparesAs asciiClasses a b (rpmOrder a b) := by
  intro lawful
  have run : asciiClasses.loop 1 "18446744073709551616".toList "1".toList = some .lt := by
    decide +kernel
  have order : rpmOrder "18446744073709551616" "1" = .gt := by decide +kernel
  have same := (lawful "18446744073709551616" "1").of_loop (by decide) run
  rw [order] at same
  cases same

end Inspectah
