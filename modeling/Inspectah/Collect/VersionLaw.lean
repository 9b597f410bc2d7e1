import Inspectah.Collect.VersionOrder
import Inspectah.Library.Words

/-!
Where the comparison of versions is that of RPM: on versions whose letters and digits are ASCII
and whose numbers fit.
-/
namespace Inspectah

open TokenOrder
open Words (takeWhile_run)

namespace CharClasses

variable (cls : CharClasses)

def reading : SegmentReading := ⟨cls.isAlphabetic, cls.isSkipped, segmentNumber⟩

def onTokens (x y : VerToken × List Char) : Round :=
  match compare x.1 y.1 with
  | .eq => if x.1 = .stop then .returns .eq else .again x.2 y.2
  | o => .returns o

theorem compareSegments_eq {x y : Char} {a b : List Char} (plainX : x ≠ '~' ∧ x ≠ '^')
    (plainY : y ≠ '~' ∧ y ≠ '^') :
    cls.compareSegments x y a b =
      onTokens (headToken cls.reading (x :: a)) (headToken cls.reading (y :: b)) := by
  have segment : ∀ {z : Char} {cs : List Char}, z ≠ '~' ∧ z ≠ '^' →
      headToken cls.reading (z :: cs) =
        (if z.isDigit then .digits (segmentNumber (cls.collectSegment z.isDigit (z :: cs)).1)
          else .letters (cls.collectSegment z.isDigit (z :: cs)).1,
          (cls.collectSegment z.isDigit (z :: cs)).2) := by
    intro z cs plain
    cases digit : z.isDigit <;>
      simp [headToken, plain, digit, collectSegment, collectWhile, reading]
  rw [segment plainX, segment plainY]
  unfold compareSegments
  cases x.isDigit <;> cases y.isDigit <;> dsimp only [onTokens]
  · simp only [Bool.false_eq_true, if_false, VerToken.compare_letters]
    split <;> simp_all
  · rfl
  · rfl
  · simp only [if_true, VerToken.compare_digits]
    split <;> simp_all

theorem segment_or_mark (cs : List Char) :
    cs = [] ∨ (∃ rest, cs = '~' :: rest) ∨ (∃ rest, cs = '^' :: rest) ∨
      ∃ c rest, (c ≠ '~' ∧ c ≠ '^') ∧ cs = c :: rest := by
  rcases cs with _ | ⟨c, rest⟩
  · exact .inl rfl
  · by_cases tilde : c = '~'
    · exact .inr (.inl ⟨rest, by rw [tilde]⟩)
    · by_cases caret : c = '^'
      · exact .inr (.inr (.inl ⟨rest, by rw [caret]⟩))
      · exact .inr (.inr (.inr ⟨c, rest, ⟨tilde, caret⟩, rfl⟩))

theorem round_eq (a b : List Char) :
    cls.round a b = onTokens (nextToken cls.reading a) (nextToken cls.reading b) := by
  have skips : cls.reading.isSkipped = cls.isSkipped := rfl
  rw [CharClasses.round, nextToken, nextToken, skips]
  generalize a.dropWhile cls.isSkipped = a
  generalize b.dropWhile cls.isSkipped = b
  rcases segment_or_mark a with rfl | ⟨a, rfl⟩ | ⟨a, rfl⟩ | ⟨x, a, plainX, rfl⟩ <;>
    rcases segment_or_mark b with rfl | ⟨b, rfl⟩ | ⟨b, rfl⟩ | ⟨y, b, plainY, rfl⟩
  case inr.inr.inr.inr.inr.inr =>
    rw [← compareSegments_eq cls plainX plainY]
    simp [plainX, plainY]
  case inr.inr.inr.inl | inr.inr.inr.inr.inl | inr.inr.inr.inr.inr.inl =>
    cases digit : x.isDigit <;> simp [plainX, headToken, digit] <;> rfl
  case inl.inr.inr.inr | inr.inl.inr.inr.inr | inr.inr.inl.inr.inr.inr =>
    cases digit : y.isDigit <;> simp [plainY, headToken, digit] <;> rfl
  all_goals rfl

theorem loop_eq (fuel : Nat) (a b : List Char) :
    cls.loop fuel a b = compareBy (nextToken cls.reading) .stop fuel a b := by
  induction fuel generalizing a b with
  | zero => rfl
  | succ fuel ih =>
    rw [loop, compareBy, round_eq, onTokens]
    cases compare (nextToken cls.reading a).1 (nextToken cls.reading b).1 with
    | lt | gt => rfl
    | eq =>
      by_cases done : (nextToken cls.reading a).1 = .stop
      · simp [done]
      · simp [done, ih]

end CharClasses

inductive Cut (reading : SegmentReading) : VerToken → List Char → Prop
  | stop : Cut reading .stop []
  | tilde : Cut reading .tilde ['~']
  | caret : Cut reading .caret ['^']
  | letters {w : List Char} : (∀ c ∈ w, reading.isLetter c = true) → Cut reading (.letters w) w
  | digits {ds : List Char} : ds ≠ [] → (∀ d ∈ ds, d.isDigit = true) →
      Cut reading (.digits (reading.number ds)) ds

theorem headToken_cut (reading : SegmentReading) (cs : List Char) :
    ∃ text, cs = text ++ (headToken reading cs).2 ∧ Cut reading (headToken reading cs).1 text := by
  cases cs with
  | nil => exact ⟨[], rfl, .stop⟩
  | cons c rest =>
    rw [headToken]
    split
    · next tilde => exact ⟨['~'], by rw [tilde]; rfl, .tilde⟩
    · split
      · next caret => exact ⟨['^'], by rw [caret]; rfl, .caret⟩
      · split
        · next digit =>
          refine ⟨_, List.takeWhile_append_dropWhile.symm, .digits ?_ ?_⟩
          · simp [digit]
          · exact fun d mem => List.mem_takeWhile_imp mem
        · exact ⟨_, List.takeWhile_append_dropWhile.symm,
            .letters fun d mem => List.mem_takeWhile_imp mem⟩

theorem nextToken_cut (reading : SegmentReading) (cs : List Char) :
    ∃ skipped text, cs = skipped ++ text ++ (nextToken reading cs).2 ∧
      (∀ c ∈ skipped, reading.isSkipped c = true) ∧ Cut reading (nextToken reading cs).1 text := by
  obtain ⟨text, whole, cut⟩ := headToken_cut reading (cs.dropWhile reading.isSkipped)
  refine ⟨cs.takeWhile reading.isSkipped, text, ?_, fun c mem => List.mem_takeWhile_imp mem, cut⟩
  rw [List.append_assoc, nextToken, ← whole, List.takeWhile_append_dropWhile]

theorem nextToken_suffix (reading : SegmentReading) (cs : List Char) :
    (nextToken reading cs).2 <:+ cs := by
  obtain ⟨skipped, text, whole, -, -⟩ := nextToken_cut reading cs
  exact ⟨skipped ++ text, whole.symm⟩

theorem ascii_of_alphanum {c : Char} (h : c.isAlphanum = true) : c.toNat < 128 := by
  rcases Text.isAlphanum_toNat h with h | h | h <;> omega

theorem ascii_of_alpha {c : Char} (alpha : c.isAlpha = true) : c.toNat < 128 :=
  ascii_of_alphanum (by rw [Char.isAlphanum, alpha, Bool.true_or])

theorem ascii_of_digit {c : Char} (digit : c.isDigit = true) : c.toNat < 128 :=
  ascii_of_alphanum (by rw [Char.isAlphanum, digit, Bool.or_true])

structure SegmentReading.OnAscii (reading : SegmentReading) : Prop where
  letter : ∀ c : Char, c.toNat < 128 → reading.isLetter c = c.isAlpha
  skipped : ∀ c : Char, c.toNat < 128 →
    reading.isSkipped c = (!c.isAlphanum && c != '~' && c != '^')
  number : ∀ ds : List Char, ds ≠ [] → (∀ d ∈ ds, d.isDigit = true) →
    digitsValue ds < U64_RANGE → reading.number ds = digitsValue ds

theorem librpmReading_onAscii : librpmReading.OnAscii where
  letter _ _ := rfl
  skipped _ _ := rfl
  number _ _ _ _ := rfl

theorem segmentNumber_eq {ds : List Char} (some_digit : ds ≠ [])
    (digits : ∀ d ∈ ds, d.isDigit = true) :
    segmentNumber ds = if digitsValue ds < U64_RANGE then digitsValue ds else 0 := by
  have all : ds.all (fun c => '0' ≤ c && c ≤ '9') = true := by
    rw [List.all_eq_true]
    intro d mem
    simpa [Char.isDigit, Char.le_def] using digits d mem
  cases ds with
  | nil => exact absurd rfl some_digit
  | cons d rest =>
    have unsigned : d ≠ '+' := by
      rintro rfl
      exact absurd (digits '+' List.mem_cons_self) (by decide)
    rw [segmentNumber, parseBelow, String.toList_ofList]
    split
    · next signed => exact absurd (List.cons.inj signed).1 unsigned
    · simp only [all, List.isEmpty_cons, Bool.not_true, Bool.or_false, Bool.false_eq_true, if_false]
      split <;> rfl

namespace CharClasses

variable (cls : CharClasses)

theorem alphanumeric_ascii {c : Char} (ascii : c.toNat < 128) :
    cls.isAlphanumeric c = c.isAlphanum := by
  rw [isAlphanumeric, cls.alphabetic_ascii c ascii, cls.numeric_ascii c ascii, Char.isAlphanum]

theorem reading_onAscii : cls.reading.OnAscii where
  letter := cls.alphabetic_ascii
  skipped c ascii := by
    change cls.isSkipped c = _
    rw [isSkipped, cls.alphanumeric_ascii ascii]
  number ds some_digit digits fits := (segmentNumber_eq some_digit digits).trans (if_pos fits)

end CharClasses

theorem nextToken_shorter {cs : List Char} (inner : (nextToken librpmReading cs).1 ≠ .stop) :
    (nextToken librpmReading cs).2.length < cs.length := by
  have drop : (cs.dropWhile librpmReading.isSkipped).length ≤ cs.length :=
    List.length_dropWhile_le _ _
  have kept := List.head?_dropWhile_not librpmReading.isSkipped cs
  rw [nextToken] at inner ⊢
  generalize cs.dropWhile librpmReading.isSkipped = d at drop kept inner ⊢
  cases d with
  | nil => exact absurd rfl inner
  | cons c rest =>
    have keeps : ∀ p : Char → Bool, p c = true →
        ((c :: rest).dropWhile p).length < cs.length := by
      intro p holds
      rw [List.dropWhile_cons_of_pos holds]
      exact lt_of_le_of_lt (List.length_dropWhile_le _ _) drop
    rw [headToken]
    split
    · exact drop
    · split
      · exact drop
      · split
        · next digit => exact keeps _ digit
        · next tilde caret digit =>
          have : c.isAlpha = true := by
            simpa [librpmReading, tilde, caret, digit, Char.isAlphanum] using kept
          exact keeps _ this

theorem ends_charsKey (cs : List Char) : Ends (nextToken librpmReading) .stop cs (charsKey cs) :=
  ends_tokens List.length (fun _ inner => nextToken_shorter inner) (Nat.lt_succ_self _)

section Turn

variable (cls : CharClasses)

structure TokenAgrees (cs : List Char) : Prop where
  same : nextToken cls.reading cs = nextToken librpmReading cs
  fits : ∀ n, (nextToken librpmReading cs).1 = .digits n → n < U64_RANGE
  plain : ∀ c ∈ cs, cls.isAlphanumeric c = true →
    c.isAlphanum = true ∨ c ∈ (nextToken librpmReading cs).2

inductive TokenFault (cs : List Char) : Prop
  /-- A number that does not fit is read as nought. -/
  | overflow (n : Nat) (large : U64_RANGE ≤ n) (read : (nextToken cls.reading cs).1 = .digits 0)
      (meant : (nextToken librpmReading cs).1 = .digits n)
  /-- The letters read go on with one that is not ASCII. -/
  | foreign (u : List Char) (x : Char) (more : List Char) (other : 128 ≤ x.toNat)
      (within : x ∈ cs) (counts : cls.isAlphanumeric x = true)
      (read : (nextToken cls.reading cs).1 = .letters (u ++ x :: more))
      (ascii : ∀ c ∈ u, c.isAlpha = true)
      (meant : u ≠ [] → (nextToken librpmReading cs).1 = .letters u)
  /-- What is neither letter nor ASCII digit is never passed. -/
  | stuck (x : Char) (rest : List Char) (other : 128 ≤ x.toNat) (within : x ∈ cs)
      (counts : cls.isAlphanumeric x = true) (no_letter : cls.isAlphabetic x = false)
      (left : cs.dropWhile cls.isSkipped = x :: rest)

variable {cls}

theorem librpm_skips {c : Char} (skipped : cls.isSkipped c = true) :
    librpmReading.isSkipped c = true := by
  have no_alphanum : c.isAlphanum = false := by
    rw [Bool.eq_false_iff]
    intro alphanum
    rw [CharClasses.isSkipped, cls.alphanumeric_ascii (ascii_of_alphanum alphanum), alphanum]
      at skipped
    cases skipped
  simp only [CharClasses.isSkipped, Bool.and_eq_true] at skipped
  simp only [librpmReading, no_alphanum, skipped.1.2, skipped.2, Bool.not_false, Bool.and_self]

variable (cls) in
theorem librpm_next (cs : List Char) :
    nextToken librpmReading cs = nextToken librpmReading (cs.dropWhile cls.isSkipped) := by
  have dropped : (cs.takeWhile cls.isSkipped ++ cs.dropWhile cls.isSkipped).dropWhile
      librpmReading.isSkipped = (cs.dropWhile cls.isSkipped).dropWhile librpmReading.isSkipped :=
    List.dropWhile_append_of_pos fun c mem => librpm_skips (List.mem_takeWhile_imp mem)
  rw [List.takeWhile_append_dropWhile] at dropped
  rw [nextToken, nextToken, dropped]

theorem nextToken_of_head {reading : SegmentReading} {c : Char} {rest : List Char}
    (kept : reading.isSkipped c = false) :
    nextToken reading (c :: rest) = headToken reading (c :: rest) := by
  rw [nextToken, List.dropWhile_cons_of_neg (by rw [kept]; decide)]

theorem alphabetic_of_alpha {c : Char} (alpha : c.isAlpha = true) : cls.isAlphabetic c = true := by
  rw [cls.alphabetic_ascii c (ascii_of_alpha alpha), alpha]

theorem not_digit_of_alpha {c : Char} (alpha : c.isAlpha = true) : c.isDigit = false := by
  unfold Char.isAlpha Char.isUpper Char.isLower at alpha
  unfold Char.isDigit
  simp only [Bool.or_eq_true, Bool.and_eq_true, Bool.and_eq_false_iff, decide_eq_true_eq,
    decide_eq_false_iff_not, ge_iff_le, UInt32.le_iff_toNat_le] at alpha ⊢
  have bounds : '9'.val.toNat = 57 ∧ 'A'.val.toNat = 65 ∧ 'a'.val.toNat = 97 := ⟨rfl, rfl, rfl⟩
  omega

theorem not_mark_of_foreign {c : Char} (other : 128 ≤ c.toNat) :
    c ≠ '~' ∧ c ≠ '^' ∧ c.isDigit = false := by
  refine ⟨?_, ?_, ?_⟩
  · rintro rfl
    exact absurd other (by decide)
  · rintro rfl
    exact absurd other (by decide)
  · rw [Bool.eq_false_iff]
    intro digit
    have := ascii_of_digit digit
    omega

/-- What was skipped holds no letters or digits. -/
theorem alphanumeric_left {cs : List Char} {c : Char} (mem : c ∈ cs)
    (counts : cls.isAlphanumeric c = true) : c ∈ cs.dropWhile cls.isSkipped := by
  rw [← List.takeWhile_append_dropWhile (p := cls.isSkipped) (l := cs)] at mem
  rcases List.mem_append.mp mem with skipped | left
  · have := List.mem_takeWhile_imp skipped
    simp [CharClasses.isSkipped, counts] at this
  · exact left

theorem head_cases {c : Char} (kept : cls.isSkipped c = false) :
    c = '~' ∨ c = '^' ∨ c.isDigit = true ∨ c.isAlpha = true ∨
      128 ≤ c.toNat ∧ cls.isAlphanumeric c = true := by
  by_cases tilde : c = '~'
  · exact .inl tilde
  by_cases caret : c = '^'
  · exact .inr (.inl caret)
  have counts : cls.isAlphanumeric c = true := by
    simpa [CharClasses.isSkipped, tilde, caret] using kept
  by_cases ascii : c.toNat < 128
  · rw [cls.alphanumeric_ascii ascii, Char.isAlphanum, Bool.or_eq_true] at counts
    exact .inr (.inr (counts.symm.imp_right .inl))
  · exact .inr (.inr (.inr (.inr ⟨Nat.le_of_not_lt ascii, counts⟩)))

section Head

variable {cs rest : List Char} {c : Char} (whole : cs.dropWhile cls.isSkipped = c :: rest)
include whole

theorem read_head : nextToken cls.reading cs = headToken cls.reading (c :: rest) := by
  rw [nextToken]
  exact congrArg _ whole

theorem meant_head (kept : librpmReading.isSkipped c = false) :
    nextToken librpmReading cs = headToken librpmReading (c :: rest) := by
  rw [librpm_next cls, whole, nextToken_of_head kept]

theorem head_within {d : Char} (mem : d ∈ c :: rest) : d ∈ cs :=
  (List.dropWhile_suffix _).subset (whole ▸ mem)

theorem left_of_skipped {d : Char} (mem : d ∈ cs) (counts : cls.isAlphanumeric d = true) :
    d ∈ c :: rest := whole ▸ alphanumeric_left mem counts

theorem turn_mark (mark : c = '~' ∨ c = '^') : TokenAgrees cls cs ∨ TokenFault cls cs := by
  have read := read_head whole
  have meant : nextToken librpmReading cs = headToken librpmReading (c :: rest) :=
    meant_head whole (by rcases mark with rfl | rfl <;> rfl)
  have same : headToken cls.reading (c :: rest) = headToken librpmReading (c :: rest) := by
    rcases mark with rfl | rfl <;> rfl
  have rest_left : (nextToken librpmReading cs).2 = rest := by
    rw [meant]
    rcases mark with rfl | rfl <;> rfl
  refine .inl ⟨by rw [read, meant, same], ?_, fun d mem counts => ?_⟩
  · intro n number
    rw [meant] at number
    rcases mark with rfl | rfl <;> cases number
  · rw [rest_left]
    rcases List.mem_cons.mp (left_of_skipped whole mem counts) with rfl | later
    · rcases mark with rfl | rfl <;>
        · rw [cls.alphanumeric_ascii (by decide)] at counts
          exact .inl counts
    · exact .inr later

theorem turn_digits (digit : c.isDigit = true) : TokenAgrees cls cs ∨ TokenFault cls cs := by
  have tilde : c ≠ '~' := by rintro rfl; cases digit
  have caret : c ≠ '^' := by rintro rfl; cases digit
  have read := read_head whole
  have meant : nextToken librpmReading cs = headToken librpmReading (c :: rest) :=
    meant_head whole (by simp [librpmReading, Char.isAlphanum, digit])
  rw [headToken, if_neg tilde, if_neg caret, if_pos digit] at read meant
  have run : ∀ d ∈ (c :: rest).takeWhile Char.isDigit, d.isDigit = true :=
    fun d mem => List.mem_takeWhile_imp mem
  have some_digit : (c :: rest).takeWhile Char.isDigit ≠ [] := by simp [digit]
  have number : cls.reading.number ((c :: rest).takeWhile Char.isDigit) = _ :=
    segmentNumber_eq some_digit run
  by_cases fits : digitsValue ((c :: rest).takeWhile Char.isDigit) < U64_RANGE
  · rw [if_pos fits] at number
    refine .inl ⟨by rw [read, meant, number]; rfl, ?_, fun d mem counts => ?_⟩
    · intro n own
      rw [meant] at own
      cases own
      exact fits
    · rw [meant]
      have mem := left_of_skipped whole mem counts
      rw [← List.takeWhile_append_dropWhile (p := Char.isDigit) (l := c :: rest)] at mem
      refine (List.mem_append.mp mem).imp_left fun ran => ?_
      rw [Char.isAlphanum, run d ran, Bool.or_true]
  · rw [if_neg fits] at number
    exact .inr (.overflow _ (Nat.le_of_not_lt fits) (by rw [read, number]) (by rw [meant]; rfl))

theorem turn_other (other : 128 ≤ c.toNat) (counts : cls.isAlphanumeric c = true) :
    TokenAgrees cls cs ∨ TokenFault cls cs := by
  have within : c ∈ cs := head_within whole List.mem_cons_self
  cases letter : cls.isAlphabetic c with
  | false => exact .inr (.stuck c rest other within counts letter whole)
  | true =>
    have plain := not_mark_of_foreign other
    have read := read_head whole
    rw [headToken, if_neg plain.1, if_neg plain.2.1, plain.2.2] at read
    have run : (c :: rest).takeWhile cls.reading.isLetter = c :: rest.takeWhile cls.isAlphabetic :=
      List.takeWhile_cons_of_pos letter
    refine .inr (.foreign [] c (rest.takeWhile cls.isAlphabetic) other within counts ?_ (by simp)
      fun some_letter => absurd rfl some_letter)
    rw [read]
    exact congrArg VerToken.letters run

theorem turn_letters (alpha : c.isAlpha = true) : TokenAgrees cls cs ∨ TokenFault cls cs := by
  have tilde : c ≠ '~' := by rintro rfl; cases alpha
  have caret : c ≠ '^' := by rintro rfl; cases alpha
  have read := read_head whole
  have meant : nextToken librpmReading cs = headToken librpmReading (c :: rest) :=
    meant_head whole (by simp [librpmReading, Char.isAlphanum, alpha])
  have left : ∀ d ∈ cs, cls.isAlphanumeric d = true → d ∈ c :: rest :=
    fun d mem => left_of_skipped whole mem
  have within : ∀ d ∈ c :: rest, d ∈ cs := fun d mem => head_within whole mem
  rw [headToken, if_neg tilde, if_neg caret, not_digit_of_alpha alpha] at read meant
  have ascii : ∀ d ∈ (c :: rest).takeWhile Char.isAlpha, d.isAlpha = true :=
    fun d mem => List.mem_takeWhile_imp mem
  have stops := List.head?_dropWhile_not Char.isAlpha (c :: rest)
  -- `u` are the letters RPM reads, `v` is what comes after them.
  have parts : c :: rest = _ := (List.takeWhile_append_dropWhile (p := Char.isAlpha)).symm
  change _ = (VerToken.letters ((c :: rest).takeWhile Char.isAlpha),
    (c :: rest).dropWhile Char.isAlpha) at meant
  change _ = (VerToken.letters ((c :: rest).takeWhile cls.isAlphabetic),
    (c :: rest).dropWhile cls.isAlphabetic) at read
  generalize (c :: rest).takeWhile Char.isAlpha = u at ascii parts meant
  generalize (c :: rest).dropWhile Char.isAlpha = v at stops parts meant
  rw [parts] at read left within
  have letters : ∀ d ∈ u, cls.isAlphabetic d = true := fun d mem =>
    alphabetic_of_alpha (ascii d mem)
  by_cases ends : ∀ d ∈ v.head?, cls.isAlphabetic d = false
  · obtain ⟨run, after⟩ := takeWhile_run letters ends
    rw [run, after] at read
    refine .inl ⟨read.trans meant.symm, ?_, fun d mem counts => ?_⟩
    · intro n number
      rw [meant] at number
      cases number
    · rw [meant]
      refine (List.mem_append.mp (left d mem counts)).imp_left fun ran => ?_
      rw [Char.isAlphanum, ascii d ran, Bool.true_or]
  · cases v with
    | nil => exact absurd (by simp) ends
    | cons x more =>
      have letter : cls.isAlphabetic x = true := by simpa using ends
      have no_alpha : x.isAlpha = false := by simpa using stops
      have other : 128 ≤ x.toNat := by
        by_contra small
        rw [cls.alphabetic_ascii x (by omega), no_alpha] at letter
        cases letter
      refine .inr (.foreign u x (more.takeWhile cls.isAlphabetic) other (within x (by simp)) ?_ ?_
        ascii fun _ => by rw [meant])
      · rw [CharClasses.isAlphanumeric, letter, Bool.true_or]
      · rw [read, List.takeWhile_append_of_pos letters, List.takeWhile_cons_of_pos letter]

end Head

variable (cls) in
theorem tokenTurn (cs : List Char) : TokenAgrees cls cs ∨ TokenFault cls cs := by
  have kept := List.head?_dropWhile_not cls.isSkipped cs
  cases whole : cs.dropWhile cls.isSkipped with
  | nil =>
    have read : nextToken cls.reading cs = (.stop, []) := by
      rw [nextToken]
      exact congrArg _ whole
    have meant : nextToken librpmReading cs = (.stop, []) := by
      rw [librpm_next cls, whole]
      rfl
    refine .inl ⟨read.trans meant.symm, ?_, fun c mem counts => ?_⟩
    · intro n number
      rw [meant] at number
      cases number
    · have := alphanumeric_left mem counts
      rw [whole] at this
      cases this
  | cons c rest =>
    rw [whole] at kept
    rcases head_cases (show cls.isSkipped c = false by simpa using kept) with
      tilde | caret | digit | alpha | ⟨other, counts⟩
    · exact turn_mark whole (.inl tilde)
    · exact turn_mark whole (.inr caret)
    · exact turn_digits whole digit
    · exact turn_letters whole alpha
    · exact turn_other whole other counts

end Turn

section Plain

variable (cls : CharClasses)

/-- The letters and digits are ASCII and the numbers fit into 64 bits. -/
structure PlainChars (cs : List Char) : Prop where
  ascii : ∀ c ∈ cs, cls.isAlphanumeric c = true → c.isAlphanum = true
  bounded : ∀ n, .digits n ∈ charsKey cs → n < U64_RANGE

variable {cls}

theorem charsKey_inner {cs : List Char} (inner : (nextToken librpmReading cs).1 ≠ .stop) :
    charsKey cs = (nextToken librpmReading cs).1 :: charsKey (nextToken librpmReading cs).2 :=
  (ends_charsKey cs).unique (.token inner (ends_charsKey _))

theorem charsKey_last {cs : List Char} (done : (nextToken librpmReading cs).1 = .stop) :
    charsKey cs = [.stop] :=
  (ends_charsKey cs).unique (.done done)

theorem head_mem_charsKey (cs : List Char) : (nextToken librpmReading cs).1 ∈ charsKey cs := by
  by_cases done : (nextToken librpmReading cs).1 = .stop
  · rw [charsKey_last done, done]
    exact List.mem_singleton_self _
  · rw [charsKey_inner done]
    exact List.mem_cons_self

theorem PlainChars.next {cs : List Char} (plain : PlainChars cls cs) :
    nextToken cls.reading cs = nextToken librpmReading cs := by
  rcases tokenTurn cls cs with ⟨same, -, -⟩ | ⟨n, large, -, meant⟩ |
    ⟨u, x, more, other, within, counts, -, -, -⟩ | ⟨x, rest, other, within, counts, -, -⟩
  · exact same
  · exact absurd (plain.bounded n (meant ▸ head_mem_charsKey cs)) (Nat.not_lt.mpr large)
  · exact absurd (ascii_of_alphanum (plain.ascii x within counts)) (Nat.not_lt.mpr other)
  · exact absurd (ascii_of_alphanum (plain.ascii x within counts)) (Nat.not_lt.mpr other)

theorem PlainChars.rest {cs : List Char} (plain : PlainChars cls cs)
    (inner : (nextToken librpmReading cs).1 ≠ .stop) :
    PlainChars cls (nextToken librpmReading cs).2 where
  ascii c mem := plain.ascii c ((nextToken_suffix _ _).subset mem)
  bounded n mem := plain.bounded n (by rw [charsKey_inner inner]; exact List.mem_cons_of_mem _ mem)

theorem PlainChars.ends {cs : List Char} (plain : PlainChars cls cs) :
    Ends (nextToken cls.reading) .stop cs (charsKey cs) := by
  have ends := ends_charsKey cs
  generalize charsKey cs = keys at ends
  induction ends with
  | done done => exact .done (by rw [plain.next, done])
  | @token cs keys inner _ ih =>
    have rest := ih (plain.rest inner)
    rw [← plain.next] at inner rest ⊢
    exact .token inner rest

/-- From enough turns on the loop gives the order of RPM. -/
def ComparesAs (cls : CharClasses) (a b : String) (o : Ordering) : Prop :=
  ∃ enough, ∀ fuel ≥ enough, cls.rpmvercmp fuel a b = some o

theorem comparesAs_of_loop {a b : String} {fuel : Nat} {o : Ordering}
    (run : cls.loop fuel a.toList b.toList = some o) (self : a = b → o = .eq) :
    ComparesAs cls a b o := by
  refine ⟨fuel, fun more le => ?_⟩
  rw [CharClasses.rpmvercmp]
  split
  · next same => rw [self same]
  · obtain ⟨extra, rfl⟩ := Nat.exists_eq_add_of_le le
    rw [cls.loop_eq] at run ⊢
    exact compareBy_mono run extra

theorem plain_compares {a b : String} (plainA : PlainChars cls a.toList)
    (plainB : PlainChars cls b.toList) : ComparesAs cls a b (rpmOrder a b) := by
  obtain ⟨fuel, run⟩ := compareBy_ends plainA.ends plainB.ends
  rw [← cls.loop_eq] at run
  refine comparesAs_of_loop run ?_
  rintro rfl
  exact Std.ReflOrd.compare_self

end Plain

end Inspectah
