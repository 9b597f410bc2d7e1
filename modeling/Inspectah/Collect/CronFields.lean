import Inspectah.Collect.CronText
import Inspectah.Library.Grouping

/-!
Which fields of a cron expression become components of a calendar expression that hold
of the same values.
-/
namespace Inspectah

variable (kind : CronKind) {digits : List Char}

def CronValue.isName : CronValue → Bool
  | .number _ => false
  | .name _ => true

/-- Calendar expressions have names for the days of the week and numbers for all else. -/
def ReadsAsWritten (v : CronValue) : Prop := kind = .dow ↔ v.isName

/-- An exchanged value may be of either sort, but a number stands for a day only without leading
    zeros. -/
def ReadsExchanged (v : CronValue) : Prop :=
  kind = .dow → v.isName ∨ v.text.length = 1

instance (kind : CronKind) : DecidablePred (ReadsAsWritten kind) := fun _ => by
  unfold ReadsAsWritten
  infer_instance

instance (kind : CronKind) : DecidablePred (ReadsExchanged kind) := fun _ => by
  unfold ReadsExchanged
  infer_instance

/-- How a value is read where a component of this kind stands. -/
def calendarRead : CronKind → List Char → Option Nat
  | .dow => readWeekday
  | _ => readNumber

def calendarValue (v : CronValue) : Nat :=
  if kind = .dow then fromMonday (v.value kind) else v.value kind

theorem toLowercase_letters {letters : List Char} (all : ∀ c ∈ letters, c.isAlphanum) :
    toLowercase letters = letters.map Char.toLower := by
  induction letters with
  | nil => rfl
  | cons c rest ih =>
    have range := Text.isAlphanum_toNat (all c (List.mem_cons_self ..))
    have own : lowerChar c = [c.toLower] := by
      rw [lowerChar, if_neg (by omega), if_neg (by omega)]
    rw [toLowercase, List.flatMap_cons, own, List.map_cons, ← toLowercase,
      ih fun x hx => all x (List.mem_cons_of_mem _ hx)]
    rfl

theorem toLower_digit {c : Char} (h : c.isDigit) : c.toLower = c := by
  have below : ¬ (c.val ≥ 'A'.val ∧ c.val ≤ 'Z'.val) := by
    simp only [Char.isDigit, Bool.and_eq_true, decide_eq_true_eq, UInt32.le_iff_toNat_le, ge_iff_le]
      at h ⊢
    have top : '9'.val.toNat = 57 := rfl
    have bottom : 'A'.val.toNat = 65 := rfl
    omega
  unfold Char.toLower
  rw [dif_neg below]

theorem exists_digit (h : isDigits digits) : ∃ c ∈ digits, c.isDigit := by
  simp only [isDigits, Bool.and_eq_true, List.all_eq_true] at h
  cases digits with
  | nil => cases h.1
  | cons c rest => exact ⟨c, List.mem_cons_self .., h.2 c (List.mem_cons_self ..)⟩

theorem all_digits (h : isDigits digits) : ∀ c ∈ digits, c.isDigit := by
  simp only [isDigits, Bool.and_eq_true, List.all_eq_true] at h
  exact h.2

/-- A number is no name. -/
theorem lookup_digits {table : List (List Char × List Char)} {digits : List Char}
    (keys : table.all fun row => row.1.all fun x => !x.isDigit) (h : isDigits digits) :
    table.lookup (toLowercase digits) = none := by
  obtain ⟨c, mem, digit⟩ := exists_digit h
  rw [toLowercase_letters fun x hx => by simp [Char.isAlphanum, all_digits h x hx]]
  refine lookup_none Char.isDigit keys digit ?_
  rw [← toLower_digit digit]
  exact List.mem_map_of_mem mem

theorem readWeekday_digits (h : isDigits digits) : readWeekday digits = none := by
  obtain ⟨c, mem, digit⟩ := exists_digit h
  have lower : c ∈ digits.map Char.toLower := by
    rw [← toLower_digit digit]
    exact List.mem_map_of_mem mem
  have absent : ∀ {names : List (List Char)}, (names.all fun n => n.all fun x => !x.isDigit) →
      names.idxOf? (digits.map Char.toLower) = none := by
    intro names keys
    rw [List.idxOf?_eq_none_iff]
    intro listed
    have plain := List.all_eq_true.mp (List.all_eq_true.mp keys _ listed) c lower
    simp [digit] at plain
  rw [readWeekday, absent (by decide), absent (by decide)]

theorem readNumber_digits (h : isDigits digits) :
    readNumber digits = some (digitsValue digits) := if_pos h

theorem readNumber_letters {kind : CronKind} {letters : List Char}
    (h : letters.map Char.toLower ∈ kind.names) : readNumber letters = none := by
  refine if_neg fun digits => ?_
  obtain ⟨c, mem, digit⟩ := exists_digit digits
  have lower := List.all_eq_true.mp (names_lower kind _ h).2 _ (List.mem_map_of_mem mem)
  rw [toLower_digit digit] at lower
  unfold Char.isLower at lower
  simp only [Char.isDigit, Bool.and_eq_true, decide_eq_true_eq, UInt32.le_iff_toNat_le, ge_iff_le]
    at lower digit
  have top : '9'.val.toNat = 57 := rfl
  have bottom : 'a'.val.toNat = 97 := rfl
  omega

theorem calendarRead_written {kind : CronKind} {v : CronValue} (valid : v.IsValid kind) :
    calendarRead kind v.text = if ReadsAsWritten kind v then some (calendarValue kind v) else none := by
  cases v with
  | number digits =>
    by_cases dow : kind = .dow
    · subst dow
      rw [if_neg (by simp [ReadsAsWritten, CronValue.isName])]
      exact readWeekday_digits valid.1
    · rw [if_pos (by simp [ReadsAsWritten, CronValue.isName, dow]), calendarValue, if_neg dow]
      cases kind <;> first | exact absurd rfl dow | exact readNumber_digits valid.1
  | name letters =>
    by_cases dow : kind = .dow
    · subst dow
      have each : ∀ n ∈ CronKind.dow.names, WEEKDAYS_SHORT.idxOf? n =
          some (fromMonday (CronKind.dow.first + CronKind.dow.names.idxOf n)) := by decide
      rw [if_pos (by simp [ReadsAsWritten, CronValue.isName]), calendarValue, if_pos rfl]
      simp only [calendarRead, readWeekday, CronValue.text, each _ valid, CronValue.value]
    · rw [if_neg (by simp [ReadsAsWritten, CronValue.isName, dow])]
      cases kind <;> first | exact absurd rfl dow | exact readNumber_letters valid

theorem calendarRead_exchanged {kind : CronKind} {v : CronValue} (valid : v.IsValid kind) :
    calendarRead kind (normaliseCronToken kind v.text) =
      if ReadsExchanged kind v then some (calendarValue kind v) else none := by
  cases v with
  | number digits =>
    by_cases dow : kind = .dow
    · subst dow
      simp only [calendarRead, normaliseCronToken, CronValue.text,
        @lookup_digits DOW_NAMES_TO_SYSTEMD _ (by decide) valid.1]
      by_cases one : digits.length = 1
      · obtain ⟨c, rfl⟩ := List.length_eq_one_iff.mp one
        have each : ∀ n < 8, (DOW_NUMERIC.lookup [Char.ofNat (48 + n)]).bind readWeekday =
            some (fromMonday n) := by decide
        have digit := all_digits valid.1 c (List.mem_singleton_self c)
        have low : 48 ≤ c.toNat := by
          simp only [Char.isDigit, Bool.and_eq_true, decide_eq_true_eq, UInt32.le_iff_toNat_le,
            ge_iff_le] at digit
          exact digit.1
        have value : digitsValue [c] = c.toNat - 48 := by simp [digitsValue]
        have same : Char.ofNat (48 + (c.toNat - 48)) = c := by
          rw [Nat.add_sub_cancel' low, Char.ofNat_toNat]
        have bound := valid.2.2
        rw [value] at bound
        have here := each (c.toNat - 48) (Nat.lt_succ_of_le bound)
        rw [same] at here
        obtain ⟨day, look, read⟩ := Option.bind_eq_some_iff.mp here
        rw [look, Option.getD_some, read, if_pos (by simp [ReadsExchanged, CronValue.text]),
          calendarValue, if_pos rfl]
        simp only [CronValue.value, value]
      · have none : DOW_NUMERIC.lookup digits = none := by
          have short : DOW_NUMERIC.all fun row => row.1.length == 1 := by decide
          rw [List.lookup_eq_none_iff]
          intro row hrow
          rw [bne_iff_ne]
          rintro rfl
          exact one (by simpa using List.all_eq_true.mp short row hrow)
        rw [none, Option.getD_none, readWeekday_digits valid.1,
          if_neg (by simp [ReadsExchanged, CronValue.isName, CronValue.text, one])]
    · have reads : ReadsExchanged kind (.number digits) := fun same => absurd same dow
      rw [if_pos reads, calendarValue, if_neg dow]
      have kept : normaliseCronToken kind digits = digits := by
        cases kind with
        | month => simp [normaliseCronToken, @lookup_digits MONTH_NAMES _ (by decide) valid.1]
        | dow => exact absurd rfl dow
        | _ => rfl
      simp only [CronValue.text, kept]
      cases kind <;> first | exact absurd rfl dow | exact readNumber_digits valid.1
  | name letters =>
    have lower := toLowercase_letters (CronValue.alphanum valid).2
    have listed : letters.map Char.toLower ∈ kind.names := valid
    have reads : ReadsExchanged kind (.name letters) := fun _ => .inl rfl
    rw [if_pos reads]
    cases kind with
    | month =>
      have each : ∀ n ∈ CronKind.month.names, (MONTH_NAMES.lookup n).bind readNumber =
          some (CronKind.month.first + CronKind.month.names.idxOf n) := by decide
      obtain ⟨value, look, read⟩ := Option.bind_eq_some_iff.mp (each _ listed)
      simp only [CronValue.text] at lower ⊢
      simp [calendarRead, normaliseCronToken, lower, look, read, calendarValue, CronValue.value]
    | dow =>
      have each : ∀ n ∈ CronKind.dow.names, (DOW_NAMES_TO_SYSTEMD.lookup n).bind readWeekday =
          some (fromMonday (CronKind.dow.first + CronKind.dow.names.idxOf n)) := by decide
      obtain ⟨value, look, read⟩ := Option.bind_eq_some_iff.mp (each _ listed)
      simp only [CronValue.text] at lower ⊢
      simp [calendarRead, normaliseCronToken, lower, look, read, calendarValue, CronValue.value]
    | minute => cases listed
    | hour => cases listed
    | dom => cases listed

def readPiece : CronKind → List Char → Option CalendarItem
  | .dow => readWeekdayItem
  | _ => readItem

def valueItem (v : CronValue) : CalendarItem := ⟨calendarValue kind v, none, none⟩

def rangeItem (lo hi : CronValue) (step : Option (List Char)) : CalendarItem :=
  ⟨calendarValue kind lo, some (calendarValue kind hi), step.map digitsValue⟩

theorem readRange_value (read : List Char → Option Nat) {t : List Char}
    (alnum : ∀ c ∈ t, c.isAlphanum) : readRange read t = (read t).map fun v => (v, none) := by
  rw [readRange, splitChars_plain (not_mem_of_alphanum alnum rfl)]

theorem readRange_range (read : List Char → Option Nat) {lo hi : List Char}
    (alnum : ∀ c ∈ lo, c.isAlphanum) (no_dot : '.' ∉ hi) :
    readRange read (lo ++ '.' :: '.' :: hi) =
      (read lo).bind fun l => (read hi).map fun h => (l, some h) := by
  have pieces : Text.splitChars (· == '.') (lo ++ '.' :: '.' :: hi) = [lo, [], hi] := by
    rw [Text.splitChars_append_cut rfl, splitChars_plain (not_mem_of_alphanum alnum rfl)]
    simp [Text.splitChars, splitChars_plain no_dot]
  rw [readRange, pieces]

theorem readPiece_value {t : List Char} (alnum : ∀ c ∈ t, c.isAlphanum) :
    readPiece kind t = (calendarRead kind t).map fun n => ⟨n, none, none⟩ := by
  have numbers : readItem t = (readNumber t).map fun n => ⟨n, none, none⟩ := by
    rw [readItem, splitChars_plain (not_mem_of_alphanum alnum rfl)]
    simp [readRange_value _ alnum, Function.comp_def]
  have days : readWeekdayItem t = (readWeekday t).map fun n => ⟨n, none, none⟩ := by
    rw [readWeekdayItem, readRange_value _ alnum]
    cases readWeekday t <;> simp
  cases kind <;> first | exact days | exact numbers

theorem readWeekday_mark {cs : List Char} {c : Char} (mark : isMark c) (mem : c ∈ cs) :
    readWeekday cs = none := by
  have lower : c ∈ cs.map Char.toLower := by
    have same : c.toLower = c := by
      simp only [isMark, Bool.or_eq_true, beq_iff_eq] at mark
      obtain ((rfl | rfl) | rfl) | rfl := mark <;> decide
    rw [← same]
    exact List.mem_map_of_mem mem
  have absent : ∀ {names : List (List Char)}, (names.all fun n => n.all fun x => !isMark x) →
      names.idxOf? (cs.map Char.toLower) = none := by
    intro names keys
    rw [List.idxOf?_eq_none_iff]
    intro listed
    have plain := List.all_eq_true.mp (List.all_eq_true.mp keys _ listed) c lower
    simp [mark] at plain
  rw [readWeekday, absent (by decide), absent (by decide)]

def RangeFits (step : Option (List Char)) (l h : Nat) : Prop :=
  kind = .dow → step = none ∧ l ≤ h

instance (kind : CronKind) (step : Option (List Char)) (l h : Nat) :
    Decidable (RangeFits kind step l h) := inferInstanceAs (Decidable (_ → _))

theorem readItem_range {lo hi : List Char} {step : Option (List Char)}
    (alnum_lo : ∀ c ∈ lo, c.isAlphanum) (alnum_hi : ∀ c ∈ hi, c.isAlphanum) (valid : IsStep step) :
    readItem (lo ++ '.' :: '.' :: hi ++ stepText step) =
      (readNumber lo).bind fun l => (readNumber hi).map fun h =>
        ⟨l, some h, step.map digitsValue⟩ := by
  have base := readRange_range readNumber alnum_lo (not_mem_of_alphanum alnum_hi rfl)
  have no_slash : '/' ∉ lo ++ '.' :: '.' :: hi := by
    intro mem
    obtain own | own := List.mem_append.mp mem
    · exact not_mem_of_alphanum alnum_lo rfl own
    · simp only [List.mem_cons] at own
      obtain same | same | own := own
      · cases same
      · cases same
      · exact not_mem_of_alphanum alnum_hi rfl own
  cases step with
  | none =>
    rw [stepText, List.append_nil, readItem, splitChars_plain no_slash]
    cases lo_read : readNumber lo <;> cases hi_read : readNumber hi <;>
      simp [base, lo_read, hi_read]
  | some digits =>
    obtain ⟨is_digits, not_zero⟩ := valid digits rfl
    have plain : '/' ∉ digits := fun mem => by
      have digit := all_digits is_digits _ mem
      cases digit
    have step_read : readStep digits = some (digitsValue digits) := by
      rw [readStep, readNumber_digits is_digits]
      simp [not_zero]
    have pieces : Text.splitChars (· == '/') (lo ++ '.' :: '.' :: hi ++ '/' :: digits) =
        [lo ++ '.' :: '.' :: hi, digits] := by
      rw [Text.splitChars_append_cut rfl, splitChars_plain no_slash, splitChars_plain plain]
      rfl
    rw [stepText, readItem, pieces]
    cases lo_read : readNumber lo <;> cases hi_read : readNumber hi <;>
      simp [base, lo_read, hi_read, step_read]

theorem readWeekdayItem_range {lo hi : List Char} {step : Option (List Char)}
    (alnum_lo : ∀ c ∈ lo, c.isAlphanum) (alnum_hi : ∀ c ∈ hi, c.isAlphanum) (valid : IsStep step) :
    readWeekdayItem (lo ++ '.' :: '.' :: hi ++ stepText step) =
      (readWeekday lo).bind fun l => (readWeekday hi).bind fun h =>
        if RangeFits .dow step l h then some ⟨l, some h, step.map digitsValue⟩ else none := by
  cases step with
  | none =>
    have base := readRange_range readWeekday alnum_lo (not_mem_of_alphanum alnum_hi rfl)
    rw [stepText, List.append_nil, readWeekdayItem, base]
    cases readWeekday lo <;> cases readWeekday hi <;> simp [RangeFits]
  | some digits =>
    have no_dot : '.' ∉ hi ++ '/' :: digits := by
      intro mem
      simp only [List.mem_append, List.mem_cons] at mem
      obtain own | same | own := mem
      · exact not_mem_of_alphanum alnum_hi rfl own
      · cases same
      · have digit := all_digits (valid digits rfl).1 _ own
        cases digit
    have base := readRange_range readWeekday alnum_lo no_dot
    have none_read : readWeekday (hi ++ '/' :: digits) = none :=
      readWeekday_mark (show isMark '/' from rfl) (by simp)
    rw [stepText, List.append_assoc, List.cons_append, List.cons_append, readWeekdayItem, base,
      none_read]
    cases readWeekday lo <;> cases readWeekday hi <;> simp [RangeFits]

theorem readPiece_range {lo hi : List Char} {step : Option (List Char)}
    (alnum_lo : ∀ c ∈ lo, c.isAlphanum) (alnum_hi : ∀ c ∈ hi, c.isAlphanum) (valid : IsStep step) :
    readPiece kind (lo ++ '.' :: '.' :: hi ++ stepText step) =
      (calendarRead kind lo).bind fun l => (calendarRead kind hi).bind fun h =>
        if RangeFits kind step l h then some ⟨l, some h, step.map digitsValue⟩ else none := by
  by_cases dow : kind = .dow
  · subst dow
    exact readWeekdayItem_range alnum_lo alnum_hi valid
  · have fits : ∀ l h, RangeFits kind step l h := fun _ _ same => absurd same dow
    have numbers : readItem (lo ++ '.' :: '.' :: hi ++ stepText step) =
        (readNumber lo).bind fun l => (readNumber hi).bind fun h =>
          some ⟨l, some h, step.map digitsValue⟩ := by
      rw [readItem_range alnum_lo alnum_hi valid]
      cases readNumber lo <;> cases readNumber hi <;> rfl
    simp only [fits, if_true]
    cases kind <;> first | exact absurd rfl dow | exact numbers

end Inspectah
