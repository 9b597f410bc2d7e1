import Inspectah.Collect.Crontab
import Inspectah.Library.FirstKnown
import Inspectah.Library.Words
import Mathlib.Data.List.TakeDrop

/-!
Calendar expressions of systemd.time(7), and what the conversion of a cron field does to its
text. A week runs from Monday to Sunday.
-/
namespace Inspectah

variable (cs : List Char) {sep : Char}

/-- A value, or a range, and the values its repetition adds. -/
structure CalendarItem where
  lo : Nat
  hi : Option Nat
  step : Option Nat
  deriving DecidableEq

def CalendarItem.holds (n : Nat) (item : CalendarItem) : Bool :=
  match item.hi, item.step with
  | none, none => item.lo == n
  | none, some step => item.lo ≤ n && (n - item.lo) % step == 0
  | some hi, step => inSteps item.lo hi (step.getD 1) n

inductive CalendarComponent where
  | any
  | listed (items : List CalendarItem)
  deriving DecidableEq

def CalendarComponent.holds (n : Nat) : CalendarComponent → Bool
  | any => true
  | listed items => items.any (·.holds n)

structure CalendarDate where
  year : CalendarComponent
  month : CalendarComponent
  day : CalendarComponent
  deriving DecidableEq

structure CalendarTime where
  hour : CalendarComponent
  minute : CalendarComponent
  second : CalendarComponent
  deriving DecidableEq

structure CalendarSpec where
  weekdays : Option (List CalendarItem)
  date : CalendarDate
  time : CalendarTime
  deriving DecidableEq

def readNumber : Option Nat := if isDigits cs then some (digitsValue cs) else none

def WEEKDAYS_SHORT : List (List Char) := ["mon", "tue", "wed", "thu", "fri", "sat", "sun"].map String.toList

def WEEKDAYS_FULL : List (List Char) :=
  ["monday", "tuesday", "wednesday", "thursday", "friday", "saturday", "sunday"].map String.toList

/-- A weekday by its English name, in either case, counted from Monday. -/
def readWeekday : Option Nat :=
  match WEEKDAYS_SHORT.idxOf? (cs.map Char.toLower) with
  | some i => some i
  | none => WEEKDAYS_FULL.idxOf? (cs.map Char.toLower)

/-- A value, or two with two dots between them. -/
def readRange (read : List Char → Option Nat) (cs : List Char) : Option (Nat × Option Nat) :=
  match Text.splitChars (· == '.') cs with
  | [value] => (read value).map fun v => (v, none)
  | [lo, [], hi] => (read lo).bind fun l => (read hi).map fun h => (l, some h)
  | _ => none

def readStep : Option Nat := (readNumber cs).filter (· != 0)

def readItem : Option CalendarItem :=
  match Text.splitChars (· == '/') cs with
  | [base] => (readRange readNumber base).map fun r => ⟨r.1, r.2, none⟩
  | [base, step] => (readRange readNumber base).bind fun r =>
      (readStep step).map fun s => ⟨r.1, r.2, some s⟩
  | _ => none

/-- No range runs backwards. -/
def readWeekdayItem : Option CalendarItem :=
  (readRange readWeekday cs).bind fun r =>
    if ∀ hi ∈ r.2, r.1 ≤ hi then some ⟨r.1, r.2, none⟩ else none

def readList (read : List Char → Option CalendarItem) (cs : List Char) : Option (List CalendarItem) :=
  (Text.splitChars (· == ',') cs).mapM read

def readComponent : Option CalendarComponent :=
  if cs = ['*'] then some .any else (readList readItem cs).map .listed

def readDate : Option CalendarDate :=
  match Text.splitChars (· == '-') cs with
  | [year, month, day] => do return ⟨← readComponent year, ← readComponent month, ← readComponent day⟩
  | [month, day] => do return ⟨.any, ← readComponent month, ← readComponent day⟩
  | _ => none

def readTime : Option CalendarTime :=
  match Text.splitChars (· == ':') cs with
  | [hour, minute, second] => do
    return ⟨← readComponent hour, ← readComponent minute, ← readComponent second⟩
  | [hour, minute] => do
    return ⟨← readComponent hour, ← readComponent minute, .listed [⟨0, none, none⟩]⟩
  | _ => none

def readOnCalendar : Option CalendarSpec :=
  match Text.splitChars (· == ' ') cs with
  | [date, time] => do return ⟨none, ← readDate date, ← readTime time⟩
  | [weekdays, date, time] => do
    return ⟨some (← readList readWeekdayItem weekdays), ← readDate date, ← readTime time⟩
  | _ => none

def fromMonday (day : Nat) : Nat := (day + 6) % 7

def CalendarSpec.holdsWeekday (spec : CalendarSpec) (day : Nat) : Bool :=
  spec.weekdays.all fun items => items.any (·.holds (fromMonday day))

def CalendarSpec.elapses (spec : CalendarSpec) (t : Minute) : Bool :=
  spec.holdsWeekday t.weekday && spec.date.year.holds t.year && spec.date.month.holds t.month &&
    spec.date.day.holds t.day && spec.time.hour.holds t.hour && spec.time.minute.holds t.minute &&
    (List.range 60).any fun second => spec.time.second.holds second

theorem mem_piece {sep c : Char} {cs : List Char} (mem : c ∈ cs) (other : c ≠ sep) :
    ∃ piece ∈ Text.splitChars (· == sep) cs, c ∈ piece := by
  have whole : [sep].intercalate (cs.splitOn sep) = cs := List.intercalate_splitOn sep
  rw [List.splitOn_eq_splitOnP, ← Text.splitChars_eq_splitOnP] at whole
  rw [← whole] at mem
  generalize Text.splitChars (· == sep) cs = pieces at mem
  induction pieces with
  | nil => cases mem
  | cons p rest ih =>
    cases rest with
    | nil => exact ⟨p, List.mem_cons_self .., by simpa [List.intercalate] using mem⟩
    | cons q more =>
      rw [List.intercalate_cons_cons, List.append_assoc, List.mem_append, List.singleton_append,
        List.mem_cons] at mem
      obtain own | rfl | later := mem
      · exact ⟨p, List.mem_cons_self .., own⟩
      · exact absurd rfl other
      · obtain ⟨piece, hp, hc⟩ := ih later
        exact ⟨piece, List.mem_cons_of_mem _ hp, hc⟩

theorem cutAt_none {cs : List Char} : cutAt sep cs = none ↔ sep ∉ cs := by
  rw [cutAt, List.span_eq_takeWhile_dropWhile]
  cases rest : cs.dropWhile (· != sep) with
  | nil =>
    have all := List.dropWhile_eq_nil_iff.mp rest
    refine iff_of_true rfl fun mem => ?_
    simpa using all sep mem
  | cons c more =>
    refine iff_of_false (by simp) (not_not.mpr ?_)
    have head := List.head?_dropWhile_not (· != sep) cs
    rw [rest] at head
    have same : c = sep := by simpa using head
    exact same ▸ (List.dropWhile_suffix _).subset (rest ▸ List.mem_cons_self ..)

theorem cutAt_append {before : List Char} (plain : sep ∉ before) (after : List Char) :
    cutAt sep (before ++ sep :: after) = some (before, after) := by
  have all : ∀ c ∈ before, (c != sep) = true := fun c hc => bne_iff_ne.mpr fun e => plain (e ▸ hc)
  rw [cutAt, List.span_eq_takeWhile_dropWhile, List.takeWhile_append_of_pos all,
    List.dropWhile_append_of_pos all]
  simp

theorem cutAt_some {cs before after : List Char}
    (h : cutAt sep cs = some (before, after)) : cs = before ++ sep :: after := by
  by_cases mem : sep ∈ cs
  · obtain ⟨front, back, whole, plain⟩ := List.eq_append_cons_of_mem mem
    rw [whole, cutAt_append plain] at h
    simp only [Option.some.injEq, Prod.mk.injEq] at h
    rw [whole, h.1, h.2]
  · rw [cutAt_none.mpr mem] at h
    cases h

theorem cutAt_before {cs before after : List Char}
    (h : cutAt sep cs = some (before, after)) : sep ∉ before := by
  intro mem
  obtain ⟨front, back, rfl, plain⟩ := List.eq_append_cons_of_mem mem
  rw [cutAt_some h, List.append_assoc, List.cons_append, cutAt_append plain] at h
  simp at h

theorem join_around (before : List (List Char)) (piece : List Char)
    (after : List (List Char)) : [sep].intercalate (before ++ piece :: after) =
      before.flatMap (· ++ [sep]) ++ piece ++ after.flatMap (sep :: ·) := by
  induction before with
  | nil =>
    induction after generalizing piece with
    | nil => simp
    | cons next rest ih =>
      simp only [List.nil_append] at ih ⊢
      rw [List.intercalate_cons_cons, ih]
      simp
  | cons first rest ih =>
    cases rest with
    | nil =>
      rw [List.nil_append] at ih
      rw [List.singleton_append, List.intercalate_cons_cons, ih]
      simp
    | cons second more =>
      rw [List.cons_append, List.cons_append, List.intercalate_cons_cons, ← List.cons_append, ih]
      simp

theorem mem_join_of {sep c : Char} {pieces : List (List Char)} {p : List Char} (hp : p ∈ pieces)
    (hc : c ∈ p) : c ∈ [sep].intercalate pieces := by
  obtain ⟨before, after, rfl⟩ := List.append_of_mem hp
  rw [join_around]
  simp [hc]

theorem CronValue.alphanum {kind : CronKind} {v : CronValue} (h : v.IsValid kind) :
    v.text ≠ [] ∧ ∀ c ∈ v.text, c.isAlphanum := by
  cases v with
  | number digits =>
    have own := h.1
    simp only [isDigits, Bool.and_eq_true, Bool.not_eq_true', List.all_eq_true] at own
    refine ⟨by simpa [CronValue.text] using own.1, fun c hc => ?_⟩
    simp [Char.isAlphanum, own.2 c hc]
  | name letters =>
    have lower := names_lower kind _ h
    refine ⟨by simpa [CronValue.text] using lower.1, fun c hc => ?_⟩
    exact isAlphanum_of_toLower (List.all_eq_true.mp lower.2 _ (List.mem_map_of_mem hc))

/-- The marks between the values of a field. -/
def isMark (c : Char) : Bool := c == '*' || c == ',' || c == '-' || c == '/'

theorem not_mem_of_alphanum {c : Char} {cs : List Char} (all : ∀ x ∈ cs, x.isAlphanum)
    (other : c.isAlphanum = false) : c ∉ cs := fun mem => by
  simp [all c mem] at other

theorem lowerChar_mark {c : Char} (mark : isMark c) : lowerChar c = [c] := by
  simp only [isMark, Bool.or_eq_true, beq_iff_eq] at mark
  obtain ((rfl | rfl) | rfl) | rfl := mark <;> decide

theorem lookup_none {table : List (List Char × List Char)} {token : List Char} {c : Char}
    (p : Char → Bool) (keys : table.all fun row => row.1.all fun x => !p x) (has : p c)
    (mem : c ∈ token) : table.lookup token = none := by
  rw [List.lookup_eq_none_iff]
  intro row hrow
  simp only [bne_iff_ne]
  rintro rfl
  have plain := List.all_eq_true.mp (List.all_eq_true.mp keys row hrow) c mem
  simp [has] at plain

theorem mem_toLowercase {token : List Char} {c : Char} (mark : isMark c) (mem : c ∈ token) :
    c ∈ toLowercase token :=
  List.mem_flatMap.mpr ⟨c, mem, by rw [lowerChar_mark mark]; exact List.mem_singleton_self c⟩

theorem normalise_of_mark {kind : CronKind} {token : List Char} {c : Char} (mark : isMark c)
    (mem : c ∈ token) : normaliseCronToken kind token = token := by
  have lower := mem_toLowercase mark mem
  cases kind with
  | month => simp [normaliseCronToken, @lookup_none MONTH_NAMES _ c isMark (by decide) mark lower]
  | dow =>
    simp [normaliseCronToken, @lookup_none DOW_NAMES_TO_SYSTEMD _ c isMark (by decide) mark lower,
      @lookup_none DOW_NUMERIC _ c isMark (by decide) mark mem]
  | _ => rfl

theorem lookup_alphanum {table : List (List Char × List Char)} {key value : List Char}
    (values : table.all fun row => row.2.all Char.isAlphanum) (h : table.lookup key = some value) :
    ∀ c ∈ value, c.isAlphanum := by
  have own := List.all_eq_true.mp values (key, value) (FirstKnown.mem_of_lookup h)
  simpa using own

theorem mem_normalise {kind : CronKind} {token : List Char} {c : Char}
    (h : c ∈ normaliseCronToken kind token) : c ∈ token ∨ c.isAlphanum := by
  have found : ∀ {table : List (List Char × List Char)} {key : List Char},
      (table.all fun row => row.2.all Char.isAlphanum) → c ∈ (table.lookup key).getD token →
      c ∈ token ∨ c.isAlphanum := by
    intro table key values mem
    cases look : table.lookup key with
    | none => exact .inl (by simpa [look] using mem)
    | some value => exact .inr (lookup_alphanum values look c (by simpa [look] using mem))
  cases kind with
  | month => exact found (by decide) h
  | dow =>
    unfold normaliseCronToken at h
    simp only at h
    split at h
    next value look => exact .inr (lookup_alphanum (by decide) look c h)
    next => exact found (by decide) h
  | _ => exact .inl h

theorem mem_join {sep c : Char} {pieces : List (List Char)} (h : c ∈ [sep].intercalate pieces) :
    c = sep ∨ ∃ p ∈ pieces, c ∈ p := by
  induction pieces with
  | nil => cases h
  | cons p rest ih =>
    cases rest with
    | nil => exact .inr ⟨p, List.mem_cons_self .., by simpa [List.intercalate] using h⟩
    | cons q more =>
      rw [List.intercalate_cons_cons, List.append_assoc, List.mem_append, List.singleton_append,
        List.mem_cons] at h
      obtain own | rfl | later := h
      · exact .inr ⟨p, List.mem_cons_self .., own⟩
      · exact .inl rfl
      · obtain same | ⟨piece, hp, hc⟩ := ih later
        · exact .inl same
        · exact .inr ⟨piece, List.mem_cons_of_mem _ hp, hc⟩

theorem conversion_unstarred {kind : CronKind} {field : List Char} (no_star : '*' ∉ field.head?) :
    cronFieldToCalendar kind field =
      match rangeWithStep kind field, plainRange kind field with
      | some range, _ => range
      | none, some range => range
      | none, none =>
        if field.contains ',' then
          [','].intercalate ((Text.splitChars (· == ',') field).map fun e =>
            normaliseCronToken kind (Text.trimChars e))
        else singleToken kind field := by
  have apart : field ≠ ['*'] := by
    rintro rfl
    exact no_star rfl
  have not_step : ['*', '/'].isPrefixOf field = false := by
    cases field with
    | nil => rfl
    | cons c rest =>
      have other : ('*' == c) = false := beq_eq_false_iff_ne.mpr fun e => no_star (by simp [e.symm])
      simp [List.isPrefixOf, other]
  rw [cronFieldToCalendar, if_neg apart, not_step]
  rfl

theorem rangeWithStep_of_no_slash {kind : CronKind} {field : List Char} (h : '/' ∉ field) :
    rangeWithStep kind field = none := by
  rw [rangeWithStep, cutAt_none.mpr h]
  rfl

theorem plainRange_of_no_dash {kind : CronKind} {field : List Char} (h : '-' ∉ field) :
    plainRange kind field = none := by
  rw [plainRange, cutAt_none.mpr h]
  rfl

theorem conversion_single {kind : CronKind} {v : CronValue} (valid : v.IsValid kind) :
    cronFieldToCalendar kind v.text = singleToken kind v.text := by
  have alnum := (CronValue.alphanum valid).2
  have no : ∀ {c : Char}, c.isAlphanum = false → c ∉ v.text := not_mem_of_alphanum alnum
  rw [conversion_unstarred fun mem => no rfl (List.mem_of_mem_head? mem),
    rangeWithStep_of_no_slash (no rfl), plainRange_of_no_dash (no rfl)]
  simp [no (show ','.isAlphanum = false from rfl)]

theorem conversion_list {kind : CronKind} {vs : List CronValue} (several : 2 ≤ vs.length)
    (valid : ∀ v ∈ vs, v.IsValid kind) :
    cronFieldToCalendar kind ([','].intercalate (vs.map (·.text))) =
      [','].intercalate (vs.map fun v => normaliseCronToken kind v.text) := by
  have alnum : ∀ p ∈ vs.map (·.text), ∀ c ∈ p, c.isAlphanum := by
    intro p hp
    obtain ⟨v, hv, rfl⟩ := List.mem_map.mp hp
    exact (CronValue.alphanum (valid v hv)).2
  have no : ∀ {c : Char}, c.isAlphanum = false → c ≠ ',' → c ∉ [','].intercalate (vs.map (·.text)) := by
    intro c other ne mem
    obtain same | ⟨p, hp, hc⟩ := mem_join mem
    · exact ne same
    · exact not_mem_of_alphanum (alnum p hp) other hc
  have some_comma : ',' ∈ [','].intercalate (vs.map (·.text)) := by
    match vs, several with
    | first :: second :: rest, _ =>
      rw [List.map_cons, List.map_cons, List.intercalate_cons_cons]
      simp
  have pieces := @splitChars_join ',' (vs.map (·.text))
    (by simpa using fun e : vs = [] => by simp [e] at several)
    fun p hp => not_mem_of_alphanum (alnum p hp) rfl
  rw [conversion_unstarred fun mem => no rfl (by decide) (List.mem_of_mem_head? mem),
    rangeWithStep_of_no_slash (no rfl (by decide)), plainRange_of_no_dash (no rfl (by decide))]
  simp only [List.contains_iff_mem.mpr some_comma, if_true, pieces, List.map_map]
  congr 1
  refine List.map_congr_left fun v hv => ?_
  have plain := fun c hc => Text.isWhitespace_alphanum (alnum v.text (List.mem_map_of_mem hv) c hc)
  simp only [Function.comp_apply, trimChars_plain plain]

def rangeStart (kind : CronKind) (before : List CronValue) (lo : CronValue) : List Char :=
  if before.isEmpty then normaliseCronToken kind lo.text else lo.text

def rangeEnd (kind : CronKind) (after : List CronValue) (step : Option (List Char))
    (hi : CronValue) : List Char :=
  if after.isEmpty || step.isSome then normaliseCronToken kind hi.text else hi.text

def convertedRange (kind : CronKind) (before : List CronValue) (lo hi : CronValue)
    (step : Option (List Char)) (after : List CronValue) : List Char :=
  rangeStart kind before lo ++ '.' :: '.' :: rangeEnd kind after step hi ++ stepText step

theorem conversion_range {kind : CronKind} {before after : List CronValue} {lo hi : CronValue}
    {step : Option (List Char)} (valid_before : ∀ v ∈ before, v.IsValid kind)
    (valid_lo : lo.IsValid kind) (valid_hi : hi.IsValid kind) (valid_step : IsStep step)
    (valid_after : ∀ v ∈ after, v.IsValid kind) :
    cronFieldToCalendar kind ([','].intercalate (before.map (·.text) ++
        (CronItem.range lo hi step).text :: after.map (·.text))) =
      [','].intercalate (before.map (·.text) ++
        convertedRange kind before lo hi step after :: after.map (·.text)) := by
  have alnum_lo := (CronValue.alphanum valid_lo).2
  have alnum_hi := (CronValue.alphanum valid_hi).2
  -- All that stands before the dash, and all after the second value.
  generalize hpre : (before.map (·.text)).flatMap (· ++ [',']) = pre
  generalize hpost : (after.map (·.text)).flatMap (',' :: ·) = post
  have pre_chars : ∀ c ∈ pre, c.isAlphanum ∨ c = ',' := by
    intro c mem
    rw [← hpre] at mem
    obtain ⟨p, hp, hc⟩ := List.mem_flatMap.mp mem
    obtain ⟨v, hv, rfl⟩ := List.mem_map.mp hp
    obtain own | comma := List.mem_append.mp hc
    · exact .inl ((CronValue.alphanum (valid_before v hv)).2 c own)
    · exact .inr (List.mem_singleton.mp comma)
  have post_chars : ∀ c ∈ post, c.isAlphanum ∨ c = ',' := by
    intro c mem
    rw [← hpost] at mem
    obtain ⟨p, hp, hc⟩ := List.mem_flatMap.mp mem
    obtain ⟨v, hv, rfl⟩ := List.mem_map.mp hp
    obtain comma | own := List.mem_cons.mp hc
    · exact .inr comma
    · exact .inl ((CronValue.alphanum (valid_after v hv)).2 c own)
  have chars_plain : ∀ {cs : List Char}, (∀ c ∈ cs, c.isAlphanum ∨ c = ',') →
      ∀ c ∈ cs, Text.isWhitespace c = false := by
    intro cs all c hc
    obtain alnum | rfl := all c hc
    · exact Text.isWhitespace_alphanum alnum
    · decide
  have no : ∀ {cs : List Char} {c : Char}, (∀ x ∈ cs, x.isAlphanum ∨ x = ',') →
      c.isAlphanum = false → c ≠ ',' → c ∉ cs := by
    intro cs c all other ne mem
    obtain alnum | same := all c mem
    · simp [alnum] at other
    · exact ne same
  have start_chars : ∀ c ∈ pre ++ lo.text, c.isAlphanum ∨ c = ',' := by
    intro c mem
    obtain own | own := List.mem_append.mp mem
    · exact pre_chars c own
    · exact .inl (alnum_lo c own)
  have end_chars : ∀ c ∈ hi.text ++ post, c.isAlphanum ∨ c = ',' := by
    intro c mem
    obtain own | own := List.mem_append.mp mem
    · exact .inl (alnum_hi c own)
    · exact post_chars c own
  have start : normaliseCronToken kind (pre ++ lo.text) = pre ++ rangeStart kind before lo := by
    unfold rangeStart
    cases before with
    | nil =>
      rw [← hpre]
      rfl
    | cons first rest =>
      have comma : ',' ∈ pre := by
        rw [← hpre]
        simp
      rw [normalise_of_mark (show isMark ',' from rfl) (List.mem_append_left _ comma)]
      rfl
  rw [join_around, join_around, hpre, hpost]
  have first : ∃ c ∈ (pre ++ lo.text).head?, True := by
    cases whole : pre ++ lo.text with
    | nil => exact absurd (List.append_eq_nil_iff.mp whole).2 (CronValue.alphanum valid_lo).1
    | cons c _ => exact ⟨c, rfl, trivial⟩
  obtain ⟨c, hc, -⟩ := first
  have head : ∀ rest, '*' ∉ (pre ++ lo.text ++ rest).head? := by
    intro rest mem
    rw [List.head?_append, Option.mem_def.mp hc, Option.some_or] at mem
    have same : c = '*' := by simpa using mem
    exact no start_chars (show '*'.isAlphanum = false from rfl) (by decide)
      (same ▸ List.mem_of_mem_head? hc)
  have trim_start := trimChars_plain (chars_plain start_chars)
  cases step with
  | none =>
    have field : pre ++ (CronItem.range lo hi none).text ++ post =
        pre ++ lo.text ++ '-' :: (hi.text ++ post) := by
      simp [CronItem.text, stepText]
    have no_slash : '/' ∉ pre ++ lo.text ++ '-' :: (hi.text ++ post) := by
      intro mem
      obtain own | own := List.mem_append.mp mem
      · exact no start_chars rfl (by decide) own
      · obtain same | own := List.mem_cons.mp own
        · cases same
        · exact no end_chars rfl (by decide) own
    have cut := @cutAt_append '-' (pre ++ lo.text) (no start_chars rfl (by decide)) (hi.text ++ post)
    have finish : normaliseCronToken kind (hi.text ++ post) = rangeEnd kind after none hi ++ post := by
      unfold rangeEnd
      cases after with
      | nil =>
        rw [← hpost]
        simp
      | cons next rest =>
        have comma : ',' ∈ post := by
          rw [← hpost]
          simp
        rw [normalise_of_mark (show isMark ',' from rfl) (List.mem_append_right _ comma)]
        simp
    rw [field, conversion_unstarred (head _), rangeWithStep_of_no_slash no_slash, plainRange, cut]
    simp [calendarRange, trim_start, trimChars_plain (chars_plain end_chars), start, finish,
      convertedRange, stepText]
  | some digits =>
    have field : pre ++ (CronItem.range lo hi (some digits)).text ++ post =
        (pre ++ lo.text ++ '-' :: hi.text) ++ '/' :: (digits ++ post) := by
      simp [CronItem.text, stepText]
    have no_slash : '/' ∉ pre ++ lo.text ++ '-' :: hi.text := by
      intro mem
      obtain own | own := List.mem_append.mp mem
      · exact no start_chars rfl (by decide) own
      · obtain same | own := List.mem_cons.mp own
        · cases same
        · exact not_mem_of_alphanum alnum_hi rfl own
    have cut_slash := cutAt_append no_slash (digits ++ post)
    have cut_dash := @cutAt_append '-' (pre ++ lo.text) (no start_chars rfl (by decide)) hi.text
    have trim_end := trimChars_plain fun c hc => Text.isWhitespace_alphanum (alnum_hi c hc)
    have starred : '*' ∉ ((pre ++ lo.text ++ '-' :: hi.text) ++ '/' :: (digits ++ post)).head? := by
      rw [List.append_assoc (pre ++ lo.text)]
      exact head _
    rw [field, conversion_unstarred starred, rangeWithStep, cut_slash]
    simp only [Option.bind_eq_bind, Option.bind_some, cut_dash]
    simp [calendarRange, trim_start, trim_end, start, convertedRange, stepText, rangeEnd]

theorem sep_mem_join {pieces : List (List Char)} (several : 2 ≤ pieces.length) :
    sep ∈ [sep].intercalate pieces := by
  match pieces, several with
  | first :: second :: rest, _ =>
    rw [List.intercalate_cons_cons]
    simp

theorem mem_calendarRange {kind : CronKind} {lo hi : List Char} {c : Char} (mark : isMark c)
    (plain : ∀ x ∈ lo ++ hi, Text.isWhitespace x = false) (mem : c ∈ lo ∨ c ∈ hi) :
    c ∈ calendarRange kind lo hi := by
  rw [List.forall_mem_append] at plain
  rw [calendarRange, trimChars_plain plain.1, trimChars_plain plain.2]
  obtain own | own := mem
  · simp [normalise_of_mark mark own, own]
  · simp [normalise_of_mark mark own, own]

section

variable {kind : CronKind} {field : List Char}
  (plain : ∀ x ∈ field, Text.isWhitespace x = false)
include plain

theorem mem_converted {c : Char} (mark : isMark c) (no_step : ['*', '/'].isPrefixOf field = false)
    (rest : ∀ lo hi, field = lo ++ '-' :: hi → '-' ∉ lo → c ∈ lo ∨ c ∈ hi)
    (whole : '-' ∉ field → c ∈ field) : c ∈ cronFieldToCalendar kind field := by
  unfold cronFieldToCalendar
  split
  next star =>
    subst star
    exact whole (by decide)
  rw [no_step]
  simp only [Bool.false_eq_true, if_false]
  cases stepped : rangeWithStep kind field with
  | some out =>
    obtain ⟨⟨range, step⟩, cut_slash, more⟩ := Option.bind_eq_some_iff.mp stepped
    obtain ⟨⟨lo, hi⟩, cut_dash, made⟩ := Option.bind_eq_some_iff.mp more
    obtain rfl := Option.some.inj made
    obtain rfl := cutAt_some cut_dash
    obtain rfl := cutAt_some cut_slash
    have before : '-' ∉ lo := cutAt_before cut_dash
    have place := rest lo (hi ++ '/' :: step) (by simp) before
    have inner : ∀ x ∈ lo ++ hi, Text.isWhitespace x = false := fun x hx => plain x (by
      simp only [List.mem_append, List.mem_cons] at hx ⊢
      tauto)
    simp only [List.mem_append, List.mem_cons] at place ⊢
    obtain own | own | own := place
    · exact .inl (mem_calendarRange mark inner (.inl own))
    · exact .inl (mem_calendarRange mark inner (.inr own))
    · exact .inr own
  | none =>
    cases ranged : plainRange kind field with
    | some out =>
      obtain ⟨⟨lo, hi⟩, cut_dash, made⟩ := Option.bind_eq_some_iff.mp ranged
      obtain rfl := Option.some.inj made
      obtain rfl := cutAt_some cut_dash
      have inner : ∀ x ∈ lo ++ hi, Text.isWhitespace x = false := fun x hx => plain x (by
        simp only [List.mem_append, List.mem_cons] at hx ⊢
        tauto)
      exact mem_calendarRange mark inner (rest lo hi rfl (cutAt_before cut_dash))
    | none =>
      have no_dash : '-' ∉ field := by
        intro mem
        obtain ⟨before, after, split, first⟩ := List.eq_append_cons_of_mem mem
        rw [split, plainRange, cutAt_append first] at ranged
        cases ranged
      have mem := whole no_dash
      simp only
      split
      next comma =>
        have several : 2 ≤ (Text.splitChars (· == ',') field).length := by
          obtain ⟨before, after, rfl⟩ := List.append_of_mem (List.contains_iff_mem.mp comma)
          rw [Text.splitChars_append_cut rfl, List.length_append]
          have left := List.length_pos_iff.mpr (splitChars_ne_nil (· == ',') before)
          have right := List.length_pos_iff.mpr (splitChars_ne_nil (· == ',') after)
          omega
        by_cases is_comma : c = ','
        · subst is_comma
          exact sep_mem_join (by simpa using several)
        · obtain ⟨piece, hp, hc⟩ := mem_piece mem is_comma
          have piece_plain : ∀ x ∈ piece, Text.isWhitespace x = false := fun x hx => by
            by_cases sep : x = ','
            · subst sep
              decide
            · exact plain x (Text.mem_of_mem_splitChars hp hx)
          refine mem_join_of (List.mem_map_of_mem hp) ?_
          rw [trimChars_plain piece_plain, normalise_of_mark mark hc]
          exact hc
      next =>
        rw [singleToken, normalise_of_mark mark mem]
        have not_digits : isDigits field = false := by
          rw [Bool.eq_false_iff]
          intro digits
          simp only [isDigits, Bool.and_eq_true, List.all_eq_true] at digits
          have digit := digits.2 c mem
          simp only [isMark, Bool.or_eq_true, beq_iff_eq] at mark
          obtain ((rfl | rfl) | rfl) | rfl := mark <;> cases digit
        simp [not_digits, mem]

end

end Inspectah
