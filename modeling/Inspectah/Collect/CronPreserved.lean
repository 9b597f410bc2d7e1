import Inspectah.Collect.CronSchedule
import Inspectah.Collect.CronWords

/-!
The cron expressions whose schedule the calendar expression of their timer keeps.
-/
namespace Inspectah

section

variable {kind : CronKind} {c : Char}

theorem mem_trimmed_token {cs : List Char} (h : c ∈ normaliseCronToken kind (Text.trimChars cs)) :
    c ∈ cs ∨ c.isAlphanum := by
  obtain own | own := mem_normalise h
  · obtain ⟨lead, tail, -, -, whole⟩ := exists_trimChars cs
    refine .inl ?_
    rw [whole]
    simp [own]
  · exact .inr own

theorem mem_of_calendarRange {lo hi : List Char} (h : c ∈ calendarRange kind lo hi) :
    c ∈ lo ∨ c ∈ hi ∨ c.isAlphanum ∨ c = '.' := by
  simp only [calendarRange, List.mem_append] at h
  obtain (own | dots) | own := h
  · obtain own | own := mem_trimmed_token own
    · exact .inl own
    · exact .inr (.inr (.inl own))
  · have each : ∀ x ∈ "..".toList, x = '.' := Text.forall_of_all (by decide)
    exact .inr (.inr (.inr (each c dots)))
  · obtain own | own := mem_trimmed_token own
    · exact .inr (.inl own)
    · exact .inr (.inr (.inl own))

theorem mem_of_starStep {step field : List Char} (h : c ∈ starStep kind step field) :
    c ∈ step ∨ c ∈ field ∨ c.isAlphanum ∨ isMark c := by
  unfold starStep at h
  split at h
  · split at h
    · obtain lead | own := List.mem_append.mp h
      · have each : ∀ x ∈ "*/".toList, isMark x := Text.forall_of_all (by decide)
        exact .inr (.inr (.inr (each c lead)))
      · exact .inl own
    · obtain lead | own := List.mem_append.mp h
      · have each : ∀ x ∈ "00/".toList, x.isAlphanum ∨ isMark x := Text.forall_of_all (by decide)
        exact .inr (.inr (each c lead))
      · exact .inl own
    · exact .inr (.inl h)
  · exact .inr (.inl h)

theorem mem_of_singleToken {field : List Char} (h : c ∈ singleToken kind field) :
    c ∈ field ∨ c.isAlphanum := by
  unfold singleToken at h
  simp only at h
  split at h
  · exact mem_normalise h
  split at h
  · have digit : c.isDigit := by
      obtain pad | own := List.mem_append.mp h
      · rw [(List.mem_replicate.mp pad).2]
        rfl
      · exact Nat.isDigit_of_mem_toDigits (by decide) (by decide) own
    exact .inr (by simp [Char.isAlphanum, digit])
  · exact .inl h

theorem conversion_chars {field : List Char} (h : c ∈ cronFieldToCalendar kind field) :
    c ∈ field ∨ c.isAlphanum ∨ isMark c ∨ c = '.' := by
  unfold cronFieldToCalendar at h
  split at h
  next star =>
    rw [star]
    exact .inl h
  split at h
  next =>
    have dropped : c ∈ field.drop 2 → c ∈ field := List.mem_of_mem_drop
    have := mem_of_starStep h
    tauto
  next =>
    split at h
    next range stepped =>
      obtain ⟨⟨front, step⟩, cut_slash, more⟩ := Option.bind_eq_some_iff.mp stepped
      obtain ⟨⟨lo, hi⟩, cut_dash, made⟩ := Option.bind_eq_some_iff.mp more
      obtain rfl := Option.some.inj made
      obtain rfl := cutAt_some cut_dash
      rw [cutAt_some cut_slash]
      simp only [List.mem_append, List.mem_cons] at h ⊢
      obtain own | rfl | own := h
      · have := mem_of_calendarRange own
        tauto
      · exact .inr (.inr (.inl rfl))
      · tauto
    next range _ plain =>
      obtain ⟨⟨lo, hi⟩, cut_dash, made⟩ := Option.bind_eq_some_iff.mp plain
      obtain rfl := Option.some.inj made
      rw [cutAt_some cut_dash]
      simp only [List.mem_append, List.mem_cons]
      have := mem_of_calendarRange h
      tauto
    next =>
      split at h
      next =>
        obtain rfl | ⟨p, hp, own⟩ := mem_join h
        · exact .inr (.inr (.inl rfl))
        · obtain ⟨piece, hpiece, rfl⟩ := List.mem_map.mp hp
          obtain own | own := mem_trimmed_token own
          · exact .inl (Text.mem_of_mem_splitChars hpiece own)
          · exact .inr (.inl own)
      next =>
        have := mem_of_singleToken h
        tauto

theorem not_mem_conversion (f : CronField kind) (other : c = ' ' ∨ c = ':') :
    c ∉ cronFieldToCalendar kind f.text := by
  intro mem
  obtain own | alnum | mark | rfl := conversion_chars mem
  · have chars := List.all_eq_true.mp f.cronChars.2 c own
    obtain rfl | rfl := other <;> cases chars
  · obtain rfl | rfl := other <;> cases alnum
  · obtain rfl | rfl := other <;> cases mark
  · obtain same | same := other <;> cases same

end

def fieldsDate (dom : CronField .dom) (month : CronField .month) : List Char :=
  "*-".toList ++ cronFieldToCalendar .month month.text ++ '-' :: cronFieldToCalendar .dom dom.text

def fieldsTime (minute : CronField .minute) (hour : CronField .hour) : List Char :=
  cronFieldToCalendar .hour hour.text ++ ':' :: cronFieldToCalendar .minute minute.text ++ ":00".toList

theorem readDate_fields (dom : CronField .dom) (month : CronField .month) :
    readDate (fieldsDate dom month) =
      (readField .month (cronFieldToCalendar .month month.text)).bind fun m =>
        (readField .dom (cronFieldToCalendar .dom dom.text)).map fun d => ⟨.any, m, d⟩ := by
  have pieces : Text.splitChars (· == '-') (fieldsDate dom month) = ['*'] ::
      (Text.splitChars (· == '-') (cronFieldToCalendar .month month.text) ++
        Text.splitChars (· == '-') (cronFieldToCalendar .dom dom.text)) := by
    have whole : fieldsDate dom month = ['*'] ++ '-' :: (cronFieldToCalendar .month month.text ++
        '-' :: cronFieldToCalendar .dom dom.text) := by
      simp [fieldsDate]
    rw [whole, Text.splitChars_append_cut rfl, Text.splitChars_append_cut rfl]
    rfl
  have dashed : ∀ {kind : CronKind} {t : List Char}, '-' ∈ t → readField kind t = none := by
    intro kind t mem
    refine readField_mark kind (.inr rfl) mem ?_
    rintro rfl
    cases List.mem_singleton.mp mem
  have several : ∀ {t : List Char}, '-' ∈ t → 2 ≤ (Text.splitChars (· == '-') t).length := by
    intro t mem
    obtain ⟨before, after, rfl⟩ := List.append_of_mem mem
    rw [Text.splitChars_append_cut rfl, List.length_append]
    have left := List.length_pos_iff.mpr (splitChars_ne_nil (· == '-') before)
    have right := List.length_pos_iff.mpr (splitChars_ne_nil (· == '-') after)
    omega
  have too_many : ∀ {pieces : List (List Char)}, 4 ≤ pieces.length →
      Text.splitChars (· == '-') (fieldsDate dom month) = pieces → readDate (fieldsDate dom month) = none := by
    intro pieces long split
    rw [readDate, split]
    match pieces, long with
    | _ :: _ :: _ :: _ :: _, _ => rfl
  generalize cronFieldToCalendar .month month.text = m at *
  generalize cronFieldToCalendar .dom dom.text = d at *
  have one := fun t => List.length_pos_iff.mpr (splitChars_ne_nil (· == '-') t)
  by_cases month_dash : '-' ∈ m
  · rw [dashed month_dash, too_many _ pieces]
    · rfl
    · have := several month_dash
      have := one d
      simp
      omega
  · by_cases day_dash : '-' ∈ d
    · rw [dashed day_dash, too_many _ pieces]
      · cases readField .month m <;> rfl
      · have := several day_dash
        have := one m
        simp
        omega
    · rw [readDate, pieces, splitChars_plain month_dash, splitChars_plain day_dash]
      change (do return (⟨← readComponent ['*'], ← readField .month m, ← readField .dom d⟩ : CalendarDate)) = _
      cases readField .month m <;> cases readField .dom d <;> rfl

theorem readTime_fields (minute : CronField .minute) (hour : CronField .hour) :
    readTime (fieldsTime minute hour) =
      (readField .hour (cronFieldToCalendar .hour hour.text)).bind fun h =>
        (readField .minute (cronFieldToCalendar .minute minute.text)).map fun m =>
          ⟨h, m, .listed [⟨0, none, none⟩]⟩ := by
  have pieces : Text.splitChars (· == ':') (fieldsTime minute hour) =
      [cronFieldToCalendar .hour hour.text, cronFieldToCalendar .minute minute.text, ['0', '0']] := by
    have whole : fieldsTime minute hour = cronFieldToCalendar .hour hour.text ++
        ':' :: (cronFieldToCalendar .minute minute.text ++ ':' :: ['0', '0']) := by
      simp [fieldsTime]
    rw [whole, Text.splitChars_append_cut rfl, Text.splitChars_append_cut rfl,
      splitChars_plain (not_mem_conversion hour (.inr rfl)),
      splitChars_plain (not_mem_conversion minute (.inr rfl))]
    rfl
  have second : readComponent ['0', '0'] = some (.listed [⟨0, none, none⟩]) := by decide
  rw [readTime, pieces]
  generalize cronFieldToCalendar .hour hour.text = h
  generalize cronFieldToCalendar .minute minute.text = m
  change (do return (⟨← readField .hour h, ← readField .minute m, ← readComponent ['0', '0']⟩ : CalendarTime)) = _
  rw [second]
  cases readField .hour h <;> cases readField .minute m <;> rfl

/-- A star for the weekdays is left out of the expression. -/
def CalendarComponent.weekdays : CalendarComponent → Option (List CalendarItem)
  | any => none
  | listed items => some items

section

variable (minute : CronField .minute) (hour : CronField .hour) (dom : CronField .dom)
  (month : CronField .month) (dow : CronField .dow)

def fieldsSpec : CalendarSpec where
  weekdays := (dow.shape.component .dow).weekdays
  date := ⟨.any, month.shape.component .month, dom.shape.component .dom⟩
  time := ⟨hour.shape.component .hour, minute.shape.component .minute, .listed [⟨0, none, none⟩]⟩

structure FieldsReadable : Prop where
  minute : minute.shape.Readable .minute
  hour : hour.shape.Readable .hour
  dom : dom.shape.Readable .dom
  month : month.shape.Readable .month
  dow : dow.shape.Readable .dow

instance : Decidable (FieldsReadable minute hour dom month dow) :=
  decidable_of_iff (minute.shape.Readable .minute ∧ hour.shape.Readable .hour ∧
      dom.shape.Readable .dom ∧ month.shape.Readable .month ∧ dow.shape.Readable .dow)
    ⟨fun ⟨a, b, c, d, e⟩ => ⟨a, b, c, d, e⟩, fun ⟨a, b, c, d, e⟩ => ⟨a, b, c, d, e⟩⟩

theorem readDate_if : readDate (fieldsDate dom month) =
    if month.shape.Readable .month ∧ dom.shape.Readable .dom then
      some ⟨.any, month.shape.component .month, dom.shape.component .dom⟩ else none := by
  rw [readDate_fields, readField_eq, readField_eq]
  by_cases first : month.shape.Readable .month <;> by_cases second : dom.shape.Readable .dom <;>
    simp [first, second]

theorem readTime_if : readTime (fieldsTime minute hour) =
    if hour.shape.Readable .hour ∧ minute.shape.Readable .minute then
      some ⟨hour.shape.component .hour, minute.shape.component .minute, .listed [⟨0, none, none⟩]⟩
    else none := by
  rw [readTime_fields, readField_eq, readField_eq]
  by_cases first : hour.shape.Readable .hour <;> by_cases second : minute.shape.Readable .minute <;>
    simp [first, second]

theorem readOnCalendar_fields :
    readOnCalendar (fieldsToCalendar minute.text hour.text dom.text month.text dow.text) =
      if FieldsReadable minute hour dom month dow then some (fieldsSpec minute hour dom month dow)
      else none := by
  have date_plain : ' ' ∉ fieldsDate dom month := by
    simp only [fieldsDate, List.mem_append, List.mem_cons, not_or]
    exact ⟨⟨by decide, not_mem_conversion month (.inl rfl)⟩, by decide,
      not_mem_conversion dom (.inl rfl)⟩
  have time_plain : ' ' ∉ fieldsTime minute hour := by
    simp only [fieldsTime, List.mem_append, List.mem_cons, not_or]
    exact ⟨⟨not_mem_conversion hour (.inl rfl), by decide, not_mem_conversion minute (.inl rfl)⟩,
      by decide⟩
  have date_time : Text.splitChars (· == ' ') (fieldsDate dom month ++ ' ' :: fieldsTime minute hour) =
      [fieldsDate dom month, fieldsTime minute hour] := by
    rw [Text.splitChars_append_cut rfl, splitChars_plain date_plain, splitChars_plain time_plain]
    rfl
  have read := readField_eq dow
  have made : fieldsToCalendar minute.text hour.text dom.text month.text dow.text =
      if cronFieldToCalendar .dow dow.text ≠ ['*'] then
        cronFieldToCalendar .dow dow.text ++ ' ' :: (fieldsDate dom month ++ ' ' :: fieldsTime minute hour)
      else fieldsDate dom month ++ ' ' :: fieldsTime minute hour := by
    simp [fieldsToCalendar, fieldsDate, fieldsTime]
  rw [made]
  have together : FieldsReadable minute hour dom month dow ↔ dow.shape.Readable .dow ∧
      (month.shape.Readable .month ∧ dom.shape.Readable .dom) ∧
      (hour.shape.Readable .hour ∧ minute.shape.Readable .minute) :=
    ⟨fun r => ⟨r.dow, ⟨r.month, r.dom⟩, r.hour, r.minute⟩,
      fun ⟨w, d, t⟩ => ⟨t.2, t.1, d.2, d.1, w⟩⟩
  by_cases starred : cronFieldToCalendar .dow dow.text = ['*']
  · rw [starred, readField, if_pos rfl] at read
    have readable : dow.shape.Readable .dow := by
      by_contra none
      rw [if_neg none] at read
      cases read
    rw [if_pos readable] at read
    rw [if_neg (not_not.mpr starred), readOnCalendar, date_time]
    change (do
      return (⟨none, ← readDate (fieldsDate dom month), ← readTime (fieldsTime minute hour)⟩ :
        CalendarSpec)) = _
    rw [readDate_if, readTime_if]
    simp only [together, readable, true_and, fieldsSpec, ← Option.some.inj read,
      CalendarComponent.weekdays]
    by_cases date : month.shape.Readable .month ∧ dom.shape.Readable .dom
    · by_cases time : hour.shape.Readable .hour ∧ minute.shape.Readable .minute
      · rw [if_pos date, if_pos time, if_pos ⟨date, time⟩]
        rfl
      · rw [if_pos date, if_neg time, if_neg fun both => time both.2]
        rfl
    · rw [if_neg date, if_neg (not_and_of_not_left _ date)]
      rfl
  · rw [readField, if_neg starred] at read
    have pieces : Text.splitChars (· == ' ') (cronFieldToCalendar .dow dow.text ++
        ' ' :: (fieldsDate dom month ++ ' ' :: fieldsTime minute hour)) =
        [cronFieldToCalendar .dow dow.text, fieldsDate dom month, fieldsTime minute hour] := by
      rw [Text.splitChars_append_cut rfl, splitChars_plain (not_mem_conversion dow (.inl rfl)), date_time]
      rfl
    rw [if_pos starred, readOnCalendar, pieces]
    change (do
      return (⟨some (← readList (readPiece .dow) (cronFieldToCalendar .dow dow.text)),
        ← readDate (fieldsDate dom month), ← readTime (fieldsTime minute hour)⟩ : CalendarSpec)) = _
    rw [readDate_if, readTime_if]
    simp only [together, fieldsSpec]
    generalize dow.shape.component .dow = days at *
    generalize month.shape.component .month = months at *
    cases listed : readList (readPiece .dow) (cronFieldToCalendar .dow dow.text) with
    | none =>
      have unreadable : ¬ dow.shape.Readable .dow := by
        intro readable
        rw [listed, if_pos readable] at read
        cases read
      rw [if_neg (not_and_of_not_left _ unreadable)]
      rfl
    | some items =>
      have readable : dow.shape.Readable .dow := by
        by_contra none
        rw [listed, if_neg none] at read
        cases read
      rw [listed, if_pos readable] at read
      rw [← Option.some.inj read]
      by_cases date : month.shape.Readable .month ∧ dom.shape.Readable .dom
      · by_cases time : hour.shape.Readable .hour ∧ minute.shape.Readable .minute
        · rw [if_pos date, if_pos time, if_pos ⟨readable, date, time⟩]
          rfl
        · rw [if_pos date, if_neg time, if_neg fun all => time all.2.2]
          rfl
      · rw [if_neg date, if_neg (not_and_of_not_right _ (not_and_of_not_left _ date))]
        rfl

variable {minute hour dom month dow} (readable : FieldsReadable minute hour dom month dow)
include readable

theorem fieldsSpec_elapses (t : Minute) :
    (fieldsSpec minute hour dom month dow).elapses t =
      ((dow.shape.component .dow).holds (fromMonday t.weekday) && month.holds t.month &&
        dom.holds t.day && hour.holds t.hour && minute.holds t.minute) := by
  obtain ⟨-, first_month, last_month, first_day, last_day, last_hour, last_minute⟩ := t.real
  have longest : ∀ year m, monthLength year m ≤ 31 := by
    intro year m
    unfold monthLength
    split <;> (try split) <;> omega
  have days := component_holds dom (by decide) readable.dom first_day (last_day.trans (longest _ _))
  have months := component_holds month (by decide) readable.month first_month last_month
  have hours := component_holds hour (by decide) readable.hour (Nat.zero_le t.hour) last_hour
  have minutes := component_holds minute (by decide) readable.minute (Nat.zero_le t.minute) last_minute
  have seconds : ((List.range 60).any fun second =>
      (CalendarComponent.listed [⟨0, none, none⟩]).holds second) = true := by decide
  have weekdays : (fieldsSpec minute hour dom month dow).holdsWeekday t.weekday =
      (dow.shape.component .dow).holds (fromMonday t.weekday) := by
    unfold CalendarSpec.holdsWeekday fieldsSpec
    cases dow.shape.component .dow <;> rfl
  have years : CalendarComponent.any.holds t.year = true := rfl
  rw [CalendarSpec.elapses, weekdays]
  simp only [fieldsSpec, days, months, hours, minutes, seconds, years, Bool.and_true]

end

theorem isWhitespace_toLowercase {c : Char} (h : Text.isWhitespace c = true) : lowerChar c = [c] := by
  have range : ¬ (65 ≤ c.toNat ∧ c.toNat ≤ 90) ∧ c.toNat ≠ 0x212A ∧ c.toNat ≠ 0x130 := by
    simp only [Text.isWhitespace, Bool.or_eq_true, Bool.and_eq_true, decide_eq_true_eq,
      beq_iff_eq] at h
    omega
  have upper : ¬ (c.val ≥ 'A'.val ∧ c.val ≤ 'Z'.val) := by
    simp only [UInt32.le_iff_toNat_le, ge_iff_le]
    exact range.1
  rw [lowerChar, if_neg range.2.1, if_neg range.2.2]
  unfold Char.toLower
  rw [dif_neg upper]

theorem cronToOnCalendar_fields {cronExpr : String} (minute : CronField .minute)
    (hour : CronField .hour) (dom : CronField .dom) (month : CronField .month) (dow : CronField .dow)
    (spelled : wordsOf cronExpr.toList = (CronExpr.fields minute hour dom month dow).words) :
    cronToOnCalendar cronExpr = (String.ofList
      (fieldsToCalendar minute.text hour.text dom.text month.text dow.text), true) := by
  have trimmed := (wordsOf_trim cronExpr).trans spelled
  have blank : ∃ c ∈ (Text.trim cronExpr).toList, Text.isWhitespace c = true := by
    by_contra none
    simp only [not_exists, not_and, Bool.not_eq_true] at none
    by_cases empty : (Text.trim cronExpr).toList = []
    · rw [empty] at trimmed
      simp [wordsOf, CronExpr.words] at trimmed
    · rw [wordsOf, Words.words_plain none empty] at trimmed
      simp [CronExpr.words] at trimmed
  obtain ⟨c, mem, cut⟩ := blank
  have lower : c ∈ toLowercase (Text.trim cronExpr).toList :=
    List.mem_flatMap.mpr ⟨c, mem, by rw [isWhitespace_toLowercase cut]; exact List.mem_singleton_self c⟩
  have no_shortcut := @lookup_none SHORTCUTS _ c Text.isWhitespace (by decide) cut lower
  have no_reboot : toLowercase (Text.trim cronExpr).toList ≠ "@reboot".toList := by
    intro same
    rw [same] at lower
    have plain : ∀ x ∈ "@reboot".toList, Text.isWhitespace x = false :=
      Text.forall_of_all (by decide)
    simp [plain c lower] at cut
  have split : splitWhitespace (Text.trim cronExpr) = [String.ofList minute.text,
      String.ofList hour.text, String.ofList dom.text, String.ofList month.text,
      String.ofList dow.text] := by
    refine List.map_injective_iff.mpr (fun _ _ => String.toList_inj.mp) ?_
    rw [splitWhitespace_toList, trimmed]
    simp [CronExpr.words]
  unfold cronToOnCalendar
  simp only [no_shortcut, if_neg no_reboot, split, String.toList_ofList]

theorem cronToOnCalendar_shortcut {cronExpr : String} {name : CronShortcut}
    (spelled : wordsOf cronExpr.toList = (CronExpr.shortcut name).words) :
    cronToOnCalendar cronExpr = cronToOnCalendar (String.ofList name.text) := by
  have own : ∀ name : CronShortcut, Text.trim (String.ofList name.text) = String.ofList name.text := by
    intro name
    cases name <;> decide
  obtain ⟨lead, tail, before, after, whole⟩ := around_of_wordsOf_one spelled
  have word := @Words.plain_of_mem_words _ Text.isWhitespace cronExpr.toList name.text
    (by rw [← wordsOf, spelled]; exact List.mem_singleton_self _)
  have trimmed : Text.trim cronExpr = String.ofList name.text := by
    rw [Text.trim, whole, trimChars_between before after fun c ends => word.1 c
      (ends.elim List.mem_of_head? List.mem_of_getLast?)]
  unfold cronToOnCalendar
  rw [trimmed, own]

/-- A converted expression elapses in the minutes cron fires, and the timer of any other says so. -/
structure SchedulePreserved (cronExpr : String) (e : CronExpr) : Prop where
  converted : ∀ spec, cronToOnCalendar cronExpr = (spec, true) →
    ∃ calendar, readOnCalendar spec.toList = some calendar ∧ ∀ t, e.fires t = calendar.elapses t
  marked : ∀ spec, cronToOnCalendar cronExpr = (spec, false) → ∀ path command,
    "# FIXME".toList <:+: (makeTimerService cronExpr path command).timer.toList

def DaysAgree (dom : CronField .dom) (month : CronField .month) (dow : CronField .dow) : Prop :=
  dom.isStar = true ∨ dow.isStar = true ∨
    (∀ day < 7, dow.holdsDay day = true) ∧
    ∀ m, 1 ≤ m → m ≤ 12 → month.holds m = true →
      ∀ d, 1 ≤ d → d ≤ monthLength 2000 m → dom.holds d = true

structure FieldsTranslatable (minute : CronField .minute) (hour : CronField .hour)
    (dom : CronField .dom) (month : CronField .month) (dow : CronField .dow) : Prop where
  readable : FieldsReadable minute hour dom month dow
  week : dow.shape.KeepsWeek
  days : DaysAgree dom month dow

/-- Cron's week begins on Sunday, and the calendar's weekly on Monday. -/
def CronExpr.Translatable : CronExpr → Prop
  | fields minute hour dom month dow => FieldsTranslatable minute hour dom month dow
  | shortcut name => name ≠ .weekly

theorem CronField.holds_some {kind : CronKind} (f : CronField kind) :
    ∃ n, kind.first ≤ n ∧ n ≤ kind.last ∧ f.holds n = true := by
  obtain ⟨item, rest, items⟩ := List.exists_cons_of_ne_nil f.some_item
  have valid := f.valid item (by rw [items]; exact List.mem_cons_self ..)
  have through : ∀ {n}, item.holds kind n = true → f.holds n = true := by
    intro n holds
    simp [CronField.holds, items, holds]
  cases item with
  | star step =>
    have ends : kind.first ≤ kind.last := by cases kind <;> decide
    exact ⟨kind.first, le_rfl, ends, through (by simp [CronItem.holds, inSteps, ends])⟩
  | single v =>
    have bounds := CronValue.value_bounds valid
    exact ⟨v.value kind, bounds.1, bounds.2, through (by simp [CronItem.holds])⟩
  | range lo hi step =>
    obtain ⟨valid_lo, valid_hi, forward, -⟩ := valid
    exact ⟨lo.value kind, (CronValue.value_bounds valid_lo).1, (CronValue.value_bounds valid_lo).2,
      through (by simp [CronItem.holds, inSteps, forward])⟩

theorem first_of_star {kind : CronKind} {item : CronItem} {rest : List CronItem}
    (valid : item.IsValid kind)
    (begins : ([','].intercalate ((item :: rest).map (·.text))).head? = some '*') :
    ∃ step, item = .star step := by
  have value_first : ∀ {v : CronValue} {tail : List Char}, v.IsValid kind →
      (v.text ++ tail).head? ≠ some '*' := by
    intro v tail valid head
    obtain ⟨ne, alnum⟩ := CronValue.alphanum valid
    rw [List.head?_append_of_ne_nil _ ne] at head
    cases alnum '*' (List.mem_of_mem_head? head)
  have whole := @join_around ',' [] item.text (rest.map (·.text))
  simp only [List.nil_append, List.flatMap_nil] at whole
  rw [List.map_cons, whole] at begins
  cases item with
  | star step => exact ⟨step, rfl⟩
  | single v => exact absurd begins (value_first valid)
  | range lo hi step =>
    rw [CronItem.text, List.append_assoc, List.append_assoc] at begins
    exact absurd begins (value_first valid.1)

theorem shape_of_isStar {kind : CronKind} (f : CronField kind) (other : kind ≠ .hour)
    (readable : f.shape.Readable kind) (star : f.isStar = true) : f.items = [.star none] := by
  have items : f.shape.OfItems f.items := fieldShape_items f.items
  obtain ⟨item, rest, whole⟩ := List.exists_cons_of_ne_nil f.some_item
  have valid := f.valid item (by rw [whole]; exact List.mem_cons_self ..)
  have begins : ([','].intercalate ((item :: rest).map (·.text))).head? = some '*' := by
    rw [← whole]
    exact beq_iff_eq.mp star
  obtain ⟨step, rfl⟩ := first_of_star valid begins
  generalize f.shape = shape at *
  cases shape with
  | values vs =>
    rw [show f.items = vs.map .single from items] at whole
    cases vs <;> simp at whole
  | star step' =>
    cases step' with
    | none => exact items
    | some digits => exact absurd (readable rfl) other
  | ranged before lo hi step' after =>
    rw [show f.items = before.map .single ++ .range lo hi step' :: after.map .single from items]
      at whole
    cases before <;> simp at whole
  | mixed => cases readable

theorem star_holds {kind : CronKind} (f : CronField kind) (star : f.items = [.star none]) {n : Nat}
    (low : kind.first ≤ n) (high : n ≤ kind.last) : f.holds n = true := by
  simp [CronField.holds, star, CronItem.holds, inSteps, stepValue, low, high, Nat.mod_one]

theorem date_on_weekday {month day weekday : Nat} (first : 1 ≤ month) (last : month ≤ 12)
    (low : weekday < 7) : ∃ year, 1 ≤ year ∧ monthLength year month = monthLength 2000 month ∧
      dayNumber year month day % 7 = weekday := by
  have each : ∀ month < 13, ∀ weekday < 7, ∃ k < 7,
      monthLength (2000 + 4 * k) month = monthLength 2000 month ∧
        dayNumber (2000 + 4 * k) month 0 % 7 = weekday := by decide
  obtain ⟨k, -, length, start⟩ := each month (by omega) ((weekday + 6 * day) % 7)
    (Nat.mod_lt _ (by decide))
  refine ⟨2000 + 4 * k, by omega, length, ?_⟩
  have shift : dayNumber (2000 + 4 * k) month day = dayNumber (2000 + 4 * k) month 0 + day := rfl
  rw [shift]
  omega

section

variable {minute : CronField .minute} {hour : CronField .hour} {dom : CronField .dom}
  {month : CronField .month} {dow : CronField .dow}

theorem Minute.weekday_lt (t : Minute) : t.weekday < 7 := Nat.mod_lt _ (by decide)

theorem elapses_of_translatable (h : FieldsTranslatable minute hour dom month dow) (t : Minute) :
    (CronExpr.fields minute hour dom month dow).fires t =
      (fieldsSpec minute hour dom month dow).elapses t := by
  have day := component_day dow h.readable.dow t.weekday_lt
  have days : (dow.shape.component .dow).holds (fromMonday t.weekday) = dow.holdsDay t.weekday := by
    rw [Bool.eq_iff_iff]
    exact ⟨day.1, day.2 h.week⟩
  rw [fieldsSpec_elapses h.readable, days]
  obtain ⟨-, first_month, last_month, first_day, last_day, -⟩ := t.real
  have agree : month.holds t.month = true →
      dayFires dom dow t = (dom.holds t.day && dow.holdsDay t.weekday) := by
    intro held
    unfold dayFires
    obtain star | star | ⟨week, dates⟩ := h.days
    · simp [star]
    · simp [star]
    · have longest : monthLength t.year t.month ≤ monthLength 2000 t.month := by
        unfold monthLength
        split <;> (try split) <;> simp [isLeap]
      have date := dates t.month first_month last_month held t.day first_day
        (last_day.trans longest)
      simp [date, week t.weekday t.weekday_lt]
  rw [CronExpr.fires]
  cases held : month.holds t.month with
  | false => simp
  | true =>
    rw [agree held]
    cases dom.holds t.day <;> cases dow.holdsDay t.weekday <;> cases hour.holds t.hour <;>
      cases minute.holds t.minute <;> rfl

theorem exists_minute (minute : CronField .minute) (hour : CronField .hour) {m day weekday : Nat}
    (first : 1 ≤ m) (last : m ≤ 12) (first_day : 1 ≤ day) (last_day : day ≤ monthLength 2000 m)
    (low : weekday < 7) : ∃ t : Minute, t.month = m ∧ t.day = day ∧ t.weekday = weekday ∧
      hour.holds t.hour = true ∧ minute.holds t.minute = true := by
  obtain ⟨year, some_year, length, same⟩ := @date_on_weekday m day weekday first last low
  obtain ⟨h, -, last_hour, hour_holds⟩ := hour.holds_some
  obtain ⟨k, -, last_minute, minute_holds⟩ := minute.holds_some
  exact ⟨⟨year, m, day, h, k, some_year, first, last, first_day, length ▸ last_day, last_hour,
    last_minute⟩, rfl, rfl, same, hour_holds, minute_holds⟩

theorem translatable_of_elapses (readable : FieldsReadable minute hour dom month dow)
    (same : ∀ t, (CronExpr.fields minute hour dom month dow).fires t =
      (fieldsSpec minute hour dom month dow).elapses t) :
    FieldsTranslatable minute hour dom month dow := by
  -- At a minute of choice both sides depend on the days alone.
  have days : ∀ {m day weekday}, 1 ≤ m → m ≤ 12 → month.holds m = true → 1 ≤ day →
      day ≤ monthLength 2000 m → weekday < 7 →
      (if dom.isStar || dow.isStar then dom.holds day && dow.holdsDay weekday
        else dom.holds day || dow.holdsDay weekday) =
      ((dow.shape.component .dow).holds (fromMonday weekday) && dom.holds day) := by
    intro m day weekday first last held first_day last_day low
    obtain ⟨t, rfl, rfl, rfl, hour_holds, minute_holds⟩ :=
      exists_minute minute hour first last first_day last_day low
    have here := same t
    rw [fieldsSpec_elapses readable] at here
    simpa [CronExpr.fires, dayFires, hour_holds, minute_holds, held] using here
  obtain ⟨m, first, last, held⟩ := month.holds_some
  have some_day : 1 ≤ monthLength 2000 m := by
    unfold monthLength
    split <;> (try split) <;> simp
  have week : dow.shape.KeepsWeek := by
    by_contra loses
    obtain ⟨weekday, low, cron_holds, calendar_fails⟩ := lost_day dow readable.dow loses
    have here := days first last held le_rfl some_day low
    rw [calendar_fails, cron_holds, Bool.false_and] at here
    by_cases star : dom.isStar = true
    · have holds := star_holds dom (shape_of_isStar dom (by decide) readable.dom star)
        (n := 1) (by decide) (by decide)
      simp [holds] at here
    · by_cases star' : dow.isStar = true
      · have shape : dow.shape = .star none := by
          rw [CronField.shape, shape_of_isStar dow (by decide) readable.dow star']
          rfl
        rw [shape] at loses
        exact loses trivial
      · simp [star, star'] at here
  refine ⟨readable, week, ?_⟩
  by_cases star : dom.isStar = true
  · exact .inl star
  by_cases star' : dow.isStar = true
  · exact .inr (.inl star')
  -- Cron takes one of the days, the calendar both: each holds wherever the other does.
  have both : ∀ {m day weekday}, 1 ≤ m → m ≤ 12 → month.holds m = true → 1 ≤ day →
      day ≤ monthLength 2000 m → weekday < 7 → dom.holds day = dow.holdsDay weekday := by
    intro m day weekday first last held first_day last_day low
    have here := days first last held first_day last_day low
    have own := component_day dow readable.dow low
    have calendar : (dow.shape.component .dow).holds (fromMonday weekday) = dow.holdsDay weekday := by
      rw [Bool.eq_iff_iff]
      exact ⟨own.1, own.2 week⟩
    rw [calendar] at here
    simp only [star, star', Bool.or_self, Bool.false_eq_true, if_false] at here
    cases hday : dom.holds day <;> cases hweek : dow.holdsDay weekday <;> simp [hday, hweek] at here ⊢
  obtain ⟨weekday, low, cron_holds⟩ : ∃ weekday < 7, dow.holdsDay weekday = true := by
    obtain ⟨n, -, top, holds⟩ := dow.holds_some
    by_cases seven : n = 7
    · exact ⟨0, by decide, by simp [CronField.holdsDay, ← seven, holds]⟩
    · have below : n ≤ 7 := top
      exact ⟨n, by omega, by simp [CronField.holdsDay, holds]⟩
  refine .inr (.inr ⟨fun day low' => ?_, fun m first last held d first_day last_day => ?_⟩)
  · rw [← both first last held le_rfl some_day low', both first last held le_rfl some_day low,
      cron_holds]
  · rw [both first last held first_day last_day low, cron_holds]

end

def CronShortcut.calendar : CronShortcut → String
  | reboot => "@reboot"
  | yearly => "*-01-01 00:00:00"
  | annually => "*-01-01 00:00:00"
  | monthly => "*-*-01 00:00:00"
  | weekly => "Mon *-*-* 00:00:00"
  | daily => "*-*-* 00:00:00"
  | midnight => "*-*-* 00:00:00"
  | hourly => "*-*-* *:00:00"

theorem cronToOnCalendar_named (name : CronShortcut) :
    cronToOnCalendar (String.ofList name.text) = (name.calendar, name != .reboot) := by
  cases name <;> decide

def onlyAt (n : Nat) : CalendarComponent := .listed [⟨n, none, none⟩]

def CronShortcut.spec (weekdays : Option (List CalendarItem)) : CronShortcut → CalendarSpec
  | yearly => ⟨weekdays, ⟨.any, onlyAt 1, onlyAt 1⟩, ⟨onlyAt 0, onlyAt 0, onlyAt 0⟩⟩
  | annually => ⟨weekdays, ⟨.any, onlyAt 1, onlyAt 1⟩, ⟨onlyAt 0, onlyAt 0, onlyAt 0⟩⟩
  | monthly => ⟨weekdays, ⟨.any, .any, onlyAt 1⟩, ⟨onlyAt 0, onlyAt 0, onlyAt 0⟩⟩
  | hourly => ⟨weekdays, ⟨.any, .any, .any⟩, ⟨.any, onlyAt 0, onlyAt 0⟩⟩
  | _ => ⟨weekdays, ⟨.any, .any, .any⟩, ⟨onlyAt 0, onlyAt 0, onlyAt 0⟩⟩

theorem readOnCalendar_named (name : CronShortcut) (timed : name ≠ .reboot) :
    readOnCalendar name.calendar.toList =
      some (name.spec (if name = .weekly then some [⟨0, none, none⟩] else none)) := by
  cases name <;> first | exact absurd rfl timed | decide

theorem named_elapses (name : CronShortcut) (timed : name ≠ .reboot) (other : name ≠ .weekly)
    (t : Minute) : name.fires t = (name.spec none).elapses t := by
  have seconds : ((List.range 60).any fun second => 0 == second) = true := by decide
  have value : ∀ n k, (onlyAt n).holds k = (n == k) := fun n k => by
    simp [onlyAt, CalendarComponent.holds, CalendarItem.holds]
  have any : ∀ k, CalendarComponent.any.holds k = true := fun _ => rfl
  have weekdays : ∀ spec : CalendarSpec, spec.weekdays = none →
      spec.holdsWeekday t.weekday = true := fun spec h => by
    simp [CalendarSpec.holdsWeekday, h]
  rw [CalendarSpec.elapses, weekdays _ (by cases name <;> rfl)]
  cases name <;> first
    | exact absurd rfl timed
    | exact absurd rfl other
    | (simp only [CronShortcut.spec, CronShortcut.fires, value, any, seconds, Bool.true_and,
        Bool.and_true]
       rw [Bool.eq_iff_iff]
       simp only [Bool.and_eq_true, beq_iff_eq]
       omega)

theorem weekly_moved : ∃ t : Minute, CronShortcut.weekly.fires t = true ∧
    (CronShortcut.weekly.spec (some [⟨0, none, none⟩])).elapses t = false :=
  ⟨⟨2000, 1, 2, 0, 0, by decide⟩, by decide, by decide⟩

theorem reboot_marked (cronExpr path command : String)
    (named : cronToOnCalendar cronExpr = ("@reboot", false)) :
    "# FIXME".toList <:+: (makeTimerService cronExpr path command).timer.toList := by
  have text : conversionFixme cronExpr "@reboot" false =
      "# FIXME: @reboot has no OnCalendar equivalent.\n" ++
      "# Use a oneshot service with WantedBy=multi-user.target instead.\n" := by
    simp [conversionFixme]
  have lead : "# FIXME: @reboot has no OnCalendar equivalent.\n".toList =
      "# FIXME".toList ++ ": @reboot has no OnCalendar equivalent.\n".toList := by decide
  unfold makeTimerService
  rw [named]
  simp only [text, String.toList_append, lead]
  generalize "# FIXME".toList = fixme
  have before : ∀ {x : List Char} (y : List Char), fixme <:+: x → fixme <:+: x ++ y := fun y h =>
    h.trans (List.prefix_append _ y).isInfix
  have after : ∀ (x : List Char) {y : List Char}, fixme <:+: y → fixme <:+: x ++ y := fun x _ h =>
    h.trans (List.suffix_append x _).isInfix
  exact before _ (before _ (before _ (after _ (before _ (before _ List.infix_rfl)))))

/-- The schedule of a cron expression is kept if and only if it is translatable. -/
theorem schedule_preserved_iff {cronExpr : String} {e : CronExpr}
    (spelled : wordsOf cronExpr.toList = e.words) :
    SchedulePreserved cronExpr e ↔ e.Translatable := by
  cases e with
  | fields minute hour dom month dow =>
    have made := cronToOnCalendar_fields minute hour dom month dow spelled
    have read := readOnCalendar_fields minute hour dom month dow
    constructor
    · intro kept
      obtain ⟨calendar, found, same⟩ := kept.converted _ made
      rw [String.toList_ofList, read] at found
      split at found
      next readable =>
        obtain rfl := Option.some.inj found
        exact translatable_of_elapses readable same
      next => cases found
    · intro translatable
      have fields : FieldsTranslatable minute hour dom month dow := translatable
      refine ⟨fun spec converted => ?_, fun spec failed => ?_⟩
      · rw [made] at converted
        obtain ⟨rfl, -⟩ := Prod.mk.inj converted
        refine ⟨_, ?_, elapses_of_translatable fields⟩
        rw [String.toList_ofList, read, if_pos fields.readable]
      · rw [made] at failed
        cases (Prod.mk.inj failed).2
  | shortcut name =>
    have made := (cronToOnCalendar_shortcut spelled).trans (cronToOnCalendar_named name)
    constructor
    · rintro kept rfl
      obtain ⟨calendar, found, same⟩ := kept.converted _ made
      rw [readOnCalendar_named .weekly (by decide)] at found
      obtain rfl := Option.some.inj found
      obtain ⟨t, fires, fails⟩ := weekly_moved
      have here := same t
      rw [show (CronExpr.shortcut .weekly).fires t = true from fires] at here
      exact absurd (here.trans fails) (by decide)
    · intro other
      refine ⟨fun spec converted => ?_, fun spec failed => ?_⟩
      · rw [made] at converted
        obtain ⟨rfl, timed⟩ := Prod.mk.inj converted
        have timed : name ≠ .reboot := by simpa using timed
        refine ⟨_, ?_, named_elapses name timed other⟩
        rw [readOnCalendar_named name timed, if_neg other]
      · rw [made] at failed
        obtain ⟨rfl, timed⟩ := Prod.mk.inj failed
        obtain rfl : name = .reboot := by simpa using timed
        exact fun path command => reboot_marked cronExpr path command made

section

def fieldOf (kind : CronKind) (item : CronItem) (valid : item.IsValid kind) : CronField kind :=
  ⟨[item], List.cons_ne_nil _ _, List.forall_mem_singleton.mpr valid⟩

def numberField (kind : CronKind) (digits : List Char)
    (valid : (CronValue.number digits).IsValid kind) : CronField kind :=
  fieldOf kind (.single (.number digits)) valid

def starField (kind : CronKind) : CronField kind :=
  fieldOf kind (.star none) fun _ mem => absurd mem (Option.not_mem_none _)

def halfPastTwo : CronExpr := .fields (numberField .minute ['3', '0'] (by decide))
  (numberField .hour ['2'] (by decide)) (starField .dom) (starField .month) (starField .dow)

theorem nightly_kept : SchedulePreserved "30 2 * * *" halfPastTwo :=
  (schedule_preserved_iff (by decide)).mpr ⟨by decide, trivial, .inl (by decide)⟩

def thirteenthOrFriday : CronExpr := .fields (numberField .minute ['0'] (by decide))
  (numberField .hour ['0'] (by decide)) (numberField .dom ['1', '3'] (by decide)) (starField .month)
  (numberField .dow ['5'] (by decide))

/-- The timer waits for a Friday the thirteenth. -/
theorem friday_the_thirteenth : ¬ ∀ cronExpr (e : CronExpr), wordsOf cronExpr.toList = e.words →
    SchedulePreserved cronExpr e := by
  intro always
  have kept := always "0 0 13 * 5" thirteenthOrFriday (by decide)
  have made : cronToOnCalendar "0 0 13 * 5" = ("Fri *-*-13 00:00:00", true) := by decide
  have read : readOnCalendar "Fri *-*-13 00:00:00".toList =
      some ⟨some [⟨4, none, none⟩], ⟨.any, .any, onlyAt 13⟩, ⟨onlyAt 0, onlyAt 0, onlyAt 0⟩⟩ := by
    decide
  obtain ⟨calendar, found, same⟩ := kept.converted _ made
  rw [read] at found
  obtain rfl := Option.some.inj found
  -- A Thursday.
  have here := same ⟨2000, 1, 13, 0, 0, by decide⟩
  exact absurd here (by decide)

end

end Inspectah
