import Inspectah.Collect.CronCalendar

/-!
The schedules of crontab(5) and when they fire: five fields of stars, numbers, names,
ranges, lists and steps, or one of the named schedules.
-/
namespace Inspectah

def CronKind.first : CronKind → Nat
  | .dom => 1
  | .month => 1
  | _ => 0

/-- Sunday is both 0 and 7. -/
def CronKind.last : CronKind → Nat
  | .minute => 59
  | .hour => 23
  | .dom => 31
  | .month => 12
  | .dow => 7

def CronKind.names : CronKind → List (List Char)
  | .month => MONTH_NAMES.map (·.1)
  | .dow => DOW_NAMES_TO_SYSTEMD.map (·.1)
  | _ => []

inductive CronValue where
  | number (digits : List Char)
  | name (letters : List Char)
  deriving DecidableEq

def CronValue.text : CronValue → List Char
  | number digits => digits
  | name letters => letters

def CronValue.value (kind : CronKind) : CronValue → Nat
  | number digits => digitsValue digits
  | name letters => kind.first + kind.names.idxOf (letters.map Char.toLower)

/-- A name counts in either case. -/
def CronValue.IsValid (kind : CronKind) : CronValue → Prop
  | number digits => isDigits digits ∧ kind.first ≤ digitsValue digits ∧
      digitsValue digits ≤ kind.last
  | name letters => letters.map Char.toLower ∈ kind.names

instance (kind : CronKind) : DecidablePred (CronValue.IsValid kind)
  | .number _ => inferInstanceAs (Decidable (_ ∧ _ ∧ _))
  | .name _ => inferInstanceAs (Decidable (_ ∈ _))

inductive CronItem where
  | star (step : Option (List Char))
  | single (value : CronValue)
  | range (lo hi : CronValue) (step : Option (List Char))
  deriving DecidableEq

def stepText : Option (List Char) → List Char
  | none => []
  | some digits => '/' :: digits

def stepValue (step : Option (List Char)) : Nat := (step.map digitsValue).getD 1

def CronItem.text : CronItem → List Char
  | star step => '*' :: stepText step
  | single value => value.text
  | range lo hi step => lo.text ++ '-' :: hi.text ++ stepText step

def IsStep (step : Option (List Char)) : Prop :=
  ∀ digits ∈ step, isDigits digits ∧ digitsValue digits ≠ 0

instance : DecidablePred IsStep := fun step => by unfold IsStep; infer_instance

def CronItem.IsValid (kind : CronKind) : CronItem → Prop
  | star step => IsStep step
  | single value => value.IsValid kind
  | range lo hi step => lo.IsValid kind ∧ hi.IsValid kind ∧ lo.value kind ≤ hi.value kind ∧
      IsStep step

instance (kind : CronKind) : DecidablePred (CronItem.IsValid kind)
  | .star _ => inferInstanceAs (Decidable (IsStep _))
  | .single _ => inferInstanceAs (Decidable (CronValue.IsValid _ _))
  | .range _ _ _ => inferInstanceAs (Decidable (_ ∧ _ ∧ _ ∧ _))

/-- The values from `lo` to `hi` that a step from `lo` on meets. -/
def inSteps (lo hi step n : Nat) : Bool := lo ≤ n && n ≤ hi && (n - lo) % step == 0

def CronItem.holds (kind : CronKind) (n : Nat) : CronItem → Bool
  | star step => inSteps kind.first kind.last (stepValue step) n
  | single value => value.value kind == n
  | range lo hi step => inSteps (lo.value kind) (hi.value kind) (stepValue step) n

structure CronField (kind : CronKind) where
  items : List CronItem
  some_item : items ≠ []
  valid : ∀ item ∈ items, item.IsValid kind

namespace CronField

variable {kind : CronKind}

def text (f : CronField kind) : List Char := [','].intercalate (f.items.map (·.text))

def holds (f : CronField kind) (n : Nat) : Bool := f.items.any (·.holds kind n)

/-- A day of the week, counted from Sunday. -/
def holdsDay (f : CronField .dow) (day : Nat) : Bool := f.holds day || (day == 0 && f.holds 7)

def isStar (f : CronField kind) : Bool := f.text.head? == some '*'

end CronField

def isLeap (year : Nat) : Bool := year % 4 == 0 && (year % 100 != 0 || year % 400 == 0)

def monthLength (year : Nat) : Nat → Nat
  | 2 => if isLeap year then 29 else 28
  | 4 => 30
  | 6 => 30
  | 9 => 30
  | 11 => 30
  | _ => 31

def daysBefore (month : Nat) : Nat :=
  [0, 31, 59, 90, 120, 151, 181, 212, 243, 273, 304, 334].getD (month - 1) 0

/-- A minute of a date of the Gregorian calendar. -/
structure Minute where
  year : Nat
  month : Nat
  day : Nat
  hour : Nat
  minute : Nat
  real : 1 ≤ year ∧ 1 ≤ month ∧ month ≤ 12 ∧ 1 ≤ day ∧ day ≤ monthLength year month ∧
    hour ≤ 23 ∧ minute ≤ 59

/-- The days from the first of January of the year 1, a Monday, to the date, with both. -/
def dayNumber (year month day : Nat) : Nat :=
  let before := year - 1
  365 * before + before / 4 - before / 100 + before / 400 + daysBefore month +
    (if 2 < month && isLeap year then 1 else 0) + day

/-- Counted from Sunday. -/
def Minute.weekday (t : Minute) : Nat := dayNumber t.year t.month t.day % 7

inductive CronShortcut where
  | reboot
  | yearly
  | annually
  | monthly
  | weekly
  | daily
  | midnight
  | hourly
  deriving DecidableEq

def CronShortcut.text : CronShortcut → List Char
  | reboot => "@reboot".toList
  | yearly => "@yearly".toList
  | annually => "@annually".toList
  | monthly => "@monthly".toList
  | weekly => "@weekly".toList
  | daily => "@daily".toList
  | midnight => "@midnight".toList
  | hourly => "@hourly".toList

/-- The named schedules are short for five fields; the start of the system is no minute
    of the calendar. -/
def CronShortcut.fires (t : Minute) : CronShortcut → Bool
  | reboot => false
  | yearly => t.minute == 0 && t.hour == 0 && t.day == 1 && t.month == 1
  | annually => t.minute == 0 && t.hour == 0 && t.day == 1 && t.month == 1
  | monthly => t.minute == 0 && t.hour == 0 && t.day == 1
  | weekly => t.minute == 0 && t.hour == 0 && t.weekday == 0
  | daily => t.minute == 0 && t.hour == 0
  | midnight => t.minute == 0 && t.hour == 0
  | hourly => t.minute == 0

inductive CronExpr where
  | fields (minute : CronField .minute) (hour : CronField .hour) (dom : CronField .dom)
      (month : CronField .month) (dow : CronField .dow)
  | shortcut (name : CronShortcut)

def dayFires (dom : CronField .dom) (dow : CronField .dow) (t : Minute) : Bool :=
  if dom.isStar || dow.isStar then dom.holds t.day && dow.holdsDay t.weekday
  else dom.holds t.day || dow.holdsDay t.weekday

def CronExpr.fires (t : Minute) : CronExpr → Bool
  | fields minute hour dom month dow => minute.holds t.minute && hour.holds t.hour &&
      month.holds t.month && dayFires dom dow t
  | shortcut name => name.fires t

def CronExpr.words : CronExpr → List (List Char)
  | fields minute hour dom month dow => [minute.text, hour.text, dom.text, month.text, dow.text]
  | shortcut name => [name.text]

/-- The characters of an expression: none is a blank. -/
def isCronChar (c : Char) : Bool :=
  c.isAlphanum || c == '*' || c == ',' || c == '-' || c == '/' || c == '@'

theorem isCronChar_plain {c : Char} (h : isCronChar c) : Text.isWhitespace c = false := by
  simp only [isCronChar, Bool.or_eq_true, beq_iff_eq] at h
  obtain ((((alnum | rfl) | rfl) | rfl) | rfl) | rfl := h
  · exact Text.isWhitespace_alphanum alnum
  all_goals decide

theorem isAlphanum_of_toLower {c : Char} (h : c.toLower.isLower) : c.isAlphanum := by
  by_cases upper : c.val ≥ 'A'.val ∧ c.val ≤ 'Z'.val
  · have isUpper : c.isUpper := by
      unfold Char.isUpper
      simpa using upper
    unfold Char.isAlphanum Char.isAlpha
    simp [isUpper]
  · unfold Char.toLower at h
    rw [dif_neg upper] at h
    unfold Char.isAlphanum Char.isAlpha
    simp [h]

theorem names_lower (kind : CronKind) : ∀ n ∈ kind.names, n ≠ [] ∧ n.all Char.isLower := by
  cases kind <;> decide

def OfCronChars (text : List Char) : Prop := text ≠ [] ∧ text.all isCronChar

theorem isDigits_cronChars {digits : List Char} (h : isDigits digits) : OfCronChars digits := by
  simp only [isDigits, Bool.and_eq_true, Bool.not_eq_true', List.all_eq_true] at h
  refine ⟨by simpa using h.1, List.all_eq_true.mpr fun c hc => ?_⟩
  simp [isCronChar, Char.isAlphanum, h.2 c hc]

theorem CronValue.cronChars {kind : CronKind} {v : CronValue} (h : v.IsValid kind) :
    OfCronChars v.text := by
  cases v with
  | number digits => exact isDigits_cronChars h.1
  | name letters =>
    have lower := names_lower kind _ h
    refine ⟨by simpa [CronValue.text] using lower.1, List.all_eq_true.mpr fun c hc => ?_⟩
    have alnum := isAlphanum_of_toLower
      (List.all_eq_true.mp lower.2 _ (List.mem_map_of_mem hc))
    simp [isCronChar, alnum]

theorem stepText_cronChars {step : Option (List Char)} (h : IsStep step) :
    (stepText step).all isCronChar := by
  cases step with
  | none => rfl
  | some digits =>
    have own := isDigits_cronChars (h digits rfl).1
    simpa [stepText, show isCronChar '/' by decide] using own.2

theorem CronItem.cronChars {kind : CronKind} {item : CronItem} (h : item.IsValid kind) :
    OfCronChars item.text := by
  cases item with
  | star step =>
    refine ⟨List.cons_ne_nil _ _, ?_⟩
    simpa [CronItem.text, show isCronChar '*' by decide] using stepText_cronChars h
  | single value => exact CronValue.cronChars h
  | range lo hi step =>
    obtain ⟨hlo, hhi, -, hstep⟩ := h
    have first := CronValue.cronChars hlo
    have last := CronValue.cronChars hhi
    refine ⟨by simp [CronItem.text], ?_⟩
    simp only [CronItem.text, List.all_append, List.all_cons, Bool.and_eq_true]
    exact ⟨⟨first.2, by decide, last.2⟩, stepText_cronChars hstep⟩

theorem CronField.cronChars {kind : CronKind} (f : CronField kind) : OfCronChars f.text := by
  have join : ∀ items : List CronItem, items ≠ [] → (∀ item ∈ items, item.IsValid kind) →
      OfCronChars ([','].intercalate (items.map (·.text))) := by
    intro items
    induction items with
    | nil => exact fun ne => absurd rfl ne
    | cons first rest ih =>
      intro _ valid
      have own := CronItem.cronChars (valid first (List.mem_cons_self ..))
      cases rest with
      | nil => simpa [List.intercalate] using own
      | cons second more =>
        have tail := ih (List.cons_ne_nil _ _) fun item hi => valid item (List.mem_cons_of_mem _ hi)
        rw [List.map_cons, List.map_cons, List.intercalate_cons_cons, ← List.map_cons]
        refine ⟨by simp, ?_⟩
        simp only [List.append_assoc, List.all_append, Bool.and_eq_true]
        exact ⟨own.2, by decide, tail.2⟩
  exact join f.items f.some_item f.valid

theorem CronExpr.cronChars (e : CronExpr) : ∀ w ∈ e.words, OfCronChars w := by
  cases e with
  | fields minute hour dom month dow =>
    simp only [CronExpr.words, List.forall_mem_cons]
    exact ⟨minute.cronChars, hour.cronChars, dom.cronChars, month.cronChars, dow.cronChars,
      List.forall_mem_nil _⟩
  | shortcut name =>
    simp only [CronExpr.words, List.forall_mem_singleton]
    cases name <;> exact ⟨by decide, by decide⟩

end Inspectah
