import Inspectah.Core.Text

/-!
How a cron expression is turned into a calendar expression of a timer, and the units
generated with it.
-/
namespace Inspectah

/-- Which of the five fields of a cron expression. -/
inductive CronKind where
  | minute
  | hour
  | dom
  | month
  | dow
  deriving DecidableEq

/-- A lower-case ASCII letter can come of two letters beyond ASCII. -/
def lowerChar (c : Char) : List Char :=
  if c.toNat = 0x212A then ['k']
  else if c.toNat = 0x130 then ['i', Char.ofNat 0x307]
  else [c.toLower]

/-- `str::to_lowercase`, as far as it can give ASCII text. -/
def toLowercase (cs : List Char) : List Char := cs.flatMap lowerChar

def tableOf (rows : List (String × String)) : List (List Char × List Char) :=
  rows.map fun row => (row.1.toList, row.2.toList)

def MONTH_NAMES : List (List Char × List Char) :=
  tableOf [("jan", "1"), ("feb", "2"), ("mar", "3"), ("apr", "4"), ("may", "5"), ("jun", "6"),
    ("jul", "7"), ("aug", "8"), ("sep", "9"), ("oct", "10"), ("nov", "11"), ("dec", "12")]

def DOW_NAMES_TO_SYSTEMD : List (List Char × List Char) :=
  tableOf [("sun", "Sun"), ("mon", "Mon"), ("tue", "Tue"), ("wed", "Wed"), ("thu", "Thu"),
    ("fri", "Fri"), ("sat", "Sat")]

def DOW_NUMERIC : List (List Char × List Char) :=
  tableOf [("0", "Sun"), ("1", "Mon"), ("2", "Tue"), ("3", "Wed"), ("4", "Thu"), ("5", "Fri"),
    ("6", "Sat"), ("7", "Sun")]

def normaliseCronToken (kind : CronKind) (token : List Char) : List Char :=
  match kind with
  | .month => (MONTH_NAMES.lookup (toLowercase token)).getD token
  | .dow =>
    match DOW_NAMES_TO_SYSTEMD.lookup (toLowercase token) with
    | some day => day
    | none => (DOW_NUMERIC.lookup token).getD token
  | _ => token

def isDigits (cs : List Char) : Bool := !cs.isEmpty && cs.all Char.isDigit

/-- `split_once`. -/
def cutAt (sep : Char) (cs : List Char) : Option (List Char × List Char) :=
  match cs.span (· != sep) with
  | (_, []) => none
  | (before, _ :: after) => some (before, after)

def calendarRange (kind : CronKind) (lo hi : List Char) : List Char :=
  normaliseCronToken kind (Text.trimChars lo) ++ "..".toList ++
    normaliseCronToken kind (Text.trimChars hi)

def rangeWithStep (kind : CronKind) (field : List Char) : Option (List Char) := do
  let (range, step) ← cutAt '/' field
  let (lo, hi) ← cutAt '-' range
  return calendarRange kind lo hi ++ '/' :: step

def plainRange (kind : CronKind) (field : List Char) : Option (List Char) := do
  let (lo, hi) ← cutAt '-' field
  return calendarRange kind lo hi

def twoDigits (n : Nat) : List Char := (Nat.toDigits 10 n).leftpad 2 '0'

def isClockKind : CronKind → Bool
  | .minute => true
  | .hour => true
  | _ => false

def singleToken (kind : CronKind) (field : List Char) : List Char :=
  let normalised := normaliseCronToken kind field
  if normalised ≠ field then normalised
  -- A number that is no `u32` is left as it is.
  else if isDigits field && isClockKind kind && digitsValue field < 2 ^ 32 then
    twoDigits (digitsValue field)
  else field

def starStep (kind : CronKind) (step field : List Char) : List Char :=
  if isDigits step then
    match kind with
    | .minute => "*/".toList ++ step
    | .hour => "00/".toList ++ step
    | _ => field
  else field

def cronFieldToCalendar (kind : CronKind) (field : List Char) : List Char :=
  if field = ['*'] then ['*']
  else if ['*', '/'].isPrefixOf field then starStep kind (field.drop 2) field
  else
    match rangeWithStep kind field, plainRange kind field with
    | some range, _ => range
    | none, some range => range
    | none, none =>
      if field.contains ',' then
        [','].intercalate ((Text.splitChars (· == ',') field).map fun e =>
          normaliseCronToken kind (Text.trimChars e))
      else singleToken kind field

def SHORTCUTS : List (List Char × List Char) :=
  tableOf [("@yearly", "*-01-01 00:00:00"), ("@annually", "*-01-01 00:00:00"),
    ("@monthly", "*-*-01 00:00:00"), ("@weekly", "Mon *-*-* 00:00:00"),
    ("@daily", "*-*-* 00:00:00"), ("@midnight", "*-*-* 00:00:00"), ("@hourly", "*-*-* *:00:00")]

def fieldsToCalendar (minute hour dom month dow : List Char) : List Char :=
  let date := "*-".toList ++ cronFieldToCalendar .month month ++
    '-' :: cronFieldToCalendar .dom dom
  let time := cronFieldToCalendar .hour hour ++ ':' :: cronFieldToCalendar .minute minute ++
    ":00".toList
  let weekday := cronFieldToCalendar .dow dow
  if weekday ≠ ['*'] then weekday ++ ' ' :: date ++ ' ' :: time else date ++ ' ' :: time

def cronToOnCalendar (cronExpr : String) : String × Bool :=
  let expr := Text.trim cronExpr
  let lower := toLowercase expr.toList
  match SHORTCUTS.lookup lower with
  | some calendar => (String.ofList calendar, true)
  | none =>
    if lower = "@reboot".toList then ("@reboot", false)
    else
      match splitWhitespace expr with
      | minute :: hour :: dom :: month :: dow :: _ =>
        (String.ofList (fieldsToCalendar minute.toList hour.toList dom.toList month.toList
          dow.toList), true)
      | _ => ("*-*-* 02:00:00", false)

structure UnitTexts where
  timer : String
  service : String
  deriving DecidableEq

def execLine (command : String) : String :=
  if command.isEmpty then "ExecStart=/bin/true\n# FIXME: could not extract command from cron entry"
  else "ExecStart=" ++ command

def conversionFixme (cronExpr onCalendar : String) (converted : Bool) : String :=
  if converted then ""
  else if onCalendar = "@reboot" then
    "# FIXME: @reboot has no OnCalendar equivalent.\n" ++
    "# Use a oneshot service with WantedBy=multi-user.target instead.\n"
  else
    "# FIXME: cron expression '" ++ cronExpr ++ "' could not be fully converted.\n" ++
    "# Review and correct the OnCalendar value below.\n"

def makeTimerService (cronExpr path command : String) : UnitTexts :=
  let (onCalendar, converted) := cronToOnCalendar cronExpr
  let calendar := if !converted && onCalendar == "@reboot" then "*-*-* 02:00:00" else onCalendar
  { timer := "[Unit]\nDescription=Generated from cron: " ++ path ++ "\n# Original cron: " ++
      cronExpr ++ "\n" ++ conversionFixme cronExpr onCalendar converted ++
      "\n[Timer]\nOnCalendar=" ++ calendar ++
      "\nPersistent=true\n\n[Install]\nWantedBy=timers.target\n"
    service := "[Unit]\nDescription=Timer from cron " ++ path ++
      "\n\n[Service]\nType=oneshot\n" ++ execLine command ++ "\n" }

/-- No timer: a job for the start of the system has no calendar expression. -/
def makeRebootAdvisory (path command : String) : UnitTexts where
  timer := ""
  service := "[Unit]\nDescription=Boot-triggered task from cron: " ++ path ++
    "\n# Original: @reboot " ++ command ++
    "\n# FIXME: @reboot has no OnCalendar equivalent.\n" ++
    "# This service runs once at boot via WantedBy=multi-user.target.\n" ++
    "# Review whether this behavior is still needed in image mode.\n\n" ++
    "[Service]\nType=oneshot\n" ++ execLine command ++
    "\n\n[Install]\nWantedBy=multi-user.target\n"

end Inspectah
