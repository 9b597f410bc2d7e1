import Inspectah.Collect.CronCalendar
import Inspectah.Collect.Executor
import Inspectah.Core.Snapshot
import Inspectah.Library.Words

/-!
The cron jobs a scan collects, and the timer units it generates of their lines.

The unit a line of a crontab gives depends on the words of the line and on nothing else.
-/
namespace Inspectah

variable (f : CronFile) (host : CronHost) (line : String)

/-- A file without content cannot be read; a directory that cannot be read counts as missing. -/
structure CronHost where
  readDir : String → DirRead
  fileExists : String → Bool
  readFile : String → Option String
  isRpmOwned : String → Bool

/-- What the scan adds to the section, with its hints and the reasons it is degraded. -/
structure CronFindings where
  cronJobs : List CronJob := []
  units : List GeneratedTimerUnit := []
  hints : List RedactionHint := []
  degraded : List String := []

instance : Append CronFindings where
  append a b :=
    { cronJobs := a.cronJobs ++ b.cronJobs
      units := a.units ++ b.units
      hints := a.hints ++ b.hints
      degraded := a.degraded ++ b.degraded }

def gatherFindings (parts : List CronFindings) : CronFindings := parts.foldr (· ++ ·) {}

def SECRET_PATTERNS : List String := ["password", "secret", "token", "key", "credential"]

def checkCommandRedaction (command path : String) : List RedactionHint :=
  if command.isEmpty then []
  else
    match SECRET_PATTERNS.find? fun pattern =>
        Text.containsChars pattern.toList (toLowercase command.toList) with
    | some pattern =>
      [⟨path, "command may contain credentials (matched '" ++ pattern ++ "')", some .medium⟩]
    | none => []

def stripLeadingSlash (path : String) : String := (Text.afterPrefix path "/").getD path

def dotsToDashes (name : String) : String :=
  String.ofList (name.toList.map fun c => if c = '.' then '-' else c)

structure CronFile where
  path : String
  source : String
  name : String
  deriving DecidableEq

/-- The lines of a system crontab name a user before the command. -/
def CronFile.isSystem : Bool := f.source == "cron.d" || f.source == "crontab"

def CronFile.unitName : String := "cron-" ++ dotsToDashes f.name

def isCronLine : Bool :=
  line.toList.head?.any fun c => c.isDigit || c == '*' || c == '@'

def lineUnit (cronExpr command : String) (texts : UnitTexts) : GeneratedTimerUnit where
  name := f.unitName
  timerContent := texts.timer
  serviceContent := texts.service
  cronExpr := cronExpr
  sourcePath := stripLeadingSlash f.path
  command := command
  disposition := .included

/-- The words after the expression and, in a system crontab, its user. -/
def commandOf (rest : List String) : String :=
  " ".intercalate (if f.isSystem then rest.drop 1 else rest)

def shortcutUnit (shortcut command : String) : GeneratedTimerUnit :=
  if Text.eqIgnoreAsciiCase shortcut "@reboot" then
    lineUnit f "@reboot" command (makeRebootAdvisory (stripLeadingSlash f.path) command)
  else
    lineUnit f shortcut command (makeTimerService shortcut (stripLeadingSlash f.path) command)

def timedUnit (cronExpr command : String) : GeneratedTimerUnit :=
  lineUnit f cronExpr command (makeTimerService cronExpr (stripLeadingSlash f.path) command)

def parseCronLine : Option GeneratedTimerUnit :=
  let line := Text.trim line
  if line.isEmpty || Text.startsWith line "#" then none
  else if Text.startsWith line "@" then
    match splitWhitespace line with
    | shortcut :: first :: rest => some (shortcutUnit f shortcut (commandOf f (first :: rest)))
    | _ => none
  else if !isCronLine line then none
  else
    let parts := splitWhitespace line
    if parts.length < 6 then none
    else some (timedUnit f (" ".intercalate (parts.take 5)) (commandOf f (parts.drop 5)))

def parseCronEntries (content : String) : CronFindings :=
  let units := (Text.lines content).filterMap (parseCronLine f)
  { units := units
    hints := units.flatMap fun u => checkCommandRedaction u.command f.path }

def cronJob (path source : String) (rpmOwned : Bool) : CronJob where
  path := stripLeadingSlash path
  source := source
  rpmOwned := rpmOwned
  disposition := .included

/-- Hidden files are passed over. -/
def visibleEntries (names : List String) : List String :=
  names.filter fun name => !Text.startsWith name "."

def deniedReason (dir : String) : CronFindings := { degraded := ["permission denied reading " ++ dir] }

def USER_CRONTABS : String := "spool/cron"

def cronSource (source name : String) : String :=
  if source = USER_CRONTABS then "spool/cron (" ++ name ++ ")" else source

def fileIn (dir source name : String) : CronFile where
  path := dir ++ "/" ++ name
  source := cronSource source name
  name := name

def jobFindings (path source : String) (rpmOwned : Bool) : CronFindings :=
  { cronJobs := [cronJob path source rpmOwned] }

def readFindings (file : CronFile) : CronFindings :=
  ((host.readFile file.path).map (parseCronEntries file)).getD {}

def scanCronDirEntry (owned : String → Bool) (file : CronFile) : CronFindings :=
  jobFindings file.path file.source (owned file.path) ++
    (if owned file.path then {} else readFindings host file)

def scanCronDir (owned : String → Bool) (dir source : String) : CronFindings :=
  match host.readDir dir with
  | .entries names =>
    gatherFindings ((visibleEntries names).map fun name =>
      scanCronDirEntry host owned (fileIn dir source name))
  | .denied => deniedReason dir
  | .missing => {}

def scanCronFile (file : CronFile) : CronFindings :=
  if host.fileExists file.path then
    jobFindings file.path file.source (host.isRpmOwned file.path) ++ readFindings host file
  else {}

def CRONTAB : CronFile := ⟨"/etc/crontab", "crontab", "crontab"⟩

def PERIODS : List (String × String) :=
  [("hourly", "*-*-* *:01:00"), ("daily", "*-*-* 03:00:00"), ("weekly", "Mon *-*-* 03:00:00"),
   ("monthly", "*-*-01 03:00:00")]

def periodDir (period : String) : String := "/etc/cron." ++ period

def scriptUnit (period onCalendar name : String) : GeneratedTimerUnit :=
  let path := stripLeadingSlash (periodDir period ++ "/" ++ name)
  let command := "/" ++ path
  { name := "cron-" ++ period ++ "-" ++ dotsToDashes name
    timerContent := "[Unit]\nDescription=Generated from cron." ++ period ++ ": " ++ path ++
      "\n# Original: cron." ++ period ++ " script\n\n[Timer]\nOnCalendar=" ++ onCalendar ++
      "\nPersistent=true\n\n[Install]\nWantedBy=timers.target\n"
    serviceContent := "[Unit]\nDescription=Timer from cron." ++ period ++ " " ++ path ++
      "\n\n[Service]\nType=oneshot\nExecStart=" ++ command ++ "\n"
    cronExpr := "@" ++ period
    sourcePath := path
    command := command
    disposition := .included }

def scanPeriodEntry (period onCalendar name : String) : CronFindings :=
  let path := periodDir period ++ "/" ++ name
  { cronJobs := [cronJob path ("cron." ++ period) (host.isRpmOwned path)]
    units := if host.isRpmOwned path then [] else [scriptUnit period onCalendar name] }

def scanCronPeriodDir (period onCalendar : String) : CronFindings :=
  match host.readDir (periodDir period) with
  | .entries names => gatherFindings ((visibleEntries names).map (scanPeriodEntry host period onCalendar))
  | .denied => deniedReason (periodDir period)
  | .missing => {}

def scanCron : CronFindings :=
  scanCronDir host host.isRpmOwned "/etc/cron.d" "cron.d" ++
  scanCronFile host CRONTAB ++
  gatherFindings (PERIODS.map fun p => scanCronPeriodDir host p.1 p.2) ++
  scanCronDir host (fun _ => false) "/var/spool/cron" USER_CRONTABS

open Words

def wordsOf (cs : List Char) : List (List Char) := words Text.isWhitespace cs

/-- The words put together again. -/
def respaced (ws : List (List Char)) : List Char := unwords ' ' ws

theorem splitWhitespace_toList (s : String) :
    (splitWhitespace s).map String.toList = wordsOf s.toList := by
  rw [splitWhitespace, Text.splitOn, Text.splitChars_eq_splitOnP, wordsOf, words, List.filter_map,
    List.map_map]
  have same : (fun w : String => !w.isEmpty) ∘ String.ofList = fun w : List Char => !w.isEmpty := by
    funext w
    cases w <;> simp [String.isEmpty_iff]
  rw [same]
  simp [Function.comp_def]

theorem intercalate_toList (ws : List String) :
    (" ".intercalate ws).toList = respaced (ws.map String.toList) := by
  induction ws with
  | nil => rfl
  | cons w rest ih =>
    cases rest with
    | nil => simp [respaced, unwords]
    | cons v more =>
      rw [String.intercalate_cons_cons, String.toList_append, String.toList_append, ih]
      simp [respaced, unwords]

theorem wordsOf_trim (s : String) : wordsOf (Text.trim s).toList = wordsOf s.toList := by
  obtain ⟨lead, tail, before, after, whole⟩ := exists_trimChars s.toList
  conv_rhs => rw [whole]
  rw [wordsOf, wordsOf, words_append_gap after, words_gap_append before, Text.trim,
    String.toList_ofList]

theorem wordsOf_dropCarriageReturn (cs : List Char) :
    wordsOf (Text.dropCarriageReturn cs) = wordsOf cs := by
  unfold Text.dropCarriageReturn
  split
  next rest same =>
    have whole : cs = rest.reverse ++ ['\r'] := by
      rw [← List.reverse_reverse cs, same, List.reverse_cons]
    have gap : IsGap Text.isWhitespace ['\r'] := by
      intro c hc
      rw [List.mem_singleton.mp hc]
      decide
    rw [whole, wordsOf, wordsOf, words_append_gap gap]
  next => rfl

theorem wordsOf_cons_plain {c : Char} {cs : List Char} (plain : Text.isWhitespace c = false) :
    wordsOf (c :: cs) = (c :: cs.takeWhile fun x => !Text.isWhitespace x) ::
      wordsOf (cs.dropWhile fun x => !Text.isWhitespace x) := by
  have word : IsPlain Text.isWhitespace (c :: cs.takeWhile fun x => !Text.isWhitespace x) := by
    intro x hx
    obtain rfl | hx := List.mem_cons.mp hx
    · exact plain
    · simpa using List.mem_takeWhile_imp hx
  have whole : c :: cs = (c :: cs.takeWhile fun x => !Text.isWhitespace x) ++
      cs.dropWhile fun x => !Text.isWhitespace x := by
    rw [List.cons_append, List.takeWhile_append_dropWhile]
  conv_lhs => rw [whole]
  cases rest : cs.dropWhile fun x => !Text.isWhitespace x with
  | nil =>
    rw [List.append_nil, wordsOf, words_plain word (List.cons_ne_nil _ _), wordsOf, words_nil]
  | cons x more =>
    have blank : Text.isWhitespace x = true := by
      have head := List.head?_dropWhile_not (fun x => !Text.isWhitespace x) cs
      rw [rest] at head
      simpa using head
    rw [wordsOf, words_append_cons blank, words_plain word (List.cons_ne_nil _ _), wordsOf,
      words_cons blank, List.singleton_append]

theorem wordsOf_head {c : Char} {cs : List Char} (plain : Text.isWhitespace c = false) :
    ∃ w ws, wordsOf (c :: cs) = (c :: w) :: ws := ⟨_, _, wordsOf_cons_plain plain⟩

theorem gap_of_wordsOf_nil {cs : List Char} (h : wordsOf cs = []) : IsGap Text.isWhitespace cs := by
  induction cs with
  | nil => exact fun c hc => absurd hc List.not_mem_nil
  | cons c rest ih =>
    cases blank : Text.isWhitespace c with
    | true =>
      rw [wordsOf, words_cons blank] at h
      intro x hx
      obtain rfl | hx := List.mem_cons.mp hx
      · exact blank
      · exact ih h x hx
    | false =>
      rw [wordsOf_cons_plain blank] at h
      cases h

theorem around_of_wordsOf_one {cs w : List Char} (h : wordsOf cs = [w]) :
    ∃ lead tail, IsGap Text.isWhitespace lead ∧ IsGap Text.isWhitespace tail ∧
      cs = lead ++ w ++ tail := by
  induction cs with
  | nil => simp [wordsOf] at h
  | cons c rest ih =>
    cases blank : Text.isWhitespace c with
    | true =>
      rw [wordsOf, words_cons blank] at h
      obtain ⟨lead, tail, before, after, rfl⟩ := ih h
      refine ⟨c :: lead, tail, ?_, after, rfl⟩
      intro x hx
      obtain rfl | hx := List.mem_cons.mp hx
      · exact blank
      · exact before x hx
    | false =>
      rw [wordsOf_cons_plain blank, List.cons.injEq] at h
      refine ⟨[], _, fun x hx => absurd hx List.not_mem_nil, gap_of_wordsOf_nil h.2, ?_⟩
      rw [List.nil_append, ← h.1, List.cons_append, List.takeWhile_append_dropWhile]

def wordsUnit (f : CronFile) : List String → Option GeneratedTimerUnit
  | [] => none
  | first :: rest =>
    if Text.startsWith first "@" then
      if rest.isEmpty then none else some (shortcutUnit f first (commandOf f rest))
    else if isCronLine first && 5 ≤ rest.length then
      some (timedUnit f (" ".intercalate (first :: rest.take 4)) (commandOf f (rest.drop 4)))
    else none

theorem startsWith_head {s : String} {c d : Char} {cs : List Char} (hs : s.toList = c :: cs) :
    Text.startsWith s (String.singleton d) = (d == c) := by
  simp [Text.startsWith, hs, List.isPrefixOf]

theorem splitWhitespace_trim :
    splitWhitespace (Text.trim line) = splitWhitespace line := by
  refine List.map_injective_iff.mpr (fun _ _ => String.toList_inj.mp) ?_
  rw [splitWhitespace_toList, splitWhitespace_toList, wordsOf_trim]

theorem trim_words : Text.trim line = "" ∨ ∃ first rest c cs w,
    splitWhitespace line = first :: rest ∧ (Text.trim line).toList = c :: cs ∧
      first.toList = c :: w := by
  have head : ∀ c ∈ (Text.trimChars line.toList).head?, Text.isWhitespace c = false :=
    fun c first => ends_trimChars (.inl first)
  have chars : (Text.trim line).toList = Text.trimChars line.toList := by
    rw [Text.trim, String.toList_ofList]
  rw [← chars] at head
  rw [← splitWhitespace_trim]
  generalize Text.trim line = trimmed at head ⊢
  cases hs : trimmed.toList with
  | nil => exact .inl (String.toList_inj.mp hs)
  | cons c cs =>
    have plain := head c (by rw [hs]; rfl)
    obtain ⟨w, ws, found⟩ := @wordsOf_head c cs plain
    rw [← hs, ← splitWhitespace_toList] at found
    obtain ⟨first, rest, split, first_chars, -⟩ := List.map_eq_cons_iff.mp found
    exact .inr ⟨first, rest, c, cs, w, split, rfl, first_chars⟩

theorem parseCronLine_eq :
    parseCronLine f line = wordsUnit f (splitWhitespace line) := by
  have words := trim_words line
  unfold parseCronLine
  rw [← splitWhitespace_trim] at words ⊢
  generalize Text.trim line = trimmed at words ⊢
  obtain rfl | ⟨first, rest, c, cs, w, split, hs, first_chars⟩ := words
  · rfl
  have ne : trimmed.isEmpty = false := by
    rw [Bool.eq_false_iff, Ne, String.isEmpty_iff]
    rintro rfl
    cases hs
  have hash := @startsWith_head trimmed c '#' cs hs
  have at_line := @startsWith_head trimmed c '@' cs hs
  have at_first := @startsWith_head first c '@' w first_chars
  have cron : isCronLine trimmed = isCronLine first := by simp [isCronLine, hs, first_chars]
  rw [show String.singleton '#' = "#" from rfl] at hash
  rw [show String.singleton '@' = "@" from rfl] at at_line at_first
  simp only [ne, hash, Bool.false_or, at_line, split, wordsUnit, at_first, cron]
  by_cases mark : c = '#'
  · subst mark
    have none : isCronLine first = false := by simp [isCronLine, first_chars]
    simp [none]
  · have no_mark : ('#' == c) = false := by simpa using fun e : '#' = c => mark e.symm
    rw [no_mark]
    by_cases at_sign : c = '@'
    · cases rest <;> simp [at_sign]
    · have no_at : ('@' == c) = false := by simpa using fun e : '@' = c => at_sign e.symm
      rw [no_at]
      cases is : isCronLine first with
      | false => simp
      | true =>
        by_cases long : 5 ≤ rest.length
        · simp [long]
        · simp [long]

end Inspectah
