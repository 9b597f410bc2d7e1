import Inspectah.Collect.CronWords
import Inspectah.Collect.Crontab
import Inspectah.Render.ConfigTree

/-!
One unit for each entry of the crontabs: the lines cron runs, as crontab(5) has them,
against the units a scan generates, and the files they become.
-/
namespace Inspectah

open Words

variable (host : CronHost) (file : CronFile) (f : CronFile)

def isCronBlank (c : Char) : Bool := c == ' ' || c == '\t'

structure CronEntry where
  expr : CronExpr
  user : Option (List Char)
  command : List Char

def CronEntry.leading (e : CronEntry) : List (List Char) := e.expr.words ++ e.user.toList

/-- Words with the blanks after each. -/
def spread : List (List Char) → List (List Char) → List Char
  | w :: ws, gap :: gaps => w ++ gap ++ spread ws gaps
  | _, _ => []

def IsCronGap (gap : List Char) : Prop := gap ≠ [] ∧ ∀ c ∈ gap, isCronBlank c = true

/-- The entry's words with blanks between them, and then its command, to the end of the line. -/
structure ShowsEntry (system : Bool) (line : List Char) (e : CronEntry) : Prop where
  user : e.user.isSome = system
  user_plain : ∀ u ∈ e.user, u ≠ [] ∧ IsPlain Text.isWhitespace u
  command : ∃ c ∈ e.command.head?, isCronBlank c = false
  text : ∃ lead gaps, (∀ c ∈ lead, isCronBlank c = true) ∧ gaps.length = e.leading.length ∧
    (∀ gap ∈ gaps, IsCronGap gap) ∧ line = lead ++ spread e.leading gaps ++ e.command

inductive CronPlace where
  | line (file : CronFile) (text : String)
  | script (period onCalendar name : String)

/-- What the scan makes of the place alone. -/
def CronPlace.units : CronPlace → List GeneratedTimerUnit
  | line file text => (parseCronEntries file text).units
  | script period onCalendar name => [scriptUnit period onCalendar name]

def filePlaces (content : String) : List CronPlace :=
  (Text.splitOn (· == '\n') content).map (.line file)

def readPlaces : List CronPlace :=
  ((host.readFile file.path).map (filePlaces file)).getD []

def dirEntryPlaces (owned : String → Bool) (file : CronFile) : List CronPlace :=
  if owned file.path then [] else readPlaces host file

def visibleIn (dir : String) : List String :=
  match host.readDir dir with
  | .entries names => visibleEntries names
  | .denied => []
  | .missing => []

def dirPlaces (owned : String → Bool) (dir source : String) : List CronPlace :=
  (visibleIn host dir).flatMap fun name => dirEntryPlaces host owned (fileIn dir source name)

def crontabPlaces : List CronPlace :=
  if host.fileExists file.path then readPlaces host file else []

def periodPlaces (period onCalendar : String) : List CronPlace :=
  ((visibleIn host (periodDir period)).filter fun name =>
    !host.isRpmOwned (periodDir period ++ "/" ++ name)).map (.script period onCalendar)

def cronPlaces : List CronPlace :=
  dirPlaces host host.isRpmOwned "/etc/cron.d" "cron.d" ++
  crontabPlaces host CRONTAB ++
  PERIODS.flatMap (fun p => periodPlaces host p.1 p.2) ++
  dirPlaces host (fun _ => false) "/var/spool/cron" USER_CRONTABS

/-- Each entry has its own unit with its command, and no two units share a name. -/
structure OneUnitPerEntry (host : CronHost) : Prop where
  collected : (scanCron host).units = (cronPlaces host).flatMap (·.units)
  entry : ∀ file text, .line file text ∈ cronPlaces host → host.isRpmOwned file.path = false →
    ∀ e, ShowsEntry file.isSystem text.toList e →
      ∃ u, (CronPlace.line file text).units = [u] ∧ u.command.toList = e.command
  named : ((scanCron host).units.map (·.name)).Nodup
  written : (((scanCron host).units.flatMap generatedUnitFiles).map (·.1)).Nodup

/-- A named schedule and another word, or a word that begins like a minute and five others. -/
def isTakenLine (words : List String) : Bool :=
  match words with
  | [] => false
  | first :: rest =>
    if Text.startsWith first "@" then !rest.isEmpty
    else isCronLine first && 5 ≤ rest.length

def CronPlace.isTaken : CronPlace → Bool
  | line _ text => isTakenLine (splitWhitespace text)
  | script _ _ _ => true

def CronPlace.label : CronPlace → String
  | line file _ => dotsToDashes file.name
  | script period _ name => period ++ "-" ++ dotsToDashes name

/-- The commands have single spaces, and no two lines or scripts taken have one label. -/
structure CronEntriesClear (host : CronHost) : Prop where
  spaced : ∀ file text, .line file text ∈ cronPlaces host → host.isRpmOwned file.path = false →
    ∀ e, ShowsEntry file.isSystem text.toList e →
      SingleSpaced Text.isWhitespace ' ' e.command
  apart : (((cronPlaces host).filter (·.isTaken)).map (·.label)).Nodup

@[simp] theorem units_append (a b : CronFindings) : (a ++ b).units = a.units ++ b.units := rfl

theorem units_gather (parts : List CronFindings) :
    (gatherFindings parts).units = parts.flatMap (·.units) := by
  induction parts with
  | nil => rfl
  | cons first rest ih => simpa [gatherFindings] using ih

theorem parseCronLine_dropCarriageReturn (line : List Char) :
    parseCronLine f (String.ofList (Text.dropCarriageReturn line)) =
      parseCronLine f (String.ofList line) := by
  have same : splitWhitespace (String.ofList (Text.dropCarriageReturn line)) =
      splitWhitespace (String.ofList line) := by
    refine List.map_injective_iff.mpr (fun _ _ => String.toList_inj.mp) ?_
    simp only [splitWhitespace_toList, String.toList_ofList, wordsOf_dropCarriageReturn]
  rw [parseCronLine_eq, parseCronLine_eq, same]

theorem filterMap_lines (content : String) :
    (Text.lines content).filterMap (parseCronLine f) =
      (Text.splitOn (· == '\n') content).filterMap (parseCronLine f) := by
  have line : (fun l => parseCronLine f (String.ofList (Text.dropCarriageReturn l))) =
      fun l => parseCronLine f (String.ofList l) := funext (parseCronLine_dropCarriageReturn f)
  have blank : parseCronLine f (String.ofList []) = none := rfl
  obtain ⟨front, last, whole⟩ : ∃ front last,
      Text.splitChars (· == '\n') content.toList = front ++ [last] := by
    cases pieces : Text.splitChars (· == '\n') content.toList using List.reverseRecOn with
    | nil => exact absurd pieces (by rw [Text.splitChars_eq_splitOnP]; exact List.splitOnP_ne_nil _ _)
    | append_singleton front last => exact ⟨front, last, rfl⟩
  simp only [Text.lines, Text.splitOn, whole, List.dropLast_concat, List.getLast?_concat,
    Option.toList_some, List.map_append, List.map_map, List.filterMap_append, List.filterMap_map,
    Function.comp_def, line]
  cases last with
  | nil => simp [blank]
  | cons c cs => rfl

theorem units_parse (content : String) :
    (parseCronEntries f content).units =
      (Text.splitOn (· == '\n') content).filterMap (parseCronLine f) :=
  filterMap_lines f content

theorem units_line {f : CronFile} {text : String} (one : '\n' ∉ text.toList) :
    (CronPlace.line f text).units = (parseCronLine f text).toList := by
  have single : Text.splitOn (· == '\n') text = [text] := by
    rw [Text.splitOn, Text.splitChars_eq_splitOnP, List.splitOnP_eq_singleton]
    · simp
    · intro c hc
      simpa using fun e : c = '\n' => one (e ▸ hc)
  rw [CronPlace.units, units_parse, single]
  cases found : parseCronLine f text <;> simp [found]

theorem oneLine_of_mem_splitOn {content text : String}
    (h : text ∈ Text.splitOn (· == '\n') content) : '\n' ∉ text.toList := by
  obtain ⟨piece, mem, rfl⟩ := List.mem_map.mp h
  rw [Text.splitChars_eq_splitOnP] at mem
  rw [String.toList_ofList]
  intro bad
  have plain := plain_of_mem_pieces mem _ bad
  simp at plain

theorem units_filePlaces (content : String) :
    (filePlaces f content).flatMap (·.units) = (parseCronEntries f content).units := by
  rw [units_parse, filePlaces, List.flatMap_map, List.filterMap_eq_flatMap_toList]
  exact List.flatMap_congr fun text mem => units_line (oneLine_of_mem_splitOn mem)

theorem units_read :
    (readFindings host file).units = (readPlaces host file).flatMap (·.units) := by
  unfold readFindings readPlaces
  cases host.readFile file.path with
  | none => rfl
  | some content => exact (units_filePlaces file content).symm

theorem units_dirEntry (owned : String → Bool) (file : CronFile) :
    (scanCronDirEntry host owned file).units =
      (dirEntryPlaces host owned file).flatMap (·.units) := by
  unfold scanCronDirEntry dirEntryPlaces
  rw [units_append]
  split
  · rfl
  · exact units_read host file

theorem units_dir (owned : String → Bool) (dir source : String) :
    (scanCronDir host owned dir source).units =
      (dirPlaces host owned dir source).flatMap (·.units) := by
  unfold scanCronDir dirPlaces visibleIn
  cases host.readDir dir with
  | entries names =>
    simp only [units_gather, List.flatMap_map, List.flatMap_assoc, units_dirEntry]
  | denied => rfl
  | missing => rfl

theorem units_crontab :
    (scanCronFile host file).units = (crontabPlaces host file).flatMap (·.units) := by
  unfold scanCronFile crontabPlaces
  split
  · exact units_read host file
  · rfl

theorem units_period (period onCalendar : String) :
    (scanCronPeriodDir host period onCalendar).units =
      (periodPlaces host period onCalendar).flatMap (·.units) := by
  unfold scanCronPeriodDir periodPlaces visibleIn
  cases host.readDir (periodDir period) with
  | denied => rfl
  | missing => rfl
  | entries names =>
    simp only [units_gather, List.flatMap_map]
    induction visibleEntries names with
    | nil => rfl
    | cons name rest ih =>
      rw [List.flatMap_cons, ih, List.filter_cons]
      cases own : host.isRpmOwned (periodDir period ++ "/" ++ name) <;>
        simp [scanPeriodEntry, own, CronPlace.units]

theorem scanCron_units :
    (scanCron host).units = (cronPlaces host).flatMap (·.units) := by
  simp only [scanCron, cronPlaces, units_append, List.flatMap_append, units_dir, units_crontab,
    units_gather, List.flatMap_map, List.flatMap_assoc, units_period]

theorem oneLine_place {host : CronHost} {file : CronFile} {text : String}
    (h : .line file text ∈ cronPlaces host) : '\n' ∉ text.toList := by
  have ofFile : ∀ {f content}, CronPlace.line file text ∈ filePlaces f content →
      '\n' ∉ text.toList := by
    intro f content mem
    obtain ⟨line, hl, same⟩ := List.mem_map.mp mem
    cases same
    exact oneLine_of_mem_splitOn hl
  have ofRead : ∀ {f}, CronPlace.line file text ∈ readPlaces host f → '\n' ∉ text.toList := by
    intro f mem
    unfold readPlaces at mem
    cases read : host.readFile f.path with
    | none => simp [read] at mem
    | some content => exact ofFile (by simpa [read] using mem)
  have ofDir : ∀ {owned dir source}, CronPlace.line file text ∈ dirPlaces host owned dir source →
      '\n' ∉ text.toList := by
    intro owned dir source mem
    obtain ⟨name, -, mem⟩ := List.mem_flatMap.mp mem
    unfold dirEntryPlaces at mem
    split at mem
    · cases mem
    · exact ofRead mem
  simp only [cronPlaces, List.mem_append] at h
  obtain ((dir | crontab) | period) | spool := h
  · exact ofDir dir
  · unfold crontabPlaces at crontab
    split at crontab
    · exact ofRead crontab
    · cases crontab
  · obtain ⟨p, -, mem⟩ := List.mem_flatMap.mp period
    obtain ⟨name, -, same⟩ := List.mem_map.mp mem
    cases same
  · exact ofDir spool

theorem wordsUnit_name (ws : List String) :
    (wordsUnit f ws).map (·.name) = if isTakenLine ws then some f.unitName else none := by
  cases ws with
  | nil => rfl
  | cons first rest =>
    simp only [wordsUnit, isTakenLine]
    split
    · cases rest with
      | nil => rfl
      | cons second more =>
        simp only [List.isEmpty_cons, Bool.false_eq_true, if_false, Option.map_some, Bool.not_false,
          if_true, shortcutUnit]
        split <;> rfl
    · split
      next => simp [timedUnit, lineUnit]
      next => simp

def CronPlace.IsOneLine : CronPlace → Prop
  | line _ text => '\n' ∉ text.toList
  | script _ _ _ => True

theorem names_place {p : CronPlace} (one : p.IsOneLine) :
    p.units.map (·.name) = if p.isTaken then ["cron-" ++ p.label] else [] := by
  cases p with
  | line f text =>
    have name := wordsUnit_name f (splitWhitespace text)
    rw [← parseCronLine_eq] at name
    rw [units_line one]
    simp only [CronPlace.isTaken, CronPlace.label]
    cases found : parseCronLine f text with
    | none =>
      rw [found] at name
      split at name
      · cases name
      next not_taken => simp [not_taken]
    | some u =>
      rw [found] at name
      split at name
      next taken => simpa [taken, CronFile.unitName] using name
      · cases name
  | script period onCalendar name =>
    simp [CronPlace.units, CronPlace.isTaken, CronPlace.label, scriptUnit, String.append_assoc]

theorem names_places {ps : List CronPlace} (one : ∀ p ∈ ps, p.IsOneLine) :
    (ps.flatMap (·.units)).map (·.name) =
      ((ps.filter (·.isTaken)).map (·.label)).map fun label => "cron-" ++ label := by
  induction ps with
  | nil => rfl
  | cons p rest ih =>
    have tail := ih fun q hq => one q (List.mem_cons_of_mem _ hq)
    rw [List.flatMap_cons, List.map_append, names_place (one p (List.mem_cons_self ..)), tail,
      List.filter_cons]
    split <;> rfl

theorem cronPlaces_oneLine : ∀ p ∈ cronPlaces host, p.IsOneLine := by
  intro p mem
  cases p with
  | line f text => exact oneLine_place mem
  | script _ _ _ => trivial

theorem named_iff : ((scanCron host).units.map (·.name)).Nodup ↔
    (((cronPlaces host).filter (·.isTaken)).map (·.label)).Nodup := by
  rw [scanCron_units, names_places (cronPlaces_oneLine host)]
  refine List.nodup_map_iff fun a b same => ?_
  have chars := congrArg String.toList same
  simpa [← String.toList_inj] using chars

theorem timerUnit_inj {a b : String} : timerUnit a = timerUnit b ↔ a = b := by
  simp [timerUnit, ← String.toList_inj]

theorem serviceUnit_inj {a b : String} : serviceUnit a = serviceUnit b ↔ a = b := by
  simp [serviceUnit, ← String.toList_inj]

theorem timerUnit_ne_serviceUnit (a b : String) : timerUnit a ≠ serviceUnit b := by
  intro same
  have chars := congrArg (fun s => s.toList.getLast?) same
  simp [timerUnit, serviceUnit] at chars

theorem file_of_generated {u : GeneratedTimerUnit} {name : String}
    (h : name ∈ (generatedUnitFiles u).map (·.1)) :
    name = timerUnit u.name ∨ name = serviceUnit u.name := by
  obtain ⟨file, mem, rfl⟩ := List.mem_map.mp h
  obtain mem | mem := List.mem_append.mp mem
  · split at mem
    · cases mem
    · exact .inl (congrArg Prod.fst (List.mem_singleton.mp mem))
  · split at mem
    · cases mem
    · exact .inr (congrArg Prod.fst (List.mem_singleton.mp mem))

theorem files_nodup {units : List GeneratedTimerUnit} (h : (units.map (·.name)).Nodup) :
    ((units.flatMap generatedUnitFiles).map (·.1)).Nodup := by
  induction units with
  | nil => exact List.nodup_nil
  | cons u rest ih =>
    rw [List.map_cons, List.nodup_cons] at h
    rw [List.flatMap_cons, List.map_append, List.nodup_append]
    refine ⟨?_, ih h.2, ?_⟩
    · unfold generatedUnitFiles
      split <;> split <;> simp [timerUnit_ne_serviceUnit]
    · intro a ha b hb same
      subst same
      obtain ⟨file, mem, rfl⟩ := List.mem_map.mp hb
      obtain ⟨v, hv, file_mem⟩ := List.mem_flatMap.mp mem
      have own := file_of_generated ha
      have other := file_of_generated (List.mem_map_of_mem file_mem)
      have differ : u.name ≠ v.name := fun e => h.1 (e ▸ List.mem_map_of_mem hv)
      obtain own | own := own <;> obtain other | other := other
      · exact differ (timerUnit_inj.mp (own.symm.trans other))
      · exact timerUnit_ne_serviceUnit _ _ (own.symm.trans other)
      · exact timerUnit_ne_serviceUnit _ _ (other.symm.trans own)
      · exact differ (serviceUnit_inj.mp (own.symm.trans other))

theorem isCronBlank_whitespace {c : Char} (h : isCronBlank c = true) : Text.isWhitespace c = true := by
  simp only [isCronBlank, Bool.or_eq_true, beq_iff_eq] at h
  obtain rfl | rfl := h <;> decide

theorem wordsOf_spread {ws gaps : List (List Char)} (len : gaps.length = ws.length)
    (plain : ∀ w ∈ ws, w ≠ [] ∧ IsPlain Text.isWhitespace w) (blank : ∀ gap ∈ gaps, IsCronGap gap)
    (rest : List Char) : wordsOf (spread ws gaps ++ rest) = ws ++ wordsOf rest := by
  induction ws generalizing gaps with
  | nil => rfl
  | cons w more ih =>
    cases gaps with
    | nil => cases len
    | cons gap gaps =>
      have word := plain w (List.mem_cons_self ..)
      have own := blank gap (List.mem_cons_self ..)
      have tail := ih (Nat.succ.inj len) (fun v hv => plain v (List.mem_cons_of_mem _ hv))
        (fun g hg => blank g (List.mem_cons_of_mem _ hg))
      rw [spread, List.append_assoc, wordsOf, words_word_gap word.2 word.1
        (fun c hc => isCronBlank_whitespace (own.2 c hc)) own.1, ← wordsOf, tail]
      rfl

theorem plain_of_cronChars {w : List Char} (h : OfCronChars w) :
    w ≠ [] ∧ IsPlain Text.isWhitespace w :=
  ⟨h.1, fun c hc => isCronChar_plain (List.all_eq_true.mp h.2 c hc)⟩

theorem wordsOf_entry {system : Bool} {line : List Char} {e : CronEntry}
    (h : ShowsEntry system line e) : wordsOf line = e.leading ++ wordsOf e.command := by
  obtain ⟨lead, gaps, before, len, blank, rfl⟩ := h.text
  have plain : ∀ w ∈ e.leading, w ≠ [] ∧ IsPlain Text.isWhitespace w := by
    intro w hw
    obtain own | own := List.mem_append.mp hw
    · exact plain_of_cronChars (e.expr.cronChars w own)
    · exact h.user_plain w (Option.mem_toList.mp own)
  rw [List.append_assoc, wordsOf, words_gap_append fun c hc => isCronBlank_whitespace (before c hc),
    ← wordsOf, wordsOf_spread len plain blank]

theorem minute_head (f : CronField .minute) :
    ∃ c cs, f.text = c :: cs ∧ (c.isDigit || c == '*') = true := by
  have value : ∀ {v : CronValue}, v.IsValid .minute → ∃ c cs, v.text = c :: cs ∧ c.isDigit := by
    intro v valid
    cases v with
    | name letters => cases valid
    | number digits =>
      have all := valid.1
      cases digits with
      | nil => cases all
      | cons c cs =>
        simp only [isDigits, List.all_cons, Bool.and_eq_true] at all
        exact ⟨c, cs, rfl, all.2.1⟩
  have first : ∀ {item : CronItem}, item.IsValid .minute →
      ∃ c cs, item.text = c :: cs ∧ (c.isDigit || c == '*') = true := by
    intro item valid
    cases item with
    | star step => exact ⟨'*', stepText step, rfl, by decide⟩
    | single v =>
      obtain ⟨c, cs, text, digit⟩ := value valid
      exact ⟨c, cs, text, by simp [digit]⟩
    | range lo hi step =>
      obtain ⟨c, cs, text, digit⟩ := value valid.1
      exact ⟨c, _, by rw [CronItem.text, text]; rfl, by simp [digit]⟩
  cases whole : f.items with
  | nil => exact absurd whole f.some_item
  | cons item rest =>
    obtain ⟨c, cs, text, begins⟩ := first (f.valid item (whole ▸ List.mem_cons_self ..))
    rw [CronField.text, whole]
    cases rest with
    | nil => exact ⟨c, cs, by simp [text], begins⟩
    | cons second more =>
      rw [List.map_cons, List.map_cons, List.intercalate_cons_cons, text]
      exact ⟨c, _, rfl, begins⟩

theorem commandOf_entry {f : CronFile} {user : Option (List Char)} {rest : List String}
    {command : List (List Char)} (own : user.isSome = f.isSystem)
    (h : rest.map String.toList = user.toList ++ command) :
    (commandOf f rest).toList = respaced command := by
  rw [commandOf, intercalate_toList]
  cases user with
  | none =>
    rw [if_neg (by simp [← own])]
    exact congrArg respaced h
  | some u =>
    have system : f.isSystem = true := own.symm
    rw [if_pos system, List.map_drop, h]
    rfl

theorem shortcutUnit_command (shortcut command : String) :
    (shortcutUnit f shortcut command).command = command := by
  unfold shortcutUnit
  split <;> rfl

theorem parse_entry {f : CronFile} {text : String} {e : CronEntry}
    (h : ShowsEntry f.isSystem text.toList e) :
    (∀ u, parseCronLine f text = some u → u.command.toList = respaced (wordsOf e.command)) ∧
    (wordsOf e.command ≠ [] → (parseCronLine f text).isSome) := by
  have chars := splitWhitespace_toList text
  rw [wordsOf_entry h] at chars
  rw [parseCronLine_eq]
  generalize splitWhitespace text = ws at chars ⊢
  cases he : e.expr with
  | shortcut name =>
    obtain ⟨first, rest, rfl, first_chars, rest_chars⟩ : ∃ first rest, ws = first :: rest ∧
        first.toList = name.text ∧ rest.map String.toList = e.user.toList ++ wordsOf e.command := by
      rw [CronEntry.leading, he, CronExpr.words, List.append_assoc, List.singleton_append] at chars
      exact List.map_eq_cons_iff.mp chars
    have at_sign : Text.startsWith first "@" := by
      simp only [Text.startsWith, first_chars]
      cases name <;> decide
    simp only [wordsUnit, at_sign, if_true]
    refine ⟨fun u found => ?_, fun some_word => ?_⟩
    · split at found
      · cases found
      · cases found
        rw [shortcutUnit_command]
        exact commandOf_entry h.user rest_chars
    · have some_rest : rest ≠ [] := by
        rintro rfl
        simp [some_word] at rest_chars
      simp [some_rest]
  | fields minute hour dom month dow =>
    obtain ⟨first, second, third, fourth, fifth, rest, rfl, first_chars, rest_chars⟩ :
        ∃ a b c d e' rest, ws = a :: b :: c :: d :: e' :: rest ∧ a.toList = minute.text ∧
          rest.map String.toList = e.user.toList ++ wordsOf e.command := by
      rw [CronEntry.leading, he, CronExpr.words, List.append_assoc] at chars
      obtain ⟨a, ws, rfl, ha, chars⟩ := List.map_eq_cons_iff.mp chars
      obtain ⟨b, ws, rfl, -, chars⟩ := List.map_eq_cons_iff.mp chars
      obtain ⟨c, ws, rfl, -, chars⟩ := List.map_eq_cons_iff.mp chars
      obtain ⟨d, ws, rfl, -, chars⟩ := List.map_eq_cons_iff.mp chars
      obtain ⟨e', ws, rfl, -, chars⟩ := List.map_eq_cons_iff.mp chars
      exact ⟨a, b, c, d, e', ws, rfl, ha, chars⟩
    obtain ⟨c, cs, text, begins⟩ := minute_head minute
    rw [text] at first_chars
    have no_at : Text.startsWith first "@" = false := by
      rw [show "@" = String.singleton '@' from rfl, startsWith_head first_chars, beq_eq_false_iff_ne]
      rintro rfl
      cases begins
    have cron : isCronLine first = true := by simp [isCronLine, first_chars, begins]
    simp only [wordsUnit, no_at, Bool.false_eq_true, if_false, cron, Bool.true_and]
    refine ⟨fun u found => ?_, fun some_word => ?_⟩
    · split at found
      · cases found
        exact commandOf_entry h.user rest_chars
      · cases found
    · have some_rest : rest ≠ [] := by
        rintro rfl
        simp [some_word] at rest_chars
      have long : 1 ≤ rest.length := List.length_pos_iff.mpr some_rest
      simp [long]

theorem entry_iff {host : CronHost} {f : CronFile} {text : String} {e : CronEntry}
    (place : .line f text ∈ cronPlaces host) (h : ShowsEntry f.isSystem text.toList e) :
    (∃ u, (CronPlace.line f text).units = [u] ∧ u.command.toList = e.command) ↔
      SingleSpaced Text.isWhitespace ' ' e.command := by
  have spaced : respaced (wordsOf e.command) = e.command ↔
      SingleSpaced Text.isWhitespace ' ' e.command := unwords_words_iff (by decide) e.command
  obtain ⟨command, given⟩ := parse_entry h
  rw [units_line (oneLine_place place)]
  constructor
  · rintro ⟨u, only, same⟩
    have found : parseCronLine f text = some u := by
      cases parsed : parseCronLine f text with
      | none => simp [parsed] at only
      | some v => simpa [parsed] using only
    exact spaced.mp ((command u found).symm.trans same)
  · intro single
    have kept : respaced (wordsOf e.command) = e.command := spaced.mpr single
    have some_word : wordsOf e.command ≠ [] := by
      intro none
      obtain ⟨c, hc, -⟩ := h.command
      rw [none] at kept
      rw [← kept] at hc
      cases hc
    obtain ⟨u, found⟩ := Option.isSome_iff_exists.mp (given some_word)
    exact ⟨u, by rw [found]; rfl, (command u found).trans kept⟩

theorem one_unit_per_entry_iff :
    OneUnitPerEntry host ↔ CronEntriesClear host := by
  constructor
  · intro h
    refine ⟨fun f text place free e shows => ?_, (named_iff host).mp h.named⟩
    exact (entry_iff place shows).mp (h.entry f text place free e shows)
  · intro h
    have named := (named_iff host).mpr h.apart
    refine ⟨scanCron_units host, fun f text place free e shows => ?_, named, files_nodup named⟩
    exact (entry_iff place shows).mpr (h.spaced f text place free e shows)

def twoJobs : CronHost where
  readDir dir := if dir = "/etc/cron.d" then .entries ["backup"] else .missing
  fileExists _ := false
  readFile path :=
    if path = "/etc/cron.d/backup" then
      some "0 1 * * * root /usr/local/bin/dump\n0 2 * * * root /usr/local/bin/prune\n"
    else none
  isRpmOwned _ := false

theorem two_jobs_share_a_unit : ¬ OneUnitPerEntry twoJobs := by
  intro h
  exact absurd ((named_iff twoJobs).mp h.named) (by decide)

end Inspectah
