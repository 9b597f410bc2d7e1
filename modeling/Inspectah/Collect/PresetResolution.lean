import Inspectah.Collect.Executor
import Inspectah.Core.HostFiles
import Inspectah.Core.Text
import Inspectah.Library.FirstKnown
import Inspectah.Library.Grouping
import Mathlib.Data.List.Sort
import Mathlib.Data.String.Basic

/-!
The preset of a service unit: the program's order of reading the rules against systemd's.
-/
namespace Inspectah

variable (glob : ShellGlob) (dirs : PresetDirs) (unit : String)

structure PresetRule where
  action : String
  pattern : String
  deriving DecidableEq

/-- The entries of the vendor's and the administrator's directory, and what their files read as. -/
structure PresetHost where
  usrDir : DirRead
  etcDir : DirRead
  readUsr : String → Option String
  readEtc : String → Option String

def presetFilesIn (dir : DirRead) (path : String) (read : String → Option String) :
    List (String × String) × List String :=
  match dir with
  | .entries names =>
    let presets := names.filter (Text.endsWith · ".preset")
    (presets.filterMap fun name => (read name).map fun content => (name, content),
      (presets.filter fun name => (read name).isNone).map fun name => path ++ "/" ++ name)
  | .denied => ([], [path])
  | .missing => ([], [])

def lineRule (line : String) : Option PresetRule :=
  if (Text.trim line).isEmpty || Text.startsWith (Text.trim line) "#" then none
  else
    match splitWhitespace (Text.trim line) with
    | action :: pattern :: _ => some ⟨action, pattern⟩
    | _ => none

def fileRules (content : String) : List PresetRule := (Text.lines content).filterMap lineRule

/-- In the order of the names; of two files with one name the vendor's comes first. -/
def sortFiles (files : List (String × String)) : List (String × String) :=
  files.insertionSort fun a b => a.1 ≤ b.1

def readPresetRules (host : PresetHost) : Except String (List PresetRule × List String) :=
  let usr := presetFilesIn host.usrDir "/usr/lib/systemd/system-preset" host.readUsr
  let etc := presetFilesIn host.etcDir "/etc/systemd/system-preset" host.readEtc
  let failures := usr.2 ++ etc.2
  if !host.usrDir.isRead && !host.etcDir.isRead && failures.isEmpty then
    .error "neither /usr/lib/systemd/system-preset nor /etc/systemd/system-preset readable"
  else .ok ((sortFiles (usr.1 ++ etc.1)).flatMap fun file => fileRules file.2, failures)

def globStar (rest : List Char → Bool) : List Char → Bool
  | [] => rest []
  | c :: text => rest (c :: text) || globStar rest text

def globMatchInner : List Char → List Char → Bool
  | [], text => text.isEmpty
  | p :: pattern, text =>
    if p = '*' then globStar (globMatchInner pattern) text
    else
      match text with
      | c :: rest => (p == '?' || p == c) && globMatchInner pattern rest
      | [] => false

def globMatch (pattern text : String) : Bool := globMatchInner pattern.toList text.toList

/-- What the action of a rule says; any other word says nothing. -/
def presetOfAction (action : String) : Option PresetDefault :=
  if action = "enable" then some .enable else if action = "disable" then some .disable else none

def resolvePresetDefault (rules : List PresetRule) : Option PresetDefault :=
  (rules.find? fun rule => globMatch rule.pattern unit).bind fun rule => presetOfAction rule.action

structure UnitFileEntry where
  unit : String
  state : String
  deriving DecidableEq

/-- The lines of `systemctl list-unit-files`, less its heading and its count. -/
def parseUnitLine (line : String) : Option UnitFileEntry :=
  if (Text.trim line).isEmpty || Text.startsWith (Text.trim line) "UNIT FILE" ||
      Text.endsWith (Text.trim line) "unit files listed." then none
  else
    match splitWhitespace (Text.trim line) with
    | unit :: state :: _ => some ⟨unit, state⟩
    | _ => none

def parseUnitFiles (stdout : String) : List UnitFileEntry :=
  (Text.lines stdout).filterMap parseUnitLine

def isRealService : Bool :=
  !Text.startsWith unit "dbus-" && Text.endsWith unit ".service"

inductive ParsedUnitState where
  | durable (state : ServiceUnitState)
  | silentDrop
  | warn (detail : String)
  deriving DecidableEq

def parseUnitState (rawState : String) : ParsedUnitState :=
  if rawState = "enabled" then .durable .enabled
  else if rawState = "disabled" then .durable .disabled
  else if rawState = "masked" then .durable .masked
  else if rawState ∈ ["static", "alias", "indirect", "generated"] then .silentDrop
  else if rawState ∈ ["enabled-runtime", "masked-runtime", "transient", "linked-runtime"] then
    .warn "transient state is not migrated"
  else if rawState = "linked" then .warn "linked unit requires manual handling"
  else if rawState = "bad" then .warn "unit file is invalid or unreadable"
  else .warn "unrecognized systemd state"

def diverges (state : ServiceUnitState) (preset : Option PresetDefault) : Bool :=
  match state, preset with
  | .disabled, some .enable => true
  | .enabled, some .disable => true
  | _, _ => false

/-- The row of a unit, if its state is the administrator's doing; its package is looked
    up afterwards. -/
def stateChange (rules : List PresetRule) (entry : UnitFileEntry) : Option ServiceStateChange :=
  if entry.unit.toList.contains '@' then none
  else
    match parseUnitState entry.state with
    | .durable state =>
      let preset := resolvePresetDefault entry.unit rules
      if isRealService entry.unit && (state = .masked || diverges state preset) then
        some { unit := entry.unit, currentState := state, defaultState := preset }
      else none
    | _ => none

def stateChanges (rules : List PresetRule) (units : List UnitFileEntry) : List ServiceStateChange :=
  units.filterMap (stateChange rules)

/-- What stars and question marks stand for. -/
inductive Wild : List Char → List Char → Prop where
  | nil : Wild [] []
  | star {pattern : List Char} (skipped : List Char) {text : List Char} (rest : Wild pattern text) :
      Wild ('*' :: pattern) (skipped ++ text)
  | one {pattern : List Char} (c : Char) {text : List Char} (rest : Wild pattern text) :
      Wild ('?' :: pattern) (c :: text)
  | own {pattern : List Char} {c : Char} (star : c ≠ '*') (one : c ≠ '?') {text : List Char}
      (rest : Wild pattern text) : Wild (c :: pattern) (c :: text)

theorem wild_star_iff {pattern text : List Char} :
    Wild ('*' :: pattern) text ↔ ∃ skipped rest, text = skipped ++ rest ∧ Wild pattern rest := by
  constructor
  · intro h
    generalize whole : '*' :: pattern = p at h
    cases h with
    | nil => cases whole
    | star skipped rest =>
      obtain ⟨-, rfl⟩ := List.cons.inj whole
      exact ⟨skipped, _, rfl, rest⟩
    | one c rest => cases whole
    | own star one rest => exact absurd (List.cons.inj whole).1.symm star
  · rintro ⟨skipped, rest, rfl, h⟩
    exact .star skipped h

theorem wild_cons_iff {p : Char} {pattern text : List Char} (not_star : p ≠ '*') :
    Wild (p :: pattern) text ↔
      ∃ c rest, text = c :: rest ∧ (p = '?' ∨ p = c) ∧ Wild pattern rest := by
  constructor
  · intro h
    cases h with
    | star skipped rest => exact absurd rfl not_star
    | one c rest => exact ⟨c, _, rfl, .inl rfl, rest⟩
    | own star one rest => exact ⟨p, _, rfl, .inr rfl, rest⟩
  · rintro ⟨c, rest, rfl, rfl | rfl, h⟩
    · exact .one c h
    · by_cases one : p = '?'
      · subst one
        exact .one _ h
      · exact .own not_star one h

theorem globStar_iff {rest : List Char → Bool} {text : List Char} :
    globStar rest text = true ↔ ∃ skipped more, text = skipped ++ more ∧ rest more = true := by
  induction text with
  | nil =>
    constructor
    · intro h
      exact ⟨[], [], rfl, h⟩
    · rintro ⟨skipped, more, whole, h⟩
      obtain ⟨rfl, rfl⟩ := List.append_eq_nil_iff.mp whole.symm
      exact h
  | cons c text ih =>
    rw [globStar, Bool.or_eq_true, ih]
    constructor
    · rintro (h | ⟨skipped, more, rfl, h⟩)
      · exact ⟨[], c :: text, rfl, h⟩
      · exact ⟨c :: skipped, more, rfl, h⟩
    · rintro ⟨skipped, more, whole, h⟩
      cases skipped with
      | nil =>
        rw [List.nil_append] at whole
        exact .inl (whole ▸ h)
      | cons d skipped =>
        obtain ⟨-, rfl⟩ := List.cons.inj whole
        exact .inr ⟨skipped, more, rfl, h⟩

/-- The matcher is right about stars, question marks and everything else as itself. -/
theorem globMatchInner_iff (pattern text : List Char) :
    globMatchInner pattern text = true ↔ Wild pattern text := by
  induction pattern generalizing text with
  | nil =>
    rw [globMatchInner, List.isEmpty_iff]
    constructor
    · rintro rfl
      exact .nil
    · rintro ⟨⟩
      rfl
  | cons p pattern ih =>
    unfold globMatchInner
    by_cases star : p = '*'
    · subst star
      rw [if_pos rfl, globStar_iff, wild_star_iff]
      simp only [ih]
    · rw [if_neg star, wild_cons_iff star]
      cases text with
      | nil => simp
      | cons c text => simp [ih]

open FirstKnown

/-- The preset files of the vendor and of the administrator, by name. -/
structure PresetDirs where
  usr : List (String × String)
  etc : List (String × String)
  usrDistinct : (usr.map (·.1)).Nodup
  etcDistinct : (etc.map (·.1)).Nodup

def presetsOf (files : List (String × String)) : List (String × String) :=
  files.filter fun file => Text.endsWith file.1 ".preset"

def PresetDirs.host : PresetHost where
  usrDir := .entries (dirs.usr.map (·.1))
  etcDir := .entries (dirs.etc.map (·.1))
  readUsr name := dirs.usr.lookup name
  readEtc name := dirs.etc.lookup name

/-- The administrator's file takes the place of the vendor's of the same name. -/
def PresetDirs.replaces (name : String) : Bool :=
  (dirs.etc.map (·.1)).contains name

/-- The host's own shell wildcards; without brackets there are stars, question marks and plain
    characters. -/
structure ShellGlob where
  takes : String → String → Bool
  plain : ∀ pattern unit, '[' ∉ pattern.toList →
    (takes pattern unit = true ↔ Wild pattern.toList unit.toList)

/-- A line that is a comment or begins with another word is no directive. -/
def directiveOf (line : String) : Option PresetRule :=
  if Text.startsWith (Text.trim line) "#" || Text.startsWith (Text.trim line) ";" then none
  else
    match splitWhitespace (Text.trim line) with
    | action :: pattern :: _ =>
      if action ∈ ["enable", "disable", "ignore"] then some ⟨action, pattern⟩ else none
    | _ => none

def PresetDirs.inForce : List (String × String) :=
  sortFiles (presetsOf dirs.etc ++ (presetsOf dirs.usr).filter fun file => !dirs.replaces file.1)

def PresetDirs.directives : List PresetRule :=
  dirs.inForce.flatMap fun file => (Text.lines file.2).filterMap directiveOf

def systemdPreset : Option PresetDefault :=
  (dirs.directives.find? fun rule => glob.takes rule.pattern unit).bind fun rule =>
    presetOfAction rule.action

structure PresetFile where
  name : String
  content : String
  inForce : Bool

structure PresetLine where
  text : String
  inForce : Bool

def PresetDirs.files : List PresetFile :=
  (presetsOf dirs.usr).map (fun file => ⟨file.1, file.2, !dirs.replaces file.1⟩) ++
    (presetsOf dirs.etc).map fun file => ⟨file.1, file.2, true⟩

def PresetDirs.readingOrder : List PresetFile :=
  dirs.files.insertionSort fun a b => a.name ≤ b.name

def PresetFile.lines (file : PresetFile) : List PresetLine :=
  (Text.lines file.content).map fun text => ⟨text, file.inForce⟩

def PresetDirs.lines : List PresetLine := dirs.readingOrder.flatMap PresetFile.lines

def ruleTaken (line : PresetLine) : Option PresetRule :=
  (lineRule line.text).filter fun rule => globMatch rule.pattern unit

def directiveTaken (line : PresetLine) : Option PresetRule :=
  if line.inForce then (directiveOf line.text).filter fun rule => glob.takes rule.pattern unit
  else none

theorem find_filterMap {α β : Type} (rule : α → Option β) (p : β → Bool) (lines : List α) :
    (lines.filterMap rule).find? p = lines.findSome? fun line => (rule line).filter p := by
  induction lines with
  | nil => rfl
  | cons line lines ih =>
    rw [List.findSome?_cons, ← ih]
    cases read : rule line with
    | none => rw [List.filterMap_cons_none read]; rfl
    | some r =>
      rw [List.filterMap_cons_some read, List.find?_cons, Option.filter_some]
      cases p r <;> rfl

theorem presetFilesIn_lookup {files : List (String × String)} (distinct : (files.map (·.1)).Nodup)
    (path : String) :
    presetFilesIn (.entries (files.map (·.1))) path (fun name => files.lookup name) =
      (presetsOf files, []) := by
  have found : ∀ file ∈ presetsOf files, files.lookup file.1 = some file.2 := by
    intro file mem
    exact lookup_of_mem distinct (List.mem_filter.mp mem).1
  have names : (files.map (·.1)).filter (Text.endsWith · ".preset") =
      (presetsOf files).map (·.1) := List.filter_map
  simp only [presetFilesIn, names]
  have read : ((presetsOf files).map (·.1)).filterMap (fun name =>
      (files.lookup name).map fun content => (name, content)) = presetsOf files := by
    rw [List.filterMap_map]
    conv_rhs => rw [← List.filterMap_some (l := presetsOf files)]
    refine List.filterMap_congr fun file mem => ?_
    rw [Function.comp_apply, found file mem]
    rfl
  have failed : ((presetsOf files).map (·.1)).filter (fun name => (files.lookup name).isNone) =
      [] := by
    rw [List.filter_eq_nil_iff]
    intro name mem
    obtain ⟨file, hfile, rfl⟩ := List.mem_map.mp mem
    simp [found file hfile]
  rw [read, failed, List.map_nil]

theorem sortFiles_presets :
    sortFiles (presetsOf dirs.usr ++ presetsOf dirs.etc) =
      dirs.readingOrder.map fun file => (file.name, file.content) := by
  unfold sortFiles PresetDirs.readingOrder PresetDirs.files
  rw [List.map_insertionSort _ (fun a b : String × String => a.1 ≤ b.1) _ _
    fun a _ b _ => Iff.rfl]
  simp [Function.comp_def]

theorem readPresetRules_host :
    readPresetRules dirs.host = .ok (dirs.lines.filterMap (lineRule ·.text), []) := by
  have usr := presetFilesIn_lookup dirs.usrDistinct "/usr/lib/systemd/system-preset"
  have etc := presetFilesIn_lookup dirs.etcDistinct "/etc/systemd/system-preset"
  simp only [readPresetRules, PresetDirs.host, usr, etc, sortFiles_presets, DirRead.isRead]
  simp [PresetDirs.lines, PresetFile.lines, fileRules, List.flatMap_map, List.filterMap_flatMap,
    List.filterMap_map]

theorem nodup_inForce :
    ((presetsOf dirs.etc ++
      (presetsOf dirs.usr).filter fun file => !dirs.replaces file.1).map (·.1)).Nodup := by
  rw [List.map_append, List.nodup_append]
  refine ⟨dirs.etcDistinct.sublist (List.filter_sublist.map _),
    dirs.usrDistinct.sublist ((List.filter_sublist.trans List.filter_sublist).map _), ?_⟩
  rintro name own other replaced rfl
  obtain ⟨file, mem, rfl⟩ := List.mem_map.mp own
  obtain ⟨vendor, hvendor, same⟩ := List.mem_map.mp replaced
  have kept := (List.mem_filter.mp hvendor).2
  have taken : dirs.replaces vendor.1 = true := by
    rw [PresetDirs.replaces, List.contains_iff_mem, same]
    exact List.mem_map_of_mem (List.mem_filter.mp mem).1
  rw [taken] at kept
  cases kept

theorem inForce_of_readingOrder :
    (dirs.readingOrder.filter (·.inForce)).map (fun file => (file.name, file.content)) =
      dirs.inForce := by
  have same : (dirs.files.filter (·.inForce)).map (fun file => (file.name, file.content)) =
      (presetsOf dirs.usr).filter (fun file => !dirs.replaces file.1) ++ presetsOf dirs.etc := by
    simp [PresetDirs.files, List.filter_map, Function.comp_def]
  have perm : ((dirs.readingOrder.filter (·.inForce)).map fun file =>
      (file.name, file.content)).Perm (presetsOf dirs.etc ++
        (presetsOf dirs.usr).filter fun file => !dirs.replaces file.1) := by
    refine (((List.perm_insertionSort _ _).filter _).map _).trans ?_
    rw [same]
    exact List.perm_append_comm
  refine Grouping.eq_sortBy (·.1) ?_ perm (nodup_inForce dirs)
  rw [List.pairwise_map]
  exact (Grouping.pairwise_sortBy PresetFile.name dirs.files).filter _

theorem resolve_eq :
    resolvePresetDefault unit (dirs.lines.filterMap (lineRule ·.text)) =
      (dirs.lines.findSome? (ruleTaken unit)).bind fun rule => presetOfAction rule.action := by
  have taken : ruleTaken unit = fun line =>
      (lineRule line.text).filter fun rule => globMatch rule.pattern unit := by
    funext line
    rw [ruleTaken]
  rw [resolvePresetDefault, find_filterMap, taken]

theorem lines_inForce :
    (dirs.lines.filter (·.inForce)).map (·.text) = dirs.inForce.flatMap fun file =>
      Text.lines file.2 := by
  rw [← inForce_of_readingOrder, List.flatMap_map, PresetDirs.lines]
  induction dirs.readingOrder with
  | nil => rfl
  | cons file files ih =>
    rw [List.flatMap_cons, List.filter_append, List.map_append, ih, PresetFile.lines,
      List.filter_map, List.filter_cons]
    cases kept : file.inForce <;> simp [Function.comp_def]

theorem systemd_eq :
    systemdPreset glob dirs unit =
      (dirs.lines.findSome? (directiveTaken glob unit)).bind fun rule =>
        presetOfAction rule.action := by
  have directives : dirs.directives =
      (dirs.lines.filter (·.inForce)).filterMap fun line => directiveOf line.text := by
    rw [PresetDirs.directives, ← List.filterMap_flatMap, ← lines_inForce, List.filterMap_map, Function.comp_def]
  rw [systemdPreset, directives, find_filterMap]
  refine congrArg (fun found : Option PresetRule => found.bind fun rule =>
    presetOfAction rule.action) ?_
  induction dirs.lines with
  | nil => rw [List.filter_nil, List.findSome?_nil, List.findSome?_nil]
  | cons line lines ih =>
    rw [List.filter_cons, List.findSome?_cons, directiveTaken]
    cases kept : line.inForce with
    | true => rw [if_pos rfl, if_pos rfl, List.findSome?_cons, ih]
    | false => rw [if_neg Bool.false_ne_true, if_neg Bool.false_ne_true, ih]

/-- Units as `systemctl` lists them, each once. -/
structure UnitListing where
  stdout : String
  once : ((parseUnitFiles stdout).map (·.unit)).Nodup

def UnitListing.entries (listing : UnitListing) : List UnitFileEntry := parseUnitFiles listing.stdout

def PresetDefault.state : PresetDefault → ServiceUnitState
  | .enable => .enabled
  | .disable => .disabled

def IsNonTemplate : Prop := '@' ∉ unit.toList

/-- One row for each service that is masked or not as its rule says, and for no unit two. -/
structure RowsFollow (glob : ShellGlob) (dirs : PresetDirs) (rules : List PresetRule)
    (listing : UnitListing) : Prop where
  differing : ∀ entry ∈ listing.entries, IsNonTemplate entry.unit → isRealService entry.unit →
    ∀ state, parseUnitState entry.state = .durable state → state ≠ .masked →
      ((∃ row ∈ stateChanges rules listing.entries, row.unit = entry.unit) ↔
        ∃ preset, systemdPreset glob dirs entry.unit = some preset ∧ preset.state ≠ state)
  masked : ∀ entry ∈ listing.entries, IsNonTemplate entry.unit → isRealService entry.unit →
    entry.state = "masked" →
      ∃ row, (stateChanges rules listing.entries).filter (·.unit == entry.unit) = [row] ∧
        row.currentState = .masked
  once : ((stateChanges rules listing.entries).map (·.unit)).Nodup

def PresetsFollowed : Prop :=
  ∃ rules, readPresetRules dirs.host = .ok (rules, []) ∧
    (∀ unit, IsNonTemplate unit → Text.endsWith unit ".service" →
      resolvePresetDefault unit rules = systemdPreset glob dirs unit) ∧
    ∀ listing, RowsFollow glob dirs rules listing

/-- The first line either takes is taken by both, or followed, for the other, by one of its
    verdict. -/
def FirstTakenAgrees : Prop :=
  Agree (ruleTaken unit) (directiveTaken glob unit) (fun rule => presetOfAction rule.action)
    dirs.lines

section

variable {rules : List PresetRule}

theorem stateChange_unit {entry : UnitFileEntry} {row : ServiceStateChange}
    (h : stateChange rules entry = some row) : row.unit = entry.unit := by
  unfold stateChange at h
  split at h
  · cases h
  · split at h
    · dsimp only at h
      split at h
      · cases h
        rfl
      · cases h
    · cases h

theorem units_of_rows (units : List UnitFileEntry) :
    ((stateChanges rules units).map (·.unit)).Sublist (units.map (·.unit)) := by
  induction units with
  | nil => exact List.Sublist.slnil
  | cons entry units ih =>
    rw [stateChanges, List.map_cons]
    cases row : stateChange rules entry with
    | none =>
      rw [List.filterMap_cons_none row]
      exact ih.cons _
    | some change =>
      rw [List.filterMap_cons_some row, List.map_cons, stateChange_unit row]
      exact ih.cons_cons _

theorem no_rows_of_unit {units : List UnitFileEntry} {unit : String}
    (absent : unit ∉ units.map (·.unit)) : (stateChanges rules units).filter (·.unit == unit) = [] := by
  rw [List.filter_eq_nil_iff]
  intro row mem same
  have listed : row.unit ∈ units.map (·.unit) :=
    (units_of_rows units).subset (List.mem_map_of_mem mem)
  rw [beq_iff_eq.mp same] at listed
  exact absent listed

theorem rows_of_unit {units : List UnitFileEntry} (once : (units.map (·.unit)).Nodup)
    {entry : UnitFileEntry} (mem : entry ∈ units) :
    (stateChanges rules units).filter (·.unit == entry.unit) =
      (stateChange rules entry).toList := by
  obtain ⟨front, back, rfl⟩ := List.append_of_mem mem
  rw [List.map_append, List.map_cons, List.nodup_append, List.nodup_cons] at once
  have absent : entry.unit ∉ front.map (·.unit) := fun mem =>
    once.2.2 _ mem _ List.mem_cons_self rfl
  have before := @no_rows_of_unit rules _ _ absent
  have after := @no_rows_of_unit rules _ _ once.2.1.1
  rw [stateChanges] at before after ⊢
  rw [List.filterMap_append, List.filter_append, before, List.nil_append]
  cases row : stateChange rules entry with
  | none => rw [List.filterMap_cons_none row, after, Option.toList_none]
  | some change =>
    rw [List.filterMap_cons_some row, List.filter_cons_of_pos (by simp [stateChange_unit row]),
      after, Option.toList_some]

theorem diverges_iff {state : ServiceUnitState} (not_masked : state ≠ .masked)
    {preset : Option PresetDefault} :
    diverges state preset = true ↔ ∃ p, preset = some p ∧ p.state ≠ state := by
  cases state with
  | masked => exact absurd rfl not_masked
  | enabled => rcases preset with _ | _ | _ <;> simp [diverges, PresetDefault.state]
  | disabled => rcases preset with _ | _ | _ <;> simp [diverges, PresetDefault.state]

theorem stateChange_of_service {entry : UnitFileEntry} (plain : IsNonTemplate entry.unit)
    (real : isRealService entry.unit) {state : ServiceUnitState}
    (durable : parseUnitState entry.state = .durable state) :
    stateChange rules entry =
      if state = .masked ∨ diverges state (resolvePresetDefault entry.unit rules) then
        some { unit := entry.unit, currentState := state,
               defaultState := resolvePresetDefault entry.unit rules }
      else none := by
  have no_at : '@' ∉ entry.unit.toList := plain
  simp [stateChange, no_at, durable, real]

theorem rows_follow {glob : ShellGlob} {dirs : PresetDirs}
    (decides : ∀ unit, IsNonTemplate unit → Text.endsWith unit ".service" →
      resolvePresetDefault unit rules = systemdPreset glob dirs unit) (listing : UnitListing) :
    RowsFollow glob dirs rules listing where
  differing entry mem plain real state durable not_masked := by
    have service : Text.endsWith entry.unit ".service" := (Bool.and_eq_true_iff.mp real).2
    have rows := @rows_of_unit rules _ listing.once _ mem
    rw [stateChange_of_service plain real durable, decides _ plain service] at rows
    rw [← diverges_iff not_masked]
    constructor
    · rintro ⟨row, hrow, same⟩
      have found : row ∈ (stateChanges rules listing.entries).filter (·.unit == entry.unit) :=
        List.mem_filter.mpr ⟨hrow, beq_iff_eq.mpr same⟩
      rw [UnitListing.entries, rows] at found
      by_contra agrees
      rw [if_neg (not_or.mpr ⟨not_masked, agrees⟩)] at found
      cases found
    · intro differs
      rw [if_pos (.inr differs), Option.toList_some] at rows
      have found := List.mem_filter.mp (rows ▸ List.mem_cons_self)
      exact ⟨_, found.1, beq_iff_eq.mp found.2⟩
  masked entry mem plain real masked := by
    have durable : parseUnitState entry.state = .durable .masked := by
      rw [masked]
      rfl
    have rows := @rows_of_unit rules _ listing.once _ mem
    rw [stateChange_of_service plain real durable, if_pos (.inl rfl), Option.toList_some] at rows
    exact ⟨_, rows, rfl⟩
  once := listing.once.sublist (units_of_rows _)

end

theorem agrees_of_plain {glob : ShellGlob} {dirs : PresetDirs}
    (plain : ∀ line ∈ dirs.lines, line.inForce ∧ directiveOf line.text = lineRule line.text ∧
      ∀ rule, lineRule line.text = some rule → '[' ∉ rule.pattern.toList) (unit : String) :
    FirstTakenAgrees glob dirs unit := by
  have same : ∀ line ∈ dirs.lines, ruleTaken unit line = directiveTaken glob unit line := by
    intro line mem
    obtain ⟨kept, directive, no_bracket⟩ := plain line mem
    rw [directiveTaken, if_pos kept, directive, ruleTaken]
    cases read : lineRule line.text with
    | none => rfl
    | some rule =>
      have takes : globMatch rule.pattern unit = glob.takes rule.pattern unit := by
        rw [Bool.eq_iff_iff, glob.plain _ _ (no_bracket rule read)]
        exact globMatchInner_iff _ _
      rw [Option.filter_some, Option.filter_some, takes]
  rw [FirstTakenAgrees, ← agree_iff, findSome_congr same]

def plainGlob : ShellGlob where
  takes := globMatch
  plain _ _ _ := globMatchInner_iff _ _

def oneVendorPreset : PresetDirs where
  usr := [("90-default.preset", "# defaults\nenable sshd.service\ndisable *")]
  etc := []
  usrDistinct := by simp
  etcDistinct := by simp

/-- The administrator's file of the same name, which systemd reads alone, is read second. -/
def replacedPreset : PresetDirs where
  usr := [("90-default.preset", "enable sshd.service\n")]
  etc := [("90-default.preset", "disable sshd.service\n")]
  usrDistinct := by simp
  etcDistinct := by simp

end Inspectah
