import Mathlib.Data.List.TakeWhile
import Inspectah.Core.Json
import Inspectah.Core.Text

/-!
The SELinux booleans a scan collects: those of `semanage boolean -l` whose two states
differ, or those of the booleans' directory if there is no listing.
-/
namespace Inspectah

/-- The regex class `\w`: no word character is a blank or one of the marks around a state. -/
structure WordClass where
  isWord : Char → Bool
  delimited : ∀ c, isWord c → !Text.isWhitespace c && c != ',' && c != ')'

/-- A boolean and the two states it is listed with. -/
structure BooleanRow where
  name : String
  current : String
  default : String
  deriving DecidableEq

def takeSome (p : Char → Bool) (cs : List Char) : Option (List Char × List Char) :=
  if (cs.takeWhile p).isEmpty then none else some (cs.takeWhile p, cs.dropWhile p)

def takeChar (c : Char) : List Char → Option (List Char)
  | [] => none
  | first :: rest => if first = c then some rest else none

def skipBlanks (cs : List Char) : List Char := cs.dropWhile Text.isWhitespace

/-- `BOOL_RE`. What follows each part cannot belong to it, so each part is as long as
    it can be. -/
def boolCaptures (words : WordClass) (line : List Char) : Option (BooleanRow × String) := do
  let (name, rest) ← takeSome (fun c => !Text.isWhitespace c) line
  let (_, rest) ← takeSome Text.isWhitespace rest
  let (current, rest) ← takeSome words.isWord (← takeChar '(' rest)
  let (default, rest) ← takeSome words.isWord (skipBlanks (← takeChar ',' (skipBlanks rest)))
  let (_, desc) ← takeSome Text.isWhitespace (← takeChar ')' rest)
  return (⟨String.ofList name, String.ofList current, String.ofList default⟩,
    String.ofList (Text.trimChars desc))

def booleanRecord (row : BooleanRow) (description : String) : Json :=
  .obj [("current", .str row.current), ("default", .str row.default),
    ("description", .str description), ("name", .str row.name), ("non_default", .bool true)]

def parseSemanageLine (words : WordClass) (line : String) : Option Json :=
  let trimmed := Text.trim line
  if trimmed.isEmpty || Text.startsWith trimmed "SELinux boolean" then none
  else
    (boolCaptures words trimmed.toList).bind fun (row, desc) =>
      if row.current = row.default then none else some (booleanRecord row desc)

def parseSemanageBooleans (words : WordClass) (text : String) : List Json :=
  (Text.lines text).filterMap (parseSemanageLine words)

def onOrOff (part : String) : String := if part = "1" then "on" else "off"

def splitBlanks (s : String) : List String :=
  (Text.splitOn Text.isWhitespace s).filter fun word => !word.isEmpty

def sysfsRow (file : String × Option String) : Option BooleanRow :=
  file.2.bind fun content =>
    match splitBlanks content with
    | current :: pending :: _ => some ⟨file.1, onOrOff current, onOrOff pending⟩
    | _ => none

def readBoolsFromFs (files : List (String × Option String)) : List Json :=
  files.filterMap fun file =>
    (sysfsRow file).bind fun row =>
      if row.current = row.default then none else some (booleanRecord row "")

/-- The output of `semanage`, if it succeeded, and the files of the directory, with what can be
    read. -/
structure BooleanProbe where
  semanage : Option String
  sysfs : Option (List (String × Option String))

def BooleanProbe.listing (probe : BooleanProbe) : Option String :=
  probe.semanage.filter fun stdout => !(Text.trim stdout).isEmpty

def collectBooleanOverrides (words : WordClass) (probe : BooleanProbe) : List Json :=
  match probe.listing with
  | some stdout => parseSemanageBooleans words stdout
  | none => readBoolsFromFs (probe.sysfs.getD [])

def IsState (state : List Char) : Prop :=
  state ≠ [] ∧ ∀ c ∈ state, Text.isWhitespace c = false ∧ c ≠ ',' ∧ c ≠ ')'

/-- A row of the listing: the name, the two states in brackets, and perhaps a description. -/
def ShowsBoolean (line : List Char) (row : BooleanRow) : Prop :=
  ∃ gap before after desc : List Char,
    line = row.name.toList ++ gap ++ '(' :: row.current.toList ++ before ++ ',' :: after ++
      row.default.toList ++ ')' :: desc ∧
    row.name ≠ "" ∧ (∀ c ∈ row.name.toList, Text.isWhitespace c = false) ∧
    gap ≠ [] ∧ (∀ c ∈ gap ++ before ++ after, Text.isWhitespace c) ∧
    IsState row.current.toList ∧ IsState row.default.toList ∧
    desc.head?.all Text.isWhitespace

def BooleanProbe.Reports (probe : BooleanProbe) (row : BooleanRow) : Prop :=
  match probe.listing with
  | some stdout => ∃ line ∈ Text.lines stdout, ShowsBoolean (Text.trim line).toList row
  | none => ∃ file ∈ probe.sysfs.getD [], sysfsRow file = some row

theorem takeSome_some {p : Char → Bool} {cs part rest : List Char}
    (h : takeSome p cs = some (part, rest)) :
    cs = part ++ rest ∧ part ≠ [] ∧ ∀ c ∈ part, p c := by
  unfold takeSome at h
  split at h
  · cases h
  next some_part =>
    simp only [Option.some.injEq, Prod.mk.injEq] at h
    obtain ⟨rfl, rfl⟩ := h
    refine ⟨(List.takeWhile_append_dropWhile).symm, ?_, fun c hc => List.mem_takeWhile_imp hc⟩
    simpa using some_part

theorem takeChar_some {c : Char} {cs rest : List Char} (h : takeChar c cs = some rest) :
    cs = c :: rest := by
  cases cs with
  | nil => cases h
  | cons first others =>
    simp only [takeChar] at h
    split at h
    next same => rw [same, Option.some.inj h]
    · cases h

theorem skipBlanks_eq (cs : List Char) :
    ∃ blanks, cs = blanks ++ skipBlanks cs ∧ ∀ c ∈ blanks, Text.isWhitespace c :=
  ⟨cs.takeWhile Text.isWhitespace, (List.takeWhile_append_dropWhile).symm,
    fun _ hc => List.mem_takeWhile_imp hc⟩

theorem isState_of_word {words : WordClass} {cs : List Char} (some_word : cs ≠ [])
    (all : ∀ c ∈ cs, words.isWord c) : IsState cs := by
  refine ⟨some_word, fun c hc => ?_⟩
  have delimited := words.delimited c (all c hc)
  simp only [Bool.and_eq_true, Bool.not_eq_true', bne_iff_ne] at delimited
  exact ⟨delimited.1.1, delimited.1.2, delimited.2⟩

theorem boolCaptures_shows {words : WordClass} {line : List Char} {row : BooleanRow} {desc : String}
    (h : boolCaptures words line = some (row, desc)) : ShowsBoolean line row := by
  simp only [boolCaptures, Option.bind_eq_bind, Option.pure_def, Option.bind_eq_some_iff,
    Option.some.injEq, Prod.mk.injEq, Prod.exists] at h
  obtain ⟨name, rest₁, hname, gap, rest₂, hgap, rest₃, hopen, current, rest₄, hcurrent, rest₅,
    hcomma, default, rest₆, hdefault, rest₇, hclose, blanks, tail, hblanks, rfl, -⟩ := h
  obtain ⟨rfl, some_name, name_plain⟩ := takeSome_some hname
  obtain ⟨rfl, some_gap, gap_blank⟩ := takeSome_some hgap
  obtain rfl := takeChar_some hopen
  obtain ⟨rfl, some_current, current_word⟩ := takeSome_some hcurrent
  obtain ⟨before, split_before, before_blank⟩ := skipBlanks_eq rest₄
  obtain ⟨after, split_after, after_blank⟩ := skipBlanks_eq rest₅
  obtain ⟨default_eq, some_default, default_word⟩ := takeSome_some hdefault
  obtain rfl := takeChar_some hclose
  obtain ⟨rfl, some_blanks, blanks_blank⟩ := takeSome_some hblanks
  refine ⟨gap, before, after, blanks ++ tail, ?_, ?_, ?_, some_gap, ?_, ?_, ?_, ?_⟩
  · rw [split_before, takeChar_some hcomma, split_after, default_eq]
    simp
  · simpa [String.ext_iff] using some_name
  · simpa using name_plain
  · simp only [List.mem_append]
    rintro c ((hc | hc) | hc)
    · exact gap_blank c hc
    · exact before_blank c hc
    · exact after_blank c hc
  · simpa using isState_of_word some_current current_word
  · simpa using isState_of_word some_default default_word
  · cases blanks with
    | nil => exact absurd rfl some_blanks
    | cons first others => simpa using blanks_blank first (by simp)

theorem mem_collectBooleanOverrides {words : WordClass} {probe : BooleanProbe} {b : Json}
    (h : b ∈ collectBooleanOverrides words probe) :
    ∃ row description, probe.Reports row ∧ row.current ≠ row.default ∧
      b = booleanRecord row description := by
  unfold collectBooleanOverrides at h
  unfold BooleanProbe.Reports
  cases listed : probe.listing with
  | some stdout =>
    rw [listed] at h
    obtain ⟨line, hline, parsed⟩ := List.mem_filterMap.mp h
    unfold parseSemanageLine at parsed
    simp only at parsed
    split at parsed
    · cases parsed
    · obtain ⟨⟨row, desc⟩, captured, recorded⟩ := Option.bind_eq_some_iff.mp parsed
      split at recorded
      · cases recorded
      next differ =>
        exact ⟨row, desc, ⟨line, hline, boolCaptures_shows captured⟩, differ,
          (Option.some.inj recorded).symm⟩
  | none =>
    rw [listed] at h
    obtain ⟨file, hfile, read⟩ := List.mem_filterMap.mp h
    obtain ⟨row, found, recorded⟩ := Option.bind_eq_some_iff.mp read
    split at recorded
    · cases recorded
    next differ => exact ⟨row, "", ⟨file, hfile, found⟩, differ, (Option.some.inj recorded).symm⟩

end Inspectah
