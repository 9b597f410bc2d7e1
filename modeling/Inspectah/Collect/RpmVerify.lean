import Inspectah.Core.ByteCuts
import Inspectah.Core.Packages
import Mathlib.Data.List.Infix

/-!
Two readings of a line of `rpm -Va`: the collector's, at fixed bytes, and the documented one.
-/
namespace Inspectah

def pathAfterFlags (tail : List Char) : List Char :=
  match Text.trimChars tail with
  | 'c' :: ' ' :: stripped => Text.trimChars stripped
  | rest => rest

def rpmVaEntry (line : String) : Parsed RpmVaEntry :=
  let line := Text.trimChars line.toList
  if line.isEmpty then .nothing
  else if lineBytes line < 11 then .nothing
  else
    match splitAtByte 9 line with
    | none => .panics
    | some (flags, tail) =>
      .entry { path := String.ofList (pathAfterFlags tail), flags := String.ofList flags }

def gatherEntries : List (Parsed RpmVaEntry) → Option (List RpmVaEntry)
  | [] => some []
  | .panics :: _ => none
  | .nothing :: rest => gatherEntries rest
  | .entry e :: rest => (gatherEntries rest).map (e :: ·)

def parseRpmVa (output : String) : Option (List RpmVaEntry) :=
  gatherEntries ((Text.lines output).map rpmVaEntry)

structure RpmVaLine where
  flags : String
  attr : Option Char
  path : String
  missing : Bool := false
  sizeChanged : Bool := false
  modeChanged : Bool := false
  digestChanged : Bool := false
  deviceChanged : Bool := false
  linkChanged : Bool := false
  userChanged : Bool := false
  groupChanged : Bool := false
  mtimeChanged : Bool := false
  capsChanged : Bool := false
  deriving DecidableEq

def ATTRIBUTES : List Char := ['c', 'd', 'g', 'l', 'r']

def parseAttrAndPath (rest : List Char) : Option (Option Char × List Char) :=
  match trimStart rest with
  | [] => none
  | first :: after =>
    if first ∈ ATTRIBUTES then
      if (trimStart after).isEmpty then none else some (some first, trimStart after)
    else if first = '/' then some (none, first :: after)
    else none

def MISSING : List Char := "missing".toList

def missingLine (attr : Option Char) (path : List Char) : RpmVaLine where
  flags := "missing"
  attr := attr
  path := String.ofList path
  missing := true

def flaggedLine (flags : List Char) (attr : Option Char) (path : List Char) : RpmVaLine where
  flags := String.ofList flags
  attr := attr
  path := String.ofList path
  sizeChanged := flags[0]? == some 'S'
  modeChanged := flags[1]? == some 'M'
  digestChanged := flags[2]? == some '5'
  deviceChanged := flags[3]? == some 'D'
  linkChanged := flags[4]? == some 'L'
  userChanged := flags[5]? == some 'U'
  groupChanged := flags[6]? == some 'G'
  mtimeChanged := flags[7]? == some 'T'
  capsChanged := flags[8]? == some 'P'

def parseRpmVaLine (line : String) : Parsed RpmVaLine :=
  let line := Text.trimChars line.toList
  if line.isEmpty then .nothing
  else if MISSING.isPrefixOf line then
    match parseAttrAndPath (line.drop MISSING.length) with
    | none => .nothing
    | some (attr, path) => .entry (missingLine attr path)
  else if lineBytes line < 9 then .nothing
  else
    match splitAtByte 9 line with
    | none => .panics
    | some (flags, rest) =>
      match parseAttrAndPath rest with
      | none => .nothing
      | some (attr, path) =>
        if flags.length ≠ 9 then .nothing else .entry (flaggedLine flags attr path)

example : parseRpmVaLine "missing     c /etc/deleted.conf" =
    .entry (missingLine (some 'c') "/etc/deleted.conf".toList) := by decide +kernel

def SameMarks (e : RpmVaEntry) (d : RpmVaLine) : Prop :=
  if d.missing then (Text.startsWith e.flags "missing" : Prop) else e.flags = d.flags

structure LineAgrees (line : String) : Prop where
  total : rpmVaEntry line ≠ .panics
  entry_iff : (∃ e, rpmVaEntry line = .entry e) ↔ ∃ d, parseRpmVaLine line = .entry d
  same : ∀ e d, rpmVaEntry line = .entry e → parseRpmVaLine line = .entry d →
    e.path = d.path ∧ SameMarks e d
  absolute : ∀ e, rpmVaEntry line = .entry e → Text.startsWith e.path "/"

def IsAbsolute (path : List Char) : Prop := path.head? = some '/'

def NamesPath (text path : List Char) : Prop :=
  (trimStart text = path ∧ IsAbsolute path) ∨
    ∃ letter ∈ ATTRIBUTES, ∃ after, trimStart text = letter :: after ∧ trimStart after = path ∧
      path ≠ []

/-- The text after the marker of a missing file, or after nine flags. -/
def documentedTail (line : List Char) : Option (List Char) :=
  if MISSING.isPrefixOf line then some (line.drop MISSING.length)
  else
    match splitAtByte 9 line with
    | some (flags, tail) => if flags.length = 9 then some tail else none
    | none => none

/-- A short line names no file; any other has an absolute path, perhaps after `c` and a space,
    where the documented form has it. -/
def ReadAlike (line : List Char) : Prop :=
  if lineBytes line < 11 then ¬∃ tail path, documentedTail line = some tail ∧ NamesPath tail path
  else
    ∃ flags tail path, splitAtByte 9 line = some (flags, tail) ∧ IsAbsolute path ∧
      (trimStart tail = path ∨
        ∃ after, trimStart tail = 'c' :: ' ' :: after ∧ trimStart after = path) ∧
      ∃ rest, documentedTail line = some rest ∧ NamesPath rest path

/-- No blank is at the end. -/
def Tight (cs : List Char) : Prop := ∀ c, cs.getLast? = some c → Text.isWhitespace c = false

theorem Tight.suffix {a b : List Char} (tight : Tight b) (h : a <:+ b) : Tight a := by
  intro c last
  obtain ⟨more, rfl⟩ := h
  refine tight c ?_
  rw [List.getLast?_append, last, Option.some_or]

theorem tight_trimChars (cs : List Char) : Tight (Text.trimChars cs) := fun _ last =>
  ends_trimChars (.inr last)

theorem Tight.trimChars {cs : List Char} (tight : Tight cs) : Text.trimChars cs = trimStart cs := by
  have kept : Tight (trimStart cs) := tight.suffix (List.dropWhile_suffix _)
  have whole : (trimStart cs).reverse.dropWhile Text.isWhitespace = (trimStart cs).reverse := by
    cases back : (trimStart cs).reverse with
    | nil => rfl
    | cons c rest =>
      have last : (trimStart cs).getLast? = some c := by
        rw [← List.head?_reverse, back, List.head?_cons]
      rw [List.dropWhile_cons_of_neg (by rw [kept c last]; exact Bool.false_ne_true)]
  change ((trimStart cs).reverse.dropWhile Text.isWhitespace).reverse = _
  rw [whole, List.reverse_reverse]

theorem mem_attributes_of_slash {c : Char} (letter : c ∈ ATTRIBUTES) : c ≠ '/' := by
  rintro rfl
  exact absurd letter (by decide)

theorem parseAttrAndPath_iff {rest path : List Char} :
    (∃ attr, parseAttrAndPath rest = some (attr, path)) ↔ NamesPath rest path := by
  unfold parseAttrAndPath NamesPath
  cases trimmed : trimStart rest with
  | nil =>
    constructor
    · rintro ⟨_, found⟩
      cases found
    · rintro (⟨rfl, absolute⟩ | ⟨_, _, _, same, _⟩)
      · cases absolute
      · cases same
  | cons first after =>
    dsimp only
    by_cases letter : first ∈ ATTRIBUTES
    · rw [if_pos letter]
      have not_slash := mem_attributes_of_slash letter
      constructor
      · rintro ⟨attr, found⟩
        split at found
        · cases found
        next filled =>
          cases found
          exact .inr ⟨first, letter, after, rfl, rfl, by simpa [List.isEmpty_iff] using filled⟩
      · rintro (⟨rfl, absolute⟩ | ⟨_, _, after', same, rfl, filled⟩)
        · exact absurd (Option.some.inj absolute) not_slash
        · obtain ⟨rfl, rfl⟩ := List.cons.inj same
          exact ⟨some first, if_neg (by simpa [List.isEmpty_iff] using filled)⟩
    · rw [if_neg letter]
      constructor
      · rintro ⟨attr, found⟩
        split at found
        next slash =>
          cases found
          exact .inl ⟨rfl, congrArg some slash⟩
        · cases found
      · rintro (⟨rfl, absolute⟩ | ⟨_, known, _, same, _⟩)
        · exact ⟨none, if_pos (Option.some.inj absolute)⟩
        · exact absurd ((List.cons.inj same).1 ▸ known) letter

theorem parseRpmVaLine_iff {line : String} {path : List Char} :
    (∃ d, parseRpmVaLine line = .entry d ∧ d.path = String.ofList path) ↔
      ∃ tail, documentedTail (Text.trimChars line.toList) = some tail ∧ NamesPath tail path := by
  unfold parseRpmVaLine documentedTail
  dsimp only
  generalize Text.trimChars line.toList = t
  by_cases missing : MISSING.isPrefixOf t
  · have filled : t.isEmpty = false := by
      cases t with
      | nil => cases missing
      | cons => rfl
    simp only [filled, Bool.false_eq_true, if_false, missing, if_true, Option.some.injEq,
      exists_eq_left']
    rw [← parseAttrAndPath_iff]
    cases parsed : parseAttrAndPath (t.drop MISSING.length) with
    | none => simp
    | some found =>
      obtain ⟨attr, path'⟩ := found
      simp [missingLine, String.ofList_inj]
  · simp only [missing, Bool.false_eq_true, if_false]
    cases cut : splitAtByte 9 t with
    | none =>
      constructor
      · rintro ⟨d, found, -⟩
        split at found
        · cases found
        · split at found <;> cases found
      · rintro ⟨_, found, -⟩
        cases found
    | some parts =>
      obtain ⟨flags, rest⟩ := parts
      obtain ⟨whole, size⟩ := splitAtByte_append cut
      have filled : t.isEmpty = false := by
        cases t with
        | nil => cases cut
        | cons => rfl
      have long : ¬lineBytes t < 9 := by
        rw [whole, lineBytes_append, size]
        omega
      simp only [filled, Bool.false_eq_true, if_false, long]
      by_cases ascii : flags.length = 9
      · simp only [ascii, ne_eq, not_true, if_false, if_true, Option.some.injEq, exists_eq_left']
        rw [← parseAttrAndPath_iff]
        cases parsed : parseAttrAndPath rest with
        | none => simp
        | some found =>
          obtain ⟨attr, path'⟩ := found
          simp [flaggedLine, String.ofList_inj]
      · simp only [ascii, ne_eq, not_false_iff, if_true, if_false]
        cases parsed : parseAttrAndPath rest with
        | none => simp
        | some found => simp

/-- The path the collector takes is what follows, or what follows `c` and a space. -/
theorem pathAfterFlags_iff {tail path : List Char} (tight : Tight tail)
    (absolute : IsAbsolute path) :
    pathAfterFlags tail = path ↔ trimStart tail = path ∨
      ∃ after, trimStart tail = 'c' :: ' ' :: after ∧ trimStart after = path := by
  unfold pathAfterFlags
  rw [tight.trimChars]
  have kept : Tight (trimStart tail) := tight.suffix (List.dropWhile_suffix _)
  split
  next stripped shape =>
    have inner : Tight stripped := by
      rw [shape] at kept
      exact kept.suffix ⟨['c', ' '], rfl⟩
    rw [inner.trimChars, shape]
    constructor
    · exact fun same => .inr ⟨stripped, rfl, same⟩
    · rintro (rfl | ⟨after, same, rest⟩)
      · cases absolute
      · cases same
        exact rest
  next other =>
    constructor
    · exact .inl
    · rintro (same | ⟨after, shape, -⟩)
      · exact same
      · exact absurd shape (other after)

theorem absolute_iff {path : List Char} :
    Text.startsWith (String.ofList path) "/" ↔ IsAbsolute path := by
  rw [Text.startsWith_iff, @String.toList_ofList path, IsAbsolute]
  cases path with
  | nil => simp
  | cons c rest => simp [List.cons_prefix_cons, eq_comm]

theorem rpmVaEntry_long {line : String} (long : ¬lineBytes (Text.trimChars line.toList) < 11) :
    rpmVaEntry line =
      match splitAtByte 9 (Text.trimChars line.toList) with
      | none => .panics
      | some (flags, tail) =>
        .entry { path := String.ofList (pathAfterFlags tail), flags := String.ofList flags } := by
  unfold rpmVaEntry
  dsimp only
  have filled : ¬(Text.trimChars line.toList).isEmpty := by
    intro empty
    rw [List.isEmpty_iff.mp empty] at long
    exact long (by decide)
  rw [if_neg filled, if_neg long]

theorem rpmVaEntry_short {line : String} (short : lineBytes (Text.trimChars line.toList) < 11) :
    rpmVaEntry line = .nothing := by
  unfold rpmVaEntry
  dsimp only
  rw [if_pos short, ite_self]

theorem sameMarks_of_entries {line : String} {flags tail : List Char} {d : RpmVaLine}
    (cut : splitAtByte 9 (Text.trimChars line.toList) = some (flags, tail))
    (documented : parseRpmVaLine line = .entry d) (path : String) :
    SameMarks { path := path, flags := String.ofList flags } d := by
  unfold parseRpmVaLine at documented
  dsimp only at documented
  generalize Text.trimChars line.toList = t at cut documented
  split at documented
  · cases documented
  split at documented
  next missing =>
    split at documented
    · cases documented
    cases documented
    obtain ⟨rest, rfl⟩ := List.isPrefixOf_iff_prefix.mp missing
    have marked : MISSING <+: flags := by
      have bytes : lineBytes MISSING + 2 = 9 := by decide
      rw [← bytes, splitAtByte_past] at cut
      obtain ⟨⟨more, _⟩, -, same⟩ := Option.map_eq_some_iff.mp cut
      cases same
      exact List.prefix_append _ _
    refine (if_pos rfl).mpr (Text.startsWith_iff.mpr ?_)
    change MISSING <+: (String.ofList flags).toList
    rw [String.toList_ofList]
    exact marked
  · split at documented
    · cases documented
    rw [cut] at documented
    dsimp only at documented
    split at documented
    · cases documented
    split at documented
    · cases documented
    cases documented
    exact (if_neg Bool.false_ne_true).mpr rfl

theorem parsers_agree_iff (line : String) :
    LineAgrees line ↔ ReadAlike (Text.trimChars line.toList) := by
  unfold ReadAlike
  split
  next short =>
    have nothing := rpmVaEntry_short short
    constructor
    · rintro agree ⟨tail, path, found, named⟩
      obtain ⟨d, documented, -⟩ := parseRpmVaLine_iff.mpr ⟨tail, found, named⟩
      obtain ⟨e, entry⟩ := agree.entry_iff.mpr ⟨d, documented⟩
      rw [nothing] at entry
      cases entry
    · intro unnamed
      have none : ∀ d, parseRpmVaLine line ≠ .entry d := by
        intro d documented
        obtain ⟨tail, found, named⟩ := parseRpmVaLine_iff.mp
          ⟨d, documented, (String.ofList_toList).symm⟩
        exact unnamed ⟨tail, _, found, named⟩
      refine ⟨by rw [nothing]; nofun, ?_, ?_, ?_⟩
      · rw [nothing]
        refine iff_of_false ?_ fun ⟨d, found⟩ => none d found
        rintro ⟨_, found⟩
        cases found
      · intro e d entry
        rw [nothing] at entry
        cases entry
      · intro e entry
        rw [nothing] at entry
        cases entry
  next long =>
    have tight := tight_trimChars line.toList
    have read := rpmVaEntry_long long
    cases cut : splitAtByte 9 (Text.trimChars line.toList) with
    | none =>
      rw [cut] at read
      constructor
      · exact fun agree => absurd read agree.total
      · rintro ⟨_, _, _, found, -⟩
        cases found
    | some parts =>
      obtain ⟨flags, tail⟩ := parts
      rw [cut] at read
      dsimp only at read
      have inner : Tight tail := tight.suffix ⟨flags, (splitAtByte_append cut).1.symm⟩
      constructor
      · intro agree
        obtain ⟨d, documented⟩ := agree.entry_iff.mp ⟨_, read⟩
        have absolute := absolute_iff.mp (agree.absolute _ read)
        refine ⟨flags, tail, pathAfterFlags tail, rfl, absolute,
          (pathAfterFlags_iff inner absolute).mp rfl, ?_⟩
        exact parseRpmVaLine_iff.mp ⟨d, documented, (agree.same _ _ read documented).1.symm⟩
      · rintro ⟨_, _, path, same, absolute, place, rest⟩
        cases same
        have taken := (pathAfterFlags_iff inner absolute).mpr place
        obtain ⟨d, documented, path_eq⟩ := parseRpmVaLine_iff.mpr rest
        rw [taken] at read
        refine ⟨by rw [read]; nofun, ⟨fun _ => ⟨d, documented⟩, fun _ => ⟨_, read⟩⟩, ?_, ?_⟩
        · intro e d' entry documented'
          rw [read] at entry
          rw [documented] at documented'
          cases entry
          cases documented'
          exact ⟨path_eq.symm, sameMarks_of_entries cut documented _⟩
        · intro e entry
          rw [read] at entry
          cases entry
          exact absolute_iff.mpr absolute

/-- A ghost file keeps its letter in the collector's path. -/
theorem ghost_file_misread :
    parseRpmVaLine "S.5....T.  g /etc/machine-info" =
        .entry (flaggedLine "S.5....T.".toList (some 'g') "/etc/machine-info".toList) ∧
      ¬LineAgrees "S.5....T.  g /etc/machine-info" := by
  have documented : parseRpmVaLine "S.5....T.  g /etc/machine-info" =
      .entry (flaggedLine "S.5....T.".toList (some 'g') "/etc/machine-info".toList) := by
    decide +kernel
  have read : rpmVaEntry "S.5....T.  g /etc/machine-info" =
      .entry { path := "g /etc/machine-info", flags := "S.5....T." } := by decide +kernel
  exact ⟨documented, fun agree => absurd (agree.same _ _ read documented).1 (by decide +kernel)⟩

end Inspectah
