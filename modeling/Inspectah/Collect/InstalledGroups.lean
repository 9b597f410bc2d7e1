import Mathlib.Data.String.Basic
import Inspectah.Collect.Executor
import Inspectah.Core.Snapshot
import Inspectah.Library.Grouping
import Inspectah.Library.Words

/-!
The package groups of a host: the installed ones are asked after all at once, and the answer
is cut at the group headers.
-/
namespace Inspectah

variable (state : Bool × List String) (info : GroupInfo)

/-- The lines under `Installed`, up to a blank line or the next heading. -/
def readGroupName (state : List String × Bool × Bool) (line : String) : List String × Bool × Bool :=
  let (names, inInstalled, ended) := state
  let trimmed := Text.trim line
  if ended then state
  else if Text.startsWith trimmed "Installed" then (names, true, false)
  else if Text.startsWith trimmed "Available" || trimmed.isEmpty then (names, inInstalled, inInstalled)
  else if inInstalled then (names ++ [trimmed], true, false)
  else state

def installedGroupNames (stdout : String) : List String :=
  ((Text.lines stdout).foldl readGroupName ([], false, false)).1

/-- `str::trim_start_matches` of two blanks. -/
def dropBlankPairs : List Char → List Char
  | ' ' :: ' ' :: rest => dropBlankPairs rest
  | cs => cs

def PACKAGE_HEADINGS : List String := ["Mandatory Packages:", "Default Packages:", "Optional Packages:"]

def readInfoLine (line : String) : Bool × List String :=
  let trimmed := Text.trim line
  if PACKAGE_HEADINGS.any (Text.startsWith trimmed) then (true, state.2)
  else if trimmed.isEmpty || Text.endsWith trimmed ":" then (false, state.2)
  else if state.1 then
    let name := String.ofList (dropBlankPairs trimmed.toList)
    (true, if name.isEmpty then state.2 else state.2 ++ [name])
  else state

def parseGroupInfoPackages (stdout : String) : List String :=
  Grouping.distinctSorted ((Text.lines stdout).foldl readInfoLine (false, [])).2

structure BatchState where
  groups : List InstalledGroup := []
  currentName : Option String := none
  currentBlock : String := ""

def BatchState.flushed (state : BatchState) : List InstalledGroup :=
  state.groups ++ state.currentName.toList.map fun name =>
    { name := name, members := parseGroupInfoPackages state.currentBlock }

def readBatchLine (state : BatchState) (line : String) : BatchState :=
  match Text.afterPrefix (Text.trim line) "Group:" with
  | some name => { groups := state.flushed, currentName := some (Text.trim name) }
  | none =>
    if state.currentName.isSome then
      { state with currentBlock := state.currentBlock ++ line ++ "\n" }
    else state

def parseBatchedGroupInfo (stdout : String) : List InstalledGroup :=
  ((Text.lines stdout).foldl readBatchLine {}).flushed

def collectInstalledGroups (groupList groupInfo : ExecResult) : Option (List InstalledGroup) :=
  if !groupList.success then none
  else if (installedGroupNames groupList.stdout).isEmpty then some []
  else if !groupInfo.success then some []
  else some (parseBatchedGroupInfo groupInfo.stdout)

def keepInstalled (hostNames : List String) (group : InstalledGroup) : InstalledGroup :=
  { group with members := group.members.filter hostNames.contains }

/-- A name as rpm allows it: no blank and no colon. -/
def IsPackageName (name : String) : Prop :=
  name.toList ≠ [] ∧ ∀ c ∈ name.toList, Text.isWhitespace c = false ∧ c ≠ ':'

/-- A text on one line, without blanks before or after it. -/
def IsTitle (text : String) : Prop :=
  text.toList ≠ [] ∧ '\n' ∉ text.toList ∧
    ∀ c, text.toList.head? = some c ∨ text.toList.getLast? = some c → Text.isWhitespace c = false

structure GroupInfo where
  name : String
  description : Option String
  mandatory : List String
  default : List String
  optional : List String
  conditional : List String
  titled : IsTitle name ∧ ∀ text ∈ description, IsTitle text
  named : ∀ p ∈ mandatory ++ default ++ optional ++ conditional, IsPackageName p

def headedRows (heading : String) (names : List String) : List String :=
  if names.isEmpty then [] else (" " ++ heading) :: names.map ("   " ++ ·)

def GroupInfo.body : List String :=
  info.description.toList.map (" Description: " ++ ·) ++
  headedRows "Mandatory Packages:" info.mandatory ++
  headedRows "Default Packages:" info.default ++
  headedRows "Optional Packages:" info.optional ++
  headedRows "Conditional Packages:" info.conditional

def GroupInfo.rows : List String := ["", "Group: " ++ info.name] ++ info.body

def unlines (rows : List String) : String := String.ofList (rows.flatMap fun row => row.toList ++ ['\n'])

/-- The output of `dnf group info` for these groups. -/
def printGroups (infos : List GroupInfo) : String := unlines (infos.flatMap GroupInfo.rows)

/-- Every package dnf lists under a group, but the conditional ones. -/
def GroupInfo.listed : List String := info.mandatory ++ info.default ++ info.optional

/-- A row that `lines` gives back as it is. -/
def IsRow (row : String) : Prop := '\n' ∉ row.toList ∧ row.toList.getLast? ≠ some '\r'

theorem lines_unlines {rows : List String} (plain : ∀ row ∈ rows, IsRow row) :
    Text.lines (unlines rows) = rows := by
  have text : unlines rows = String.ofList (joinLines (rows.map (·.toList)) []) := by
    rw [unlines, joinLines, List.flatMap_map, List.append_nil]
  have chars : ∀ row ∈ rows.map (·.toList), '\n' ∉ row :=
    List.forall_mem_map.mpr fun row mem => (plain row mem).1
  rw [text, lines_joinLines chars List.not_mem_nil, List.filter_singleton,
    List.isEmpty_nil, Bool.not_true, cond_false, List.append_nil, List.map_map, List.map_map]
  refine (List.map_congr_left fun row mem => ?_).trans (List.map_id rows)
  rw [Function.comp_apply, Function.comp_apply, dropCarriageReturn_of_last (plain row mem).2,
    String.ofList_toList]
  rfl

theorem unlines_concat (rows : List String) (row : String) :
    unlines rows ++ row ++ "\n" = unlines (rows ++ [row]) := by
  rw [← String.toList_inj]
  simp [unlines]

theorem IsPackageName.isTitle {name : String} (h : IsPackageName name) : IsTitle name := by
  refine ⟨h.1, fun newline => ?_, fun c ends => ?_⟩
  · have blank := (h.2 _ newline).1
    exact absurd blank (by decide)
  · rcases ends with first | last
    · exact (h.2 c (List.mem_of_head? first)).1
    · exact (h.2 c (List.mem_of_getLast? last)).1

theorem IsTitle.after {lead text : String} {c : Char} {more : List Char} (h : IsTitle text)
    (starts : lead.toList = c :: more) (solid : Text.isWhitespace c = false)
    (plain : '\n' ∉ lead.toList) : IsTitle (lead ++ text) := by
  refine ⟨?_, ?_, fun d ends => ?_⟩
  · rw [String.toList_append, starts]
    exact List.cons_ne_nil _ _
  · rw [String.toList_append, List.mem_append]
    exact fun mem => mem.elim plain h.2.1
  · rw [String.toList_append, List.getLast?_append_of_ne_nil _ h.1, starts] at ends
    rcases ends with first | last
    · rw [← Option.some.inj first]
      exact solid
    · exact h.2.2 d (.inr last)

theorem IsTitle.trim {lead text : String} (h : IsTitle text)
    (blank : ∀ c ∈ lead.toList, Text.isWhitespace c = true) : Text.trim (lead ++ text) = text := by
  rw [Text.trim, String.toList_append, trimChars_after blank h.2.2, String.ofList_toList]

theorem IsTitle.isRow {lead text : String} (h : IsTitle text) (plain : '\n' ∉ lead.toList) :
    IsRow (lead ++ text) := by
  refine ⟨?_, ?_⟩
  · rw [String.toList_append, List.mem_append]
    exact fun mem => mem.elim plain h.2.1
  · rw [String.toList_append, List.getLast?_append_of_ne_nil _ h.1]
    intro last
    exact absurd (h.2.2 _ (.inr last)) (by decide)

/-- The heading of a section, indented as dnf does it. -/
def ALL_HEADINGS : List String := PACKAGE_HEADINGS ++ ["Conditional Packages:"]

theorem isTitle_heading : ∀ heading ∈ ALL_HEADINGS, IsTitle heading := by
  intro heading mem
  have checked : ∀ heading ∈ ALL_HEADINGS, heading.toList ≠ [] ∧ '\n' ∉ heading.toList ∧
      (heading.toList.head?.all fun c => !Text.isWhitespace c) ∧
      (heading.toList.getLast?.all fun c => !Text.isWhitespace c) := by decide
  obtain ⟨ne, plain, first, last⟩ := checked heading mem
  refine ⟨ne, plain, fun c ends => ?_⟩
  rcases ends with h | h
  · simpa [h] using first
  · simpa [h] using last

theorem startsWith_head_ne {s pre : String} {c d : Char} {cs ds : List Char} (hs : s.toList = c :: cs)
    (hp : pre.toList = d :: ds) (ne : d ≠ c) : Text.startsWith s pre = false := by
  rw [← Bool.not_eq_true, Text.startsWith_iff, hs, hp, List.cons_prefix_cons]
  exact fun both => ne both.1

theorem blank_single : ∀ c ∈ " ".toList, Text.isWhitespace c = true := Text.forall_of_all (by decide)

theorem blank_triple : ∀ c ∈ "   ".toList, Text.isWhitespace c = true := Text.forall_of_all (by decide)

theorem readInfoLine_heading {heading : String} (mem : heading ∈ PACKAGE_HEADINGS)
    (state : Bool × List String) : readInfoLine state (" " ++ heading) = (true, state.2) := by
  have trimmed := (isTitle_heading heading (List.mem_append_left _ mem)).trim blank_single
  have found : PACKAGE_HEADINGS.any (Text.startsWith heading) = true :=
    List.any_eq_true.mpr ⟨heading, mem, Text.startsWith_iff.mpr (List.prefix_refl _)⟩
  rw [readInfoLine, trimmed, if_pos found]

theorem readInfoLine_conditional :
    readInfoLine state (" " ++ "Conditional Packages:") = (false, state.2) := by
  have trimmed := (isTitle_heading "Conditional Packages:" (by decide)).trim blank_single
  have other : PACKAGE_HEADINGS.any (Text.startsWith "Conditional Packages:") = false := by decide
  have colon : ("Conditional Packages:".isEmpty || Text.endsWith "Conditional Packages:" ":") = true := by
    decide
  rw [readInfoLine, trimmed, if_neg (by rw [other]; exact Bool.false_ne_true), if_pos colon]

theorem readInfoLine_blank : readInfoLine state "" = (false, state.2) := by
  have trimmed : Text.trim "" = "" := by decide
  have other : PACKAGE_HEADINGS.any (Text.startsWith "") = false := by decide
  rw [readInfoLine, trimmed, if_neg (by rw [other]; exact Bool.false_ne_true)]
  rfl

theorem heading_not_description {more : List Char} :
    PACKAGE_HEADINGS.any (Text.startsWith (String.ofList ("Description: ".toList ++ more))) = false := by
  rw [List.any_eq_false]
  intro heading mem starts
  have checked : ∀ heading ∈ PACKAGE_HEADINGS, 3 ≤ heading.toList.length ∧
      heading.toList.take 3 ≠ "Description: ".toList.take 3 := by decide
  obtain ⟨long, differs⟩ := checked heading mem
  obtain ⟨rest, whole⟩ := Text.startsWith_iff.mp starts
  rw [String.toList_ofList] at whole
  have front := congrArg (List.take 3) whole
  rw [List.take_append_of_le_length long, List.take_append_of_le_length (by decide)] at front
  exact differs front

theorem trim_description {text : String} (h : IsTitle text) :
    Text.trim (" Description: " ++ text) = String.ofList ("Description: ".toList ++ text.toList) := by
  have described : IsTitle ("Description: " ++ text) :=
    @IsTitle.after "Description: " text 'D' "escription: ".toList h (by decide) (by decide) (by decide)
  have whole : " Description: " ++ text = " " ++ ("Description: " ++ text) := by
    rw [← String.append_assoc]
    rfl
  rw [whole, described.trim blank_single, ← String.toList_append, String.ofList_toList]

theorem readInfoLine_description {text : String} (h : IsTitle text) (names : List String) :
    readInfoLine (false, names) (" Description: " ++ text) = (false, names) := by
  rw [readInfoLine, trim_description h]
  dsimp only
  rw [heading_not_description, if_neg Bool.false_ne_true]
  split
  · rfl
  · rw [if_neg Bool.false_ne_true]

theorem readInfoLine_name {name : String} (h : IsPackageName name) (state : Bool × List String) :
    readInfoLine state ("   " ++ name) = if state.1 then (true, state.2 ++ [name]) else state := by
  have trimmed := h.isTitle.trim blank_triple
  have no_heading : PACKAGE_HEADINGS.any (Text.startsWith name) = false := by
    rw [List.any_eq_false]
    intro heading mem starts
    have colon : ∀ heading ∈ PACKAGE_HEADINGS, ':' ∈ heading.toList := by decide
    exact (h.2 _ ((Text.startsWith_iff.mp starts).subset (colon heading mem))).2 rfl
  have named : (name.isEmpty || Text.endsWith name ":") = false := by
    rw [Bool.or_eq_false_iff]
    refine ⟨String.isEmpty_eq_false_iff.mpr fun empty => h.1 (by rw [empty]; rfl), ?_⟩
    rw [← Bool.not_eq_true, Text.endsWith, List.isPrefixOf_iff_prefix]
    intro colon
    exact (h.2 ':' (List.mem_reverse.mp (colon.subset (by decide)))).2 rfl
  have kept : String.ofList (dropBlankPairs name.toList) = name := by
    rw [dropBlankPairs, String.ofList_toList]
    intro rest starts
    have blank := (h.2 ' ' (by rw [starts]; exact List.mem_cons_self)).1
    exact absurd blank (by decide)
  rw [readInfoLine, trimmed]
  dsimp only
  rw [no_heading, named, kept, (Bool.or_eq_false_iff.mp named).1, if_neg Bool.false_ne_true,
    if_neg Bool.false_ne_true, if_neg Bool.false_ne_true]

theorem foldl_names {names : List String} (named : ∀ p ∈ names, IsPackageName p) :
    ∀ state : Bool × List String, (names.map ("   " ++ ·)).foldl readInfoLine state =
      if state.1 then (true, state.2 ++ names) else state := by
  induction names with
  | nil =>
    rintro ⟨under, names⟩
    cases under <;> simp
  | cons name rest ih =>
    rintro ⟨under, names⟩
    rw [List.map_cons, List.foldl_cons, readInfoLine_name (named name List.mem_cons_self),
      ih fun p mem => named p (List.mem_cons_of_mem _ mem)]
    cases under <;> simp

theorem foldl_headedRows {heading : String} (mem : heading ∈ PACKAGE_HEADINGS) {names : List String}
    (named : ∀ p ∈ names, IsPackageName p) (state : Bool × List String) :
    ((headedRows heading names).foldl readInfoLine state).2 = state.2 ++ names := by
  rw [headedRows]
  split
  · rename_i none
    rw [List.isEmpty_iff.mp none, List.append_nil]
    rfl
  · rw [List.foldl_cons, readInfoLine_heading mem, foldl_names named, if_pos rfl]

theorem foldl_conditional {names : List String} (named : ∀ p ∈ names, IsPackageName p)
    (state : Bool × List String) :
    ((headedRows "Conditional Packages:" names).foldl readInfoLine state).2 = state.2 := by
  rw [headedRows]
  split
  · rfl
  · rw [List.foldl_cons, readInfoLine_conditional, foldl_names named, if_neg Bool.false_ne_true]

theorem foldl_body :
    (info.body.foldl readInfoLine (false, [])).2 = info.listed := by
  have named : ∀ p, p ∈ info.mandatory ∨ p ∈ info.default ∨ p ∈ info.optional ∨ p ∈ info.conditional →
      IsPackageName p := fun p mem => info.named p (by simpa only [List.mem_append, or_assoc] using mem)
  have described : (info.description.toList.map (" Description: " ++ ·)).foldl readInfoLine (false, []) =
      (false, []) := by
    cases found : info.description with
    | none => rfl
    | some text =>
      rw [Option.toList_some, List.map_singleton, List.foldl_cons, List.foldl_nil,
        readInfoLine_description (info.titled.2 text found)]
  rw [GroupInfo.body, List.foldl_append, List.foldl_append, List.foldl_append, List.foldl_append,
    described, foldl_conditional fun p mem => named p (.inr (.inr (.inr mem))),
    foldl_headedRows (by decide) fun p mem => named p (.inr (.inr (.inl mem))),
    foldl_headedRows (by decide) fun p mem => named p (.inr (.inl mem)),
    foldl_headedRows (by decide) fun p mem => named p (.inl mem), List.nil_append]
  rfl

/-- A row of a group's block: `lines` keeps it, and it is no header. -/
structure IsBlockRow (row : String) : Prop where
  kept : IsRow row
  plain : Text.afterPrefix (Text.trim row) "Group:" = none

theorem afterPrefix_eq_none {s pre : String} (h : Text.startsWith s pre = false) :
    Text.afterPrefix s pre = none := by
  rw [Text.afterPrefix, if_neg (by rw [h]; exact Bool.false_ne_true)]

theorem blankRow : IsBlockRow "" := ⟨⟨by decide, by decide⟩, afterPrefix_eq_none (by decide)⟩

theorem isBlockRow_heading {heading : String} (mem : heading ∈ ALL_HEADINGS) :
    IsBlockRow (" " ++ heading) := by
  have title := isTitle_heading heading mem
  have other : ∀ heading ∈ ALL_HEADINGS, Text.startsWith heading "Group:" = false := by decide
  exact ⟨title.isRow (by decide), by rw [title.trim blank_single, afterPrefix_eq_none (other _ mem)]⟩

theorem isBlockRow_name {name : String} (h : IsPackageName name) : IsBlockRow ("   " ++ name) := by
  refine ⟨h.isTitle.isRow (by decide), ?_⟩
  rw [h.isTitle.trim blank_triple]
  refine afterPrefix_eq_none ?_
  rw [← Bool.not_eq_true, Text.startsWith_iff]
  intro header
  exact (h.2 ':' (header.subset (by decide))).2 rfl

theorem isBlockRow_description {text : String} (h : IsTitle text) :
    IsBlockRow (" Description: " ++ text) := by
  refine ⟨h.isRow (by decide), ?_⟩
  rw [trim_description h]
  have spelled : (String.ofList ("Description: ".toList ++ text.toList)).toList =
      'D' :: ("escription: ".toList ++ text.toList) := String.toList_ofList
  exact afterPrefix_eq_none (startsWith_head_ne spelled
    (show "Group:".toList = 'G' :: "roup:".toList by decide) (by decide))

theorem isBlockRow_headedRows {heading : String} (mem : heading ∈ ALL_HEADINGS) {names : List String}
    (named : ∀ p ∈ names, IsPackageName p) : ∀ row ∈ headedRows heading names, IsBlockRow row := by
  intro row listed
  rw [headedRows] at listed
  split at listed
  · cases listed
  · rcases List.mem_cons.mp listed with rfl | listed
    · exact isBlockRow_heading mem
    · obtain ⟨name, mem, rfl⟩ := List.mem_map.mp listed
      exact isBlockRow_name (named name mem)

theorem isBlockRow_body : ∀ row ∈ info.body, IsBlockRow row := by
  have named : ∀ p, p ∈ info.mandatory ∨ p ∈ info.default ∨ p ∈ info.optional ∨ p ∈ info.conditional →
      IsPackageName p := fun p mem => info.named p (by simpa only [List.mem_append, or_assoc] using mem)
  intro row mem
  simp only [GroupInfo.body, List.mem_append] at mem
  rcases mem with (((described | mem) | mem) | mem) | mem
  · obtain ⟨text, found, rfl⟩ := List.mem_map.mp described
    exact isBlockRow_description (info.titled.2 text (Option.mem_toList.mp found))
  · exact isBlockRow_headedRows (by decide) (fun p mem => named p (.inl mem)) row mem
  · exact isBlockRow_headedRows (by decide) (fun p mem => named p (.inr (.inl mem))) row mem
  · exact isBlockRow_headedRows (by decide) (fun p mem => named p (.inr (.inr (.inl mem)))) row mem
  · exact isBlockRow_headedRows (by decide) (fun p mem => named p (.inr (.inr (.inr mem)))) row mem

theorem parse_unlines {rows : List String} (plain : ∀ row ∈ rows, IsRow row) :
    parseGroupInfoPackages (unlines rows) =
      Grouping.distinctSorted (rows.foldl readInfoLine (false, [])).2 := by
  rw [parseGroupInfoPackages, lines_unlines plain]

def GroupInfo.collected : InstalledGroup :=
  { name := info.name, members := Grouping.distinctSorted info.listed }

theorem parse_body :
    parseGroupInfoPackages (unlines info.body) = Grouping.distinctSorted info.listed := by
  rw [parse_unlines fun row mem => (isBlockRow_body info row mem).kept, foldl_body]

theorem foldl_block {rows : List String} (block : ∀ row ∈ rows, IsBlockRow row) (groups : List InstalledGroup)
    (name : String) : ∀ before : List String, rows.foldl readBatchLine
        { groups := groups, currentName := some name, currentBlock := unlines before } =
      { groups := groups, currentName := some name, currentBlock := unlines (before ++ rows) } := by
  induction rows with
  | nil => simp
  | cons row rest ih =>
    intro before
    have step : readBatchLine
        { groups := groups, currentName := some name, currentBlock := unlines before } row =
        { groups := groups, currentName := some name, currentBlock := unlines (before ++ [row]) } := by
      rw [readBatchLine, (block row List.mem_cons_self).plain, ← unlines_concat]
      rfl
    rw [List.foldl_cons, step, ih fun r mem => block r (List.mem_cons_of_mem _ mem), List.append_assoc,
      List.singleton_append]

def BatchState.KeepsRows (state : BatchState) : Prop :=
  ∃ rows, (∀ row ∈ rows, IsRow row) ∧ state.currentBlock = unlines rows

/-- The blank row before a header changes nothing of the group before it. -/
theorem flushed_blank {state : BatchState} (kept : state.KeepsRows) :
    (readBatchLine state "").flushed = state.flushed := by
  obtain ⟨rows, plain, block⟩ := kept
  rw [readBatchLine, blankRow.plain]
  dsimp only
  split
  · rename_i reading
    obtain ⟨name, current⟩ := Option.isSome_iff_exists.mp reading
    have more : ∀ row ∈ rows ++ [""], IsRow row := by
      intro row mem
      rcases List.mem_append.mp mem with mem | mem
      · exact plain row mem
      · rw [List.mem_singleton.mp mem]
        exact blankRow.kept
    have same : parseGroupInfoPackages (state.currentBlock ++ "" ++ "\n") =
        parseGroupInfoPackages state.currentBlock := by
      rw [block, unlines_concat, parse_unlines more, parse_unlines plain, List.foldl_concat,
        readInfoLine_blank]
    simp only [BatchState.flushed, current, same]
  · rfl

theorem readBatchLine_header {name : String} (h : IsTitle name) (state : BatchState) :
    readBatchLine state ("Group: " ++ name) =
      { groups := state.flushed, currentName := some name } := by
  have header : IsTitle ("Group: " ++ name) :=
    @IsTitle.after "Group: " name 'G' "roup: ".toList h (by decide) (by decide) (by decide)
  have trimmed : Text.trim ("Group: " ++ name) = "Group:" ++ (" " ++ name) := by
    have whole := @IsTitle.trim "" _ header (by simp)
    rw [String.empty_append] at whole
    rw [whole, ← String.append_assoc]
    rfl
  rw [readBatchLine, trimmed, Text.afterPrefix_append]
  dsimp only
  rw [h.trim blank_single]

theorem foldl_group {state : BatchState} (kept : state.KeepsRows) :
    info.rows.foldl readBatchLine state =
      { groups := state.flushed, currentName := some info.name, currentBlock := unlines info.body } := by
  have start : unlines [] = "" := by decide
  rw [GroupInfo.rows, List.foldl_append, List.foldl_cons, List.foldl_cons, List.foldl_nil,
    readBatchLine_header info.titled.1, flushed_blank kept, ← start,
    foldl_block (isBlockRow_body info), List.nil_append]

theorem flushed_groups (infos : List GroupInfo) : ∀ {state : BatchState}, state.KeepsRows →
    ((infos.flatMap GroupInfo.rows).foldl readBatchLine state).flushed =
      state.flushed ++ infos.map GroupInfo.collected := by
  induction infos with
  | nil => intro state _; simp
  | cons info rest ih =>
    intro state kept
    have next : BatchState.KeepsRows
        { groups := state.flushed, currentName := some info.name, currentBlock := unlines info.body } :=
      ⟨info.body, fun row mem => (isBlockRow_body info row mem).kept, rfl⟩
    rw [List.flatMap_cons, List.foldl_append, foldl_group info kept, ih next, List.map_cons,
      BatchState.flushed, parse_body]
    simp [GroupInfo.collected]

theorem isRow_rows : ∀ row ∈ info.rows, IsRow row := by
  intro row mem
  rcases List.mem_append.mp mem with head | mem
  · simp only [List.mem_cons, List.not_mem_nil, or_false] at head
    rcases head with rfl | rfl
    · exact blankRow.kept
    · exact info.titled.1.isRow (by decide)
  · exact (isBlockRow_body info row mem).kept

theorem parseBatchedGroupInfo_printGroups (infos : List GroupInfo) :
    parseBatchedGroupInfo (printGroups infos) = infos.map GroupInfo.collected := by
  have plain : ∀ row ∈ infos.flatMap GroupInfo.rows, IsRow row := by
    intro row mem
    obtain ⟨info, -, mem⟩ := List.mem_flatMap.mp mem
    exact isRow_rows info row mem
  have start : unlines [] = "" := by decide
  rw [parseBatchedGroupInfo, printGroups, lines_unlines plain,
    flushed_groups infos ⟨[], fun _ mem => absurd mem List.not_mem_nil, start.symm⟩]
  rfl

end Inspectah
