import Inspectah.Collect.Booleans
import Inspectah.Collect.CronWords
import Inspectah.Collect.InstalledGroups
import Inspectah.Library.Words

/-!
The file contexts a scan collects: those of the two files of the policy store, or without
these those of `semanage fcontext -l -C`. The store separates fields by blanks, the
listing by columns.
-/
namespace Inspectah

open Columns

variable (q : PolicyEquivalence) {s : String}

/-- `user:role:type`, and a level that may hold colons of its own. -/
def parseSelinuxContext (text : String) : Option SelinuxContext := do
  let (user, rest) ← Text.splitOnce ':' text
  let (role, rest) ← Text.splitOnce ':' rest
  let (type, level) :=
    match Text.splitOnce ':' rest with
    | some (type, level) => (type, some level)
    | none => (rest, none)
  if user.isEmpty || role.isEmpty || type.isEmpty then none
  else some ⟨user, role, type, level⟩

def parseLocalFlagToken (token : String) : Option FcontextFileType :=
  match token with
  | "--" => some .regularFile
  | "-d" => some .directory
  | "-c" => some .charDevice
  | "-b" => some .blockDevice
  | "-s" => some .socket
  | "-l" => some .symlink
  | "-p" => some .namedPipe
  | _ => none

def FcontextFileType.parseColumn (text : String) : Option FcontextFileType :=
  match Text.asciiLower (Text.trim text) with
  | "all files" => some .all
  | "regular file" => some .regularFile
  | "directory" => some .directory
  | "character device" => some .charDevice
  | "block device" => some .blockDevice
  | "socket" => some .socket
  | "symbolic link" => some .symlink
  | "named pipe" => some .namedPipe
  | _ => none

/-- The rule of a path expression, unless its context cannot be read. -/
def contextRule (spec : String) (fileType : FcontextFileType) (context : String) :
    Option FcontextRule :=
  if Text.eqIgnoreAsciiCase context "<<none>>" then some (.unlabel spec fileType .included none)
  else (parseSelinuxContext context).map fun ctx => .label spec fileType ctx .included none

def parseFileContextsLocalLine (line : String) : Option FcontextRule :=
  let trimmed := Text.trim line
  if trimmed.isEmpty || Text.startsWith trimmed "#" then none
  else
    match splitWhitespace trimmed with
    | [spec, context] => some ((contextRule spec .all context).getD (.unparsed trimmed))
    | [spec, flag, context] =>
      match parseLocalFlagToken flag with
      | some fileType => some ((contextRule spec fileType context).getD (.unparsed trimmed))
      | none => some (.unparsed trimmed)
    | _ => some (.unparsed trimmed)

def parseFileContextsSubsLine (line : String) : Option FcontextRule :=
  let trimmed := Text.trim line
  if trimmed.isEmpty || Text.startsWith trimmed "#" then none
  else
    match splitWhitespace trimmed with
    | [subject, labeledLike] => some (.equivalence subject labeledLike .included none)
    | _ => some (.unparsed trimmed)

/-- `FCONTEXT_EQUIV_RE`. -/
def equivCaptures (line : List Char) : Option (String × String) := do
  let (subject, rest) ← takeSome (fun c => !Text.isWhitespace c) line
  let rest ← takeChar ' ' (← takeChar '=' (← takeChar ' ' rest))
  let (labeledLike, rest) ← takeSome (fun c => !Text.isWhitespace c) rest
  if rest.isEmpty then some (String.ofList subject, String.ofList labeledLike) else none

def tableRule (trimmed : String) : Option FcontextRule :=
  match (columns ' ' trimmed.toList).map String.ofList with
  | [spec, typeCol, contextCol] =>
    (FcontextFileType.parseColumn typeCol).bind fun fileType => contextRule spec fileType contextCol
  | _ => none

/-- `parse_semanage_line`, of the fcontext listing. -/
def parseSemanageFcontextLine (line : String) : Option FcontextRule :=
  let trimmed := Text.trim line
  if trimmed.isEmpty then none
  else
    match tableRule trimmed with
    | some rule => some rule
    | none =>
      match equivCaptures trimmed.toList with
      | some (subject, labeledLike) => some (.equivalence subject labeledLike .included none)
      | none => some (.unparsed trimmed)

def parseSemanageFcontextList (text : String) : List FcontextRule :=
  (((Text.lines text).map Text.trim).filter fun l =>
    !l.isEmpty && !Text.startsWith l "SELinux").filterMap parseSemanageFcontextLine

/-- The two files of the store, each if it can be read, and the listing. -/
structure FcontextProbe where
  fileContextsLocal : Option String
  fileContextsSubs : Option String
  semanage : ExecResult

def collectFcontextRules (probe : FcontextProbe) : List FcontextRule × FcontextSource :=
  if probe.fileContextsLocal.isNone && probe.fileContextsSubs.isNone then
    (if probe.semanage.success then parseSemanageFcontextList probe.semanage.stdout else [],
      .semanageList)
  else
    (((probe.fileContextsLocal.map Text.lines).getD []).filterMap parseFileContextsLocalLine ++
      ((probe.fileContextsSubs.map Text.lines).getD []).filterMap parseFileContextsSubsLine,
      .policyStore)

def IsField (s : String) : Prop := s ≠ "" ∧ ∀ c ∈ s.toList, Text.isWhitespace c = false

instance (s : String) : Decidable (IsField s) :=
  inferInstanceAs (Decidable (s ≠ "" ∧ ∀ c ∈ s.toList, Text.isWhitespace c = false))

structure SelinuxContext.WellFormed (ctx : SelinuxContext) : Prop where
  user : IsField ctx.user ∧ ':' ∉ ctx.user.toList
  role : IsField ctx.role ∧ ':' ∉ ctx.role.toList
  type : IsField ctx.type ∧ ':' ∉ ctx.type.toList
  level : ∀ level ∈ ctx.level, ∀ c ∈ level.toList, Text.isWhitespace c = false

def SelinuxContext.text (ctx : SelinuxContext) : String :=
  ctx.user ++ ":" ++ ctx.role ++ ":" ++ ctx.type ++ (ctx.level.map (":" ++ ·)).getD ""

structure PolicyEntry where
  spec : String
  fileType : FcontextFileType
  context : Option SelinuxContext
  spec_field : IsField spec
  context_ok : ∀ ctx ∈ context, ctx.WellFormed

structure PolicyEquivalence where
  subject : String
  labeledLike : String
  subject_field : IsField subject
  labeledLike_field : IsField labeledLike

def PolicyEntry.rule (e : PolicyEntry) : FcontextRule :=
  match e.context with
  | none => .unlabel e.spec e.fileType .included none
  | some ctx => .label e.spec e.fileType ctx .included none

def PolicyEquivalence.rule : FcontextRule :=
  .equivalence q.subject q.labeledLike .included none

def FcontextFileType.storeFlag : FcontextFileType → Option String
  | .all => none
  | .regularFile => some "--"
  | .directory => some "-d"
  | .charDevice => some "-c"
  | .blockDevice => some "-b"
  | .socket => some "-s"
  | .symlink => some "-l"
  | .namedPipe => some "-p"

def FcontextFileType.columnName : FcontextFileType → String
  | .all => "all files"
  | .regularFile => "regular file"
  | .directory => "directory"
  | .charDevice => "character device"
  | .blockDevice => "block device"
  | .socket => "socket"
  | .symlink => "symbolic link"
  | .namedPipe => "named pipe"

/-- A line of `file_contexts.local`, however its fields are spaced. -/
def PolicyEntry.StoredAs (e : PolicyEntry) (line : String) : Prop :=
  splitWhitespace line =
    e.spec :: (e.fileType.storeFlag.toList ++ [(e.context.map (·.text)).getD "<<none>>"])

instance (e : PolicyEntry) (line : String) : Decidable (e.StoredAs line) :=
  inferInstanceAs (Decidable (splitWhitespace line = _))

def PolicyEquivalence.StoredAs (line : String) : Prop :=
  splitWhitespace line = [q.subject, q.labeledLike]

/-- `%-50s %-18s context`, and no context is printed in a case of its own. -/
def PolicyEntry.listedRow (e : PolicyEntry) : String :=
  String.ofList (e.spec.toList.rightpad 50 ' ' ++
    ' ' :: (e.fileType.columnName.toList.rightpad 18 ' ' ++
      ' ' :: ((e.context.map (·.text)).getD "<<None>>").toList))

def PolicyEquivalence.listedRow : String :=
  String.ofList (q.subject.toList ++ [' ', '=', ' '] ++ q.labeledLike.toList)

def Agree (stored : Option FcontextRule) (listed : List FcontextRule) : Prop :=
  ∃ rule, stored = some rule ∧ listed = [rule]

/-- Neither a comment to the store nor a heading to the listing. -/
def Plain (field : String) : Prop :=
  Text.startsWith field "#" = false ∧ Text.startsWith field "SELinux" = false

theorem IsField.isEmpty (h : IsField s) : s.isEmpty = false := by
  rw [Bool.eq_false_iff, Ne, String.isEmpty_iff]
  exact h.1

theorem parseSelinuxContext_text {ctx : SelinuxContext} (ok : ctx.WellFormed) :
    parseSelinuxContext ctx.text = some ctx := by
  have whole : ctx.text = ctx.user ++ (String.singleton ':' ++ (ctx.role ++ (String.singleton ':' ++
      (ctx.type ++ (ctx.level.map (String.singleton ':' ++ ·)).getD "")))) := by
    simp only [SelinuxContext.text, String.append_assoc]
    rfl
  unfold parseSelinuxContext
  rw [whole, splitOnce_append ok.user.2, Option.bind_eq_bind, Option.bind_some]
  simp only [splitOnce_append ok.role.2, Option.bind_some]
  cases level : ctx.level with
  | none =>
    simp only [Option.map_none, Option.getD_none, String.append_empty, splitOnce_plain ok.type.2,
      ok.user.1.isEmpty, ok.role.1.isEmpty, ok.type.1.isEmpty]
    rw [← level]
    rfl
  | some text =>
    simp only [Option.map_some, Option.getD_some, splitOnce_append ok.type.2,
      ok.user.1.isEmpty, ok.role.1.isEmpty, ok.type.1.isEmpty]
    rw [← level]
    rfl

theorem isField_append {s t : String} (h : IsField s)
    (more : ∀ c ∈ t.toList, Text.isWhitespace c = false) : IsField (s ++ t) := by
  refine ⟨fun empty => h.1 ?_, fun c hc => ?_⟩
  · rw [← String.toList_inj, String.toList_append] at empty
    exact String.toList_inj.mp (List.append_eq_nil_iff.mp empty).1
  · rw [String.toList_append] at hc
    exact (List.mem_append.mp hc).elim (h.2 c) (more c)

theorem SelinuxContext.WellFormed.text_field {ctx : SelinuxContext} (ok : ctx.WellFormed) :
    IsField ctx.text := by
  have colon : ∀ c ∈ (":" : String).toList, Text.isWhitespace c = false := by decide
  unfold SelinuxContext.text
  refine isField_append (isField_append (isField_append (isField_append (isField_append ok.user.1
    colon) ok.role.1.2) colon) ok.type.1.2) ?_
  cases level : ctx.level with
  | none => exact fun c hc => nomatch hc
  | some text =>
    intro c hc
    rw [Option.map_some, Option.getD_some, String.toList_append] at hc
    exact (List.mem_append.mp hc).elim (colon c) (ok.level text level c)

theorem text_ne_none {ctx : SelinuxContext} :
    Text.eqIgnoreAsciiCase ctx.text "<<none>>" = false := by
  rw [Bool.eq_false_iff, Ne, Text.asciiLower_eq_of_eqIgnoreAsciiCase]
  intro same
  have colon : ':' ∈ ctx.text.toList := by simp [SelinuxContext.text]
  have lowered : ':' ∈ (Text.asciiLower ctx.text).toList := by
    rw [Text.asciiLower, String.toList_ofList]
    exact List.mem_map.mpr ⟨':', colon, by decide⟩
  rw [same] at lowered
  revert lowered
  decide

theorem contextRule_entry (e : PolicyEntry) {unlabel : String}
    (none : Text.eqIgnoreAsciiCase unlabel "<<none>>" = true) :
    contextRule e.spec e.fileType ((e.context.map (·.text)).getD unlabel) = some e.rule := by
  unfold contextRule PolicyEntry.rule
  cases context : e.context with
  | none => simp [none]
  | some ctx =>
    simp [text_ne_none, parseSelinuxContext_text (e.context_ok ctx context)]

theorem stored_line {line first : String} {rest : List String}
    (h : splitWhitespace line = first :: rest) :
    ((Text.trim line).isEmpty || Text.startsWith (Text.trim line) "#") =
      Text.startsWith first "#" := by
  obtain empty | ⟨found, more, c, cs, w, split, chars, first_chars⟩ := trim_words line
  · rw [← splitWhitespace_trim, empty] at h
    cases h
  · obtain ⟨rfl, rfl⟩ := List.cons.inj (h.symm.trans split)
    have ne : (Text.trim line).isEmpty = false := by
      rw [Bool.eq_false_iff, Ne, String.isEmpty_iff]
      intro empty
      rw [empty] at chars
      cases chars
    rw [ne, Bool.false_or, show "#" = String.singleton '#' from rfl, startsWith_head chars,
      startsWith_head first_chars]

theorem storedEntry (e : PolicyEntry) {line : String} (h : e.StoredAs line) :
    parseFileContextsLocalLine line =
      if Text.startsWith e.spec "#" then none else some e.rule := by
  have rule := @contextRule_entry e "<<none>>" (by decide)
  unfold parseFileContextsLocalLine
  simp only [stored_line h, splitWhitespace_trim]
  split
  · rfl
  rw [h]
  cases type : e.fileType with
  | all =>
    rw [type] at rule
    simp [FcontextFileType.storeFlag, rule]
  | _ =>
    rw [type] at rule
    simp [FcontextFileType.storeFlag, parseLocalFlagToken, rule]

theorem storedEquivalence {line : String} (h : q.StoredAs line) :
    parseFileContextsSubsLine line =
      if Text.startsWith q.subject "#" then none else some q.rule := by
  unfold parseFileContextsSubsLine
  simp only [stored_line h, splitWhitespace_trim]
  split
  · rfl
  rw [h]
  rfl

theorem trim_row {row : String}
    (ends : ∀ c, row.toList.head? = some c ∨ row.toList.getLast? = some c →
      Text.isWhitespace c = false) : Text.trim row = row := by
  have kept := @trimChars_after [] row.toList (fun c hc => nomatch hc) ends
  rw [List.nil_append] at kept
  rw [Text.trim, kept, String.ofList_toList]

theorem IsField.not_mem (h : IsField s) {c : Char}
    (blank : Text.isWhitespace c = true) : c ∉ s.toList := fun hc => by
  rw [h.2 c hc] at blank
  cases blank

theorem IsField.ne_nil (h : IsField s) : s.toList ≠ [] := fun none =>
  h.1 (String.toList_inj.mp none)

theorem fielded_ends {first last : String} (hf : IsField first) (hl : IsField last)
    (between : List Char) (c : Char)
    (h : (first.toList ++ between ++ last.toList).head? = some c ∨
      (first.toList ++ between ++ last.toList).getLast? = some c) :
    Text.isWhitespace c = false := by
  rw [List.getLast?_append_of_ne_nil _ hl.ne_nil, List.append_assoc,
    List.head?_append_of_ne_nil _ hf.ne_nil] at h
  obtain head | last := h
  · exact hf.2 c (List.mem_of_head? head)
  · exact hl.2 c (List.mem_of_getLast? last)

def listedRule (row : String) : Option FcontextRule :=
  if Text.startsWith row "SELinux" then none else parseSemanageFcontextLine row

theorem listedRule_empty : listedRule "" = none := rfl

theorem filterMap_listedRule (rows : List String) :
    (rows.filter fun l => !l.isEmpty && !Text.startsWith l "SELinux").filterMap
      parseSemanageFcontextLine = rows.filterMap listedRule := by
  induction rows with
  | nil => simp only [List.filter_nil, List.filterMap_nil]
  | cons row rest ih =>
    rw [List.filter_cons, @List.filterMap_cons _ _ listedRule, ← ih]
    by_cases empty : row = ""
    · subst empty
      simp [listedRule_empty]
    · have some_text : row.isEmpty = false := by
        rw [Bool.eq_false_iff, Ne, String.isEmpty_iff]
        exact empty
      cases heading : Text.startsWith row "SELinux" with
      | true => simp [listedRule, heading]
      | false => simp [listedRule, heading, some_text, List.filterMap_cons]

theorem parseSemanageFcontextList_rows {rows : List String} (plain : ∀ row ∈ rows, IsRow row) :
    parseSemanageFcontextList (unlines rows) =
      rows.filterMap fun row => listedRule (Text.trim row) := by
  rw [parseSemanageFcontextList, lines_unlines plain, filterMap_listedRule, List.filterMap_map,
    Function.comp_def]

theorem columnName_chars (type : FcontextFileType) : type.columnName.toList.length ≤ 17 ∧
    type.columnName.toList.getLast? ≠ some ' ' ∧ type.columnName.toList.head? ≠ some ' ' ∧
    type.columnName.toList.head? ≠ some '=' ∧ '\n' ∉ type.columnName.toList := by
  cases type <;> decide +kernel

theorem columnName_tight (type : FcontextFileType) : IsTight ' ' type.columnName.toList := by
  unfold IsTight
  cases type <;> decide +kernel

theorem parseColumn_columnName (type : FcontextFileType) :
    FcontextFileType.parseColumn type.columnName = some type := by
  cases type <;> decide +kernel

section

variable (e : PolicyEntry)

def PolicyEntry.contextColumn : String := (e.context.map (·.text)).getD "<<None>>"

theorem PolicyEntry.contextColumn_field : IsField e.contextColumn := by
  unfold PolicyEntry.contextColumn
  cases context : e.context with
  | none => exact ⟨by decide, by decide⟩
  | some ctx => exact (e.context_ok ctx context).text_field

theorem PolicyEntry.listedRow_toList : ∃ gap, e.listedRow.toList =
    e.spec.toList ++ (List.replicate (50 - e.spec.toList.length + 1) ' ' ++
      (e.fileType.columnName.toList ++
        (List.replicate (gap + 2) ' ' ++ e.contextColumn.toList))) := by
  obtain ⟨short, -⟩ := columnName_chars e.fileType
  refine ⟨18 - e.fileType.columnName.toList.length - 1, ?_⟩
  rw [PolicyEntry.listedRow, String.toList_ofList, rightpad_append, rightpad_append]
  have gap : 18 - e.fileType.columnName.toList.length - 1 + 2 =
    18 - e.fileType.columnName.toList.length + 1 := by omega
  rw [gap]
  rfl

theorem field_no_blank (h : IsField s) : ' ' ∉ s.toList := h.not_mem (by decide)

theorem head_ne_blank (h : IsField s) (more : List Char) :
    (s.toList ++ more).head? ≠ some ' ' := by
  rw [List.head?_append_of_ne_nil _ h.ne_nil]
  exact fun head => field_no_blank h (List.mem_of_head? head)

theorem last_ne_blank (h : IsField s) : s.toList.getLast? ≠ some ' ' :=
  fun last => field_no_blank h (List.mem_of_getLast? last)

theorem columns_context (n : Nat) {before : List Char} (tight : IsTight ' ' before)
    (ends : before.getLast? ≠ some ' ') :
    columns ' ' (before ++ (List.replicate (n + 2) ' ' ++ e.contextColumn.toList)) =
      [before, e.contextColumn.toList] := by
  have field := e.contextColumn_field
  have starts := head_ne_blank field []
  rw [List.append_nil] at starts
  rw [columns_append tight ends n starts, columns_tight (isTight_plain (field_no_blank field))]

theorem PolicyEntry.columns_short (short : e.spec.toList.length < 50) :
    columns ' ' e.listedRow.toList =
      [e.spec.toList, e.fileType.columnName.toList, e.contextColumn.toList] := by
  obtain ⟨-, ends, starts, -⟩ := columnName_chars e.fileType
  have tight := columnName_tight e.fileType
  obtain ⟨gap, whole⟩ := e.listedRow_toList
  obtain ⟨more, width⟩ : ∃ more, 50 - e.spec.toList.length + 1 = more + 2 :=
    ⟨50 - e.spec.toList.length - 1, by omega⟩
  have name : e.fileType.columnName.toList ≠ [] := by cases e.fileType <;> decide
  have begins : (e.fileType.columnName.toList ++
      (List.replicate (gap + 2) ' ' ++ e.contextColumn.toList)).head? ≠ some ' ' := by
    rw [List.head?_append_of_ne_nil _ name]
    exact starts
  rw [whole, width, columns_append (isTight_plain (field_no_blank e.spec_field))
    (last_ne_blank e.spec_field) more begins, columns_context e gap tight ends]

theorem PolicyEntry.columns_long (long : 50 ≤ e.spec.toList.length) :
    columns ' ' e.listedRow.toList =
      [e.spec.toList ++ ' ' :: e.fileType.columnName.toList, e.contextColumn.toList] := by
  obtain ⟨-, ends, starts, -⟩ := columnName_chars e.fileType
  have tight := columnName_tight e.fileType
  obtain ⟨gap, whole⟩ := e.listedRow_toList
  have width : 50 - e.spec.toList.length + 1 = 1 := by omega
  have joined : IsTight ' ' (e.spec.toList ++ ' ' :: e.fileType.columnName.toList) :=
    isTight_joined (isTight_plain (field_no_blank e.spec_field)) tight
      (last_ne_blank e.spec_field) starts
  have last : (e.spec.toList ++ ' ' :: e.fileType.columnName.toList).getLast? ≠ some ' ' := by
    have name : e.fileType.columnName.toList ≠ [] := by cases e.fileType <;> decide
    rw [List.getLast?_append_of_ne_nil _ (List.cons_ne_nil _ _), List.getLast?_cons_of_ne_nil name]
    exact ends
  rw [whole, width, ← columns_context e gap joined last]
  simp

theorem PolicyEntry.listedRow_between : ∃ between, e.listedRow.toList =
    e.spec.toList ++ between ++ e.contextColumn.toList ∧ '\n' ∉ between := by
  obtain ⟨gap, whole⟩ := e.listedRow_toList
  refine ⟨List.replicate (50 - e.spec.toList.length + 1) ' ' ++ (e.fileType.columnName.toList ++
    List.replicate (gap + 2) ' '), by rw [whole]; simp only [List.append_assoc], ?_⟩
  have name := (columnName_chars e.fileType).2.2.2.2
  simp only [List.mem_append, List.mem_replicate, not_or]
  exact ⟨fun h => absurd h.2 (by decide), name, fun h => absurd h.2 (by decide)⟩

end

theorem isRow_between {row first last : String} {between : List Char} (hf : IsField first)
    (hl : IsField last) (whole : row.toList = first.toList ++ between ++ last.toList)
    (plain : '\n' ∉ between) : IsRow row ∧ Text.trim row = row ∧ row.isEmpty = false := by
  have ends := fielded_ends hf hl between
  rw [← whole] at ends
  refine ⟨⟨?_, fun last => ?_⟩, trim_row ends, ?_⟩
  · rw [whole]
    simp only [List.mem_append, not_or]
    exact ⟨⟨hf.not_mem (by decide), plain⟩, hl.not_mem (by decide)⟩
  · exact absurd (ends _ (.inr last)) (by decide)
  · rw [Bool.eq_false_iff, Ne, String.isEmpty_iff]
    rintro rfl
    refine hf.ne_nil (List.append_eq_nil_iff.mp (List.append_eq_nil_iff.mp whole.symm).1).1

theorem startsWith_field {row first word : String} {rest : List Char}
    (whole : row.toList = first.toList ++ ' ' :: rest) (plain : ' ' ∉ word.toList) :
    Text.startsWith row word = Text.startsWith first word := by
  rw [Bool.eq_iff_iff, Text.startsWith_iff, Text.startsWith_iff, whole]
  constructor
  · intro starts
    obtain within | ⟨more, beyond⟩ :=
      List.prefix_or_prefix_of_prefix starts (List.prefix_append first.toList (' ' :: rest))
    · exact within
    · rw [← beyond] at starts plain
      have next := (List.prefix_append_right_inj first.toList).mp starts
      cases more with
      | nil => rw [← beyond, List.append_nil]
      | cons c others =>
        obtain ⟨rfl, -⟩ := List.cons_prefix_cons.mp next
        exact absurd (List.mem_append_right _ (List.mem_cons_self ..)) plain
  · exact fun starts => starts.trans (List.prefix_append ..)

theorem takeSome_field (h : IsField s) {rest : List Char}
    (blank : ∀ c ∈ rest.head?, Text.isWhitespace c = true) :
    takeSome (fun c => !Text.isWhitespace c) (s.toList ++ rest) = some (s.toList, rest) := by
  have plain : ∀ c ∈ s.toList, (!Text.isWhitespace c) = true := fun c hc => by simp [h.2 c hc]
  have stop : rest.takeWhile (fun c => !Text.isWhitespace c) = [] ∧
      rest.dropWhile (fun c => !Text.isWhitespace c) = rest := by
    cases rest with
    | nil => exact ⟨rfl, rfl⟩
    | cons c more => simp [blank c rfl]
  rw [takeSome, List.takeWhile_append_of_pos plain, List.dropWhile_append_of_pos plain, stop.1,
    stop.2, List.append_nil, if_neg (by simpa using h.ne_nil)]

theorem listedEntry (e : PolicyEntry) : listedRule (Text.trim e.listedRow) =
    if Text.startsWith e.spec "SELinux" then none
    else if e.spec.toList.length < 50 then some e.rule
    else some (.unparsed e.listedRow) := by
  obtain ⟨between, whole, no_line⟩ := e.listedRow_between
  obtain ⟨gap, pieces⟩ := e.listedRow_toList
  obtain ⟨-, trimmed, ne⟩ := isRow_between e.spec_field e.contextColumn_field whole no_line
  have heading : Text.startsWith e.listedRow "SELinux" = Text.startsWith e.spec "SELinux" :=
    startsWith_field (by rw [pieces, List.replicate_succ, List.cons_append]) (by decide)
  rw [listedRule, trimmed, heading]
  split
  · rfl
  rw [parseSemanageFcontextLine, trimmed]
  simp only [ne, Bool.false_eq_true, if_false]
  by_cases short : e.spec.toList.length < 50
  · have rule := @contextRule_entry e "<<None>>" (by decide)
    rw [if_pos short, tableRule, e.columns_short short]
    simp only [List.map_cons, List.map_nil, String.ofList_toList, parseColumn_columnName,
      Option.bind_some, PolicyEntry.contextColumn, rule]
  · rw [if_neg short, tableRule, e.columns_long (Nat.not_lt.mp short)]
    have uncaptured : equivCaptures e.listedRow.toList = none := by
      obtain ⟨-, -, -, other, -⟩ := columnName_chars e.fileType
      have width : 50 - e.spec.toList.length + 1 = 1 := by omega
      rw [pieces, width, equivCaptures, takeSome_field e.spec_field]
      · simp only [List.replicate_one, List.singleton_append, Option.bind_eq_bind, Option.bind_some,
          takeChar, if_true]
        cases name : e.fileType.columnName.toList with
        | nil => cases gap <;> simp [List.replicate_succ]
        | cons c more =>
          rw [name] at other
          have apart : c ≠ '=' := fun same => other (congrArg some same)
          simp [apart]
      · intro c hc
        obtain rfl : ' ' = c := by simpa using hc
        decide
    simp only [List.map_cons, List.map_nil, uncaptured]

theorem PolicyEquivalence.listedRow_between : q.listedRow.toList =
    q.subject.toList ++ [' ', '=', ' '] ++ q.labeledLike.toList := by
  rw [PolicyEquivalence.listedRow, String.toList_ofList]

theorem listedEquivalence : listedRule (Text.trim q.listedRow) =
    if Text.startsWith q.subject "SELinux" then none else some q.rule := by
  have whole := q.listedRow_between
  obtain ⟨-, trimmed, ne⟩ := isRow_between q.subject_field q.labeledLike_field whole (by decide)
  have pieces : q.listedRow.toList =
      q.subject.toList ++ ' ' :: (['='] ++ ' ' :: q.labeledLike.toList) := by
    rw [whole]
    simp
  have heading : Text.startsWith q.listedRow "SELinux" = Text.startsWith q.subject "SELinux" :=
    startsWith_field pieces (by decide)
  have single : columns ' ' q.listedRow.toList = [q.listedRow.toList] := by
    have starts := head_ne_blank q.labeledLike_field []
    rw [List.append_nil] at starts
    rw [pieces]
    refine columns_tight (isTight_joined (isTight_plain (field_no_blank q.subject_field)) ?_
      (last_ne_blank q.subject_field) (by simp))
    exact isTight_joined (isTight_plain (by decide))
      (isTight_plain (field_no_blank q.labeledLike_field)) (by decide) starts
  have captured : equivCaptures q.listedRow.toList = some (q.subject, q.labeledLike) := by
    have last := @takeSome_field q.labeledLike q.labeledLike_field [] (fun c hc => nomatch hc)
    rw [List.append_nil] at last
    rw [pieces, equivCaptures, takeSome_field q.subject_field]
    · simp [takeChar, last]
    · intro c hc
      obtain rfl : ' ' = c := by simpa using hc
      decide
  rw [listedRule, trimmed, heading]
  split
  · rfl
  rw [parseSemanageFcontextLine, trimmed]
  simp only [ne, Bool.false_eq_true, if_false, tableRule, single, List.map_cons, List.map_nil,
    captured]
  rfl

theorem PolicyEntry.isRow (e : PolicyEntry) : IsRow e.listedRow := by
  obtain ⟨between, whole, no_line⟩ := e.listedRow_between
  exact (isRow_between e.spec_field e.contextColumn_field whole no_line).1

theorem PolicyEquivalence.isRow : IsRow q.listedRow :=
  (isRow_between q.subject_field q.labeledLike_field q.listedRow_between (by decide)).1

theorem listed_one {row : String} (h : IsRow row) :
    parseSemanageFcontextList (unlines [row]) = (listedRule (Text.trim row)).toList := by
  rw [parseSemanageFcontextList_rows fun r mem => List.mem_singleton.mp mem ▸ h]
  cases rule : listedRule (Text.trim row) <;> simp [rule]

theorem entry_rule_placed (e : PolicyEntry) (raw : String) : e.rule ≠ .unparsed raw := by
  unfold PolicyEntry.rule
  split <;> exact FcontextRule.noConfusion

/-- Store and listing agree about an entry whose path leaves room in its column, and about any
    equivalence. -/
theorem sources_agree_iff (e : PolicyEntry) (q : PolicyEquivalence) :
    (∀ line, e.StoredAs line →
      (Agree (parseFileContextsLocalLine line) (parseSemanageFcontextList (unlines [e.listedRow])) ↔
        Plain e.spec ∧ e.spec.toList.length < 50)) ∧
    (∀ line, q.StoredAs line →
      (Agree (parseFileContextsSubsLine line) (parseSemanageFcontextList (unlines [q.listedRow])) ↔
        Plain q.subject)) := by
  constructor
  · intro line stored
    rw [storedEntry e stored, listed_one e.isRow, listedEntry, Agree, Plain]
    cases comment : Text.startsWith e.spec "#" with
    | true => simp
    | false =>
      cases heading : Text.startsWith e.spec "SELinux" with
      | true => simp
      | false =>
        by_cases short : e.spec.toList.length < 50
        · simp [short]
        · simp [short, (entry_rule_placed e e.listedRow).symm]
  · intro line stored
    rw [storedEquivalence q stored, listed_one q.isRow, listedEquivalence, Agree, Plain]
    cases Text.startsWith q.subject "#" <;> cases Text.startsWith q.subject "SELinux" <;> simp

/-- A short path expression is read alike from both. -/
theorem short_entry_agrees : ∃ (e : PolicyEntry) (line : String), e.StoredAs line ∧
    Agree (parseFileContextsLocalLine line)
      (parseSemanageFcontextList (unlines [e.listedRow])) := by
  let e : PolicyEntry := ⟨"/opt/app(/.*)?", .directory, none, by decide +kernel,
    fun ctx h => nomatch h⟩
  have stored : e.StoredAs "/opt/app(/.*)?  -d  <<none>>" := by decide +kernel
  have short : Plain e.spec ∧ e.spec.toList.length < 50 :=
    ⟨⟨by decide +kernel, by decide +kernel⟩, by decide +kernel⟩
  let q : PolicyEquivalence := ⟨"/opt/app", "/usr", by decide +kernel, by decide +kernel⟩
  exact ⟨e, _, stored, ((sources_agree_iff e q).1 _ stored).mpr short⟩

/-- One that fills its column is not. -/
theorem full_column_entry_disagrees : ¬ ∀ (e : PolicyEntry) (line : String), e.StoredAs line →
    Agree (parseFileContextsLocalLine line)
      (parseSemanageFcontextList (unlines [e.listedRow])) := by
  intro agree
  let e : PolicyEntry := ⟨"/srv/containers/registry/persistent/blobs/old(/.*)?", .all, none,
    by decide +kernel, fun ctx h => nomatch h⟩
  have line : e.StoredAs "/srv/containers/registry/persistent/blobs/old(/.*)?  <<none>>" := by
    decide +kernel
  have wide : ¬ e.spec.toList.length < 50 := by decide
  have spec : Text.startsWith e.spec "SELinux" = false := by decide
  obtain ⟨rule, stored, listed⟩ := agree e _ line
  rw [listed_one e.isRow, listedEntry, spec, if_neg wide] at listed
  rw [storedEntry e line, show Text.startsWith e.spec "#" = false by decide] at stored
  obtain rfl := Option.some.inj stored
  exact entry_rule_placed e _ (List.cons.inj listed).1.symm

end Inspectah
