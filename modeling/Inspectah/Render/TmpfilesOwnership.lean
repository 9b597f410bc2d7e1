import Inspectah.Library.Words
import Inspectah.Render.Escapes
import Inspectah.Render.UserCommands
import Inspectah.Render.VarDirs

/-!
Who owns a provisioned directory. An entry of the `tmpfiles.d` file names an owner and a
group; on the image they have to be the ones the host recorded, and a name has to be one
the image knows.
-/
namespace Inspectah

open BuildScript (Line Segment)

structure TmpfilesEntry where
  path : String
  mode : String
  owner : String
  group : String
  deriving DecidableEq

/-- The fields of an entry are separated by blanks. -/
def readEntry (line : Line) : Option TmpfilesEntry :=
  match (Words.words Text.isWhitespace line.text.toList).map String.ofList with
  | ["d", path, mode, owner, group, "-"] => some ⟨path, mode, owner, group⟩
  | _ => none

def activeEntries (snap : InspectionSnapshot) (d : VarDirectory) (outcome : EffectiveBacking) :
    List TmpfilesEntry := (tmpfilesLines snap d outcome).filterMap readEntry

theorem words_comment (text : String) :
    ∃ w ws, Words.words Text.isWhitespace ('#' :: text.toList) = ('#' :: w) :: ws := by
  have whole : '#' :: text.toList =
      ('#' :: text.toList.takeWhile fun c => !Text.isWhitespace c) ++
        text.toList.dropWhile (fun c => !Text.isWhitespace c) := by
    rw [List.cons_append, List.takeWhile_append_dropWhile]
  have plain : Words.IsPlain Text.isWhitespace
      ('#' :: text.toList.takeWhile fun c => !Text.isWhitespace c) := by
    intro c hc
    obtain rfl | hc := List.mem_cons.mp hc
    · decide
    · simpa using List.mem_takeWhile_imp hc
  rw [whole]
  cases rest : text.toList.dropWhile (fun c => !Text.isWhitespace c) with
  | nil =>
    rw [List.append_nil, Words.words_plain plain (List.cons_ne_nil _ _)]
    exact ⟨_, _, rfl⟩
  | cons c more =>
    have cut : Text.isWhitespace c = true := by
      have head := List.head?_dropWhile_not (fun c => !Text.isWhitespace c) text.toList
      rw [rest] at head
      simpa using head
    rw [Words.words_append_cons cut, Words.words_plain plain (List.cons_ne_nil _ _)]
    exact ⟨_, _, rfl⟩

theorem readEntry_comment (text : String) : readEntry (.comment text) = none := by
  obtain ⟨w, ws, split⟩ := words_comment text
  have mark : String.ofList ('#' :: w) ≠ "d" := by
    intro same
    have chars := congrArg String.toList same
    simp at chars
  rw [readEntry, show (Line.comment text).text.toList = '#' :: text.toList by simp [Line.text],
    split, List.map_cons]
  grind

theorem plain_of_bareClean {value : String} (clean : BareClean value) :
    Words.IsPlain Text.isWhitespace value.toList := by
  intro c mem
  have safe : isShellUnsafe c = false := by
    simpa [BuildScript.Quoting.admits] using List.all_eq_true.mp clean c mem
  simp only [isShellUnsafe, Bool.or_eq_false_iff] at safe
  exact safe.2

theorem exportToken_ne_nil (token : ExportToken) : token.text.toList ≠ [] := by
  intro empty
  have admitted := token.admitted
  have blank : token.text = "" := String.toList_injective empty
  simp [exportTokenFault, blank] at admitted

theorem exportPath_ne_nil (path : ExportPath) : path.text.toList ≠ [] := by
  intro empty
  have admitted := path.admitted
  have blank : path.text = "" := String.toList_injective empty
  simp [exportPathFault, blank] at admitted

theorem words_field {w : List Char} (plain : Words.IsPlain Text.isWhitespace w) (ne : w ≠ [])
    (text : List Char) :
    Words.words Text.isWhitespace (w ++ ' ' :: text) = w :: Words.words Text.isWhitespace text := by
  rw [Words.words_append_cons (by decide), Words.words_plain plain ne]
  rfl

theorem readEntry_tmpfilesDirLine (path : ExportPath) (mode owner group : ExportToken) :
    readEntry (tmpfilesDirLine path mode owner group) =
      some ⟨path.text, mode.text, owner.text, group.text⟩ := by
  have text : (tmpfilesDirLine path mode owner group).text.toList =
      ['d'] ++ ' ' :: (path.text.toList ++ ' ' :: (mode.text.toList ++ ' ' ::
        (owner.text.toList ++ ' ' :: (group.text.toList ++ ' ' :: ['-'])))) := by
    simp [tmpfilesDirLine, Line.text, BuildScript.segmentsText, bare, Segment.text]
  have field := fun token => words_field (plain_of_bareClean (exportToken_clean token))
    (exportToken_ne_nil token)
  rw [readEntry, text, words_field (Words.isPlain_singleton rfl) (by decide),
    words_field (plain_of_bareClean (exportPath_clean path)) (exportPath_ne_nil path), field, field,
    field, Words.words_plain (Words.isPlain_singleton rfl) (by decide)]
  simp

theorem not_active_of_comments {lines : List Line} (all : ∀ l ∈ lines, ∃ text, l = .comment text) :
    lines.filterMap readEntry = [] := by
  rw [List.filterMap_eq_nil_iff]
  intro line mem
  obtain ⟨text, rfl⟩ := all line mem
  exact readEntry_comment text

theorem unresolvedFixmeLines_comments (snap : InspectionSnapshot) (d : VarDirectory)
    (path : ExportPath) (creator : String) (reason : UnresolvedReason) :
    ∀ l ∈ unresolvedFixmeLines snap d path creator reason, ∃ text, l = .comment text := by
  intro l mem
  simp only [unresolvedFixmeLines] at mem
  split at mem
  · simp only [List.mem_cons, List.not_mem_nil, or_false] at mem
    obtain rfl | rfl := mem <;> exact ⟨_, rfl⟩
  · split at mem <;> simp only [List.mem_cons, List.not_mem_nil, or_false] at mem
    · exact ⟨_, mem⟩
    · obtain rfl | rfl := mem <;> exact ⟨_, rfl⟩

theorem activeEntries_ownership {snap : InspectionSnapshot} {d : VarDirectory}
    {outcome : EffectiveBacking} {entry : TmpfilesEntry}
    (active : entry ∈ activeEntries snap d outcome) :
    entry.owner = (resolveTmpfilesOwnership snap d).owner.text ∧
      entry.group = (resolveTmpfilesOwnership snap d).group.text := by
  have refused : ∀ reason, [refusedFieldComment d.path reason].filterMap readEntry = [] :=
    fun reason => not_active_of_comments fun l mem => ⟨_, List.mem_singleton.mp mem⟩
  unfold activeEntries tmpfilesLines at active
  split at active
  · simp at active
  · split at active
    · simp at active
    · split at active
      · simp [refused] at active
      · simp [refused] at active
      next path mode _ _ =>
        have lost : ∀ creators : List String,
            (creators.map (lostCreatorComment path)).filterMap readEntry = [] := by
          refine fun creators => not_active_of_comments fun l mem => ?_
          obtain ⟨creator, -, rfl⟩ := List.mem_map.mp mem
          exact ⟨_, rfl⟩
        have comment : ∀ text, (ownershipComment text).filterMap readEntry = [] := by
          refine fun text => not_active_of_comments fun l mem => ?_
          unfold ownershipComment at mem
          split at mem
          · cases mem
          · exact ⟨_, List.mem_singleton.mp mem⟩
        simp only [List.filterMap_append, lost, comment, List.nil_append, List.filterMap_cons,
          readEntry_tmpfilesDirLine, List.filterMap_nil, List.mem_singleton] at active
        subst active
        exact ⟨rfl, rfl⟩
  · split at active
    · simp [refused] at active
    · rw [not_active_of_comments (unresolvedFixmeLines_comments snap d _ _ _)] at active
      cases active

structure Scriptlets where
  accounts : String → List String
  groups : String → List String
  known : ∀ row ∈ KNOWN_PACKAGE_ACCOUNTS, ∀ account ∈ row.2, account ∈ accounts row.1

/-- A command of the Containerfile creates the account, or an included package does. -/
def AccountMade (image : Scriptlets) (snap : InspectionSnapshot) (name : String) : Prop :=
  (∃ u ∈ useraddUsers snap, strField u "name" = name ∧ (useraddLine u).isSome) ∨
  ∃ pkg ∈ replicatedRpms snap, name ∈ image.accounts pkg

/-- An account created without a primary group gets one of its own name. -/
def GroupMade (image : Scriptlets) (snap : InspectionSnapshot) (name : String) : Prop :=
  (∃ g ∈ customGroups snap, strField g "name" = name ∧
    (groupaddLine (useraddUsers snap) g).isSome) ∨
  (∃ u ∈ useraddUsers snap, strField u "name" = name ∧ uidField u "gid" = 0 ∧
    (useraddLine u).isSome) ∨
  ∃ pkg ∈ replicatedRpms snap, name ∈ image.groups pkg

def isNumber (field : String) : Bool := field.toList.all Char.isDigit

def Known (made : String → Prop) (field : String) : Prop :=
  isNumber field ∨ field = "root" ∨ made field

def Denotes (field : String) (name : Option String) (id : Option Nat) : Prop :=
  name = some field ∨ id.map toString = some field ∨ field = "root" ∧ id = some 0

/-- The scan captured both numbers and both names. -/
structure Recorded (d : VarDirectory) : Prop where
  uid : ∃ uid ≤ U32_MAX, d.ownerUid = some uid
  gid : ∃ gid ≤ U32_MAX, d.ownerGid = some gid
  owner : d.ownerName.isSome
  group : d.groupName.isSome

structure HostOwnership (image : Scriptlets) (snap : InspectionSnapshot) (d : VarDirectory)
    (entry : TmpfilesEntry) : Prop where
  owner : Denotes entry.owner d.ownerName d.ownerUid
  group : Denotes entry.group d.groupName d.ownerGid
  owner_known : Known (AccountMade image snap) entry.owner
  group_known : Known (GroupMade image snap) entry.group

def TableAccount (snap : InspectionSnapshot) (name : String) : Prop :=
  ∃ row ∈ KNOWN_PACKAGE_ACCOUNTS, row.1 ∈ replicatedRpms snap ∧ name ∈ row.2

/-- Root's directory belongs to root's group; an owner's name is created by its package, and its
    group can be written. -/
def OwnershipCarried (image : Scriptlets) (snap : InspectionSnapshot) (d : VarDirectory) : Prop :=
  if d.ownerUid = some 0 then d.ownerGid = some 0 ∨ d.groupName = some "root"
  else
    ∀ owner, provedAccountName d.ownerName = some owner →
      if (collectMaterializedUsernames snap).contains owner.text then
        ∀ group, provedAccountName d.groupName = some group →
          Known (GroupMade image snap) group.text
      else
        providingPackage (replicatedRpms snap) owner.text ≠ none →
          (TableAccount snap owner.text ∨ Known (AccountMade image snap) owner.text) ∧
            match provedAccountName d.groupName with
            | some group => Known (GroupMade image snap) group.text
            | none => d.ownerGid.map toString = some owner.text ∨
                owner.text = "root" ∧ d.ownerGid = some 0

theorem isNumber_toString (n : Nat) : isNumber (toString n) := by
  rw [isNumber, List.all_eq_true]
  intro c mem
  exact digit_of_toString mem

theorem toString_ne_root (n : Nat) : toString n ≠ "root" := by
  intro same
  have digits := isNumber_toString n
  rw [same] at digits
  exact absurd digits (by decide)

theorem utf8Len_le (cs : List Char) : String.utf8Len cs ≤ 4 * cs.length := by
  induction cs with
  | nil => simp
  | cons c rest ih =>
    have size := c.utf8Size_le_four
    simp only [String.utf8Len_cons, List.length_cons]
    omega

theorem exportTokenFault_toString {id : Nat} (fits : id ≤ U32_MAX) :
    exportTokenFault (toString id) = none := by
  have digits : (toString id).length ≤ 10 := by
    rw [Nat.toString_eq_repr, Nat.length_repr_le_iff (by decide)]
    exact lt_of_le_of_lt fits (by decide)
  have short : ¬ MAX_EXPORT_TOKEN_LEN < (toString id).utf8ByteSize := by
    have bound := utf8Len_le (toString id).toList
    rw [String.utf8Len_toList, String.length_toList] at bound
    have limit : MAX_EXPORT_TOKEN_LEN = 256 := rfl
    omega
  have plain : ((toString id).toList.findIdx? fun c => !isAllowedTokenChar c) = none := by
    rw [List.findIdx?_eq_none_iff]
    intro c mem
    have digit := List.all_eq_true.mp (isNumber_toString id) c mem
    simp [isAllowedTokenChar, Char.isAlphanum, digit]
  have some_digit : (toString id).isEmpty = false := by simp
  rw [exportTokenFault, some_digit, if_neg Bool.false_ne_true, if_neg short, plain, Option.map_none]

theorem parse_ok {value : String} (h : exportTokenFault value = none) :
    ExportToken.parse value = .ok ⟨value, h⟩ := by
  unfold ExportToken.parse
  split
  next fault found => simp [h] at found
  · rfl

theorem numericToken_text {id : Nat} (fits : id ≤ U32_MAX) :
    (numericToken id).text = toString id := by
  rw [numericToken, parse_ok (exportTokenFault_toString fits)]

theorem provedAccountName_some {name : Option String} {token : ExportToken}
    (h : provedAccountName name = some token) : name = some token.text := by
  obtain ⟨value, rfl, proved⟩ := Option.bind_eq_some_iff.mp h
  unfold ExportToken.parse at proved
  split at proved
  · cases proved
  · obtain rfl := Option.some.inj proved
    rfl

theorem provedAccountName_none {name : Option String} (h : provedAccountName name = none)
    (token : ExportToken) : name ≠ some token.text := by
  rintro rfl
  rw [provedAccountName, Option.bind_some, parse_ok token.admitted] at h
  cases h

theorem writable_of_token {u : Json} {owner : ExportToken}
    (named : strField u "name" = owner.text) : Writable u := by
  have plain : ∀ c ∈ owner.text.toList, isShellUnsafe c = false := by
    simpa [BuildScript.Clean, BuildScript.Quoting.admits] using exportToken_clean owner
  rw [Writable, named]
  constructor
  · intro empty
    exact exportToken_ne_nil owner (by rw [empty]; rfl)
  · rw [isShellSafe, sanitizeShellValue, if_neg (by simpa using plain)]
    rfl

theorem accountMade_of_materialized {image : Scriptlets} {snap : InspectionSnapshot}
    {owner : ExportToken} (h : (collectMaterializedUsernames snap).contains owner.text) :
    AccountMade image snap owner.text := by
  simp only [collectMaterializedUsernames, List.contains_iff_mem, List.mem_filterMap] at h
  obtain ⟨u, created, name⟩ := h
  have named : strField u "name" = owner.text := by simp [strField, name]
  exact .inl ⟨u, created, named, useraddLine_isSome_iff.mpr (writable_of_token named)⟩

theorem accountMade_of_table (image : Scriptlets) {snap : InspectionSnapshot} {name : String}
    (h : TableAccount snap name) : AccountMade image snap name := by
  obtain ⟨row, listed, included, account⟩ := h
  exact .inr ⟨row.1, included, image.known row listed name account⟩

section

variable {image : Scriptlets} {snap : InspectionSnapshot} {d : VarDirectory} {entry : TmpfilesEntry}

theorem denotes_root {name : Option String} {id : Option Nat} :
    Denotes "root" name id ↔ name = some "root" ∨ id = some 0 := by
  have digits : id.map toString ≠ some "root" := by
    cases id with
    | none => simp
    | some n => simpa using toString_ne_root n
  simp [Denotes, digits]

theorem denotes_number (name : Option String) (n : Nat) : Denotes (toString n) name (some n) :=
  .inr (.inl rfl)

theorem known_number (made : String → Prop) (n : Nat) : Known made (toString n) :=
  .inl (isNumber_toString n)

theorem hostOwnership_numeric {uid gid : Nat} (hu : d.ownerUid = some uid)
    (hg : d.ownerGid = some gid) (owner : entry.owner = toString uid) (group : entry.group = toString gid) :
    HostOwnership image snap d entry where
  owner := by rw [owner, hu]; exact denotes_number ..
  group := by rw [group, hg]; exact denotes_number ..
  owner_known := by rw [owner]; exact known_number ..
  group_known := by rw [group]; exact known_number ..

theorem hostOwnership_named {owner : ExportToken} (name : d.ownerName = some owner.text)
    (written : entry.owner = owner.text) :
    HostOwnership image snap d entry ↔ Known (AccountMade image snap) owner.text ∧
      Denotes entry.group d.groupName d.ownerGid ∧ Known (GroupMade image snap) entry.group := by
  constructor
  · intro h
    exact ⟨written ▸ h.owner_known, h.group, h.group_known⟩
  · rintro ⟨known, group, group_known⟩
    exact ⟨.inl (by rw [name, written]), group, by rw [written]; exact known, group_known⟩

theorem group_named {group : ExportToken} (name : d.groupName = some group.text)
    (written : entry.group = group.text) :
    Denotes entry.group d.groupName d.ownerGid ∧ Known (GroupMade image snap) entry.group ↔
      Known (GroupMade image snap) group.text := by
  rw [written]
  exact and_iff_right (.inl name)

theorem group_of_owner {owner : ExportToken} (refused : provedAccountName d.groupName = none)
    (written : entry.group = owner.text) :
    Denotes entry.group d.groupName d.ownerGid ∧ Known (GroupMade image snap) entry.group ↔
      d.ownerGid.map toString = some owner.text ∨ owner.text = "root" ∧ d.ownerGid = some 0 := by
  rw [written, Denotes, or_iff_right (provedAccountName_none refused owner)]
  refine and_iff_left_of_imp ?_
  rintro (digits | ⟨root, -⟩)
  · obtain ⟨gid, -, same⟩ := Option.map_eq_some_iff.mp digits
    exact .inl (same ▸ isNumber_toString gid)
  · exact .inr (.inl root)

theorem hostOwnership_root (uid : d.ownerUid = some 0) (owner : entry.owner = "root")
    (group : entry.group = "root") :
    HostOwnership image snap d entry ↔ d.ownerGid = some 0 ∨ d.groupName = some "root" := by
  have denoted : Denotes entry.group d.groupName d.ownerGid ↔
      d.ownerGid = some 0 ∨ d.groupName = some "root" := by
    rw [group, denotes_root, or_comm]
  rw [← denoted]
  refine ⟨fun h => h.group, fun h => ⟨?_, h, .inr (.inl owner), .inr (.inl group)⟩⟩
  exact .inr (.inr ⟨owner, uid⟩)

/-- For every directory recorded in full and every entry in force for it. -/
theorem ownership_kept_iff (recorded : Recorded d) {outcome : EffectiveBacking}
    (active : entry ∈ activeEntries snap d outcome) :
    HostOwnership image snap d entry ↔ OwnershipCarried image snap d := by
  obtain ⟨owner_text, group_text⟩ := activeEntries_ownership active
  obtain ⟨uid, uid_fits, hu⟩ := recorded.uid
  obtain ⟨gid, gid_fits, hg⟩ := recorded.gid
  unfold OwnershipCarried
  unfold resolveTmpfilesOwnership at owner_text group_text
  simp only [hu, hg, Option.getD_some] at owner_text group_text
  by_cases root : uid = 0
  · subst root
    rw [if_pos hu]
    exact hostOwnership_root hu owner_text group_text
  rw [if_neg (by simpa [hu] using root)]
  simp only [if_neg root] at owner_text group_text
  cases name : provedAccountName d.ownerName with
  | none =>
    simp only [name, numericToken_text, uid_fits, gid_fits] at owner_text group_text
    simpa using hostOwnership_numeric hu hg owner_text group_text
  | some owner =>
    have recorded_name := provedAccountName_some name
    simp only [name] at owner_text group_text
    simp only [Option.some.injEq, forall_eq']
    by_cases created : (collectMaterializedUsernames snap).contains owner.text = true
    · simp only [created, if_true] at owner_text group_text ⊢
      have made : Known (AccountMade image snap) owner.text :=
        .inr (.inr (accountMade_of_materialized created))
      rw [hostOwnership_named recorded_name owner_text, and_iff_right made]
      cases group_name : provedAccountName d.groupName with
      | none =>
        simp only [group_name, Option.getD_none, numericToken_text gid_fits] at group_text
        rw [group_text, hg]
        simpa using ⟨denotes_number .., known_number ..⟩
      | some group =>
        simp only [group_name, Option.getD_some] at group_text
        simpa using group_named (provedAccountName_some group_name) group_text
    · simp only [created, Bool.false_eq_true, if_false] at owner_text group_text ⊢
      cases provider : providingPackage (replicatedRpms snap) owner.text with
      | none =>
        simp only [provider, numericToken_text, uid_fits, gid_fits] at owner_text group_text
        simpa using hostOwnership_numeric hu hg owner_text group_text
      | some pkg =>
        simp only [provider] at owner_text group_text
        have made : TableAccount snap owner.text ∨ Known (AccountMade image snap) owner.text ↔
            Known (AccountMade image snap) owner.text :=
          or_iff_right_of_imp fun h => .inr (.inr (accountMade_of_table image h))
        rw [hostOwnership_named recorded_name owner_text, made]
        cases group_name : provedAccountName d.groupName with
        | none =>
          simp only [group_name, Option.getD_none] at group_text
          simpa using and_congr_right fun _ => group_of_owner group_name group_text
        | some group =>
          simp only [group_name, Option.getD_some] at group_text
          simpa using and_congr_right fun _ =>
            group_named (provedAccountName_some group_name) group_text

end

def tableAccounts (pkg : String) : List String :=
  (KNOWN_PACKAGE_ACCOUNTS.filter fun row => row.1 == pkg).flatMap (·.2)

def tableScriptlets : Scriptlets where
  accounts := tableAccounts
  groups := tableAccounts
  known row listed account mem := by
    rw [tableAccounts, List.mem_flatMap]
    exact ⟨row, List.mem_filter.mpr ⟨listed, by simp⟩, mem⟩

def databaseDirectory (group : String) (gid : Nat) : VarDirectory where
  path := "/var/lib/pgsql"
  mode := some "0700"
  ownerName := some "postgres"
  groupName := some group
  ownerUid := some 26
  ownerGid := some gid

def databaseHost (group : String) (gid : Nat) : InspectionSnapshot where
  storage := some { varDirectories := [databaseDirectory group gid] }
  rpm := some { packagesAdded := [{ name := "postgresql-server" }] }

def databaseEntry : TmpfilesEntry := ⟨"/var/lib/pgsql", "0700", "postgres", "postgres"⟩

theorem databaseDirectory_recorded {group : String} {gid : Nat} (fits : gid ≤ U32_MAX) :
    Recorded (databaseDirectory group gid) :=
  ⟨⟨26, by decide, rfl⟩, ⟨gid, fits, rfl⟩, rfl, rfl⟩

/-- The group of the database has the name of its account. -/
theorem database_ownership_kept :
    HostOwnership tableScriptlets (databaseHost "postgres" 26) (databaseDirectory "postgres" 26)
      databaseEntry := by
  have active : databaseEntry ∈ activeEntries (databaseHost "postgres" 26)
      (databaseDirectory "postgres" 26) (.provision none) := by decide +kernel
  rw [ownership_kept_iff (databaseDirectory_recorded (by decide)) active]
  rw [OwnershipCarried, if_neg (by decide)]
  intro owner name
  have proved : provedAccountName (some "postgres") = some ⟨"postgres", by decide⟩ := by
    rw [provedAccountName, Option.bind_some, parse_ok (by decide)]
    rfl
  have same : (⟨"postgres", by decide⟩ : ExportToken) = owner :=
    Option.some.inj (proved.symm.trans name)
  subst same
  rw [if_neg (by decide +kernel)]
  intro _
  refine ⟨.inl ⟨("postgresql-server", ["postgres"]), ?_, ?_, ?_⟩, ?_⟩
  · decide
  · decide +kernel
  · decide
  · rw [show (databaseDirectory "postgres" 26).groupName = some "postgres" from rfl, proved]
    exact .inr (.inr (.inr (.inr ⟨"postgresql-server", by decide +kernel, by decide +kernel⟩)))

/-- A group with a space in its name is refused, and the account's takes its place. -/
theorem refused_group_becomes_owner :
    ¬ ∀ (image : Scriptlets) (snap : InspectionSnapshot) (d : VarDirectory)
      (outcome : EffectiveBacking) (entry : TmpfilesEntry), Recorded d →
      (d, outcome) ∈ effectiveVarBacking snap → entry ∈ activeEntries snap d outcome →
      HostOwnership image snap d entry := by
  intro all
  have kept := all tableScriptlets (databaseHost "domain users" 5000)
    (databaseDirectory "domain users" 5000) (.provision none) databaseEntry
    (databaseDirectory_recorded (by decide)) (by decide +kernel) (by decide +kernel)
  have group : Denotes "postgres" (some "domain users") (some 5000) := kept.group
  rw [Denotes] at group
  revert group
  decide +kernel

end Inspectah
