import Inspectah.Refine.PayloadExtraction

/-!
Where an export's extraction writes. The checks see a path's text only, and a link extracted
earlier can send a later write elsewhere.
-/
namespace Inspectah

variable {snap : InspectionSnapshot} {path : String}
open LinkedTree

theorem splitChars_append_sep {sep : Char → Bool} {c : Char} (cut : sep c = true) (after : List Char) :
    ∀ before : List Char, (∀ x ∈ before, sep x = false) →
      Text.splitChars sep (before ++ c :: after) = before :: Text.splitChars sep after := by
  intro before plain
  induction before with
  | nil => simp [Text.splitChars, cut]
  | cons x rest ih =>
    have later := ih fun y mem => plain y (List.mem_cons_of_mem _ mem)
    simp [Text.splitChars, plain x, later]

theorem splitChars_of_plain {sep : Char → Bool} :
    ∀ {cs : List Char}, (∀ x ∈ cs, sep x = false) → Text.splitChars sep cs = [cs] := by
  intro cs plain
  induction cs with
  | nil => rfl
  | cons x rest ih =>
    have later := ih fun y mem => plain y (List.mem_cons_of_mem _ mem)
    simp [Text.splitChars, plain x, later]

theorem pathPieces_relOf (path : String) :
    ∃ top, pathPieces path = top ++ pathPieces (relOf path) := by
  unfold relOf
  split
  · rename_i before rel found
    obtain ⟨whole, plain⟩ := splitOnce_some found
    refine ⟨[before.toList], ?_⟩
    unfold pathPieces
    rw [whole, splitChars_append_sep (by simp) _ _ fun x mem => by simpa using plain x mem]
    rfl
  · exact ⟨[], rfl⟩

def Component.name : Component → Option String
  | .normal name => some name
  | _ => none

def pathNames (path : String) : List String := (components path).filterMap Component.name

theorem mem_components {c : Component} (steps : (stepOf c).isSome) :
    c ∈ components path ↔ c ∈ (pathPieces path).filterMap componentOf := by
  have not_root : c ≠ .rootDir := by rintro rfl; simp [stepOf] at steps
  have not_dot : c ≠ .curDir := by rintro rfl; simp [stepOf] at steps
  unfold components
  split
  · simp [not_root]
  · split
    · simp [not_dot]
    · rfl

theorem mem_components_parentDir :
    .parentDir ∈ components path ↔ ['.', '.'] ∈ pathPieces path := by
  rw [mem_components (by rfl), List.mem_filterMap]
  constructor
  · intro ⟨piece, mem, up⟩
    unfold componentOf at up
    split at up
    · cases up
    · split at up
      next dots => exact dots ▸ mem
      next => cases up
  · intro mem
    exact ⟨_, mem, rfl⟩

/-- What a path's own components leave out is left out below its first slash. -/
theorem parentDir_relOf (absent : .parentDir ∉ components path) :
    .parentDir ∉ components (relOf path) := by
  rw [mem_components (by rfl)] at absent ⊢
  obtain ⟨top, whole⟩ := pathPieces_relOf path
  rw [whole, List.filterMap_append] at absent
  exact fun mem => absent (List.mem_append_right _ mem)

theorem filterMap_stepOf {cs : List Component} (down : .parentDir ∉ cs) :
    cs.filterMap stepOf = (cs.filterMap Component.name).map .into := by
  induction cs with
  | nil => rfl
  | cons c rest ih =>
    have later := ih fun mem => down (List.mem_cons_of_mem _ mem)
    cases c with
    | rootDir => exact later
    | curDir => exact later
    | parentDir => exact absurd List.mem_cons_self down
    | normal name => simpa [stepOf, Component.name] using later

theorem pathSteps_eq (down : .parentDir ∉ components path) :
    pathSteps path = (pathNames path).map .into :=
  filterMap_stepOf down

theorem pathNames_eq (path : String) :
    pathNames path = ((pathPieces path).filterMap componentOf).filterMap Component.name := by
  unfold pathNames components
  split
  · rfl
  · split <;> rfl

theorem pathNames_of_finalName {path name : String} (ends : finalName path = some name) :
    ∃ before, pathNames path = before ++ [name] := by
  unfold finalName at ends
  cases last : (pathPieces path).getLast? with
  | none => simp [last] at ends
  | some piece =>
    obtain ⟨before, whole⟩ := List.getLast?_eq_some_iff.mp last
    have is_name : componentOf piece = some (.normal name) := by
      rw [last, Option.bind_some] at ends
      split at ends
      · rename_i found
        cases ends
        exact found
      · cases ends
    refine ⟨(before.filterMap componentOf).filterMap Component.name, ?_⟩
    rw [pathNames_eq, whole]
    simp [is_name, Component.name]

theorem componentOf_of_plain {piece : List Char} (ne : piece ≠ []) (first : piece.head? ≠ some '.') :
    componentOf piece = some (.normal (String.ofList piece)) := by
  have not_dot : piece ≠ ['.'] := by rintro rfl; simp at first
  have not_dots : piece ≠ ['.', '.'] := by rintro rfl; simp at first
  simp [componentOf, ne, not_dot, not_dots]

theorem pathNames_under {rel dir rest : String} (whole : rel.toList = dir.toList ++ '/' :: rest.toList)
    (plain : ∀ c ∈ dir.toList, c ≠ '/') (ne : dir.toList ≠ []) (first : dir.toList.head? ≠ some '.') :
    pathNames rel = dir :: pathNames rest := by
  have pieces : pathPieces rel = dir.toList :: pathPieces rest := by
    unfold pathPieces
    rw [whole, splitChars_append_sep (by simp) _ _ fun x mem => by simpa using plain x mem]
  rw [pathNames_eq, pathNames_eq, pieces, List.filterMap_cons, componentOf_of_plain ne first]
  simp [Component.name]

theorem pathNames_unmanaged (routed : routeOf snap path = .ok .unmanaged) :
    ∃ more, pathNames (relOf path) = "unmanaged" :: more := by
  unfold routeOf at routed
  split at routed
  · rename_i fileRel found
    have whole := afterPrefix_some found
    exact ⟨_, @pathNames_under (relOf path) "unmanaged" fileRel (by rw [whole]; rfl) (by simp)
      (by simp) (by simp)⟩
  · split at routed
    · split at routed
      · cases routed
      · split at routed <;> simp at routed
    · simp at routed

theorem plain_of_stagedNameFault {name : String} (admitted : stagedNameFault name = none) :
    name.toList ≠ [] ∧ name.toList.head? ≠ some '.' ∧ ∀ c ∈ name.toList, c ≠ '/' := by
  unfold stagedNameFault at admitted
  repeat' split at admitted
  all_goals try cases admitted
  rename_i _ _ _ first
  refine ⟨?_, ?_, ?_⟩
  · intro empty
    simp [empty] at first
  · intro dot
    simp [dot] at first
  · intro c mem slash
    have allowed : ∀ x ∈ name.toList, isAllowedNameChar x = true := by
      simpa [List.findIdx?_eq_none_iff] using admitted
    have := allowed c mem
    rw [slash] at this
    exact absurd this (by decide)

theorem mem_includedRepoless {name : String}
    (mem : name ∈ includedRepoless snap) : stagedNameFault name = none := by
  unfold includedRepoless at mem
  cases rpm : snap.rpm with
  | none => simp [rpm] at mem
  | some r =>
    simp only [rpm, Option.map_some, Option.getD_some, List.mem_filter] at mem
    simpa using mem.2

theorem pathNames_repoless (routed : routeOf snap path = .ok .repoless) :
    ∃ name ∈ includedRepoless snap, pathNames (relOf path) = [REPOLESS_DIR, name] := by
  unfold routeOf at routed
  split at routed
  · split at routed <;> simp at routed
  · split at routed
    · rename_i filename found
      split at routed
      · cases routed
      · split at routed
        · rename_i listed
          have mem : filename ∈ includedRepoless snap := by
            simp only [Bool.and_eq_true, decide_eq_true_eq] at listed
            exact listed.2
          obtain ⟨ne, first, plain⟩ := plain_of_stagedNameFault (mem_includedRepoless mem)
          have whole := afterPrefix_some found
          refine ⟨filename, mem, ?_⟩
          have single : pathPieces filename = [filename.toList] :=
            splitChars_of_plain fun x x_mem => by simpa using plain x x_mem
          rw [@pathNames_under (relOf path) REPOLESS_DIR filename (by rw [whole]; rfl)
            (by simp [REPOLESS_DIR]) (by simp [REPOLESS_DIR]) (by simp [REPOLESS_DIR]), pathNames_eq, single]
          simp [componentOf_of_plain ne first, Component.name]
        · simp at routed
    · simp at routed

/-- Every write is below the export directory, and below the RPM directory on the allowlist. -/
def ConfinedTo (snap : InspectionSnapshot) (out : List String)
    (writes : List (List String × Node String)) : Prop :=
  ∀ w ∈ writes, out <+: w.1 ∧
    (out ++ [REPOLESS_DIR] <+: w.1 → w.1 ≠ out ++ [REPOLESS_DIR] →
      ∃ name ∈ includedRepoless snap, w = (out ++ [REPOLESS_DIR, name], .file))

/-- When an entry is extracted, no part of its path in the export directory is a link. -/
def FollowsNoLink (snap : InspectionSnapshot) (out : List String) :
    Log String → List TarEntry → Prop
  | _, [] => True
  | l, e :: rest =>
    (routeOf snap e.path = .ok .unmanaged ∨ routeOf snap e.path = .ok .repoless →
      l.tree.Clear out (pathNames (relOf e.path))) ∧
    FollowsNoLink snap out (extractEntry snap out l e).1 rest

instance decidableFollowsNoLink (snap : InspectionSnapshot) (out : List String) :
    ∀ l entries, Decidable (FollowsNoLink snap out l entries)
  | _, [] => .isTrue trivial
  | l, e :: rest =>
    have := decidableFollowsNoLink snap out (extractEntry snap out l e).1 rest
    inferInstanceAs (Decidable (_ ∧ _))

/-- What extracting an entry may add: directories on the way to its path, and its
    path itself. -/
def WrittenAt (out names : List String) (isLink : Bool) (w : List String × Node String) : Prop :=
  (∃ part, part <+: names ∧ part ≠ [] ∧ part ≠ names ∧ w = (out ++ part, .dir)) ∨
    (w.1 = out ++ names ∧ (isLink = false → w.2 = .file))

/-- Past the directories, at most the path itself is written. -/
theorem placeEntry_or {out : List String} {l made : Log String} {e : TarEntry}
    {parent : Option (List String)}
    (dirs : l.makeDirs MAX_LINKS out (pathSteps (relOf e.path)).dropLast = (made, parent))
    (leads : ∀ there, parent = some there → there = out ++ (pathNames (relOf e.path)).dropLast)
    (unlinked : pathNames (relOf e.path) ≠ [] →
      made.tree.isLink (out ++ pathNames (relOf e.path)) = false) :
    (placeEntry out l e).1 = made ∨
      ∃ n, (e.entryType.isLink = false → n = .file) ∧
        (placeEntry out l e).1 = made.write (out ++ pathNames (relOf e.path)) n := by
  cases parent with
  | none =>
    left
    simp [placeEntry, dirs]
  | some there =>
    have here := leads there rfl
    cases ends : finalName (relOf e.path) with
    | none =>
      left
      simp only [placeEntry, dirs, ends]
      split
      · split <;> rfl
      · rfl
    | some name =>
      obtain ⟨before, names⟩ := pathNames_of_finalName ends
      rw [names, List.dropLast_concat] at here
      rw [names] at unlinked
      subst here
      have target : out ++ before ++ [name] = out ++ pathNames (relOf e.path) := by
        rw [names, List.append_assoc]
      simp only [placeEntry, dirs, ends, finish, ← target]
      split
      · rename_i is_link
        split
        · exact .inl rfl
        · rename_i link_target _
          split
          · exact .inl rfl
          · rcases createLink_or made (out ++ before) name (Text.startsWith link_target "/")
              (pathSteps link_target) with same | wrote
            · exact .inl same
            · exact .inr ⟨_, by simp [is_link], wrote⟩
      · have clear : made.tree.isLink (out ++ before ++ [name]) = false := by
          rw [List.append_assoc]
          exact unlinked (by simp)
        rcases createFile_clear MAX_LINKS clear with same | wrote
        · exact .inl same
        · exact .inr ⟨_, fun _ => rfl, wrote⟩

theorem placeEntry_clear {out : List String} {l : Log String} {e : TarEntry}
    (down : .parentDir ∉ components (relOf e.path))
    (clear : l.tree.Clear out (pathNames (relOf e.path))) :
    ∃ made, (placeEntry out l e).1.writes = l.writes ++ made ∧
      ∀ w ∈ made, WrittenAt out (pathNames (relOf e.path)) e.entryType.isLink w := by
  have steps : (pathSteps (relOf e.path)).dropLast =
      (pathNames (relOf e.path)).dropLast.map .into := by
    rw [pathSteps_eq down, List.map_dropLast]
  obtain ⟨⟨⟨made, writes, parts⟩, links_same⟩, leads⟩ :=
    makeDirs_clear MAX_LINKS (clear.part (List.dropLast_prefix _))
  rw [← steps] at writes links_same leads
  have dirs : ∀ w ∈ made, WrittenAt out (pathNames (relOf e.path)) e.entryType.isLink w := by
    intro w mem
    obtain ⟨part, is_part, some_part, rfl⟩ := parts w mem
    refine .inl ⟨part, is_part.trans (List.dropLast_prefix _), some_part, ?_, rfl⟩
    rintro rfl
    have shorter := is_part.length_le
    have longer := List.length_pos_of_ne_nil some_part
    rw [List.length_dropLast] at shorter
    omega
  rcases placeEntry_or Prod.mk.eta.symm leads fun ne => links_same _ (clear _ (List.prefix_refl _) ne)
    with same | ⟨n, plain, wrote⟩
  · exact ⟨made, by rw [same, writes], dirs⟩
  · refine ⟨made ++ [(out ++ pathNames (relOf e.path), n)], ?_, ?_⟩
    · rw [wrote, Log.writes_write, writes, List.append_assoc]
    · intro w mem
      rcases List.mem_append.mp mem with before | last
      · exact dirs w before
      · rw [List.mem_singleton.mp last]
        exact .inr ⟨rfl, plain⟩

theorem extractSafeFrom_components {unpackIn : List TarEntry → TarEntry → Option String}
    {totalSize : Nat} {unpacked entries : List TarEntry}
    (accepted : extractSafeFrom unpackIn totalSize unpacked entries = .ok ()) :
    ∀ e ∈ entries, .parentDir ∉ components e.path := by
  induction entries generalizing totalSize unpacked with
  | nil => simp
  | cons e rest ih =>
    unfold extractSafeFrom at accepted
    split at accepted
    · cases accepted
    · rename_i checked
      intro x mem
      rcases List.mem_cons.mp mem with rfl | later
      · intro climbs
        unfold extractSafeEntry at checked
        rw [if_pos climbs] at checked
        split at checked <;> cases checked
      · exact ih accepted x later

theorem extractEntry_confined {out : List String} {l : Log String}
    {e : TarEntry} (down : .parentDir ∉ components e.path)
    (clear : routeOf snap e.path = .ok .unmanaged ∨ routeOf snap e.path = .ok .repoless →
      l.tree.Clear out (pathNames (relOf e.path)))
    (confined : ConfinedTo snap out l.writes) :
    ConfinedTo snap out (extractEntry snap out l e).1.writes := by
  unfold extractEntry
  split
  · exact confined
  · exact confined
  · rename_i routed
    obtain ⟨made, writes, placed⟩ := placeEntry_clear (parentDir_relOf down) (clear (.inl routed))
    obtain ⟨more, names⟩ := pathNames_unmanaged routed
    rw [writes]
    intro w mem
    rcases List.mem_append.mp mem with before | new
    · exact confined w before
    · -- The first name of every path written is the unmanaged directory.
      have inside : ∃ part, part <+: "unmanaged" :: more ∧ part ≠ [] ∧ w.1 = out ++ part := by
        rcases names ▸ placed w new with ⟨part, is_part, some_part, _, rfl⟩ | ⟨there, _⟩
        · exact ⟨part, is_part, some_part, rfl⟩
        · exact ⟨_, List.prefix_refl _, by simp, there⟩
      obtain ⟨part, is_part, some_part, there⟩ := inside
      refine ⟨there ▸ List.prefix_append _ _, fun under => ?_⟩
      rw [there, List.prefix_append_right_inj] at under
      have mixed := under.trans is_part
      simp [REPOLESS_DIR] at mixed
  · rename_i routed
    split
    · exact confined
    · rename_i no_link
      obtain ⟨made, writes, placed⟩ := placeEntry_clear (parentDir_relOf down) (clear (.inr routed))
      obtain ⟨name, listed, names⟩ := pathNames_repoless routed
      rw [writes]
      intro w mem
      rcases List.mem_append.mp mem with before | new
      · exact confined w before
      · rcases names ▸ placed w new with ⟨part, is_part, some_part, shorter, rfl⟩ | ⟨there, plain⟩
        · refine ⟨List.prefix_append _ _, fun _ deeper => ?_⟩
          -- The only directory made on the way is the RPM directory itself.
          rcases List.prefix_cons_iff.mp is_part with rfl | ⟨rest, rfl, is_rest⟩
          · exact absurd rfl some_part
          · rcases List.prefix_cons_iff.mp is_rest with rfl | ⟨last, rfl, none_left⟩
            · exact absurd rfl deeper
            · rw [List.prefix_nil.mp none_left] at shorter
              exact absurd rfl shorter
        · refine ⟨there ▸ List.prefix_append _ _, fun _ _ => ⟨name, listed, ?_⟩⟩
          exact Prod.ext there (plain (by simpa using no_link))

theorem extraction_confined_from {out : List String}
    {entries : List TarEntry} {l : Log String}
    (down : ∀ e ∈ entries, .parentDir ∉ components e.path)
    (unfollowed : FollowsNoLink snap out l entries) (confined : ConfinedTo snap out l.writes) :
    ConfinedTo snap out (extractPayloadDirsFromTarball snap out l entries).1.writes := by
  induction entries generalizing l with
  | nil => exact confined
  | cons e rest ih =>
    have stepped := extractEntry_confined (down e List.mem_cons_self) unfollowed.1 confined
    have onward := ih (fun x mem => down x (List.mem_cons_of_mem _ mem)) unfollowed.2 stepped
    rw [extractPayloadDirsFromTarball, extractEntries_cons]
    split
    · exact onward
    · exact stepped

/-- From any tree: entries never written through a link stay in the export directory. -/
theorem extraction_confined (unpackIn : List TarEntry → TarEntry → Option String)
    (snap : InspectionSnapshot) (out : List String) (tree : FileTree String) (entries : List TarEntry)
    (accepted : extractSafe unpackIn entries = .ok ())
    (unfollowed : FollowsNoLink snap out { tree := tree } entries) :
    ConfinedTo snap out
      (extractPayloadDirsFromTarball snap out { tree := tree } entries).1.writes :=
  extraction_confined_from (extractSafeFrom_components accepted) unfollowed (by simp [ConfinedTo])

def exportTree : FileTree String :=
  ⟨[(["tmp"], .dir), (["tmp", "out"], .dir), (["etc"], .dir), (["etc", "motd"], .file)]⟩

def payloadSnapshot : InspectionSnapshot :=
  { unmanagedFiles := some { items := [{ path := "/opt/data" }, { path := "/opt/link" }] }
    rpm := some { packagesAdded :=
      [{ name := "tool", version := "1", release := "2", arch := "noarch", repolessCached := true }] } }

def linkedPayload : List TarEntry :=
  [{ path := "host/unmanaged/opt/link", entryType := .symlink, linkName := some "/etc/motd" },
   { path := "host/unmanaged/opt/data", size := 3 },
   { path := "host/repoless-packages/tool-1-2.noarch.rpm", size := 7 }]

theorem extraction_confined_payload :
    ConfinedTo payloadSnapshot ["tmp", "out"] (extractPayloadDirsFromTarball payloadSnapshot
      ["tmp", "out"] { tree := exportTree } linkedPayload).1.writes :=
  extraction_confined (fun _ _ => none) payloadSnapshot ["tmp", "out"] exportTree linkedPayload
    (by decide +kernel) (by decide +kernel)

def writtenTwice : List TarEntry :=
  [{ path := "host/unmanaged/opt/data", entryType := .symlink, linkName := some "/etc/motd" },
   { path := "host/unmanaged/opt/data", size := 3 }]

theorem extraction_writes_through_link :
    extractSafe (fun _ _ => none) writtenTwice = .ok () ∧
    (["etc", "motd"], .file) ∈ (extractPayloadDirsFromTarball payloadSnapshot ["tmp", "out"]
      { tree := exportTree } writtenTwice).1.writes ∧
    ¬ ConfinedTo payloadSnapshot ["tmp", "out"] (extractPayloadDirsFromTarball payloadSnapshot
      ["tmp", "out"] { tree := exportTree } writtenTwice).1.writes := by
  have wrote : (["etc", "motd"], Node.file) ∈ (extractPayloadDirsFromTarball payloadSnapshot
      ["tmp", "out"] { tree := exportTree } writtenTwice).1.writes := by decide +kernel
  refine ⟨by decide +kernel, wrote, fun confined => ?_⟩
  exact absurd (confined _ wrote).1 (by decide)

end Inspectah
