import Inspectah.Library.LastWriter
import Inspectah.Refine.LockedExport
import Inspectah.Refine.RepoSections

/-!
The repository cascade. Toggling a section reaches its repo files and keys; a
shared one is excluded only with every section that shares it.
-/
namespace Inspectah

open FirstMatch LastWriter

def repoFileRows (snap : InspectionSnapshot) : List RepoFile := rowsOf RpmSection.repoFiles snap.rpm

def repoToggle : RefinementOp → Option (String × Bool)
  | .setInclude (.repo path) incl => some (RepoId.folded ⟨path⟩, incl)
  | _ => none

def togglesSection (id : String) (op : RefinementOp) : Bool := (repoToggle op).any (·.1 == id)

def LastExcluded (ops : List RefinementOp) (id : String) : Prop :=
  (lastOf (togglesSection id) ops).bind repoToggle = some (id, false)

def rowAt (rows : List RepoFile) (path : String) : Option RepoFile :=
  rows.find? fun row => row.path == path

def IsExcludedAt (rows : List RepoFile) (path : String) : Prop :=
  ∃ row, rowAt rows path = some row ∧ row.disposition.isIncluded = false

/-- Files and keys follow the last toggles of their sections; `counts` says which rows this is
    claimed of. -/
structure RepoCascade (counts : (String → Prop) → Prop) (original projected : InspectionSnapshot)
    (ops : List RefinementOp) : Prop where
  files : ∀ path file, rowAt (repoFileRows original) path = some file → file.locked = false →
    file.disposition.isIncluded = true → counts (DefinedAt (repoFileRows original) path) →
    (IsExcludedAt (repoFileRows projected) path ↔
      ∀ id, DefinedAt (repoFileRows original) path id → LastExcluded ops id)
  keys : ∀ path key, rowAt (keyRows original) path = some key →
    key.disposition.isIncluded = true → counts (ReferencedBy (repoFileRows original) path) →
    (IsExcludedAt (keyRows projected) path ↔
      ∀ id, ReferencedBy (repoFileRows original) path id → LastExcluded ops id)

section Excluded

variable (excluded : List RepoId) (path id : String)

theorem isSectionExcluded_include :
    isSectionExcluded (excluded.filter fun e => e.folded != RepoId.folded ⟨path⟩) id =
      (RepoId.folded ⟨path⟩ != id && isSectionExcluded excluded id) := by
  rw [isSectionExcluded, isSectionExcluded, List.any_filter]
  by_cases same : RepoId.folded ⟨path⟩ = id
  · simp [same]
  · rw [show (RepoId.folded ⟨path⟩ != id) = true by simpa using same, Bool.true_and]
    congr 1
    funext e
    by_cases hit : e.folded = id
    · simp [hit, Ne.symm same]
    · simp [hit]

theorem isSectionExcluded_exclude :
    isSectionExcluded (if excluded.any fun e => e.folded == RepoId.folded ⟨path⟩ then excluded
      else excluded ++ [⟨path⟩]) id =
      (RepoId.folded ⟨path⟩ == id || isSectionExcluded excluded id) := by
  split
  · rename_i known
    by_cases same : RepoId.folded ⟨path⟩ = id
    · subst same
      rw [beq_self_eq_true, Bool.true_or]
      exact known
    · rw [show (RepoId.folded ⟨path⟩ == id) = false by simpa using same, Bool.false_or]
  · simp [isSectionExcluded, Bool.or_comm]

theorem isSectionExcluded_excludeSection (op : RefinementOp) :
    isSectionExcluded (excludeSection excluded op) id =
      if togglesSection id op then (repoToggle op).any (!·.2)
      else isSectionExcluded excluded id := by
  cases toggle : repoToggle op with
  | none =>
    have same : excludeSection excluded op = excluded := by
      cases op with
      | setInclude item incl => cases item with
        | repo path => cases toggle
        | _ => rfl
      | _ => rfl
    rw [same, togglesSection, toggle, Option.any_none, if_neg (by simp)]
  | some t =>
    obtain ⟨path, rfl⟩ : ∃ path, op = .setInclude (.repo path) t.2 := by
      cases op with
      | setInclude item incl => cases item with
        | repo path => exact ⟨path, by rw [← Option.some.inj toggle]⟩
        | _ => cases toggle
      | _ => cases toggle
    rw [togglesSection, toggle, Option.any_some, Option.any_some,
      ← Option.some.inj toggle, excludeSection]
    cases t.2 with
    | true =>
      rw [if_pos rfl, isSectionExcluded_include]
      by_cases same : RepoId.folded ⟨path⟩ = id <;> simp [same]
    | false =>
      rw [if_neg (by simp), isSectionExcluded_exclude]
      by_cases same : RepoId.folded ⟨path⟩ = id <;> simp [same]

theorem isSectionExcluded_iff (ops : List RefinementOp) :
    isSectionExcluded (excludedSectionsAt ops) id = true ↔ LastExcluded ops id := by
  induction ops using List.reverseRecOn with
  | nil => simp [excludedSectionsAt, isSectionExcluded, LastExcluded]
  | append_singleton ops op ih =>
    rw [excludedSectionsAt, List.foldl_concat, isSectionExcluded_excludeSection, LastExcluded,
      lastOf_concat]
    by_cases toggles : togglesSection id op
    · rw [if_pos toggles, if_pos toggles, Option.bind_some]
      cases toggle : repoToggle op with
      | none => simp
      | some t =>
        obtain ⟨id', incl⟩ := t
        rw [togglesSection, toggle, Option.any_some, beq_iff_eq] at toggles
        subst toggles
        cases incl <;> simp
    · rw [if_neg toggles, if_neg toggles]
      exact ih

end Excluded

section Rows

def decideAll (d : FindingKind) (reaches : String → Bool) (paths : List String)
    (rows : List RepoFile) : List RepoFile :=
  paths.foldl (fun rows path =>
    if reaches path then updateFirst (·.path == path) (FindingRow.decide d) rows else rows) rows

def includedAt (rows : List RepoFile) (path : String) : Option Bool :=
  (rowAt rows path).map (·.disposition.isIncluded)

theorem isExcludedAt_iff {rows : List RepoFile} {path : String} :
    IsExcludedAt rows path ↔ includedAt rows path = some false := by
  rw [includedAt, Option.map_eq_some_iff, IsExcludedAt]

theorem includedAt_updateFirst (d : FindingKind) (p path : String) (rows : List RepoFile) :
    includedAt (updateFirst (·.path == p) (FindingRow.decide d) rows) path =
      if p = path then (includedAt rows path).map fun _ => d.isIncluded
      else includedAt rows path := by
  rw [includedAt, includedAt, rowAt, rowAt]
  by_cases same : p = path
  · subst same
    rw [if_pos rfl, find_updateFirst (fun row : RepoFile => row.path == p) (FindingRow.decide d)
      (fun _ hit => hit), Option.map_map, Option.map_map]
    rfl
  · rw [if_neg same, find_updateFirst_unseen]
    intro row hit
    have at_p : row.path = p := by simpa using List.find?_some hit
    have miss : (row.path == path) = false := by simp [at_p, same]
    exact ⟨miss, miss⟩

theorem includedAt_decideAll (d : FindingKind) (reaches : String → Bool) (paths : List String)
    (path : String) (rows : List RepoFile) :
    includedAt (decideAll d reaches paths rows) path =
      if path ∈ paths ∧ reaches path then (includedAt rows path).map fun _ => d.isIncluded
      else includedAt rows path := by
  induction paths generalizing rows with
  | nil => simp [decideAll]
  | cons p rest ih =>
    rw [decideAll, List.foldl_cons, ← decideAll, ih]
    by_cases reached : reaches p
    · rw [if_pos reached, includedAt_updateFirst]
      by_cases same : p = path
      · subst same
        simp [reached, Function.comp_def]
      · simp [same, Ne.symm same]
    · rw [if_neg reached]
      by_cases same : p = path
      · subst same
        simp [reached]
      · simp [Ne.symm same]

variable (d : FindingKind) (reaches : String → Bool) (paths : List String) (rpm : RpmSection)

theorem rows_decideRepoFiles :
    (paths.foldl (fun rpm p => if reaches p then decideRepoFile p d rpm else rpm) rpm).repoFiles =
        decideAll d reaches paths rpm.repoFiles ∧
      (paths.foldl (fun rpm p => if reaches p then decideRepoFile p d rpm else rpm) rpm).gpgKeys =
        rpm.gpgKeys := by
  induction paths generalizing rpm with
  | nil => exact ⟨rfl, rfl⟩
  | cons p rest ih =>
    rw [List.foldl_cons, (ih _).1, (ih _).2, decideAll, decideAll, List.foldl_cons]
    split <;> exact ⟨rfl, rfl⟩

theorem rows_decideGpgKeys :
    (paths.foldl (fun rpm p => if reaches p then decideGpgKey p d rpm else rpm) rpm).gpgKeys =
        decideAll d reaches paths rpm.gpgKeys ∧
      (paths.foldl (fun rpm p => if reaches p then decideGpgKey p d rpm else rpm) rpm).repoFiles =
        rpm.repoFiles := by
  induction paths generalizing rpm with
  | nil => exact ⟨rfl, rfl⟩
  | cons p rest ih =>
    rw [List.foldl_cons, (ih _).1, (ih _).2, decideAll, decideAll, List.foldl_cons]
    split <;> exact ⟨rfl, rfl⟩

end Rows

section Toggle

variable (index : RepoIndex) (excluded : List RepoId) (path : String) (rpm : RpmSection)

theorem rows_excludeRepo :
    (excludeRepo index excluded path rpm).repoFiles =
        decideAll .excluded (fileFullyExcluded index excluded) (index.filesOf ⟨path⟩)
          rpm.repoFiles ∧
      (excludeRepo index excluded path rpm).gpgKeys =
        decideAll .excluded (keyFullyExcluded index excluded) (index.keysOf ⟨path⟩)
          rpm.gpgKeys := by
  unfold excludeRepo
  dsimp only
  rw [(rows_decideGpgKeys ..).1, (rows_decideGpgKeys ..).2, (rows_decideRepoFiles ..).1,
    (rows_decideRepoFiles ..).2]
  exact ⟨rfl, rfl⟩

theorem rows_includeRepo :
    (includeRepo index path rpm).repoFiles =
        decideAll .included (fun _ => true) (index.filesOf ⟨path⟩) rpm.repoFiles ∧
      (includeRepo index path rpm).gpgKeys =
        decideAll .included (fun _ => true) (index.keysOf ⟨path⟩) rpm.gpgKeys := by
  have files := rows_decideRepoFiles .included (fun _ => true) (index.filesOf ⟨path⟩)
    (cascadeRepoPackages path true rpm)
  have keys := rows_decideGpgKeys .included (fun _ => true) (index.keysOf ⟨path⟩)
    ((index.filesOf ⟨path⟩).foldl (fun rpm file => decideRepoFile file .included rpm)
      (cascadeRepoPackages path true rpm))
  simp only [if_true] at files keys
  unfold includeRepo
  dsimp only
  rw [keys.1, keys.2, files.1, files.2]
  exact ⟨rfl, rfl⟩

end Toggle

structure RowKind (index : RepoIndex) where
  rows : RpmSection → List RepoFile
  pathsOf : RepoId → List String
  full : List RepoId → String → Bool
  keeps : ∀ rpm packages, rows { rpm with packagesAdded := packages } = rows rpm
  excludes : ∀ excluded p rpm, rows (excludeRepo index excluded p rpm) =
    decideAll .excluded (full excluded) (pathsOf ⟨p⟩) (rows rpm)
  includes : ∀ p rpm, rows (includeRepo index p rpm) =
    decideAll .included (fun _ => true) (pathsOf ⟨p⟩) (rows rpm)

def repoFileKind (index : RepoIndex) : RowKind index where
  rows := RpmSection.repoFiles
  pathsOf := index.filesOf
  full := fileFullyExcluded index
  keeps _ _ := rfl
  excludes excluded p rpm := (rows_excludeRepo index excluded p rpm).1
  includes p rpm := (rows_includeRepo index p rpm).1

def gpgKeyKind (index : RepoIndex) : RowKind index where
  rows := RpmSection.gpgKeys
  pathsOf := index.keysOf
  full := keyFullyExcluded index
  keeps _ _ := rfl
  excludes excluded p rpm := (rows_excludeRepo index excluded p rpm).2
  includes p rpm := (rows_includeRepo index p rpm).2

namespace RowKind

variable {index : RepoIndex} (kind : RowKind index) (path : String)

/-- Whether an operation toggles a section that reaches the path, and which way. -/
def reach : RefinementOp → Option Bool
  | .setInclude (.repo p) incl => if path ∈ kind.pathsOf ⟨p⟩ then some incl else none
  | _ => none

/-- An inclusion includes; an exclusion excludes when the row is fully excluded. -/
def settle (full was : Bool) (op : RefinementOp) : Bool :=
  match kind.reach path op with
  | none => was
  | some incl => incl || (was && !full)

def included (snap : InspectionSnapshot) : Option Bool :=
  includedAt (rowsOf kind.rows snap.rpm) path

section History

variable (original : InspectionSnapshot) (excluded : List RepoId)

theorem included_replayOp (snap : InspectionSnapshot) (op : RefinementOp) :
    kind.included path (replayOp original index excluded snap op) =
      (kind.included path snap).map fun was =>
        kind.settle path (kind.full excluded path) was op := by
  by_cases repo : ∃ p incl, op = .setInclude (.repo p) incl
  · obtain ⟨p, incl, rfl⟩ := repo
    simp only [replayOp, setInclude, isItemLocked, Bool.and_false, Bool.false_eq_true, if_false,
      included, InspectionSnapshot.onRpm, settle, reach]
    cases snap.rpm with
    | none => rfl
    | some rpm =>
      cases incl with
      | true =>
        simp only [Option.map_some, if_true, rowsOf, Option.getD_some, kind.includes,
          includedAt_decideAll, and_true]
        by_cases reached : path ∈ kind.pathsOf ⟨p⟩
        · simp only [reached, if_true, Bool.true_or]
          rfl
        · simp [reached]
      | false =>
        simp only [Option.map_some, Bool.false_eq_true, if_false, rowsOf, Option.getD_some,
          kind.excludes, includedAt_decideAll]
        by_cases reached : path ∈ kind.pathsOf ⟨p⟩
        · cases kind.full excluded path <;> simp [reached]
        · simp [reached]
  · have silent : kind.reach path op = none := by
      unfold reach
      split
      · exact absurd ⟨_, _, rfl⟩ repo
      · rfl
    rw [included, included, rowsOf_replayOp kind.keeps fun p incl same => repo ⟨p, incl, same⟩]
    simp [settle, silent]

theorem included_foldl (ops : List RefinementOp) (snap : InspectionSnapshot) :
    kind.included path (ops.foldl (replayOp original index excluded) snap) =
      (kind.included path snap).map fun was =>
        ops.foldl (kind.settle path (kind.full excluded path)) was := by
  induction ops generalizing snap with
  | nil => simp
  | cons op rest ih =>
    rw [List.foldl_cons, ih, included_replayOp, Option.map_map]
    rfl

end History

theorem settle_included (ops : List RefinementOp) :
    ops.foldl (kind.settle path false) true = true := by
  induction ops with
  | nil => rfl
  | cons op rest ih =>
    have still : kind.settle path false true op = true := by
      unfold settle
      split <;> simp
    rw [List.foldl_cons, still, ih]

theorem settle_last {ops : List RefinementOp} {op : RefinementOp} {incl : Bool}
    (last : lastOf (fun op => (kind.reach path op).isSome) ops = some op)
    (toggle : kind.reach path op = some incl) :
    ops.foldl (kind.settle path true) true = incl := by
  have decided : ∃ was, True ∧ id (ops.foldl (kind.settle path true) true) =
      id (kind.settle path true was op) := by
    apply observe_last (fun _ _ _ => trivial) ?_ trivial last
    intro was op silent
    rw [Option.isSome_eq_false_iff, Option.isNone_iff_eq_none] at silent
    rw [settle, silent]
  obtain ⟨was, -, decided⟩ := decided
  rw [id, id, settle, toggle] at decided
  simpa using decided

structure SharedBy (shares : String → String → Prop) : Prop where
  pathsOf : ∀ path id, path ∈ kind.pathsOf id ↔ shares path id.folded
  full : ∀ excluded path, (∃ id, shares path id) → (kind.full excluded path = true ↔
    ∀ id, shares path id → isSectionExcluded excluded id = true)

variable {kind path}

theorem reach_eq_some {shares : String → String → Prop} (shared : kind.SharedBy shares)
    {op : RefinementOp} {incl : Bool} :
    kind.reach path op = some incl ↔ ∃ id, repoToggle op = some (id, incl) ∧ shares path id := by
  cases op with
  | setInclude item b => cases item with
    | repo p =>
      have path_iff := shared.pathsOf path ⟨p⟩
      by_cases reached : path ∈ kind.pathsOf ⟨p⟩
      · simp [reach, repoToggle, reached, path_iff.mp reached]
      · simp only [reach, repoToggle, if_neg reached, reduceCtorEq, false_iff]
        rintro ⟨id, same, shares_id⟩
        rw [Option.some.injEq, Prod.mk.injEq] at same
        exact reached (path_iff.mpr (same.1 ▸ shares_id))
    | _ => simp [reach, repoToggle]
  | _ => simp [reach, repoToggle]

theorem included_replay_iff {shares : String → String → Prop} (shared : kind.SharedBy shares)
    (original : InspectionSnapshot) (ops : List RefinementOp) (own : ∃ id, shares path id)
    (start : kind.included path original = some true) :
    kind.included path (replay original index ops) = some false ↔
      ∀ id, shares path id → LastExcluded ops id := by
  have full := shared.full (excludedSectionsAt ops) path own
  simp only [isSectionExcluded_iff] at full
  rw [replay, included_foldl, start, Option.map_some, Option.some.injEq]
  cases all : kind.full (excludedSectionsAt ops) path with
  | false =>
    rw [all, Bool.false_eq_true, false_iff] at full
    rw [settle_included]
    simp [full]
  | true =>
    have excludes := full.mp all
    -- Some section of the row has a toggle, so some toggle reaches the row last.
    obtain ⟨id, shares_id⟩ := own
    obtain ⟨op, last, toggle⟩ := Option.bind_eq_some_iff.mp (excludes id shares_id)
    have reaches : kind.reach path op = some false :=
      (reach_eq_some shared).mpr ⟨id, toggle, shares_id⟩
    have known : lastOf (fun op => (kind.reach path op).isSome) ops ≠ none := by
      rw [Ne, lastOf_eq_none_iff]
      intro silent
      have absent := silent op (writes_of_lastOf last).1
      rw [reaches] at absent
      cases absent
    obtain ⟨lastOp, lastReach⟩ := Option.ne_none_iff_exists'.mp known
    obtain ⟨incl, reached⟩ := Option.isSome_iff_exists.mp (writes_of_lastOf lastReach).2
    obtain ⟨id', toggle', shares_id'⟩ := (reach_eq_some shared).mp reached
    -- That toggle is the last of its own section, which excludes.
    have own_last : lastOf (togglesSection id') ops = some lastOp := by
      apply lastOf_among _ lastReach
      · rw [togglesSection, toggle', Option.any_some, beq_self_eq_true]
      · intro o toggles
        obtain ⟨t, toggled, same⟩ := (Option.any_eq_true _ _).mp toggles
        rw [beq_iff_eq] at same
        have reached : kind.reach path o = some t.2 :=
          (reach_eq_some shared).mpr ⟨id', by rw [toggled, ← same], shares_id'⟩
        rw [reached]
        rfl
    have excluded := excludes id' shares_id'
    rw [LastExcluded, own_last, Option.bind_some, toggle', Option.some.injEq, Prod.mk.injEq]
      at excluded
    rw [settle_last kind path lastReach reached]
    exact iff_of_true excluded.2 excludes

end RowKind

section Build

variable (snap : InspectionSnapshot)

theorem mem_repoFileBySection {id path : String} :
    path ∈ ((RepoIndex.build snap).repoFileBySection.lookup id).getD [] ↔
      DefinedAt (repoFileRows snap) path id := by
  rw [RepoIndex.build, repoFileRows, rowsOf]
  cases snap.rpm with
  | none => simp [DefinedAt]
  | some rpm => exact RepoIndex.mem_files_readSections rpm.repoFiles

theorem mem_gpgKeysBySection {id key : String} :
    key ∈ ((RepoIndex.build snap).gpgKeysBySection.lookup id).getD [] ↔
      ReferencedBy (repoFileRows snap) key id := by
  rw [RepoIndex.build, repoFileRows, rowsOf]
  cases snap.rpm with
  | none => simp [ReferencedBy]
  | some rpm => exact RepoIndex.mem_keys_readSections rpm.repoFiles

theorem mem_sectionsByGpgKey {id key : String} :
    id ∈ ((RepoIndex.build snap).sectionsByGpgKey.lookup key).getD [] ↔
      ReferencedBy (repoFileRows snap) key id := by
  rw [RepoIndex.build, repoFileRows, rowsOf]
  cases snap.rpm with
  | none => simp [ReferencedBy]
  | some rpm => exact RepoIndex.mem_byKey_readSections rpm.repoFiles

theorem repoFiles_shared :
    (repoFileKind (RepoIndex.build snap)).SharedBy (DefinedAt (repoFileRows snap)) where
  pathsOf path id := mem_repoFileBySection snap
  full excluded path own := by
    change fileFullyExcluded (RepoIndex.build snap) excluded path = true ↔ _
    rw [fileFullyExcluded, List.all_eq_true]
    constructor
    · intro all id defined
      rw [← mem_repoFileBySection] at defined
      cases found : (RepoIndex.build snap).repoFileBySection.lookup id with
      | none => simp [found] at defined
      | some paths =>
        have entry := all ⟨id, paths⟩ (AList.mem_lookup_iff.mp found)
        rw [found, Option.getD_some] at defined
        simpa [defined] using entry
    · intro all entry mem
      have found := AList.mem_lookup_iff.mpr mem
      by_cases reached : path ∈ entry.2
      · have defined : DefinedAt (repoFileRows snap) path entry.1 := by
          rw [← mem_repoFileBySection, Option.mem_def.mp found]
          exact reached
        rw [all entry.1 defined, Bool.or_true]
      · simp [reached]

theorem gpgKeys_shared :
    (gpgKeyKind (RepoIndex.build snap)).SharedBy (ReferencedBy (repoFileRows snap)) where
  pathsOf path id := mem_gpgKeysBySection snap
  full excluded path own := by
    change keyFullyExcluded (RepoIndex.build snap) excluded path = true ↔ _
    have sections : ∀ id, ReferencedBy (repoFileRows snap) path id ↔
        id ∈ ((RepoIndex.build snap).sectionsByGpgKey.lookup path).getD [] :=
      fun id => (mem_sectionsByGpgKey snap).symm
    simp only [sections] at own ⊢
    rw [keyFullyExcluded]
    cases found : (RepoIndex.build snap).sectionsByGpgKey.lookup path with
    | none => simp [found] at own
    | some ids => simp [List.all_eq_true]

end Build

section Projection

variable (h : Hashing) (original : InspectionSnapshot) (state : VariantProjectionState)
variable (snap : InspectionSnapshot)

theorem repoFileRows_finished :
    repoFileRows (finishProjection h original state snap) =
      (repoFileRows snap).map clampLocked := by
  obtain ⟨_, _, finished⟩ := finishProjection_eq h original state snap
  rw [repoFileRows, finished, repoFileRows, rowsOf, rowsOf]
  cases snap.rpm <;> rfl

theorem includedAt_clamped {rows : List RepoFile} {path : String}
    (unlocked : ∀ row, rowAt rows path = some row → row.locked = false) :
    includedAt (rows.map clampLocked) path = includedAt rows path := by
  have blind : ((fun row : RepoFile => row.path == path) ∘ clampLocked) =
      fun row => row.path == path := by
    funext row
    rw [Function.comp_apply, clampLocked]
    split <;> rfl
  rw [includedAt, includedAt, rowAt, rowAt, List.find?_map, blind, Option.map_map]
  cases found : rows.find? fun row => row.path == path with
  | none => rfl
  | some row =>
    have free := unlocked row found
    rw [Option.map_some, Option.map_some, Function.comp_apply, clampLocked]
    change some (if row.locked = true then _ else row).disposition.isIncluded = _
    rw [free, if_neg Bool.false_ne_true]

end Projection

/-- Files and keys follow the last toggles of their sections, over every timeline and cursor. -/
theorem repo_cascade_law (env : Env) (disk : Disk) (snap : InspectionSnapshot)
    (timeline : List TimelineEntry) (cursor : Nat) :
    RepoCascade (fun sections => ∃ id, sections id)
      (RefineSession.new env disk snap).original
      (((RefineSession.new env disk snap).withTimeline timeline cursor).projected env.toHashing)
      ((RefineSession.new env disk snap).withTimeline timeline cursor).activeOps := by
  change RepoCascade _ (normalizeSnapshot snap) _ _
  generalize active : (restoredHistory timeline cursor).active = entries
  have ops : ((RefineSession.new env disk snap).withTimeline timeline cursor).activeOps =
      timelineOps entries := by rw [← active]; rfl
  have projected :
      ((RefineSession.new env disk snap).withTimeline timeline cursor).projected env.toHashing =
        projectSnapshot env.toHashing (normalizeSnapshot snap)
          (RepoIndex.build (normalizeSnapshot snap)) entries := by
    rw [← active, build_normalized]
    rfl
  rw [ops, projected]
  generalize normalizeSnapshot snap = original
  have frame : ReplayFrame original
      (replay original (RepoIndex.build original) (timelineOps entries)) := replay_frame _
  constructor
  · intro path file found unlocked start own
    rw [isExcludedAt_iff, projectSnapshot, repoFileRows_finished, includedAt_clamped]
    · exact RowKind.included_replay_iff (repoFiles_shared original) original _ own
        (Option.map_eq_some_iff.mpr ⟨file, found, start⟩)
    · apply row_unlocked (rows_related _ (fun _ _ inner => inner.repoFiles) frame.rpm)
      intro row opened
      rw [← Option.some.inj (found.symm.trans opened)]
      exact unlocked
  · intro path key found start own
    rw [isExcludedAt_iff, projectSnapshot, keyRows, gpgKeys_finished]
    exact RowKind.included_replay_iff (gpgKeys_shared original) original _ own
      (Option.map_eq_some_iff.mpr ⟨key, found, start⟩)

/-- A host with one repo file that defines nothing, as a subscription manager
    leaves it without entitlements. -/
def emptyRepoHost : InspectionSnapshot :=
  { rpm := some
      { repoFiles :=
          [{ path := "/etc/yum.repos.d/redhat.repo", content := "# no repositories\n" }] } }

/-- No toggle is missing for the file, and it stays included. -/
theorem undefined_file_stays :
    ¬ RepoCascade (fun _ => True) (RefineSession.new sampleEnv sampleDisk emptyRepoHost).original
      (((RefineSession.new sampleEnv sampleDisk emptyRepoHost).withTimeline [] 0).projected
        sampleEnv.toHashing)
      ((RefineSession.new sampleEnv sampleDisk emptyRepoHost).withTimeline [] 0).activeOps := by
  intro stated
  have file := stated.files "/etc/yum.repos.d/redhat.repo"
    { path := "/etc/yum.repos.d/redhat.repo", content := "# no repositories\n" }
    (by decide +kernel) rfl rfl trivial
  have out : IsExcludedAt _ "/etc/yum.repos.d/redhat.repo" := file.mpr ?_
  · rw [isExcludedAt_iff] at out
    revert out
    decide +kernel
  · rintro id ⟨row, mem, -, sec, defined, -⟩
    have rows : repoFileRows (RefineSession.new sampleEnv sampleDisk emptyRepoHost).original =
        [{ path := "/etc/yum.repos.d/redhat.repo", content := "# no repositories\n" }] := by
      decide +kernel
    rw [rows, List.mem_singleton] at mem
    subst mem
    have none_there : parseRepoSections "# no repositories\n" = [] := by decide +kernel
    rw [none_there] at defined
    cases defined

end Inspectah
