import Inspectah.Refine.CleanProjection
import Inspectah.Refine.UndoRedo

/-!
A session with an empty timeline against the snapshot it opened. Its projection
still clamps locks, so it reports no pending change exactly when opening has
left no locked row included and no version of an item with two selections.
-/
namespace Inspectah

open FirstMatch UndoHistory Runs

section Rows

variable (h : Hashing)

def SelectionsAgree {α : Type} [VariantRow α] (rows : List α) : Prop :=
  ∀ a ∈ rows, ∀ m, rows.find? (sameVariant h a) = some m →
    VariantRow.selection m = VariantRow.selection a

def ComposeSelectionsAgree (rows : List ComposeFile) : Prop :=
  ∀ a ∈ rows, ∀ m, rows.find? (fun e =>
      e.path == a.path && e.contentVariantKey h == a.contentVariantKey h) = some m →
    m.variantSelection = a.variantSelection

def LockedExcluded {α : Type} [LockableRow α] (rows : List α) : Prop :=
  ∀ a ∈ rows, LockableRow.locked a = true → (FindingRow.disposition a).isIncluded = false

theorem sameInclusion_map {α : Type} [FindingRow α] (shown : α → α) (rows : List α) :
    SameInclusion rows (rows.map shown) ↔ ∀ a ∈ rows, (FindingRow.disposition a).isIncluded =
      (FindingRow.disposition (shown a)).isIncluded := by
  induction rows with
  | nil => simp [SameInclusion]
  | cons a rows ih =>
    unfold SameInclusion at ih ⊢
    rw [List.map_cons, List.zip_cons_cons, List.forall_mem_cons, List.forall_mem_cons, ih]

theorem sameInclusion_map_iff {α : Type} [LockableRow α] {shown : α → α}
    (clamps : ∀ a, (FindingRow.disposition (shown a)).isIncluded =
      (FindingRow.disposition (clampLocked a)).isIncluded) (rows : List α) :
    SameInclusion rows (rows.map shown) ↔ LockedExcluded rows := by
  rw [sameInclusion_map]
  refine forall₂_congr fun a _ => ?_
  rw [clamps a]
  unfold clampLocked
  split
  · rename_i locked
    simp [locked]
  · rename_i unlocked
    simp [unlocked]

variable {h}

theorem changedVariants_self {α : Type} [VariantRow α] (rows : List α) :
    changedVariants h rows (rows.map clampLocked) = 0 ↔ SelectionsAgree h rows := by
  have same : changedVariants h rows (rows.map clampLocked) = changedVariants h rows rows :=
    changedVariants_congr (List.forall₂_same.mpr fun _ _ => ⟨rfl, rfl, rfl⟩)
      (List.forall₂_map_left_iff.mpr (List.forall₂_same.mpr fun a _ => clampLocked_sameVersion a))
  rw [same, changedVariants_eq_zero_iff]
  constructor
  · rintro ⟨kept, _⟩ a mem m found
    obtain ⟨m', found', selection⟩ := kept a mem
    rw [found] at found'
    cases found'
    exact selection
  · intro agree
    refine ⟨fun a mem => ?_, fun m mem => .inl ⟨m, mem, (sameVariant_iff h).mpr ⟨rfl, rfl⟩⟩⟩
    cases found : rows.find? (sameVariant h a) with
    | some m => exact ⟨m, rfl, agree a mem m found⟩
    | none =>
      exact absurd ((sameVariant_iff h).mpr ⟨rfl, rfl⟩) (List.find?_eq_none.mp found a mem)

theorem composeChanged_self (rows : List ComposeFile) :
    rows.countP (composeSelectionChanged h (rows.map clampLocked)) = 0 ↔
      ComposeSelectionsAgree h rows := by
  rw [List.countP_eq_zero]
  refine forall₂_congr fun a mem => ?_
  have blind : ((fun e : ComposeFile => e.path == a.path &&
      e.contentVariantKey h == a.contentVariantKey h) ∘ clampLocked) =
      fun e => e.path == a.path && e.contentVariantKey h == a.contentVariantKey h := by
    funext e
    rw [Function.comp_apply]
    unfold clampLocked
    split <;> rfl
  unfold composeSelectionChanged
  rw [List.find?_map, blind]
  cases found : rows.find? fun e =>
      e.path == a.path && e.contentVariantKey h == a.contentVariantKey h with
  | none => simpa using List.find?_eq_none.mp found a mem
  | some m =>
    have selection : (clampLocked m).variantSelection = m.variantSelection := by
      unfold clampLocked
      split <;> rfl
    simp [selection]

end Rows

/-- No locked row is included and each version of an item has one selection. -/
structure OpensQuiet (h : Hashing) (original : InspectionSnapshot) : Prop where
  packages : LockedExcluded (rpmPackages original)
  configs : LockedExcluded original.configFiles
  configSelections : SelectionsAgree h original.configFiles
  dropIns : SelectionsAgree h original.dropIns
  quadlets : SelectionsAgree h original.quadletUnits
  compose : ComposeSelectionsAgree h (composeFiles original)

section Empty

variable {h : Hashing} {c : SessionCore}

theorem projected_empty (empty : c.history.active = []) :
    c.projected h = finishProjection h c.original {} c.original := by
  unfold SessionCore.projected
  rw [empty]
  rfl

theorem isQuiet_empty_iff (empty : c.history.active = []) :
    (c.pendingChanges h).IsQuiet ↔ OpensQuiet h c.original := by
  obtain ⟨rpm, packages⟩ := rpmPackages_finishProjection h c.original {} c.original
  have configs := configFiles_finishProjection h c.original {} c.original
  have rows : ∀ {α : Type} [VariantRow α] (rows : List α), materializeRows h {} rows = rows :=
    fun rows => materializeRows_untouched rfl rows
  have variants := @variantsChanged_eq h {} _ _ (ReplayFrame.refl c.original)
  rw [rows, rows, rows, selectVariants_untouched rfl] at variants
  rw [rows] at configs
  rw [List.map_map] at packages
  have shown : ∀ p : PackageEntry, ((demotePackage rpm ∘ clampLocked) p).disposition.isIncluded =
      (clampLocked p).disposition.isIncluded := by
    intro p
    obtain ⟨note, demoted⟩ := demotePackage_eq rpm (clampLocked p)
    rw [Function.comp_apply, demoted]
  have no_ops : c.activeOps = [] := by rw [SessionCore.activeOps, empty]; rfl
  rw [isQuiet_iff]
  constructor
  · intro same
    have same_packages := same.packages
    have same_configs := same.configs
    have same_variants := same.variants
    rw [projected_empty empty] at same_packages same_configs same_variants
    rw [packages, sameInclusion_map_iff shown] at same_packages
    rw [configs, sameInclusion_map_iff fun _ => rfl] at same_configs
    rw [variants] at same_variants
    simp only [Nat.add_eq_zero_iff, changedVariants_self, composeChanged_self] at same_variants
    obtain ⟨⟨config, dropIns⟩, quadlets, compose⟩ := same_variants
    exact ⟨same_packages, same_configs, config, dropIns, quadlets, compose⟩
  · intro quiet
    refine ⟨?_, ?_, by rw [no_ops]; rfl, ?_, by rw [empty]; rfl⟩
    · rw [projected_empty empty, packages, sameInclusion_map_iff shown]
      exact quiet.packages
    · rw [projected_empty empty, configs, sameInclusion_map_iff fun _ => rfl]
      exact quiet.configs
    · rw [projected_empty empty, variants]
      simp only [Nat.add_eq_zero_iff, changedVariants_self, composeChanged_self]
      exact ⟨⟨quiet.configSelections, quiet.dropIns⟩, quiet.quadlets, quiet.compose⟩

end Empty

def unstagedSnapshot (snap : InspectionSnapshot) : InspectionSnapshot :=
  snap.onRpm fun rpm => { rpm with packagesAdded := rpm.packagesAdded.map unstaged }

theorem rpmPackages_unstaged (snap : InspectionSnapshot) :
    rpmPackages (unstagedSnapshot snap) = (rpmPackages snap).map unstaged := by
  unfold unstagedSnapshot rpmPackages InspectionSnapshot.onRpm
  cases snap.rpm <;> rfl

theorem opensQuiet_unstaged (h : Hashing) (snap : InspectionSnapshot) :
    OpensQuiet h (unstagedSnapshot snap) ↔ OpensQuiet h snap := by
  have packages : LockedExcluded (rpmPackages (unstagedSnapshot snap)) ↔
      LockedExcluded (rpmPackages snap) := by
    rw [rpmPackages_unstaged]
    unfold LockedExcluded
    rw [List.forall_mem_map]
    rfl
  constructor
  · exact fun quiet => { quiet with packages := packages.mp quiet.packages }
  · exact fun quiet => { quiet with packages := packages.mpr quiet.packages }

theorem unstagedSnapshot_updatePackage {test : PackageEntry → Bool}
    {f : PackageEntry → PackageEntry} (staging : ∀ p, unstaged (f p) = unstaged p)
    (c : SessionCore) : unstagedSnapshot (c.updatePackage test f).original =
      unstagedSnapshot c.original := by
  have rows : ∀ packages : List PackageEntry,
      (updateFirst test f packages).map unstaged = packages.map unstaged := by
    intro packages
    induction packages with
    | nil => rfl
    | cons p packages ih =>
      unfold updateFirst
      split
      · rw [List.map_cons, staging, List.map_cons]
      · rw [List.map_cons, ih, List.map_cons]
  unfold unstagedSnapshot SessionCore.updatePackage InspectionSnapshot.onRpm
  cases c.original.rpm with
  | none => rfl
  | some rpm => simp [rows]

theorem unstagedSnapshot_recordUploaded (canonical path : String) (version : Option String)
    (c : SessionCore) : unstagedSnapshot (c.recordUploaded canonical path version).original =
      unstagedSnapshot c.original :=
  unstagedSnapshot_updatePackage (f := stage path version) (fun _ => rfl) c

theorem unstagedSnapshot_rescan (disk : Disk) (canon stagedDir : String) (names : List String)
    (c : SessionCore) :
    unstagedSnapshot (rescanListing disk canon stagedDir names c).core.original =
      unstagedSnapshot c.original := by
  have entry : ∀ (spokenFor : KeyedMap String) (r : Rescan) (name : String),
      unstagedSnapshot (rescanEntry disk canon stagedDir spokenFor r name).core.original =
        unstagedSnapshot r.core.original := by
    intro spokenFor r name
    unfold rescanEntry
    split
    · rfl
    · split
      · rfl
      · split
        · rfl
        · exact unstagedSnapshot_recordUploaded _ _ _ _
  unfold rescanListing
  generalize sortedNames names = sorted
  dsimp only
  have run : ∀ r : Rescan, unstagedSnapshot (sorted.foldl (rescanEntry disk canon stagedDir
      (packagesStagedIn disk canon c.original).spokenFor) r).core.original =
        unstagedSnapshot r.core.original := by
    induction sorted with
    | nil => exact fun r => rfl
    | cons name sorted ih => exact fun r => (ih _).trans (entry _ r name)
  exact run _

section Serve

variable {env : Env} {disk : Disk} {s : RefineSession}

theorem unstagedSnapshot_moves {after : RefineSession}
    (moves : after = s ∨ ∃ history, after = s.moveTo env disk history) :
    unstagedSnapshot after.original = unstagedSnapshot s.original := by
  rcases moves with rfl | ⟨history, rfl⟩
  · rfl
  · rw [original_moveTo]

theorem unstagedSnapshot_serve (env : Env) (served : Served) (s : RefineSession) :
    unstagedSnapshot (serve env served s).original = unstagedSnapshot s.original := by
  obtain ⟨disk, request⟩ := served
  cases request with
  | apply op => exact unstagedSnapshot_moves (@apply_moves env s disk op)
  | applyDirective directive =>
    exact unstagedSnapshot_moves (@applyDirective_moves env s disk directive)
  | applyBatch ops => exact unstagedSnapshot_moves (@applyBatch_moves env s disk ops)
  | undo => exact unstagedSnapshot_moves (@undo_moves env s disk)
  | redo => exact unstagedSnapshot_moves (@redo_moves env s disk)
  | reset => exact unstagedSnapshot_moves (@reset_moves env s disk)
  | setUploaded canonical path version => exact unstagedSnapshot_recordUploaded _ _ _ _
  | unmarkUploadedRpm name arch =>
    change unstagedSnapshot (s.unmarkUploadedRpm env disk name arch).session.original = _
    unfold RefineSession.unmarkUploadedRpm
    split
    · rfl
    · split
      · rfl
      · split
        · rfl
        · exact unstagedSnapshot_updatePackage (f := unstage _) (fun _ => rfl) s.toSessionCore
  | ensureUploadDir =>
    change unstagedSnapshot (s.ensureUploadDir env disk).session.original = _
    unfold RefineSession.ensureUploadDir RefineSession.rescanUploadDir
    split
    · rfl
    · split
      · rfl
      · rename_i dir canon _
        cases disk.readDir canon with
        | error e => rfl
        | ok names =>
          have pass := unstagedSnapshot_rescan disk canon dir names
            { s.toSessionCore with uploadDir := some dir, uploadDirCanon := some canon }
          dsimp only
          split
          · rename_i passed
            split at passed <;> cases passed
          · rename_i passed
            split at passed
            · cases passed
              exact pass
            · cases passed
              rfl
  | markViewed id =>
    change unstagedSnapshot (s.markViewed id).session.original = _
    unfold RefineSession.markViewed
    split <;> rfl

end Serve

/-- With no entry active, before any edit or after all are undone, no change is pending. -/
def FreshlyQuiet (env : Env) (disk : Disk) (snap : InspectionSnapshot) : Prop :=
  ∀ requests : List Served, ∀ s ∈ visited (serve env) (RefineSession.new env disk snap) requests,
    s.history.active = [] → (s.pendingChanges env.toHashing).IsQuiet

/-- Quiet at the empty timeline: normalization left the snapshot settled under the lock clamp. -/
theorem freshly_quiet_iff (env : Env) (disk : Disk) (snap : InspectionSnapshot) :
    FreshlyQuiet env disk snap ↔ OpensQuiet env.toHashing (normalizeSnapshot snap) := by
  constructor
  · intro quiet
    exact (isQuiet_empty_iff rfl).mp (quiet [] _ List.mem_cons_self rfl)
  · intro opens requests s mem empty
    have same : unstagedSnapshot s.original = unstagedSnapshot (normalizeSnapshot snap) :=
      visited_invariant
        (P := fun s => unstagedSnapshot s.original = unstagedSnapshot (normalizeSnapshot snap))
        (fun s served kept => (unstagedSnapshot_serve env served s).trans kept) rfl s mem
    rw [isQuiet_empty_iff empty, ← opensQuiet_unstaged, same, opensQuiet_unstaged]
    exact opens

def crypttabHost : InspectionSnapshot :=
  { schemaVersion := SCHEMA_VERSION
    config := some { files := [{ path := "/etc/crypttab", kind := .unowned }] } }

/-- Loading locks the file out and opening includes it again; the clamp then
    reads as a pending change. -/
theorem locked_crypttab_opens_dirty : ∃ snap,
    loadForRefine (fun _ => .ok crypttabHost) "crypttab host" = .ok snap ∧
      ¬ FreshlyQuiet sampleEnv sampleDisk snap := by
  refine ⟨_, rfl, fun quiet => ?_⟩
  have clean := (quiet [] _ List.mem_cons_self rfl).2.2
  revert clean
  decide

end Inspectah
