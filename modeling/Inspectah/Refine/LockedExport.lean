import Inspectah.Refine.Reopen

/-!
Which locked rows an export can carry: those the sweep at the end of a projection does not
visit, as scanned, or a key its repository includes.
-/
namespace Inspectah

open FirstMatch

def Sealed {α : Type} [LockableRow α] (rows : List α) : Prop :=
  ∀ a ∈ rows, LockableRow.locked a = true → (FindingRow.disposition a).isIncluded = false

structure NoLockedIncluded (snap : InspectionSnapshot) : Prop where
  packagesAdded : Sealed (rpmPackages snap)
  baseImageOnly : Sealed (rowsOf RpmSection.baseImageOnly snap.rpm)
  repoFiles : Sealed (rowsOf RpmSection.repoFiles snap.rpm)
  gpgKeys : Sealed (rowsOf RpmSection.gpgKeys snap.rpm)
  moduleStreams : Sealed (rowsOf RpmSection.moduleStreams snap.rpm)
  versionLocks : Sealed (rowsOf RpmSection.versionLocks snap.rpm)
  configFiles : Sealed snap.configFiles
  envFiles : Sealed (rowsOf NonRpmSoftwareSection.envFiles snap.nonRpmSoftware)
  services : Sealed snap.stateChanges
  dropIns : Sealed snap.dropIns
  quadletUnits : Sealed snap.quadletUnits
  composeFiles : Sealed (rowsOf ContainerSection.composeFiles snap.containers)
  runningContainers : Sealed (rowsOf ContainerSection.runningContainers snap.containers)
  flatpakApps : Sealed snap.flatpakApps
  fstabEntries : Sealed (rowsOf StorageSection.fstabEntries snap.storage)
  sysctlOverrides : Sealed snap.sysctlOverrides
  connections : Sealed (rowsOf NetworkSection.connections snap.network)
  firewallZones : Sealed (rowsOf NetworkSection.firewallZones snap.network)
  firewallDirectRules : Sealed (rowsOf NetworkSection.firewallDirectRules snap.network)
  cronJobs : Sealed (rowsOf ScheduledTaskSection.cronJobs snap.scheduledTasks)
  systemdTimers : Sealed (rowsOf ScheduledTaskSection.systemdTimers snap.scheduledTasks)
  atJobs : Sealed (rowsOf ScheduledTaskSection.atJobs snap.scheduledTasks)
  generatedTimerUnits : Sealed (rowsOf ScheduledTaskSection.generatedTimerUnits snap.scheduledTasks)
  portLabels : Sealed (rowsOf SelinuxSection.portLabels snap.selinux)
  nonRpmItems : Sealed (rowsOf NonRpmSoftwareSection.items snap.nonRpmSoftware)
  unmanagedItems : Sealed (rowsOf UnmanagedFileSection.items snap.unmanagedFiles)

/-- Rows not visited hold nothing locked and included, and no repository references a locked key. -/
structure UnsweptSealed (snap : InspectionSnapshot) (index : RepoIndex) : Prop where
  baseImageOnly : Sealed (rowsOf RpmSection.baseImageOnly snap.rpm)
  envFiles : Sealed (rowsOf NonRpmSoftwareSection.envFiles snap.nonRpmSoftware)
  unmanagedItems : Sealed (rowsOf UnmanagedFileSection.items snap.unmanagedFiles)
  gpgKeys : Sealed (rowsOf RpmSection.gpgKeys snap.rpm)
  referencedKeys : ∀ sectionId, ∀ key ∈ index.keysOf ⟨sectionId⟩, ∀ k,
    (rowsOf RpmSection.gpgKeys snap.rpm).find? (·.path == key) = some k → k.locked = false

section Sweep

variable {α σ : Type} [LockableRow α]

theorem sealed_clamped (rows : List α) : Sealed (rows.map clampLocked) := by
  intro a mem locked
  obtain ⟨b, _, rfl⟩ := List.mem_map.mp mem
  exact clampLocked_excludes b (by rwa [locked_clampLocked] at locked)

theorem sealed_clampedDecision (rows : List α) : Sealed (rows.map clampLockedDecision) := by
  intro a mem locked
  obtain ⟨b, _, rfl⟩ := List.mem_map.mp mem
  exact clampLockedDecision_excludes b (by rwa [locked_clampLockedDecision] at locked)

theorem sealed_section (rows : σ → List α) {finish : σ → σ}
    (sealing : ∀ x, Sealed (rows (finish x))) (sec : Option σ) :
    Sealed (rowsOf rows (sec.map finish)) := by
  cases sec with
  | none => exact fun a mem => by cases mem
  | some x => exact sealing x

theorem sealed_of_related {rows rows' : List α} (safe : Sealed rows)
    (rel : List.Forall₂ (fun a b => standing b = standing a) rows rows') : Sealed rows' := by
  induction rel with
  | nil => exact safe
  | cons head tail ih =>
    rename_i a b as bs
    intro c mem locked
    rcases List.mem_cons.mp mem with rfl | mem
    · have lock : LockableRow.locked c = LockableRow.locked a := congrArg Standing.locked head
      have decision : FindingRow.disposition c = FindingRow.disposition a :=
        congrArg Standing.disposition head
      rw [decision]
      exact safe a List.mem_cons_self (lock ▸ locked)
    · exact ih (fun d hd => safe d (List.mem_cons_of_mem a hd)) c mem locked

end Sweep

theorem rowsOf_kept {α σ : Type} {rows : σ → List α} {finish : σ → σ}
    (keeps : ∀ x, rows (finish x) = rows x) (sec : Option σ) :
    rowsOf rows (sec.map finish) = rowsOf rows sec := by
  cases sec with
  | none => rfl
  | some x => exact keeps x

theorem unmanagedRule_within :
    unmanagedRule.Within (fun a b : UnmanagedFile => standing b = standing a) where
  refl _ := rfl
  sole _ _ ab := ab
  chosen _ _ ab := ab
  other _ _ ab := ab

theorem sealed_demoted (rpm : RpmSection) {rows : List PackageEntry} (safe : Sealed rows) :
    Sealed (rows.map (demotePackage rpm)) := by
  refine sealed_of_related safe ?_
  rw [List.forall₂_map_right_iff]
  refine List.forall₂_same.mpr fun p _ => ?_
  obtain ⟨_, demoted⟩ := demotePackage_eq rpm p
  rw [demoted]
  rfl

section Unswept

variable (h : Hashing) (original : InspectionSnapshot) (state : VariantProjectionState)
variable (snap : InspectionSnapshot)

theorem baseImageOnly_finished :
    rowsOf RpmSection.baseImageOnly (finishProjection h original state snap).rpm =
      rowsOf RpmSection.baseImageOnly snap.rpm := by
  obtain ⟨_, _, finished⟩ := finishProjection_eq h original state snap
  rw [finished]
  cases snap.rpm <;> rfl

theorem gpgKeys_finished : rowsOf RpmSection.gpgKeys (finishProjection h original state snap).rpm =
    rowsOf RpmSection.gpgKeys snap.rpm := by
  obtain ⟨_, _, finished⟩ := finishProjection_eq h original state snap
  rw [finished]
  cases snap.rpm <;> rfl

theorem envFiles_finished :
    rowsOf NonRpmSoftwareSection.envFiles (finishProjection h original state snap).nonRpmSoftware =
      rowsOf NonRpmSoftwareSection.envFiles snap.nonRpmSoftware := by
  obtain ⟨_, _, finished⟩ := finishProjection_eq h original state snap
  rw [finished]
  cases snap.nonRpmSoftware <;> rfl

theorem unmanagedItems_finished : List.Forall₂ (fun a b : UnmanagedFile => standing b = standing a)
    (rowsOf UnmanagedFileSection.items snap.unmanagedFiles)
    (rowsOf UnmanagedFileSection.items (finishProjection h original state snap).unmanagedFiles) := by
  obtain ⟨_, _, finished⟩ := finishProjection_eq h original state snap
  rw [finished]
  cases snap.unmanagedFiles with
  | none => exact .nil
  | some u => exact selectVariants_within state unmanagedRule_within h.order u.items

end Unswept

theorem noLockedIncluded_finished (h : Hashing) (original : InspectionSnapshot)
    (state : VariantProjectionState) {snap : InspectionSnapshot}
    (base : Sealed (rowsOf RpmSection.baseImageOnly snap.rpm))
    (keys : Sealed (rowsOf RpmSection.gpgKeys snap.rpm))
    (env : Sealed (rowsOf NonRpmSoftwareSection.envFiles snap.nonRpmSoftware))
    (unmanaged : Sealed (rowsOf UnmanagedFileSection.items snap.unmanagedFiles)) :
    NoLockedIncluded (finishProjection h original state snap) := by
  have base' := base
  rw [← baseImageOnly_finished h original state snap] at base'
  have keys' := keys
  rw [← gpgKeys_finished h original state snap] at keys'
  have env' := env
  rw [← envFiles_finished h original state snap] at env'
  have unmanaged' := sealed_of_related unmanaged (unmanagedItems_finished h original state snap)
  obtain ⟨_, _, finished⟩ := finishProjection_eq h original state snap
  rw [finished] at base' keys' env' unmanaged' ⊢
  exact
    { packagesAdded := sealed_section RpmSection.packagesAdded
        (fun _ => sealed_demoted _ (sealed_clamped _)) snap.rpm
      baseImageOnly := base'
      repoFiles := sealed_section RpmSection.repoFiles (fun _ => sealed_clamped _) snap.rpm
      gpgKeys := keys'
      moduleStreams := sealed_section RpmSection.moduleStreams (fun _ => sealed_clamped _) snap.rpm
      versionLocks := sealed_section RpmSection.versionLocks (fun _ => sealed_clamped _) snap.rpm
      configFiles := sealed_section ConfigSection.files
        (fun _ => sealed_clamped _) snap.config
      envFiles := env'
      services := sealed_section ServiceSection.stateChanges
        (fun _ => sealed_clamped _) snap.services
      dropIns := sealed_section ServiceSection.dropIns
        (fun _ => sealed_clamped _) snap.services
      quadletUnits := sealed_section ContainerSection.quadletUnits
        (fun _ => sealed_clamped _) snap.containers
      composeFiles :=
        sealed_section ContainerSection.composeFiles (fun _ => sealed_clamped _) snap.containers
      runningContainers :=
        sealed_section ContainerSection.runningContainers (fun _ => sealed_clamped _)
          snap.containers
      flatpakApps := sealed_section ContainerSection.flatpakApps
        (fun _ => sealed_clamped _) snap.containers
      fstabEntries :=
        sealed_section StorageSection.fstabEntries (fun _ => sealed_clamped _) snap.storage
      sysctlOverrides := sealed_section KernelBootSection.sysctlOverrides
        (fun _ => sealed_clamped _) snap.kernelBoot
      connections :=
        sealed_section NetworkSection.connections (fun _ => sealed_clampedDecision _) snap.network
      firewallZones :=
        sealed_section NetworkSection.firewallZones (fun _ => sealed_clampedDecision _) snap.network
      firewallDirectRules :=
        sealed_section NetworkSection.firewallDirectRules (fun _ => sealed_clampedDecision _)
          snap.network
      cronJobs :=
        sealed_section ScheduledTaskSection.cronJobs (fun _ => sealed_clamped _) snap.scheduledTasks
      systemdTimers :=
        sealed_section ScheduledTaskSection.systemdTimers (fun _ => sealed_clamped _)
          snap.scheduledTasks
      atJobs :=
        sealed_section ScheduledTaskSection.atJobs (fun _ => sealed_clamped _) snap.scheduledTasks
      generatedTimerUnits :=
        sealed_section ScheduledTaskSection.generatedTimerUnits (fun _ => sealed_clamped _)
          snap.scheduledTasks
      portLabels :=
        sealed_section SelinuxSection.portLabels (fun _ => sealed_clamped _) snap.selinux
      nonRpmItems :=
        sealed_section NonRpmSoftwareSection.items (fun _ => sealed_clamped _) snap.nonRpmSoftware
      unmanagedItems := unmanaged' }

section Keys

variable {original : InspectionSnapshot} {index : RepoIndex} {excluded : List RepoId}

def keyRows (snap : InspectionSnapshot) : List RepoFile := rowsOf RpmSection.gpgKeys snap.rpm

section OtherRows

variable {α : Type} {rows : RpmSection → List α}
variable (keeps : ∀ rpm packages, rows { rpm with packagesAdded := packages } = rows rpm)
include keeps

theorem rowsOf_setInclude {item : ItemId} (other : ∀ path, item ≠ .repo path) (incl : Bool)
    (snap : InspectionSnapshot) :
    rowsOf rows (setInclude original index excluded item incl snap).rpm = rowsOf rows snap.rpm := by
  unfold setInclude
  split
  · rfl
  · cases item with
    | repo path => exact absurd rfl (other path)
    | package name arch => exact rowsOf_kept (fun rpm => keeps rpm _) snap.rpm
    | group name => exact rowsOf_kept (fun rpm => keeps rpm _) snap.rpm
    | _ => rfl

theorem rowsOf_replayOp {op : RefinementOp}
    (other : ∀ path incl, op ≠ .setInclude (.repo path) incl) (snap : InspectionSnapshot) :
    rowsOf rows (replayOp original index excluded snap op).rpm = rowsOf rows snap.rpm := by
  cases op with
  | setInclude item incl =>
    exact rowsOf_setInclude keeps (fun path same => other path incl (by rw [same])) incl snap
  | setPackagePin item pinned => cases item <;> rfl
  | _ => rfl

end OtherRows

theorem keyRows_replayOp {op : RefinementOp}
    (other : ∀ path incl, op ≠ .setInclude (.repo path) incl) (snap : InspectionSnapshot) :
    keyRows (replayOp original index excluded snap op) = keyRows snap :=
  rowsOf_replayOp (fun _ _ => rfl) other snap

theorem sealed_updateFirst {rows : List RepoFile} (safe : Sealed rows) (p : RepoFile → Bool)
    {d : FindingKind} (allowed : d.isIncluded = true → ∀ k, rows.find? p = some k → k.locked = false) :
    Sealed (updateFirst p (FindingRow.decide d) rows) := by
  intro a mem locked
  rcases mem_updateFirst mem with old | ⟨k, found, rfl⟩
  · exact safe a old locked
  · rw [LockableRow.locked_decide] at locked
    rw [FindingRow.disposition_decide]
    cases incl : d.isIncluded with
    | false => rfl
    | true => exact absurd (locked.symm.trans (allowed incl k found)) (by simp)

theorem row_unlocked {rows rows' : List RepoFile} (related : List.Forall₂ Redecided rows rows')
    {path : String} (unlocked : ∀ k, rows.find? (·.path == path) = some k → k.locked = false) :
    ∀ k, rows'.find? (·.path == path) = some k → k.locked = false := by
  intro k found
  have rel := find_related Redecided (fun e : RepoFile => e.path == path) (fun e => e.path == path)
    (fun x y xy => by obtain ⟨d, rfl, _⟩ := xy; rfl) related
  rw [found] at rel
  generalize opened : rows.find? (fun e : RepoFile => e.path == path) = x at rel
  cases rel with
  | some xy =>
    rename_i x
    obtain ⟨d, rfl, _⟩ := xy
    exact unlocked x opened

theorem key_unlocked {a b : RpmSection} (frame : RpmFrame a b) {key : String}
    (unlocked : ∀ k, a.gpgKeys.find? (·.path == key) = some k → k.locked = false) :
    ∀ k, b.gpgKeys.find? (·.path == key) = some k → k.locked = false :=
  row_unlocked frame.gpgKeys unlocked

theorem foldl_invariant (P : RpmSection → Prop) (step : RpmSection → String → RpmSection)
    {paths : List String} (keeps : ∀ rpm, ∀ path ∈ paths, P rpm → P (step rpm path))
    {rpm : RpmSection} (start : P rpm) : P (paths.foldl step rpm) := by
  induction paths generalizing rpm with
  | nil => exact start
  | cons path paths ih =>
    exact ih (fun rpm p mem => keeps rpm p (List.mem_cons_of_mem path mem))
      (keeps rpm path List.mem_cons_self start)

/-- Keys of a section replayed from `a`: still paired with `a`'s, and sealed. -/
def KeysHold (a b : RpmSection) : Prop := RpmFrame a b ∧ Sealed b.gpgKeys

theorem KeysHold.includeRepo {a b : RpmSection} (holds : KeysHold a b) {path : String}
    (unlocked : ∀ key ∈ index.keysOf ⟨path⟩, ∀ k, a.gpgKeys.find? (·.path == key) = some k →
      k.locked = false) : KeysHold a (includeRepo index path b) := by
  have files : KeysHold a ((index.filesOf ⟨path⟩).foldl
      (fun rpm file => decideRepoFile file .included rpm) (cascadeRepoPackages path true b)) :=
    foldl_invariant _ _ (fun _ file _ kept => ⟨kept.1.decideRepoFile file true, kept.2⟩)
      ⟨holds.1.cascade path true, holds.2⟩
  refine foldl_invariant _ _ (fun rpm key mem kept => ⟨kept.1.decideGpgKey key true, ?_⟩) files
  exact sealed_updateFirst kept.2 _ fun _ => key_unlocked kept.1 (unlocked key mem)

theorem KeysHold.excludeRepo {a b : RpmSection} (holds : KeysHold a b) (path : String) :
    KeysHold a (excludeRepo index excluded path b) := by
  have files : KeysHold a ((index.filesOf ⟨path⟩).foldl
      (fun rpm file => if fileFullyExcluded index excluded file then decideRepoFile file .excluded rpm
        else rpm) (cascadeRepoPackages path false b)) := by
    refine foldl_invariant _ _ (fun _ file _ kept => ?_) ⟨holds.1.cascade path false, holds.2⟩
    split
    · exact ⟨kept.1.decideRepoFile file false, kept.2⟩
    · exact kept
  refine foldl_invariant _ _ (fun rpm key _ kept => ?_) files
  split
  · exact ⟨kept.1.decideGpgKey key false, sealed_updateFirst kept.2 _ (by simp)⟩
  · exact kept

theorem replayOp_keys {snap : InspectionSnapshot} (safe : UnsweptSealed original index)
    (frame : ReplayFrame original snap) (keys : Sealed (keyRows snap)) (op : RefinementOp) :
    Sealed (keyRows (replayOp original index excluded snap op)) := by
  by_cases repo : ∃ path incl, op = .setInclude (.repo path) incl
  · obtain ⟨path, incl, rfl⟩ := repo
    have step : replayOp original index excluded snap (.setInclude (.repo path) incl) =
        snap.onRpm (if incl then includeRepo index path else excludeRepo index excluded path) := by
      simp [replayOp, setInclude, isItemLocked]
    rw [step]
    have rel := frame.rpm
    have referenced := safe.referencedKeys path
    unfold keyRows InspectionSnapshot.onRpm at *
    generalize original.rpm = x at rel referenced
    generalize snap.rpm = y at rel keys ⊢
    cases rel with
    | none => exact keys
    | some inner =>
      cases incl with
      | true => exact (KeysHold.includeRepo ⟨inner, keys⟩ referenced).2
      | false => exact (KeysHold.excludeRepo ⟨inner, keys⟩ path).2
  · rw [keyRows_replayOp fun path incl same => repo ⟨path, incl, same⟩]
    exact keys

theorem replay_keys (safe : UnsweptSealed original index) (ops : List RefinementOp) :
    Sealed (keyRows (replay original index ops)) := by
  have run : ∀ snap, ReplayFrame original snap → Sealed (keyRows snap) →
      Sealed (keyRows (ops.foldl (replayOp original index (excludedSectionsAt ops)) snap)) := by
    generalize excludedSectionsAt ops = excluded
    induction ops with
    | nil => exact fun snap _ keys => keys
    | cons op ops ih =>
      exact fun snap frame keys => ih _ (replayOp_frame frame op) (replayOp_keys safe frame keys op)
  exact run original (ReplayFrame.refl original) safe.gpgKeys

end Keys

section Untouched

variable {a b : InspectionSnapshot} (frame : ReplayFrame a b)
include frame

theorem ReplayFrame.baseImageOnly :
    rowsOf RpmSection.baseImageOnly b.rpm = rowsOf RpmSection.baseImageOnly a.rpm := by
  have rel := frame.rpm
  generalize a.rpm = x at rel ⊢
  generalize b.rpm = y at rel ⊢
  cases rel with
  | none => rfl
  | some inner => rw [inner.rest]; rfl

theorem ReplayFrame.envFiles : rowsOf NonRpmSoftwareSection.envFiles b.nonRpmSoftware =
    rowsOf NonRpmSoftwareSection.envFiles a.nonRpmSoftware := by
  have rel := frame.nonRpmSoftware
  generalize a.nonRpmSoftware = x at rel ⊢
  generalize b.nonRpmSoftware = y at rel ⊢
  cases rel with
  | none => rfl
  | some inner => rw [inner.rest]; rfl

theorem ReplayFrame.unmanagedFiles : b.unmanagedFiles = a.unmanagedFiles := by
  rw [frame.rest]

end Untouched

section Projection

variable {h : Hashing} {original : InspectionSnapshot} {index : RepoIndex}

theorem projected_sealed (safe : UnsweptSealed original index) (active : List TimelineEntry) :
    NoLockedIncluded (projectSnapshot h original index active) := by
  have frame : ReplayFrame original (replay original index (timelineOps active)) := replay_frame _
  refine noLockedIncluded_finished h original _ ?_ (replay_keys safe _) ?_ ?_
  · rw [frame.baseImageOnly]
    exact safe.baseImageOnly
  · rw [frame.envFiles]
    exact safe.envFiles
  · rw [frame.unmanagedFiles]
    exact safe.unmanagedItems

theorem find_foldl_decideGpgKey (keys : List String) (key : String) (rpm : RpmSection) :
    (keys.foldl (fun rpm k => decideGpgKey k .included rpm) rpm).gpgKeys.find? (·.path == key) =
      if key ∈ keys then (rpm.gpgKeys.find? (·.path == key)).map (FindingRow.decide .included)
      else rpm.gpgKeys.find? (·.path == key) := by
  induction keys generalizing rpm with
  | nil => rfl
  | cons k keys ih =>
    rw [List.foldl_cons, ih]
    by_cases same : k = key
    · subst same
      have found : (decideGpgKey k .included rpm).gpgKeys.find? (·.path == k) =
          (rpm.gpgKeys.find? (·.path == k)).map (FindingRow.decide .included) :=
        find_updateFirst (fun e : RepoFile => e.path == k) (FindingRow.decide .included)
          (fun _ hit => hit) rpm.gpgKeys
      rw [found, Option.map_map]
      simp only [List.mem_cons_self, if_true, ite_eq_right_iff]
      intro _
      congr 1
    · have found : (decideGpgKey k .included rpm).gpgKeys.find? (·.path == key) =
          rpm.gpgKeys.find? (·.path == key) := by
        apply find_updateFirst_unseen
        intro a hit
        have at_k : a.path = k := by simpa using List.find?_some hit
        have miss : (a.path == key) = false := by simp [at_k, same]
        exact ⟨miss, miss⟩
      rw [found]
      simp [Ne.symm same]

theorem keys_of_included_repo (path : String) (rpm : RpmSection) {key : String}
    (mem : key ∈ index.keysOf ⟨path⟩) : (includeRepo index path rpm).gpgKeys.find? (·.path == key) =
      (rpm.gpgKeys.find? (·.path == key)).map (FindingRow.decide .included) := by
  have files : ((index.filesOf ⟨path⟩).foldl (fun rpm file => decideRepoFile file .included rpm)
      (cascadeRepoPackages path true rpm)).gpgKeys = rpm.gpgKeys :=
    foldl_invariant (fun r => r.gpgKeys = rpm.gpgKeys)
      (fun rpm file => decideRepoFile file .included rpm) (fun _ _ _ kept => kept)
      (show (cascadeRepoPackages path true rpm).gpgKeys = rpm.gpgKeys from rfl)
  unfold includeRepo
  dsimp only
  rw [find_foldl_decideGpgKey, if_pos mem, files]

theorem unsweptSealed_of_projections
    (all : ∀ active, NoLockedIncluded (projectSnapshot h original index active)) :
    UnsweptSealed original index where
  baseImageOnly := by
    have base := (all []).baseImageOnly
    rwa [projectSnapshot, baseImageOnly_finished] at base
  envFiles := by
    have env := (all []).envFiles
    rwa [projectSnapshot, envFiles_finished] at env
  unmanagedItems := by
    have files := (all []).unmanagedItems
    refine sealed_of_related files ?_
    exact (unmanagedItems_finished h original _ original).flip.imp fun _ _ same => same.symm
  gpgKeys := by
    have keys := (all []).gpgKeys
    rwa [projectSnapshot, gpgKeys_finished] at keys
  referencedKeys := by
    intro path key mem k found
    have keys := (all [.op (.setInclude (.repo path) true)]).gpgKeys
    rw [projectSnapshot, gpgKeys_finished] at keys
    have replayed : replay original index (timelineOps [.op (.setInclude (.repo path) true)]) =
        original.onRpm (includeRepo index path) := by
      simp [timelineOps, TimelineEntry.ops, replay, replayOp, setInclude, isItemLocked]
    rw [replayed] at keys
    cases opened : original.rpm with
    | none => rw [opened] at found; cases found
    | some rpm =>
      rw [opened] at found
      have after := keys_of_included_repo path rpm mem
      rw [show rpm.gpgKeys.find? (·.path == key) = some k from found] at after
      have kept : FindingRow.decide .included k ∈
          rowsOf RpmSection.gpgKeys (original.onRpm (includeRepo index path)).rpm := by
        simp only [InspectionSnapshot.onRpm, opened]
        exact List.mem_of_find?_eq_some after
      cases locked : k.locked with
      | false => rfl
      | true =>
        have out := keys _ kept locked
        rw [FindingRow.disposition_decide] at out
        cases out

end Projection

section Opened

variable (snap : InspectionSnapshot)

theorem baseImageOnly_normalized : rowsOf RpmSection.baseImageOnly (normalizeSnapshot snap).rpm =
    rowsOf RpmSection.baseImageOnly snap.rpm := by
  rw [normalizeSnapshot_eq]
  refine rowsOf_kept (fun rpm => ?_) snap.rpm
  unfold clearLeaves
  split <;> rfl

theorem gpgKeys_normalized : rowsOf RpmSection.gpgKeys (normalizeSnapshot snap).rpm =
    rowsOf RpmSection.gpgKeys snap.rpm := by
  rw [normalizeSnapshot_eq]
  refine rowsOf_kept (fun rpm => ?_) snap.rpm
  unfold clearLeaves
  split <;> rfl

theorem envFiles_normalized :
    rowsOf NonRpmSoftwareSection.envFiles (normalizeSnapshot snap).nonRpmSoftware =
      rowsOf NonRpmSoftwareSection.envFiles snap.nonRpmSoftware := by
  rw [normalizeSnapshot_eq]
  cases snap.nonRpmSoftware <;> rfl

theorem unmanagedFiles_normalized : (normalizeSnapshot snap).unmanagedFiles = snap.unmanagedFiles := by
  rw [normalizeSnapshot_eq]

theorem unsweptSealed_normalized (index : RepoIndex) :
    UnsweptSealed (normalizeSnapshot snap) index ↔ UnsweptSealed snap index := by
  have base := baseImageOnly_normalized snap
  have keys := gpgKeys_normalized snap
  have env := envFiles_normalized snap
  have files := unmanagedFiles_normalized snap
  constructor
  · intro safe
    exact ⟨base ▸ safe.baseImageOnly, env ▸ safe.envFiles, files ▸ safe.unmanagedItems,
      keys ▸ safe.gpgKeys, keys ▸ safe.referencedKeys⟩
  · intro safe
    exact ⟨base ▸ safe.baseImageOnly, env ▸ safe.envFiles, files ▸ safe.unmanagedItems,
      keys ▸ safe.gpgKeys, keys ▸ safe.referencedKeys⟩

end Opened

theorem locked_rows_stay_out_iff (env : Env) (disk : Disk) (snap : InspectionSnapshot) :
    (∀ timeline cursor, NoLockedIncluded
      (((RefineSession.new env disk snap).withTimeline timeline cursor).projected env.toHashing)) ↔
      UnsweptSealed snap (RepoIndex.build snap) := by
  rw [← unsweptSealed_normalized]
  constructor
  · intro all
    refine unsweptSealed_of_projections (h := env.toHashing) fun active => ?_
    have whole : (restoredHistory active active.length).active = active := by
      simp [restoredHistory, UndoHistory.History.active]
    have out := all active active.length
    change NoLockedIncluded (projectSnapshot _ (normalizeSnapshot snap) (RepoIndex.build snap)
      (restoredHistory active active.length).active) at out
    rwa [whole] at out
  · intro safe timeline cursor
    exact projected_sealed safe _

def lockedFileHost : InspectionSnapshot :=
  { unmanagedFiles := some
      { items := [{ path := "/opt/agent/agent.bin", locked := true }] } }

/-- The fresh session already exports the locked file. -/
theorem locked_unmanaged_file_is_exported :
    ¬ NoLockedIncluded (((RefineSession.new sampleEnv sampleDisk lockedFileHost).withTimeline
      [] 0).projected sampleEnv.toHashing) := by
  intro sealed
  have out := sealed.unmanagedItems
  revert out
  unfold Sealed
  decide

end Inspectah
