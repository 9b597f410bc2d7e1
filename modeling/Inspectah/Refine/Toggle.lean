import Inspectah.Refine.SessionLaws

/-!
What an accepted toggle does to the entry it names. Kinds without an arm in the replay, and
rows whose scanned version is discarded, do not show it.
-/
namespace Inspectah

open FirstMatch

/-- How the entry an identifier names stands. A repository and a group have no row of their own. -/
def namedEntry (snap : InspectionSnapshot) : ItemId → Option Standing
  | .package name arch => standingOf (fun e => e.name == name && e.arch == arch) (rpmPackages snap)
  | .config path => standingOf (atPath path) snap.configFiles
  | .service unit => standingOf (·.unit == unit) snap.stateChanges
  | .dropIn path => standingOf (atPath path) snap.dropIns
  | .quadlet path => standingOf (atPath path) snap.quadletUnits
  | .flatpak appId remote branch =>
    standingOf (fun e => e.appId == appId && e.remote == remote && e.branch == branch)
      snap.flatpakApps
  | .sysctl key => standingOf (·.key == key) snap.sysctlOverrides
  | .tunedSelection profile => snap.kernelBoot.bind fun k =>
      if k.tunedActive == profile then some ⟨false, k.tunedDisposition⟩ else none
  | .compose path => standingOf (·.path == path) ((snap.containers.map (·.composeFiles)).getD [])
  | .nmConnection path => standingOf (·.path == path) ((snap.network.map (·.connections)).getD [])
  | .firewallZone path => standingOf (·.path == path) ((snap.network.map (·.firewallZones)).getD [])
  | .cronJob path => standingOf (·.path == path) ((snap.scheduledTasks.map (·.cronJobs)).getD [])
  | .systemdTimer name =>
    standingOf (·.name == name) ((snap.scheduledTasks.map (·.systemdTimers)).getD [])
  | .atJob file => standingOf (·.file == file) ((snap.scheduledTasks.map (·.atJobs)).getD [])
  | .generatedTimer name =>
    standingOf (·.name == name) ((snap.scheduledTasks.map (·.generatedTimerUnits)).getD [])
  | .selinuxPort protocolPort =>
    standingOf (fun e => e.protocol ++ "/" ++ e.port == protocolPort)
      ((snap.selinux.map (·.portLabels)).getD [])
  | .fstab mountPoint =>
    standingOf (·.mountPoint == mountPoint) ((snap.storage.map (·.fstabEntries)).getD [])
  | .nonRpm name => standingOf (·.name == name) ((snap.nonRpmSoftware.map (·.items)).getD [])
  | .languageEnv ecosystem path =>
    standingOf (isEnv ecosystem path) ((snap.nonRpmSoftware.map (·.items)).getD [])
  | .unmanagedFile path => standingOf (·.path == path) ((snap.unmanagedFiles.map (·.items)).getD [])
  | .moduleStream name =>
    standingOf (fun e => e.moduleName ++ ":" ++ e.stream == name)
      ((snap.rpm.map (·.moduleStreams)).getD [])
  | .versionLock nameArch =>
    standingOf (fun e => canonicalPackageId e.name e.arch == nameArch)
      ((snap.rpm.map (·.versionLocks)).getD [])
  | .languagePackage .. => none
  | .repo _ => none
  | .group _ => none

/-- Unlocked, and a decision to make. -/
def Standing.IsOpen (st : Standing) : Prop := st.locked = false ∧ st.disposition.isActionable = true

def NamesOpenEntry (snap : InspectionSnapshot) : ItemId → Prop
  | .repo _ => True
  | .group _ => True
  | item => ∃ st, namedEntry snap item = some st ∧ st.IsOpen

def DecidedTo (st : Option Standing) (incl : Bool) : Prop :=
  st.map (·.disposition) = some (.actionable incl)

/-- The projection shows the decision in the entry, or in each unlocked package it stands for. -/
def TookEffect (original snap : InspectionSnapshot) (item : ItemId) (incl : Bool) : Prop :=
  match item with
  | .repo path => ∀ p ∈ rpmPackages snap,
      Text.eqIgnoreAsciiCase p.sourceRepo path = true → p.locked = false →
        p.disposition = .actionable incl
  | .group name => ∀ p ∈ rpmPackages snap,
      p.name ∈ groupMembers original name → p.locked = false → p.disposition = .actionable incl
  | item => DecidedTo (namedEntry snap item) incl

/-- The kinds the replay decides, and whether the first row at a path is what is shown there. -/
def toggleReaches (h : Hashing) (original : InspectionSnapshot) (state : VariantProjectionState) :
    ItemId → Bool
  | .package .. => true
  | .repo _ => true
  | .group _ => true
  | .service _ => true
  | .flatpak .. => true
  | .sysctl _ => true
  | .tunedSelection _ => true
  | .config path => reachesRow h state path original.configFiles
  | .dropIn path => reachesRow h state path original.dropIns
  | .quadlet path => reachesRow h state path original.quadletUnits
  | _ => false

section Rows

variable {α : Type} [LockableRow α] {p : α → Bool}

theorem standingOf_map_clampLocked (blind : ∀ d a, p (FindingRow.decide d a) = p a) (rows : List α) :
    standingOf p (rows.map clampLocked) = (standingOf p rows).map Standing.clamp := by
  have same : p ∘ clampLocked = p := by
    funext a
    obtain ⟨d, clamped⟩ := clampLocked_sameItem a
    rw [Function.comp_apply, clamped, blind]
  rw [standingOf, List.find?_map, same, standingOf, Option.map_map, Option.map_map]
  congr 1
  funext a
  exact standing_clampLocked a

theorem standingOf_updateFirst (blind : ∀ d a, p (FindingRow.decide d a) = p a)
    (f : α → FindingKind) (rows : List α) :
    standingOf p (updateFirst p (fun a => FindingRow.decide (f a) a) rows) =
      (rows.find? p).map fun a => (standing a).decide (f a) := by
  have keep : ∀ a, p a → p (FindingRow.decide (f a) a) := fun a hit => by rwa [blind]
  rw [standingOf, find_updateFirst p _ keep, Option.map_map]
  congr 1
  funext a
  exact standing_decide (f a) a

theorem open_of_redecided (blind : ∀ d a, p (FindingRow.decide d a) = p a) {rows rows' : List α}
    (rel : List.Forall₂ Redecided rows rows') {st : Standing} (named : standingOf p rows = some st)
    (isOpen : st.IsOpen) : ∃ a, rows'.find? p = some a ∧ (standing a).IsOpen := by
  have found := find_related Redecided p p (fun _ _ ab => ab.agree blind) rel
  unfold standingOf at named
  obtain ⟨a, hit, rfl⟩ := Option.map_eq_some_iff.mp named
  rw [hit] at found
  obtain ⟨unlocked, act⟩ := isOpen
  cases rows'_find : rows'.find? p with
  | none => rw [rows'_find] at found; cases found
  | some b =>
    rw [rows'_find] at found
    cases found with
    | some ab =>
      refine ⟨b, rfl, ?_, ab.isActionable act⟩
      obtain ⟨d, rfl, _⟩ := ab
      simpa [standing] using unlocked

theorem clamp_open {st : Standing} (isOpen : st.IsOpen) : st.clamp = st :=
  Standing.clamp_of_unlocked isOpen.1

theorem decidedTo_clamp {st : Standing} (unlocked : st.locked = false) (incl : Bool) :
    DecidedTo (some (st.decide (.fromBool incl)).clamp) incl := by
  have kept : (st.decide (.fromBool incl)).clamp = st.decide (.fromBool incl) :=
    Standing.clamp_of_unlocked unlocked
  rw [kept]
  rfl

theorem plain_toggled (blind : ∀ d a, p (FindingRow.decide d a) = p a) {rows rows' : List α}
    (rel : List.Forall₂ Redecided rows rows') {st : Standing} (named : standingOf p rows = some st)
    (isOpen : st.IsOpen) (incl : Bool) :
    DecidedTo (standingOf p
      ((updateFirst p (FindingRow.decide (.fromBool incl)) rows').map clampLocked)) incl := by
  obtain ⟨a, hit, unlocked, _⟩ := open_of_redecided blind rel named isOpen
  rw [standingOf_map_clampLocked blind, standingOf_updateFirst blind (fun _ => .fromBool incl), hit]
  exact decidedTo_clamp unlocked incl

end Rows

section Content

variable {α : Type} [VariantRow α] {h : Hashing} {state : VariantProjectionState} {path : String}

theorem atPath_blind (d : FindingKind) (a : α) : atPath path (FindingRow.decide d a) = atPath path a := by
  simp [atPath]

theorem reachesRow_redecided {rows rows' : List α} (rel : List.Forall₂ Redecided rows rows') :
    reachesRow h state path rows = reachesRow h state path rows' :=
  reachesRow_congr path (by rintro a b ⟨d, rfl, _⟩; simp) rel

theorem shown_when_reached (hashed : WellHashed h state) {rows rows' : List α}
    (rel : List.Forall₂ Redecided rows rows') (reached : reachesRow h state path rows = true)
    {st : Standing} (named : standingOf (atPath path) rows = some st) (isOpen : st.IsOpen) :
    ∃ a, rows'.find? (atPath path) = some a ∧ (standing a).IsOpen ∧
      standingOf (atPath path) ((materializeRows h state rows').map clampLocked) =
        some (standing a) := by
  obtain ⟨a, hit, isOpen'⟩ := open_of_redecided atPath_blind rel named isOpen
  refine ⟨a, hit, isOpen', ?_⟩
  rw [standingOf_map_clampLocked atPath_blind,
    standingOf_reached hashed (by rwa [← reachesRow_redecided rel]), standingOf, hit,
    Option.map_some, Option.map_some, clamp_open isOpen']

theorem content_toggled (hashed : WellHashed h state) {rows rows' : List α}
    (rel : List.Forall₂ Redecided rows rows') {st : Standing}
    (named : standingOf (atPath path) rows = some st) (isOpen : st.IsOpen) {incl : Bool}
    {f : α → FindingKind} (decides : ∀ a, (FindingRow.disposition a).isActionable →
      f a = .fromBool incl) :
    DecidedTo (standingOf (atPath path) ((materializeRows h state
        (updateFirst (atPath path) (fun a => FindingRow.decide (f a) a) rows')).map clampLocked)) incl ↔
      reachesRow h state path rows = true ∨
        DecidedTo (standingOf (atPath path) ((materializeRows h state rows').map clampLocked)) incl := by
  cases reached : reachesRow h state path rows with
  | true =>
    refine iff_of_true ?_ (.inl rfl)
    obtain ⟨a, hit, unlocked, act⟩ := open_of_redecided atPath_blind rel named isOpen
    have still : reachesRow h state path
        (updateFirst (atPath path) (fun a => FindingRow.decide (f a) a) rows') = true := by
      rw [← reached, reachesRow_redecided rel]
      symm
      exact reachesRow_congr path (R := SameItem) (by rintro x y ⟨d, rfl⟩; simp)
        (updateFirst_forall _ SameItem.refl _ _ (fun x _ => SameItem.decide _ x) rows')
    rw [standingOf_map_clampLocked atPath_blind, standingOf_reached hashed still,
      standingOf_updateFirst atPath_blind, hit, Option.map_some, Option.map_some, decides a act]
    exact decidedTo_clamp unlocked incl
  | false =>
    have missed : reachesRow h state path rows' = false := by rwa [← reachesRow_redecided rel]
    rw [standingOf_map_clampLocked atPath_blind, standingOf_missed hashed missed,
      ← standingOf_map_clampLocked atPath_blind]
    simp

end Content

section Toggled

variable {h : Hashing} {original : InspectionSnapshot} {index : RepoIndex}

theorem excludeSection_of_not_repo {item : ItemId} (other : ∀ path, item ≠ .repo path) (incl : Bool)
    (excluded : List RepoId) : excludeSection excluded (.setInclude item incl) = excluded := by
  cases item with
  | repo path => exact absurd rfl (other path)
  | _ => rfl

/-- One more toggle decides over the replay of the others, unless the excluded repositories
    change. -/
theorem projectSnapshot_toggle (active : List TimelineEntry) (item : ItemId) (incl : Bool) :
    ∃ excluded snap, ReplayFrame original snap ∧
      projectSnapshot h original index (active ++ [.op (.setInclude item incl)]) =
        finishProjection h original (buildVariantState h original (timelineOps active))
          (setInclude original index excluded item incl snap) ∧
      ((∀ path, item ≠ .repo path) → projectSnapshot h original index active =
        finishProjection h original (buildVariantState h original (timelineOps active)) snap) := by
  let ops := timelineOps active
  let excluded := excludedSectionsAt (ops ++ [.setInclude item incl])
  refine ⟨excluded, ops.foldl (replayOp original index excluded) original,
    replayOps_frame (ReplayFrame.refl original) ops, ?_, fun other => ?_⟩
  · have ops_eq : timelineOps (active ++ [.op (.setInclude item incl)]) =
        ops ++ [.setInclude item incl] := by simp [ops, TimelineEntry.ops]
    have variants : buildVariantState h original (ops ++ [.setInclude item incl]) =
        buildVariantState h original ops := by
      rw [buildVariantState, List.foldl_append]
      rfl
    rw [projectSnapshot, ops_eq, variants, replay, List.foldl_append]
    rfl
  · have same : excluded = excludedSectionsAt ops := by
      rw [show excluded = excludedSectionsAt (ops ++ [.setInclude item incl]) from rfl,
        excludedSectionsAt, List.foldl_append]
      exact excludeSection_of_not_repo other incl _
    rw [projectSnapshot, same]
    rfl

theorem locked_of_standing {σ α : Type} [LockableRow α] (rows : σ → List α) (p : α → Bool)
    (sec : Option σ) : ((sec.bind fun x => (rows x).find? p).map LockableRow.locked).getD false =
      ((standingOf p ((sec.map rows).getD [])).map (·.locked)).getD false := by
  cases sec with
  | none => rfl
  | some x => simp [standingOf, standing, Function.comp_def]

theorem unlocked_of_open {σ α : Type} [LockableRow α] (rows : σ → List α) (p : α → Bool)
    (sec : Option σ) (named : ∃ st, standingOf p ((sec.map rows).getD []) = some st ∧ st.IsOpen) :
    ((sec.bind fun x => (rows x).find? p).map LockableRow.locked).getD false = false := by
  obtain ⟨st, found, unlocked, _⟩ := named
  rw [locked_of_standing, found]
  exact unlocked

theorem isItemLocked_of_open {item : ItemId} (named : NamesOpenEntry original item) :
    isItemLocked original item = false := by
  cases item with
  | package name arch => exact unlocked_of_open RpmSection.packagesAdded _ original.rpm named
  | config path => exact unlocked_of_open ConfigSection.files _ original.config named
  | service unit => exact unlocked_of_open ServiceSection.stateChanges _ original.services named
  | dropIn path => exact unlocked_of_open ServiceSection.dropIns _ original.services named
  | quadlet path => exact unlocked_of_open ContainerSection.quadletUnits _ original.containers named
  | flatpak appId remote branch =>
    exact unlocked_of_open ContainerSection.flatpakApps _ original.containers named
  | sysctl key => exact unlocked_of_open KernelBootSection.sysctlOverrides _ original.kernelBoot named
  | fstab mountPoint => exact unlocked_of_open StorageSection.fstabEntries _ original.storage named
  | _ => rfl

section Paths

variable {excluded : List RepoId} {path : String} (incl : Bool) (snap : InspectionSnapshot)

theorem configFiles_setInclude (unlocked : isItemLocked original (.config path) = false) :
    (setInclude original index excluded (.config path) incl snap).configFiles =
      updateFirst (atPath path) (fun e => FindingRow.decide (e.disposition.withInclude incl) e)
        snap.configFiles := by
  simp only [setInclude, unlocked, Bool.and_false, if_neg Bool.false_ne_true]
  exact rows_finish ConfigSection.files _ (updateFirst_nil _ _) (fun _ => rfl) snap.config

theorem dropIns_setInclude (unlocked : isItemLocked original (.dropIn path) = false) :
    (setInclude original index excluded (.dropIn path) incl snap).dropIns =
      updateFirst (atPath path) (FindingRow.decide (.fromBool incl)) snap.dropIns := by
  simp only [setInclude, unlocked, Bool.and_false, if_neg Bool.false_ne_true]
  exact rows_finish ServiceSection.dropIns _ (updateFirst_nil _ _) (fun _ => rfl) snap.services

theorem quadletUnits_setInclude (unlocked : isItemLocked original (.quadlet path) = false) :
    (setInclude original index excluded (.quadlet path) incl snap).quadletUnits =
      updateFirst (atPath path) (FindingRow.decide (.fromBool incl)) snap.quadletUnits := by
  simp only [setInclude, unlocked, Bool.and_false, if_neg Bool.false_ne_true]
  exact rows_finish ContainerSection.quadletUnits _ (updateFirst_nil _ _) (fun _ => rfl)
    snap.containers

end Paths

theorem package_of_finished {state : VariantProjectionState} {snap : InspectionSnapshot}
    {p : PackageEntry} (mem : p ∈ rpmPackages (finishProjection h original state snap))
    (unlocked : p.locked = false) : ∃ q ∈ rpmPackages snap, q.locked = false ∧
      q.name = p.name ∧ q.sourceRepo = p.sourceRepo ∧ q.disposition = p.disposition := by
  obtain ⟨rpm, rows⟩ := rpmPackages_finishProjection h original state snap
  rw [rows, List.map_map] at mem
  obtain ⟨q, source, rfl⟩ := List.mem_map.mp mem
  obtain ⟨note, demoted⟩ := demotePackage_eq rpm (clampLocked q)
  rw [Function.comp_apply, demoted] at unlocked ⊢
  have unlocked' : q.locked = false := (locked_clampLocked q).symm.trans unlocked
  have kept : clampLocked q = q := clampLocked_of_unlocked unlocked'
  rw [kept]
  exact ⟨q, source, unlocked', rfl, rfl, rfl⟩

theorem rpmPackages_onRpm {snap : InspectionSnapshot} {f : RpmSection → RpmSection}
    {change : List PackageEntry → List PackageEntry} (empty : change [] = [])
    (commutes : ∀ rpm, (f rpm).packagesAdded = change rpm.packagesAdded) :
    rpmPackages (snap.onRpm f) = change (rpmPackages snap) :=
  rows_finish RpmSection.packagesAdded change empty commutes snap.rpm

theorem packagesAdded_foldl {step : RpmSection → String → RpmSection}
    (keeps : ∀ rpm path, (step rpm path).packagesAdded = rpm.packagesAdded) (rpm : RpmSection)
    (paths : List String) : (paths.foldl step rpm).packagesAdded = rpm.packagesAdded := by
  induction paths generalizing rpm with
  | nil => rfl
  | cons path paths ih => rw [List.foldl_cons, ih, keeps]

theorem packagesAdded_excludeRepo (index : RepoIndex) (excluded : List RepoId) (sectionId : String)
    (rpm : RpmSection) : (excludeRepo index excluded sectionId rpm).packagesAdded =
      (cascadeRepoPackages sectionId false rpm).packagesAdded := by
  unfold excludeRepo
  rw [packagesAdded_foldl, packagesAdded_foldl]
  · intro rpm path
    split <;> rfl
  · intro rpm path
    split <;> rfl

theorem packagesAdded_includeRepo (index : RepoIndex) (sectionId : String) (rpm : RpmSection) :
    (includeRepo index sectionId rpm).packagesAdded =
      (cascadeRepoPackages sectionId true rpm).packagesAdded := by
  unfold includeRepo
  rw [packagesAdded_foldl, packagesAdded_foldl]
  · exact fun _ _ => rfl
  · exact fun _ _ => rfl

theorem decision_of_updateWhere {rows : List PackageEntry} {p : PackageEntry → Bool} {incl : Bool}
    {q : PackageEntry} (mem : q ∈ updateWhere p (FindingRow.decide (.fromBool incl)) rows)
    (hit : p q = true) : q.disposition = .actionable incl := by
  obtain ⟨a, _, rfl⟩ := List.mem_map.mp mem
  by_cases selected : p a = true
  · rw [if_pos selected]
    rfl
  · rw [if_neg selected] at hit
    exact absurd hit selected

theorem group_toggled {state : VariantProjectionState} {snap : InspectionSnapshot}
    {excluded : List RepoId} (name : String) (incl : Bool) :
    TookEffect original (finishProjection h original state
      (setInclude original index excluded (.group name) incl snap)) (.group name) incl := by
  intro p mem member unlocked
  obtain ⟨q, mem', unlocked', name_eq, _, decision⟩ := package_of_finished mem unlocked
  have step : setInclude original index excluded (.group name) incl snap =
      snap.onRpm (setGroup (groupMembers original name) incl) := by
    simp [setInclude, isItemLocked]
  rw [step, rpmPackages_onRpm (updateWhere_nil _ _) (fun _ => rfl)] at mem'
  rw [← decision]
  exact decision_of_updateWhere mem' (by simp [name_eq, member, unlocked'])

theorem repo_toggled {state : VariantProjectionState} {snap : InspectionSnapshot}
    {excluded : List RepoId} (path : String) (incl : Bool) :
    TookEffect original (finishProjection h original state
      (setInclude original index excluded (.repo path) incl snap)) (.repo path) incl := by
  intro p mem attributed unlocked
  obtain ⟨q, mem', unlocked', _, source, decision⟩ := package_of_finished mem unlocked
  have step : setInclude original index excluded (.repo path) incl snap = snap.onRpm
      (if incl then includeRepo index path else excludeRepo index excluded path) := by
    simp [setInclude, isItemLocked]
  rw [step, rpmPackages_onRpm (updateWhere_nil (fun e : PackageEntry =>
      Text.eqIgnoreAsciiCase e.sourceRepo path && !e.locked) (FindingRow.decide (.fromBool incl)))] at mem'
  · rw [← decision]
    exact decision_of_updateWhere mem' (by simp [source, attributed, unlocked'])
  · intro rpm
    cases incl with
    | true => exact packagesAdded_includeRepo index path rpm
    | false => exact packagesAdded_excludeRepo index excluded path rpm

theorem standingOf_demoted (rpm : RpmSection) (name arch : String) (rows : List PackageEntry) :
    standingOf (fun e => e.name == name && e.arch == arch) (rows.map (demotePackage rpm)) =
      standingOf (fun e => e.name == name && e.arch == arch) rows := by
  symm
  refine standingOf_congr (R := fun a b => b = demotePackage rpm a) _ _ ?_ ?_ ?_
  · rintro a b rfl
    obtain ⟨_, demoted⟩ := demotePackage_eq rpm a
    rw [demoted]
  · rintro a b rfl
    obtain ⟨_, demoted⟩ := demotePackage_eq rpm a
    rw [demoted]
    rfl
  · exact List.forall₂_map_right_iff.mpr (List.forall₂_same.mpr fun _ _ => rfl)

theorem package_toggled {state : VariantProjectionState} {snap : InspectionSnapshot}
    {excluded : List RepoId} (frame : ReplayFrame original snap) {name arch : String} {incl : Bool}
    (named : NamesOpenEntry original (.package name arch)) :
    DecidedTo (namedEntry (finishProjection h original state
      (setInclude original index excluded (.package name arch) incl snap)) (.package name arch))
        incl := by
  have unlocked := isItemLocked_of_open named
  obtain ⟨st, found, isOpen⟩ := named
  have step : setInclude original index excluded (.package name arch) incl snap =
      snap.onRpm fun rpm =>
        { rpm with
          packagesAdded := updateFirst (fun e => e.name == name && e.arch == arch)
            (FindingRow.decide (.fromBool incl)) rpm.packagesAdded } := by
    simp [setInclude, unlocked]
  obtain ⟨rpm, rows⟩ := rpmPackages_finishProjection h original state
    (setInclude original index excluded (.package name arch) incl snap)
  rw [namedEntry, rows, standingOf_demoted, step,
    rpmPackages_onRpm (updateFirst_nil _ _) (fun _ => rfl)]
  exact plain_toggled (fun _ _ => rfl) frame.packages found isOpen incl

theorem tuned_toggled {state : VariantProjectionState} {snap : InspectionSnapshot}
    {excluded : List RepoId} (frame : ReplayFrame original snap) {profile : String} {incl : Bool}
    (named : NamesOpenEntry original (.tunedSelection profile)) :
    DecidedTo (namedEntry (finishProjection h original state
      (setInclude original index excluded (.tunedSelection profile) incl snap))
        (.tunedSelection profile)) incl := by
  obtain ⟨st, found, _⟩ := named
  have step : setInclude original index excluded (.tunedSelection profile) incl snap =
      snap.onKernelBoot fun k =>
        if k.tunedActive == profile then { k with tunedDisposition := .fromBool incl } else k := by
    simp [setInclude, isItemLocked]
  rw [step, namedEntry, kernelBoot_finishProjection, InspectionSnapshot.onKernelBoot]
  obtain ⟨a, opened, tuned⟩ := Option.bind_eq_some_iff.mp found
  have rel := frame.kernelBoot
  rw [opened] at rel
  generalize snap.kernelBoot = kernelBoot at rel ⊢
  cases rel with
  | some inner =>
    rename_i b
    have active : b.tunedActive = a.tunedActive := by rw [inner.rest]
    have hit : b.tunedActive = profile := by
      rw [active]
      by_contra miss
      rw [if_neg (by simpa using miss)] at tuned
      cases tuned
    simp [hit, DecidedTo, FindingKind.fromBool]

theorem toggled_iff (active : List TimelineEntry) {item : ItemId} (incl : Bool)
    (named : NamesOpenEntry original item) :
    TookEffect original
        (projectSnapshot h original index (active ++ [.op (.setInclude item incl)])) item incl ↔
      toggleReaches h original (buildVariantState h original (timelineOps active)) item = true ∨
        TookEffect original (projectSnapshot h original index active) item incl := by
  obtain ⟨excluded, snap, frame, after, before⟩ :=
    @projectSnapshot_toggle h original index active item incl
  have hashed : WellHashed h (buildVariantState h original (timelineOps active)) :=
    buildVariantState_wellHashed _
  have unlocked := isItemLocked_of_open named
  rw [after]
  cases item with
  | package name arch => exact iff_of_true (package_toggled frame named) (.inl rfl)
  | repo path => exact iff_of_true (repo_toggled path incl) (.inl rfl)
  | group name => exact iff_of_true (group_toggled name incl) (.inl rfl)
  | tunedSelection profile => exact iff_of_true (tuned_toggled frame named) (.inl rfl)
  | service unit =>
    refine iff_of_true ?_ (.inl rfl)
    obtain ⟨st, found, isOpen⟩ := named
    have rows : (setInclude original index excluded (.service unit) incl snap).stateChanges =
        updateFirst (·.unit == unit) (FindingRow.decide (.fromBool incl)) snap.stateChanges := by
      simp only [setInclude, unlocked, Bool.and_false, if_neg Bool.false_ne_true]
      exact rows_finish ServiceSection.stateChanges _ (updateFirst_nil _ _) (fun _ => rfl)
        snap.services
    change DecidedTo (standingOf _ (finishProjection _ _ _ _).stateChanges) incl
    rw [stateChanges_finishProjection, rows]
    exact plain_toggled (fun _ _ => rfl) frame.stateChanges found isOpen incl
  | flatpak appId remote branch =>
    refine iff_of_true ?_ (.inl rfl)
    obtain ⟨st, found, isOpen⟩ := named
    have rows : (setInclude original index excluded (.flatpak appId remote branch) incl
        snap).flatpakApps = updateFirst
          (fun e => e.appId == appId && e.remote == remote && e.branch == branch)
          (FindingRow.decide (.fromBool incl)) snap.flatpakApps := by
      simp only [setInclude, unlocked, Bool.and_false, if_neg Bool.false_ne_true]
      exact rows_finish ContainerSection.flatpakApps _ (updateFirst_nil _ _) (fun _ => rfl)
        snap.containers
    change DecidedTo (standingOf _ (finishProjection _ _ _ _).flatpakApps) incl
    rw [flatpakApps_finishProjection, rows]
    exact plain_toggled (fun _ _ => rfl) frame.flatpakApps found isOpen incl
  | sysctl key =>
    refine iff_of_true ?_ (.inl rfl)
    obtain ⟨st, found, isOpen⟩ := named
    have rows : (setInclude original index excluded (.sysctl key) incl snap).sysctlOverrides =
        updateFirst (·.key == key) (FindingRow.decide (.fromBool incl)) snap.sysctlOverrides := by
      simp only [setInclude, unlocked, Bool.and_false, if_neg Bool.false_ne_true]
      exact rows_finish KernelBootSection.sysctlOverrides _ (updateFirst_nil _ _) (fun _ => rfl)
        snap.kernelBoot
    change DecidedTo (standingOf _ (finishProjection _ _ _ _).sysctlOverrides) incl
    rw [sysctlOverrides_finishProjection, rows]
    exact plain_toggled (fun _ _ => rfl) frame.sysctlOverrides found isOpen incl
  | config path =>
    obtain ⟨st, found, isOpen⟩ := named
    have rows := @configFiles_setInclude original index excluded path incl snap unlocked
    rw [before (by simp)]
    change DecidedTo (standingOf _ (finishProjection _ _ _ _).configFiles) incl ↔
      _ ∨ DecidedTo (standingOf _ (finishProjection _ _ _ _).configFiles) incl
    rw [configFiles_finishProjection, configFiles_finishProjection, rows]
    exact content_toggled hashed frame.configFiles found isOpen
      fun a act => FindingKind.withInclude_of_isActionable act incl
  | dropIn path =>
    obtain ⟨st, found, isOpen⟩ := named
    have rows := @dropIns_setInclude original index excluded path incl snap unlocked
    rw [before (by simp)]
    change DecidedTo (standingOf _ (finishProjection _ _ _ _).dropIns) incl ↔
      _ ∨ DecidedTo (standingOf _ (finishProjection _ _ _ _).dropIns) incl
    rw [dropIns_finishProjection, dropIns_finishProjection, rows]
    exact content_toggled hashed frame.dropIns found isOpen fun _ _ => rfl
  | quadlet path =>
    obtain ⟨st, found, isOpen⟩ := named
    have rows := @quadletUnits_setInclude original index excluded path incl snap unlocked
    rw [before (by simp)]
    change DecidedTo (standingOf _ (finishProjection _ _ _ _).quadletUnits) incl ↔
      _ ∨ DecidedTo (standingOf _ (finishProjection _ _ _ _).quadletUnits) incl
    rw [quadletUnits_finishProjection, quadletUnits_finishProjection, rows]
    exact content_toggled hashed frame.quadletUnits found isOpen fun _ _ => rfl
  | _ =>
    -- No arm in the replay: the projection is the one from before.
    rw [before (by simp)]
    simp only [setInclude, ite_self, toggleReaches, Bool.false_eq_true, false_or]

theorem decided_of_open {st : Option Standing} {incl : Bool}
    (isOpen : ∃ x, st = some x ∧ x.IsOpen)
    (said : (st.map fun x => x.disposition.isIncluded == incl).getD false = true) :
    DecidedTo st incl := by
  obtain ⟨⟨locked, disposition⟩, rfl, _, act⟩ := isOpen
  have included : disposition.isIncluded = incl := by simpa using said
  cases disposition with
  | actionable b => cases b <;> subst included <;> rfl
  | advisory t r => cases act
  | inventory => cases act

theorem said_of_standing {σ α : Type} [LockableRow α] (rows : σ → List α) (p : α → Bool)
    (sec : Option σ) (incl : Bool) : ((sec.bind fun x => (rows x).find? p).map fun a =>
        (FindingRow.disposition a).isIncluded == incl).getD false =
      ((standingOf p ((sec.map rows).getD [])).map
        fun st => st.disposition.isIncluded == incl).getD false := by
  cases sec with
  | none => rfl
  | some x => simp [standingOf, standing, Function.comp_def]

theorem decided_of_noop {c : SessionCore} {item : ItemId} {incl : Bool}
    (named : NamesOpenEntry c.original item) (noop : isOpNoop h c (.setInclude item incl) = true)
    (reached : toggleReaches h c.original (variantState h c) item = true) :
    TookEffect c.original (c.projected h) item incl := by
  have frame : ReplayFrame c.original (replay c.original c.repoIndex c.activeOps) := replay_frame _
  cases item with
  | package name arch =>
    obtain ⟨st, found, isOpen⟩ := named
    refine decided_of_open ?_
      ((said_of_standing RpmSection.packagesAdded _ (c.projected h).rpm incl).symm.trans noop)
    obtain ⟨a, hit, isOpen'⟩ := open_of_redecided (fun _ _ => rfl) frame.packages found isOpen
    obtain ⟨rpm, rows⟩ := rpmPackages_finishProjection h c.original (variantState h c)
      (replay c.original c.repoIndex c.activeOps)
    refine ⟨standing a, ?_, isOpen'⟩
    have shown : rpmPackages (c.projected h) = _ := rows
    change standingOf _ (rpmPackages (c.projected h)) = _
    rw [shown, standingOf_demoted, standingOf_map_clampLocked (fun _ _ => rfl), standingOf, hit,
      Option.map_some, Option.map_some, clamp_open isOpen']
  | config path =>
    obtain ⟨st, found, isOpen⟩ := named
    refine decided_of_open ?_
      ((said_of_standing ConfigSection.files _ (c.projected h).config incl).symm.trans noop)
    obtain ⟨a, _, isOpen', shown⟩ := shown_when_reached (buildVariantState_wellHashed _)
      frame.configFiles reached found isOpen
    refine ⟨standing a, ?_, isOpen'⟩
    change standingOf _ (finishProjection _ _ _ _).configFiles = _
    rw [configFiles_finishProjection]
    exact shown
  | _ => cases noop

end Toggled

theorem accepted_toggle_shows_iff (env : Env) (disk : Disk) (s : RefineSession) (item : ItemId)
    (incl : Bool) (named : NamesOpenEntry s.original item)
    (accepted : (s.apply env disk (.setInclude item incl)).result = .ok ()) :
    TookEffect s.original
        ((s.apply env disk (.setInclude item incl)).session.projected env.toHashing) item incl ↔
      toggleReaches env.toHashing s.original (variantState env.toHashing s.toSessionCore) item = true ∨
        TookEffect s.original (s.projected env.toHashing) item incl := by
  have unlocked := isItemLocked_of_open named
  rcases apply_accepted accepted with ⟨skipped, same⟩ | ⟨_, _, recorded⟩
  · rw [same]
    have noop : isOpNoop env.toHashing s.toSessionCore (.setInclude item incl) = true := by
      rcases skipped with locked | noop
      · cases incl <;> simp [isLockedInclusion, unlocked] at locked
      · exact noop
    constructor
    · exact .inr
    · rintro (reached | before)
      · exact decided_of_noop named noop reached
      · exact before
  · rw [recorded, projected_record]
    exact toggled_iff s.history.active incl named

def sysctlHost : InspectionSnapshot :=
  { kernelBoot := some { sysctlOverrides := [{ key := "vm.swappiness", runtime := "10" }] } }

theorem accepted_toggle_shows_iff_sysctl :
    TookEffect sysctlHost
        (((RefineSession.new sampleEnv sampleDisk sysctlHost).apply sampleEnv sampleDisk
          (.setInclude (.sysctl "vm.swappiness") false)).session.projected sampleEnv.toHashing)
        (.sysctl "vm.swappiness") false :=
  (accepted_toggle_shows_iff sampleEnv sampleDisk
    (RefineSession.new sampleEnv sampleDisk sysctlHost) (.sysctl "vm.swappiness") false
    ⟨⟨false, .included⟩, rfl, rfl, rfl⟩ rfl).mpr (.inl rfl)

def cronJobHost : InspectionSnapshot :=
  { scheduledTasks := some { cronJobs := [{ path := "/etc/cron.d/backup" }] } }

/-- Excluding a cron job is accepted and changes nothing. -/
theorem cron_job_toggle_is_lost :
    NamesOpenEntry (RefineSession.new sampleEnv sampleDisk cronJobHost).original
        (.cronJob "/etc/cron.d/backup") ∧
      ((RefineSession.new sampleEnv sampleDisk cronJobHost).apply sampleEnv sampleDisk
        (.setInclude (.cronJob "/etc/cron.d/backup") false)).result = .ok () ∧
      ¬ TookEffect (RefineSession.new sampleEnv sampleDisk cronJobHost).original
        (((RefineSession.new sampleEnv sampleDisk cronJobHost).apply sampleEnv sampleDisk
          (.setInclude (.cronJob "/etc/cron.d/backup") false)).session.projected
            sampleEnv.toHashing) (.cronJob "/etc/cron.d/backup") false := by
  refine ⟨⟨⟨false, .included⟩, rfl, rfl, rfl⟩, rfl, fun took => ?_⟩
  have shown : (some (.actionable true) : Option FindingKind) = some (.actionable false) := took
  cases shown

end Inspectah
