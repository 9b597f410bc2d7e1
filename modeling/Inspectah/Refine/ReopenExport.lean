import Inspectah.Refine.CleanSession
import Inspectah.Refine.FreshSession
import Inspectah.Refine.LockedExport
import Inspectah.Refine.ShownVersions
import Inspectah.Render.ConfigTree
import Inspectah.Render.PackageLines

/-!
Re-opening an export. The tarball carries the operator's decisions, and opening derives every
decision again from the rest of the row.
-/
namespace Inspectah

open FirstMatch Runs

section Load

variable (snap : InspectionSnapshot)

def lockOnLoad : InspectionSnapshot :=
  normalizeMergeHostileConfigs (normalizeIncompatibleServices snap)

theorem loadForRefine_ok {snap loaded : InspectionSnapshot} {json : String}
    {deserialize : String → Except String InspectionSnapshot} (parsed : deserialize json = .ok snap)
    (read : loadForRefine deserialize json = .ok loaded) : loaded = lockOnLoad snap := by
  unfold loadForRefine at read
  rw [parsed] at read
  dsimp only at read
  split at read
  · cases read
    rfl
  · cases read

theorem configFiles_lockOnLoad :
    (lockOnLoad snap).configFiles = snap.configFiles.map lockMergeHostile := by
  unfold lockOnLoad normalizeMergeHostileConfigs normalizeIncompatibleServices
    InspectionSnapshot.configFiles InspectionSnapshot.onServices
  cases snap.config <;> rfl

theorem lockMergeHostile_keeps (e : ConfigFileEntry) :
    (lockMergeHostile e).path = e.path ∧ (lockMergeHostile e).kind = e.kind := by
  unfold lockMergeHostile
  split <;> exact ⟨rfl, rfl⟩

theorem configFacts_lockOnLoad :
    Option.Rel SameConfigFacts snap.config (lockOnLoad snap).config := by
  change Option.Rel SameConfigFacts snap.config
    (snap.config.map fun c => { c with files := c.files.map lockMergeHostile })
  cases snap.config with
  | none => exact .none
  | some c => exact .some (map_forall _ _ lockMergeHostile_keeps c.files)

theorem lockIncompatibleService_keeps (row : ServiceStateChange) :
    (lockIncompatibleService row).currentState = row.currentState ∧
      (lockIncompatibleService row).defaultState = row.defaultState ∧
      (lockIncompatibleService row).owningPackage = row.owningPackage := by
  unfold lockIncompatibleService
  split <;> exact ⟨rfl, rfl, rfl⟩

theorem stateChanges_lockOnLoad :
    (lockOnLoad snap).stateChanges = snap.stateChanges.map lockIncompatibleService := by
  unfold lockOnLoad normalizeMergeHostileConfigs normalizeIncompatibleServices
    InspectionSnapshot.stateChanges InspectionSnapshot.onServices
  cases snap.services <;> rfl

theorem installerEvidence_lockOnLoad :
    installerEvidence (lockOnLoad snap) = installerEvidence snap := by
  have rows := stateChanges_lockOnLoad snap
  have ownership : (lockOnLoad snap).rpm.map (·.fileOwnership) = snap.rpm.map (·.fileOwnership) := rfl
  have config := configFacts_lockOnLoad snap
  have services : (lockOnLoad snap).services.isSome = snap.services.isSome := Option.isSome_map
  have user : buildUserEnabledServiceSet (lockOnLoad snap) = buildUserEnabledServiceSet snap := by
    change (lockOnLoad snap).stateChanges.filterMap _ = snap.stateChanges.filterMap _
    rw [rows, List.filterMap_map]
    congr 1
    funext row
    obtain ⟨current, default, owner⟩ := lockIncompatibleService_keeps row
    rw [Function.comp_apply, current, default, owner]
  have unattributed : hasUnattributedServices (lockOnLoad snap) = hasUnattributedServices snap := by
    change (lockOnLoad snap).stateChanges.any _ = snap.stateChanges.any _
    rw [rows, List.any_map]
    congr 1
    funext row
    rw [Function.comp_apply, (lockIncompatibleService_keeps row).2.2]
  unfold installerEvidence
  dsimp only
  rw [user, buildModifiedConfigSet_congr ownership config, services,
    hasConfig_congr ownership config, hasOrphanedModifiedConfigs_congr ownership config, unattributed]

theorem readings_lockOnLoad (rpm : RpmSection) :
    SameReadings snap rpm (lockOnLoad snap) rpm where
  baseline := rfl
  paths := by
    have files := configFacts_lockOnLoad snap
    generalize snap.config = x at files ⊢
    generalize (lockOnLoad snap).config = y at files ⊢
    cases files with
    | none => rfl
    | some same => exact map_related (same.imp fun a b ab => ab.1)
  suppressed := rfl
  versionChanges := rfl
  ownership := rfl

end Load

section Derived

variable (snap : InspectionSnapshot)

def openedRpm : RpmSection := clearLeaves snap (snap.rpm.getD {})

def derivedPackage (e : PackageEntry) : FindingKind :=
  if settledLock snap (openedRpm snap) (installerEvidence snap) e then .excluded
  else settledDisposition snap (openedRpm snap) (installerEvidence snap) e

/-- The decision opening derives for a configuration file; only inventory findings keep theirs. -/
def derivedConfig (bucket : TriageBucket) (e : ConfigFileEntry) : FindingKind :=
  if e.locked || MERGE_HOSTILE_PATHS.contains e.path || isInspectahRepoFile e.path then .excluded
  else if !e.disposition.isActionable then e.disposition
  else if isPartial e.aggregate then .excluded
  else configDefault bucket e.kind

def configBuckets : List TriageBucket :=
  (configReports (unresolvedHints snap) snap.configFiles).map (·.triage.bucket)

/-- No decision deviates from the default its row has. -/
structure AtDefaults : Prop where
  packages : ∀ e ∈ rpmPackages snap, e.disposition = derivedPackage snap e
  configs : List.Forall₂ (fun bucket e => e.disposition = derivedConfig bucket e)
    (configBuckets snap) snap.configFiles

end Derived

/-- Opening the snapshot again, the tarball's loader before it. -/
def RefineSession.reopen (env : Env) (disk : Disk) (snap : InspectionSnapshot) : RefineSession :=
  RefineSession.new env disk (lockOnLoad snap)

section Shown

variable (env : Env) (disk : Disk) (snap : InspectionSnapshot)

def shownAgain : InspectionSnapshot := (RefineSession.reopen env disk snap).projected env.toHashing

theorem shownAgain_eq : shownAgain env disk snap =
    finishProjection env.toHashing (normalizeSnapshot (lockOnLoad snap)) {}
      (normalizeSnapshot (lockOnLoad snap)) :=
  projected_empty rfl

theorem clearLeaves_lockOnLoad (rpm : RpmSection) :
    clearLeaves (lockOnLoad snap) rpm = clearLeaves snap rpm := rfl

theorem settlePackage_lockOnLoad (rpm : RpmSection) (ev : InstallerEvidence) (e : PackageEntry) :
    settlePackage (clearAggregateLeaves (lockOnLoad snap)) rpm ev e =
      settlePackage snap rpm ev e := by
  have same : SameReadings snap rpm (clearAggregateLeaves (lockOnLoad snap)) rpm := by
    rw [clearAggregateLeaves_eq]
    exact { readings_lockOnLoad snap rpm with }
  have decision := @settledDisposition_again _ _ _ _ ev same rfl e e.disposition e.locked
  have verdict := @installerVerdict_again _ _ _ _ ev same e e.disposition e.locked
  rw [settlePackage_eq, settlePackage_eq, decision, settledLock, settledLock, verdict]

/-- A package as the new session shows it. -/
def reopenedPackage (rpm : RpmSection) (e : PackageEntry) : PackageEntry :=
  demotePackage rpm (clampLocked (settlePackage snap (openedRpm snap) (installerEvidence snap) e))

theorem rpmPackages_normalized : rpmPackages (normalizeSnapshot (lockOnLoad snap)) =
    (rpmPackages snap).map (settlePackage snap (openedRpm snap) (installerEvidence snap)) := by
  rw [normalizeSnapshot_eq, rpmPackages, rpmPackages]
  have rpm_eq : (lockOnLoad snap).rpm = snap.rpm := rfl
  rw [rpm_eq, installerEvidence_cleared, installerEvidence_lockOnLoad]
  unfold openedRpm
  cases snap.rpm with
  | none => rfl
  | some rpm =>
    have packages : (clearLeaves snap rpm).packagesAdded = rpm.packagesAdded := by
      unfold clearLeaves
      split <;> rfl
    simp only [Option.map_some, Option.getD_some, settleRpm, clearLeaves_lockOnLoad, packages]
    exact List.map_congr_left fun e _ => settlePackage_lockOnLoad snap _ _ e

theorem rpmPackages_shownAgain : ∃ rpm, rpmPackages (shownAgain env disk snap) =
    (rpmPackages snap).map (reopenedPackage snap rpm) := by
  obtain ⟨rpm, packages⟩ := rpmPackages_finishProjection env.toHashing
    (normalizeSnapshot (lockOnLoad snap)) {} (normalizeSnapshot (lockOnLoad snap))
  refine ⟨rpm, ?_⟩
  rw [shownAgain_eq, packages, rpmPackages_normalized, List.map_map, List.map_map]
  rfl

/-- The new session decides a package by its default and may lock or annotate it. -/
theorem reopenedPackage_eq (rpm : RpmSection) (e : PackageEntry) :
    ∃ note, reopenedPackage snap rpm e =
      { e with
        disposition := derivedPackage snap e
        locked := settledLock snap (openedRpm snap) (installerEvidence snap) e
        repolessAnnotation := note } := by
  unfold reopenedPackage derivedPackage
  obtain ⟨note, demoted⟩ := demotePackage_eq rpm
    (clampLocked (settlePackage snap (openedRpm snap) (installerEvidence snap) e))
  refine ⟨note, ?_⟩
  rw [demoted, settlePackage_eq]
  cases settledLock snap (openedRpm snap) (installerEvidence snap) e <;> rfl

def settleConfigRow (bucket : TriageBucket) (e : ConfigFileEntry) : ConfigFileEntry :=
  if isInspectahRepoFile e.path then { e with disposition := .excluded, locked := true }
  else if !e.disposition.isActionable then e
  else if isPartial e.aggregate then { e with disposition := .excluded }
  else { e with disposition := configDefault bucket e.kind }

theorem configBuckets_lockOnLoad :
    (configReports (unresolvedHints snap) (lockOnLoad snap).configFiles).map (·.triage.bucket) =
      configBuckets snap := by
  rw [configFiles_lockOnLoad]
  have rows := map_forall (fun a b : ConfigFileEntry => b.path = a.path ∧ b.kind = a.kind) _
    lockMergeHostile_keeps snap.configFiles
  exact map_related ((configReports_same (unresolvedHints snap) rows).imp fun a b same => by rw [same])

theorem configFiles_normalized : (normalizeSnapshot snap).configFiles =
    overlay normalizeConfig (configReports (unresolvedHints snap) snap.configFiles)
      snap.configFiles := by
  have settled := congrArg InspectionSnapshot.config (normalizeSnapshot_eq snap)
  unfold InspectionSnapshot.configFiles
  rw [settled]
  cases snap.config with
  | none => exact (overlay_nil _ _).symm
  | some c => rfl

theorem configFiles_shownAgain : (shownAgain env disk snap).configFiles =
    (overlay settleConfigRow (configBuckets snap)
      (snap.configFiles.map lockMergeHostile)).map clampLocked := by
  rw [shownAgain_eq, configFiles_finishProjection, materializeRows_untouched rfl,
    configFiles_normalized, ← configFiles_lockOnLoad, ← configBuckets_lockOnLoad,
    ← overlay_reading]
  rfl

theorem lockMergeHostile_eq (e : ConfigFileEntry) : ∃ why, lockMergeHostile e =
    { e with
      disposition := if MERGE_HOSTILE_PATHS.contains e.path then .excluded else e.disposition
      locked := MERGE_HOSTILE_PATHS.contains e.path || e.locked
      attentionReason := why } := by
  unfold lockMergeHostile
  cases MERGE_HOSTILE_PATHS.contains e.path
  · exact ⟨e.attentionReason, rfl⟩
  · exact ⟨_, rfl⟩

theorem clampLocked_config (e : ConfigFileEntry) :
    clampLocked e = { e with disposition := if e.locked then .excluded else e.disposition } := by
  change (if e.locked = true then { e with disposition := .excluded } else e) = _
  split <;> rfl

theorem settleConfigRow_eq (bucket : TriageBucket) (e : ConfigFileEntry) :
    settleConfigRow bucket e =
      { e with
        disposition :=
          if isInspectahRepoFile e.path then .excluded
          else if !e.disposition.isActionable then e.disposition
          else if isPartial e.aggregate then .excluded
          else configDefault bucket e.kind
        locked := isInspectahRepoFile e.path || e.locked } := by
  unfold settleConfigRow
  cases isInspectahRepoFile e.path
  · cases e.disposition.isActionable
    · rfl
    · cases isPartial e.aggregate <;> rfl
  · rfl

def reopenedConfig (bucket : TriageBucket) (e : ConfigFileEntry) : ConfigFileEntry :=
  clampLocked (settleConfigRow bucket (lockMergeHostile e))

theorem reopenedConfig_eq (bucket : TriageBucket) (e : ConfigFileEntry) :
    ∃ locked why, reopenedConfig bucket e =
      { e with
        disposition := derivedConfig bucket e
        locked := locked
        attentionReason := why } := by
  obtain ⟨why, hostile⟩ := lockMergeHostile_eq e
  refine ⟨isInspectahRepoFile e.path || (MERGE_HOSTILE_PATHS.contains e.path || e.locked), why, ?_⟩
  rw [reopenedConfig, clampLocked_config, settleConfigRow_eq, hostile]
  congr 1
  dsimp only
  unfold derivedConfig
  cases MERGE_HOSTILE_PATHS.contains e.path <;> cases isInspectahRepoFile e.path <;>
    cases e.locked <;> rfl

theorem configBuckets_length : (configBuckets snap).length = snap.configFiles.length := by
  have counted : ∀ (hints : List RedactionHint) (rows : List (Refined ConfigFileEntry)),
      (hints.foldl applyHint rows).length = rows.length := by
    intro hints
    induction hints with
    | nil => exact fun rows => rfl
    | cons hint hints ih =>
      intro rows
      rw [List.foldl_cons, ih]
      exact (List.Forall₂.length_eq (updateFirst_forall (fun _ _ => True) (fun _ => trivial) _ _
        (fun _ _ => trivial) rows)).symm
  rw [configBuckets, List.length_map, configReports, counted, List.length_map]

def packageDecisions (snap : InspectionSnapshot) : List ((String × String) × FindingKind) :=
  (rpmPackages snap ++ rowsOf RpmSection.baseImageOnly snap.rpm).map fun p =>
    ((p.name, p.arch), p.disposition)

def configDecisions (snap : InspectionSnapshot) : List ((String × String) × FindingKind) :=
  snap.configFiles.map fun f => ((f.path, f.content), f.disposition)

def SameDecisions (a b : InspectionSnapshot) : Prop :=
  packageDecisions a = packageDecisions b ∧ configDecisions a = configDecisions b

theorem baseImageOnly_shownAgain : rowsOf RpmSection.baseImageOnly (shownAgain env disk snap).rpm =
    rowsOf RpmSection.baseImageOnly snap.rpm := by
  rw [shownAgain_eq, baseImageOnly_finished, baseImageOnly_normalized]
  rfl

theorem packageDecisions_shownAgain :
    packageDecisions (shownAgain env disk snap) = packageDecisions snap ↔
      ∀ e ∈ rpmPackages snap, e.disposition = derivedPackage snap e := by
  obtain ⟨rpm, packages⟩ := rpmPackages_shownAgain env disk snap
  unfold packageDecisions
  rw [packages, baseImageOnly_shownAgain, List.map_append, List.map_append,
    List.append_cancel_right_eq, List.map_map, List.map_inj_left]
  refine forall₂_congr fun e _ => ?_
  obtain ⟨note, reopened⟩ := reopenedPackage_eq snap rpm e
  rw [Function.comp_apply, reopened]
  exact ⟨fun same => (congrArg Prod.snd same).symm, fun default => Prod.ext rfl default.symm⟩

theorem configDecisions_shownAgain :
    configDecisions (shownAgain env disk snap) = configDecisions snap ↔
      List.Forall₂ (fun bucket e => e.disposition = derivedConfig bucket e)
        (configBuckets snap) snap.configFiles := by
  unfold configDecisions
  rw [configFiles_shownAgain, List.map_map, map_overlay_iff (configBuckets_length snap)]
  have row (bucket : TriageBucket) (e : ConfigFileEntry) :
      ((fun f : ConfigFileEntry => ((f.path, f.content), f.disposition)) ∘ clampLocked)
          (settleConfigRow bucket (lockMergeHostile e)) = ((e.path, e.content), e.disposition) ↔
        e.disposition = derivedConfig bucket e := by
    obtain ⟨locked, why, reopened⟩ := reopenedConfig_eq bucket e
    unfold reopenedConfig at reopened
    rw [Function.comp_apply, reopened]
    exact ⟨fun same => (congrArg Prod.snd same).symm, fun default => Prod.ext rfl default.symm⟩
  constructor
  · exact fun same => same.imp fun bucket e => (row bucket e).mp
  · exact fun same => same.imp fun bucket e => (row bucket e).mpr

theorem sameDecisions_shownAgain :
    SameDecisions (shownAgain env disk snap) snap ↔ AtDefaults snap := by
  unfold SameDecisions
  rw [packageDecisions_shownAgain, configDecisions_shownAgain]
  exact ⟨fun same => ⟨same.1, same.2⟩, fun defaults => ⟨defaults.packages, defaults.configs⟩⟩

end Shown

def installs (snap : InspectionSnapshot) (original : Option (TextMap Bool)) :
    List (String × String) :=
  (installablePackages (snap.rpm.getD {}) original).map fun p => (p.name, p.arch)

def copies (snap : InspectionSnapshot) : List (String × String) :=
  (copiedConfig snap).map fun f => (f.path, f.content)

/-- An aggregate carries no leaf packages; opening has dropped them. -/
def LeavesCleared (snap : InspectionSnapshot) : Prop :=
  ∀ rpm, snap.rpm = some rpm → clearLeaves snap rpm = rpm

section Carried

variable (env : Env) (disk : Disk) (snap : InspectionSnapshot)

theorem installable_eq (rpm : RpmSection) (original : Option (TextMap Bool)) :
    installablePackages rpm original = rpm.packagesAdded.filter fun p =>
      passesLeafFilter rpm original p &&
        (!(rpm.baselineSuppressed.getD []).contains (canonicalPackageId p.name p.arch) &&
          (isPackageInstallable p && p.disposition.isIncluded)) := by
  unfold installablePackages
  simp only [List.filter_filter]

theorem rpm_shownAgain : (shownAgain env disk snap).rpm = snap.rpm.map fun rpm =>
    demoteRpm (clampRpm (settleRpm (clearAggregateLeaves (lockOnLoad snap))
      (installerEvidence (clearAggregateLeaves (lockOnLoad snap))) (clearLeaves snap rpm))) := by
  obtain ⟨_, _, finished⟩ := finishProjection_eq env.toHashing (normalizeSnapshot (lockOnLoad snap))
    {} (normalizeSnapshot (lockOnLoad snap))
  have settled := congrArg InspectionSnapshot.rpm (normalizeSnapshot_eq (lockOnLoad snap))
  rw [shownAgain_eq, finished]
  dsimp only
  rw [settled, Option.map_map]
  rfl

theorem installs_row {rpm rpm' section_ : RpmSection} {e : PackageEntry}
    (original : Option (TextMap Bool)) (leaves : rpm'.leafPackages = rpm.leafPackages)
    (default : e.disposition = derivedPackage snap e) :
    (passesLeafFilter rpm' original (reopenedPackage snap section_ e) &&
        (isPackageInstallable (reopenedPackage snap section_ e) &&
          (reopenedPackage snap section_ e).disposition.isIncluded)) =
      (passesLeafFilter rpm original e && (isPackageInstallable e && e.disposition.isIncluded)) := by
  obtain ⟨note, reopened⟩ := reopenedPackage_eq snap section_ e
  rw [reopened, ← default]
  cases incl : e.disposition.isIncluded with
  | false => simp
  | true =>
    have unlocked : settledLock snap (openedRpm snap) (installerEvidence snap) e = false := by
      by_contra locked
      rw [derivedPackage, if_pos (Bool.not_eq_false _ ▸ locked)] at default
      rw [default] at incl
      cases incl
    have open_ : e.locked = false := by
      unfold settledLock at unlocked
      exact (Bool.or_eq_false_iff.mp unlocked).1
    rw [unlocked]
    unfold passesLeafFilter
    rw [leaves, open_]
    rfl

theorem installs_shownAgain (defaults : AtDefaults snap) (cleared : LeavesCleared snap)
    (original : Option (TextMap Bool)) :
    installs (shownAgain env disk snap) original = installs snap original := by
  obtain ⟨section_, packages⟩ := rpmPackages_shownAgain env disk snap
  have decided := defaults.packages
  unfold installs
  have again := rpm_shownAgain env disk snap
  cases present : snap.rpm with
  | none => rw [again, present, Option.map_none]
  | some rpm =>
    rw [present, Option.map_some, cleared rpm present] at again
    obtain ⟨shown, again, suppressed, leaves⟩ : ∃ shown, (shownAgain env disk snap).rpm = some shown ∧
        shown.baselineSuppressed = rpm.baselineSuppressed ∧
        shown.leafPackages = rpm.leafPackages := ⟨_, again, rfl, rfl⟩
    rw [rpmPackages, rpmPackages, again, present] at packages
    rw [rpmPackages, present] at decided
    change shown.packagesAdded = rpm.packagesAdded.map (reopenedPackage snap section_) at packages
    change ∀ e ∈ rpm.packagesAdded, _ at decided
    have kept : ∀ e : PackageEntry, (reopenedPackage snap section_ e).name = e.name ∧
        (reopenedPackage snap section_ e).arch = e.arch := by
      intro e
      obtain ⟨note, reopened⟩ := reopenedPackage_eq snap section_ e
      rw [reopened]
      exact ⟨rfl, rfl⟩
    have key : ((fun p : PackageEntry => (p.name, p.arch)) ∘ reopenedPackage snap section_) =
        fun p => (p.name, p.arch) := by
      funext e
      rw [Function.comp_apply, (kept e).1, (kept e).2]
    rw [again, Option.getD_some, Option.getD_some, installable_eq, installable_eq, packages,
      List.filter_map, List.map_map, suppressed, key]
    congr 1
    refine List.filter_congr fun e mem => ?_
    rw [Function.comp_apply, (kept e).1, (kept e).2]
    have row := @installs_row snap rpm shown section_ e original leaves (decided e mem)
    rw [Bool.and_left_comm, row, Bool.and_left_comm]

theorem map_path_kept {α : Type} {path : α → String} {f : α → α} (kept : ∀ a, path (f a) = path a)
    (rows : List α) : (rows.map f).map path = rows.map path := by
  rw [List.map_map]
  exact List.map_congr_left fun a _ => kept a

theorem dropIns_shownAgain :
    (shownAgain env disk snap).dropIns.map (·.path) = snap.dropIns.map (·.path) := by
  have loaded : (normalizeSnapshot (lockOnLoad snap)).dropIns =
      snap.dropIns.map lockIncompatibleDropIn := by
    have settled := congrArg InspectionSnapshot.services (normalizeSnapshot_eq (lockOnLoad snap))
    unfold InspectionSnapshot.dropIns
    rw [settled]
    change ((snap.services.map _).map _ |>.map _).getD [] = _
    cases snap.services <;> rfl
  have locked : ∀ d : SystemdDropIn, (lockIncompatibleDropIn d).path = d.path := by
    intro d
    unfold lockIncompatibleDropIn
    split <;> rfl
  have clamped : ∀ d : SystemdDropIn, (clampLocked d).path = d.path :=
    fun a => (clampLocked_sameFile a).path
  rw [shownAgain_eq, dropIns_finishProjection, materializeRows_untouched rfl, loaded,
    map_path_kept clamped, map_path_kept locked]

theorem quadletUnits_shownAgain :
    (shownAgain env disk snap).quadletUnits.map (·.path) = snap.quadletUnits.map (·.path) := by
  have loaded : (normalizeSnapshot (lockOnLoad snap)).quadletUnits = snap.quadletUnits := by
    have settled := congrArg InspectionSnapshot.containers (normalizeSnapshot_eq (lockOnLoad snap))
    unfold InspectionSnapshot.quadletUnits
    rw [settled]
    rfl
  have clamped : ∀ q : QuadletUnit, (clampLocked q).path = q.path :=
    fun a => (clampLocked_sameFile a).path
  rw [shownAgain_eq, quadletUnits_finishProjection, materializeRows_untouched rfl, loaded,
    map_path_kept clamped]

theorem dhcpConnectionPaths_shownAgain :
    dhcpConnectionPaths (shownAgain env disk snap) = dhcpConnectionPaths snap := by
  obtain ⟨_, _, finished⟩ := finishProjection_eq env.toHashing (normalizeSnapshot (lockOnLoad snap))
    {} (normalizeSnapshot (lockOnLoad snap))
  have settled := congrArg InspectionSnapshot.network (normalizeSnapshot_eq (lockOnLoad snap))
  have clamped : ∀ c : NMConnection, (clampLockedDecision c).method = c.method ∧
      (clampLockedDecision c).path = c.path := by
    intro c
    unfold clampLockedDecision
    split <;> exact ⟨rfl, rfl⟩
  unfold dhcpConnectionPaths
  rw [shownAgain_eq, finished]
  dsimp only
  rw [settled]
  change ((rowsOf (·.connections) (snap.network.map clampNetwork)).filter _).map _ = _
  cases snap.network with
  | none => rfl
  | some n =>
    change ((n.connections.map clampLockedDecision).filter _).map _ =
      (n.connections.filter _).map _
    rw [List.filter_map, List.map_map]
    congr 1
    · funext c
      rw [Function.comp_apply, (clamped c).2]
    · congr 1
      funext c
      rw [Function.comp_apply, (clamped c).1, (clamped c).2]

theorem isWrittenElsewhere_shownAgain :
    isWrittenElsewhere (shownAgain env disk snap) = isWrittenElsewhere snap := by
  have service : serviceOwnedPaths (shownAgain env disk snap) = serviceOwnedPaths snap := by
    have paths := congrArg (List.map trimSlashes) (dropIns_shownAgain env disk snap)
    rw [List.map_map, List.map_map] at paths
    exact congrArg (List.filter _) paths
  have container : containerOwnedPaths (shownAgain env disk snap) = containerOwnedPaths snap := by
    have paths := congrArg (List.map trimSlashes) (quadletUnits_shownAgain env disk snap)
    rw [List.map_map, List.map_map] at paths
    exact congrArg (List.filter _) paths
  funext rel
  unfold isWrittenElsewhere
  rw [service, container, dhcpConnectionPaths_shownAgain]

theorem copies_eq : copies snap = ((configDecisions snap).filter fun d => d.2.isIncluded &&
    (!(trimSlashes d.1.1).isEmpty && !isWrittenElsewhere snap (trimSlashes d.1.1) &&
      isValidPath (trimSlashes d.1.1))).map (·.1) := by
  unfold copies copiedConfig includedConfig configDecisions
  rw [List.filter_filter, List.filter_map, List.map_map]
  congr 1
  refine List.filter_congr fun f _ => ?_
  rw [Function.comp_apply, Bool.and_comm]

theorem copies_shownAgain (defaults : AtDefaults snap) :
    copies (shownAgain env disk snap) = copies snap := by
  rw [copies_eq, copies_eq, (configDecisions_shownAgain env disk snap).mpr defaults.configs,
    isWrittenElsewhere_shownAgain]

end Carried

section Reached

variable {env : Env}

def leafFacts (snap : InspectionSnapshot) : Bool × Option (Option (List String)) :=
  (snap.aggregateMeta.isSome, snap.rpm.map (·.leafPackages))

theorem leavesCleared_congr {a b : InspectionSnapshot} (same : leafFacts a = leafFacts b)
    (cleared : LeavesCleared b) : LeavesCleared a := by
  obtain ⟨tied, leaves⟩ := Prod.mk.inj same
  intro rpm present
  unfold clearLeaves
  split
  · rename_i aggregate
    rw [present, Option.map_some] at leaves
    cases other : b.rpm with
    | none => rw [other] at leaves; cases leaves
    | some rpm' =>
      rw [other] at leaves
      have both : rpm.leafPackages = rpm'.leafPackages := Option.some.inj leaves
      have dropped := congrArg RpmSection.leafPackages (cleared rpm' other)
      unfold clearLeaves at dropped
      rw [if_pos (tied ▸ aggregate)] at dropped
      have none_left : rpm.leafPackages = none := both.trans dropped.symm
      rw [← none_left]
  · rfl

theorem leavesCleared_normalized (snap : InspectionSnapshot) :
    LeavesCleared (normalizeSnapshot snap) := by
  intro rpm present
  have settled := congrArg InspectionSnapshot.rpm (normalizeSnapshot_eq snap)
  rw [settled] at present
  obtain ⟨raw, _, rfl⟩ := Option.map_eq_some_iff.mp present
  exact settleRpm_leaves snap _ _ raw

theorem leafFacts_unstaged (snap : InspectionSnapshot) :
    leafFacts (unstagedSnapshot snap) = leafFacts snap := by
  unfold leafFacts unstagedSnapshot InspectionSnapshot.onRpm
  cases snap.rpm <;> rfl

theorem ReplayFrame.leafFacts {a b : InspectionSnapshot} (frame : ReplayFrame a b) :
    leafFacts b = leafFacts a := by
  unfold Inspectah.leafFacts
  have tied : b.aggregateMeta = a.aggregateMeta := by rw [frame.rest]
  have rpm := frame.rpm
  rw [tied]
  congr 1
  generalize a.rpm = x at rpm ⊢
  generalize b.rpm = y at rpm ⊢
  cases rpm with
  | none => rfl
  | some inner => rw [Option.map_some, Option.map_some, inner.rest]

theorem leafFacts_projected (h : Hashing) (c : SessionCore) :
    leafFacts (c.projected h) = leafFacts c.original := by
  have replayed := (@replay_frame c.original c.repoIndex (timelineOps c.history.active)).leafFacts
  obtain ⟨_, _, finished⟩ := finishProjection_eq h c.original
    (buildVariantState h c.original (timelineOps c.history.active))
    (replay c.original c.repoIndex (timelineOps c.history.active))
  rw [← replayed]
  unfold SessionCore.projected projectSnapshot leafFacts
  dsimp only
  rw [finished]
  dsimp only
  rw [Option.map_map]
  rfl

theorem leavesCleared_visited (disk : Disk) (snap : InspectionSnapshot) (requests : List Served) :
    ∀ s ∈ visited (serve env) (RefineSession.new env disk snap) requests,
      LeavesCleared (s.projected env.toHashing) := by
  intro s mem
  have same : unstagedSnapshot s.original = unstagedSnapshot (normalizeSnapshot snap) :=
    visited_invariant
      (P := fun s => unstagedSnapshot s.original = unstagedSnapshot (normalizeSnapshot snap))
      (fun s served kept => (unstagedSnapshot_serve env served s).trans kept) rfl s mem
  refine leavesCleared_congr (leafFacts_projected _ _) (leavesCleared_congr ?_
    (leavesCleared_normalized snap))
  rw [← leafFacts_unstaged, same, leafFacts_unstaged]

theorem reopened_decisions_iff (disk : Disk) (snap : InspectionSnapshot) (requests : List Served)
    (s : RefineSession) (mem : s ∈ visited (serve env) (RefineSession.new env disk snap) requests)
    (deserialize : String → Except String InspectionSnapshot) (json : String)
    (parsed : deserialize json = .ok (s.projected env.toHashing)) (loaded : InspectionSnapshot)
    (read : loadForRefine deserialize json = .ok loaded) (disk' : Disk) :
    let exported := s.projected env.toHashing
    let again := (RefineSession.new env disk' loaded).projected env.toHashing
    (SameDecisions again exported ↔ AtDefaults exported) ∧
      (AtDefaults exported →
        (∀ original, installs again original = installs exported original) ∧
          copies again = copies exported) := by
  rw [loadForRefine_ok parsed read]
  have cleared := leavesCleared_visited disk snap requests s mem
  refine ⟨sameDecisions_shownAgain env disk' _, fun defaults => ⟨fun original => ?_, ?_⟩⟩
  · exact installs_shownAgain env disk' _ defaults cleared original
  · exact copies_shownAgain env disk' _ defaults

end Reached

def editedHost : InspectionSnapshot :=
  { schemaVersion := SCHEMA_VERSION
    baseline := some { imageDigest := "sha256:base", packages := ∅, extractedAt := "" }
    rpm := some { packagesAdded := [{ name := "htop", arch := "x86_64", sourceRepo := "epel" }] }
    config := some { files := [{ path := "/etc/app.conf", kind := .unowned }] } }

/-- An export nobody edited re-opens to the same files. -/
theorem unedited_export_reopens :
    let exported := (RefineSession.new sampleEnv sampleDisk editedHost).projected sampleEnv.toHashing
    ∃ loaded, loadForRefine (fun _ => .ok exported) "export" = .ok loaded ∧ AtDefaults exported ∧
      copies ((RefineSession.new sampleEnv sampleDisk loaded).projected sampleEnv.toHashing) =
        copies exported := by
  obtain ⟨same, carried⟩ := reopened_decisions_iff sampleDisk editedHost [] _ List.mem_cons_self
    (fun _ => .ok ((RefineSession.new sampleEnv sampleDisk editedHost).projected
      sampleEnv.toHashing)) "export" rfl _ rfl sampleDisk
  have defaults := same.mp ⟨by decide +kernel, by decide +kernel⟩
  exact ⟨_, rfl, defaults, (carried defaults).2⟩

def excludeAppConf : Request := .apply (.setInclude (.config "/etc/app.conf") false)

def editRequests : List Served := [(sampleDisk, excludeHtop), (sampleDisk, excludeAppConf)]

def editedSession : RefineSession :=
  serve sampleEnv (sampleDisk, excludeAppConf)
    (serve sampleEnv (sampleDisk, excludeHtop) (.new sampleEnv sampleDisk editedHost))

/-- Both exclusions are in the export, and the re-opened session has taken both back. -/
theorem reopening_includes_excluded : ∃ loaded,
    loadForRefine (fun _ => .ok (editedSession.projected sampleEnv.toHashing)) "export" = .ok loaded ∧
      editedSession ∈ visited (serve sampleEnv) (.new sampleEnv sampleDisk editedHost) editRequests ∧
      packageDecisions (editedSession.projected sampleEnv.toHashing) =
        [(("htop", "x86_64"), .excluded)] ∧
      configDecisions (editedSession.projected sampleEnv.toHashing) =
        [(("/etc/app.conf", ""), .excluded)] ∧
      packageDecisions ((RefineSession.new sampleEnv sampleDisk loaded).projected
        sampleEnv.toHashing) = [(("htop", "x86_64"), .included)] ∧
      configDecisions ((RefineSession.new sampleEnv sampleDisk loaded).projected
        sampleEnv.toHashing) = [(("/etc/app.conf", ""), .included)] := by
  refine ⟨_, rfl, by simp [visited, editRequests, editedSession], ?_, ?_, ?_, ?_⟩
  all_goals decide +kernel

end Inspectah
