import Inspectah.Refine.SessionLaws

/-!
Opening a session on a snapshot another session has normalized. Only the installer pass reads
what an earlier pass wrote: the rows of shadowed units.
-/
namespace Inspectah

open FirstMatch

section Packages

variable (snap : InspectionSnapshot) (rpm : RpmSection) (ev : InstallerEvidence)

def settlePackage (entry : PackageEntry) : PackageEntry :=
  normalizePackage (leafSet rpm) (anacondaClassification ev (classifyPackageRow snap rpm entry)) entry

def installerVerdict (entry : PackageEntry) : Option (FindingKind × TriageTag) :=
  if entry.sourceRepo = "anaconda" then
    installerTier ev entry.name (classifyPackageRow snap rpm entry).triage.primaryReason
  else none

def settledDisposition (entry : PackageEntry) : FindingKind :=
  if isPreExcluded entry then .excluded
  else ((installerVerdict snap rpm ev entry).map (·.1)).getD
    (bucketDefault (leafSet rpm) (classifyPackageRow snap rpm entry).triage.bucket entry)

def settledLock (entry : PackageEntry) : Bool :=
  entry.locked || ((installerVerdict snap rpm ev entry).isSome && isPlatformPlumbing entry.name)

variable {snap rpm ev}

theorem installerTier_classified {name : String} {reason : TriageReason}
    {tier : FindingKind × TriageTag} (some_tier : installerTier ev name reason = some tier) :
    isAnacondaClassified tier.2.primaryReason = true := by
  unfold installerTier at some_tier
  repeat' split at some_tier
  all_goals cases some_tier
  all_goals rfl

theorem classifyPackageRow_unclassified (entry : PackageEntry) :
    isAnacondaClassified (classifyPackageRow snap rpm entry).triage.primaryReason = false := by
  unfold classifyPackageRow classifyPackage
  repeat' split
  all_goals rfl

theorem classifyPackageRow_entry (entry : PackageEntry) :
    (classifyPackageRow snap rpm entry).entry.locked = entry.locked ∧
      (classifyPackageRow snap rpm entry).entry.sourceRepo = entry.sourceRepo ∧
      (classifyPackageRow snap rpm entry).entry.name = entry.name := by
  unfold classifyPackageRow
  repeat' split
  all_goals exact ⟨rfl, rfl, rfl⟩

theorem anacondaClassification_eq (entry : PackageEntry) :
    anacondaClassification ev (classifyPackageRow snap rpm entry) =
      match installerVerdict snap rpm ev entry with
      | none => classifyPackageRow snap rpm entry
      | some (disposition, tag) =>
        { entry :=
            { (classifyPackageRow snap rpm entry).entry with
              disposition := disposition
              locked := entry.locked || isPlatformPlumbing entry.name }
          triage := tag } := by
  obtain ⟨locked, source, name⟩ := @classifyPackageRow_entry snap rpm entry
  unfold anacondaClassification installerVerdict
  rw [source, name, locked]
  by_cases installed : entry.sourceRepo = "anaconda"
  · simp only [installed, if_true]
    all_goals rfl
  · rw [if_pos installed, if_neg installed]

theorem settlePackage_eq (entry : PackageEntry) : settlePackage snap rpm ev entry =
    { entry with
      disposition := settledDisposition snap rpm ev entry
      locked := settledLock snap rpm ev entry } := by
  unfold settlePackage normalizePackage settledDisposition settledLock
  rw [anacondaClassification_eq]
  cases verdict : installerVerdict snap rpm ev entry with
  | none =>
    dsimp only
    rw [classifyPackageRow_unclassified, if_neg Bool.false_ne_true]
    cases isPreExcluded entry <;> simp
  | some tier =>
    have classified : isAnacondaClassified tier.2.primaryReason = true := by
      unfold installerVerdict at verdict
      split at verdict
      · exact installerTier_classified verdict
      · cases verdict
    dsimp only
    rw [classified, if_pos rfl]
    cases isPreExcluded entry <;> simp

end Packages

/-- Two snapshots give the classifier of one package the same answers. -/
structure SameReadings (snap : InspectionSnapshot) (rpm : RpmSection) (snap' : InspectionSnapshot)
    (rpm' : RpmSection) : Prop where
  baseline : snap'.baseline = snap.baseline
  paths : (snap'.config.map (·.files.map (·.path))).getD [] =
    (snap.config.map (·.files.map (·.path))).getD []
  suppressed : rpm'.baselineSuppressed = rpm.baselineSuppressed
  versionChanges : rpm'.versionChanges = rpm.versionChanges
  ownership : rpm'.fileOwnership = rpm.fileOwnership

def isInstallerDefault (snap : InspectionSnapshot) (rpm : RpmSection) (entry : PackageEntry) : Bool :=
  !isPreExcluded entry && (installerVerdict snap rpm (installerEvidence snap) entry).any
    fun tier => tier.2.primaryReason == .packageInstallerDefault

def InstallerEvidence.degradedIf (ev : InstallerEvidence) (more : Bool) : InstallerEvidence :=
  { ev with degraded := ev.degraded || more }

section Twice

variable {snap snap' : InspectionSnapshot} {rpm rpm' : RpmSection} {ev : InstallerEvidence}

theorem classifyPackageRow_triage (entry : PackageEntry) :
    (classifyPackageRow snap rpm entry).triage =
      if (rpm.baselineSuppressed.getD []).contains (canonicalPackageId entry.name entry.arch) then
        tagged .baseline .packageBaselineMatch
      else
        { (if isConfigCaptured snap rpm entry then tagged .site .packageConfigCaptured
            else classifyPackage entry (baselineKeys snap) rpm.versionChanges) with
          annotations := if isSensitivePath entry.name then [.sensitivePath] else [] } := by
  unfold classifyPackageRow
  split
  · rfl
  · cases isConfigCaptured snap rpm entry <;> rfl

theorem classifyPackageRow_again (same : SameReadings snap rpm snap' rpm') (entry : PackageEntry)
    (d : FindingKind) (locked : Bool) :
    (classifyPackageRow snap' rpm' { entry with disposition := d, locked := locked }).triage =
      (classifyPackageRow snap rpm entry).triage := by
  have captured : isConfigCaptured snap' rpm' { entry with disposition := d, locked := locked } =
      isConfigCaptured snap rpm entry := by
    simp only [isConfigCaptured, ownedPaths, same.paths, same.ownership]
  have tag : classifyPackage { entry with disposition := d, locked := locked } (baselineKeys snap')
      rpm'.versionChanges = classifyPackage entry (baselineKeys snap) rpm.versionChanges := by
    rw [baselineKeys, same.baseline, same.versionChanges]
    rfl
  rw [classifyPackageRow_triage, classifyPackageRow_triage, captured, tag, same.suppressed]

theorem installerVerdict_again (same : SameReadings snap rpm snap' rpm') (entry : PackageEntry)
    (d : FindingKind) (locked : Bool) :
    installerVerdict snap' rpm' ev { entry with disposition := d, locked := locked } =
      installerVerdict snap rpm ev entry := by
  unfold installerVerdict
  rw [classifyPackageRow_again same]

theorem settledDisposition_again (same : SameReadings snap rpm snap' rpm')
    (leaves : leafSet rpm' = leafSet rpm) (entry : PackageEntry) (d : FindingKind) (locked : Bool) :
    settledDisposition snap' rpm' ev { entry with disposition := d, locked := locked } =
      settledDisposition snap rpm ev entry := by
  unfold settledDisposition
  rw [installerVerdict_again same, classifyPackageRow_again same, leaves]
  rfl

theorem plumbing_verdict (ev : InstallerEvidence) (entry : PackageEntry) :
    ((installerVerdict snap rpm ev entry).isSome && isPlatformPlumbing entry.name) =
      (entry.sourceRepo == "anaconda" && isPlatformPlumbing entry.name) := by
  cases plumbing : isPlatformPlumbing entry.name with
  | false => simp
  | true =>
    unfold installerVerdict
    by_cases installed : entry.sourceRepo = "anaconda"
    · simp [installed, installerTier, plumbing]
    · simp [installed]

theorem installerTier_degraded (name : String) (reason : TriageReason) :
    (installerTier (ev.degradedIf true) name reason).map (·.1) =
      if (installerTier ev name reason).any fun t => t.2.primaryReason == .packageInstallerDefault
      then some .included else (installerTier ev name reason).map (·.1) := by
  unfold installerTier InstallerEvidence.degradedIf
  by_cases plumbing : isPlatformPlumbing name = true
  · simp [plumbing, tagged]
  by_cases judged : (!(reason == .packageUserAdded || reason == .packageProvenanceUnavailable)) = true
  · simp only [plumbing, judged]
    rfl
  by_cases known : (!ev.hasServices || !ev.hasConfig) = true
  · simp only [plumbing, judged, known]
    rfl
  by_cases service : (ev.userEnabledServicePackages.contains name &&
      ev.modifiedConfigPackages.contains name) = true
  · simp only [plumbing, judged, known, service]
    rfl
  by_cases config : (isConfigOnlyPromotable name && ev.modifiedConfigPackages.contains name) = true
  · simp only [plumbing, judged, known, service, config]
    rfl
  simp only [plumbing, judged, known, service, config]
  cases isInstallerNoise name <;> cases ev.degraded <;> rfl

theorem installerTier_excluded {name : String} {reason : TriageReason}
    (default : ((installerTier ev name reason).any fun t =>
      t.2.primaryReason == .packageInstallerDefault) = true) :
    (installerTier ev name reason).map (·.1) = some .excluded := by
  obtain ⟨t, tier, default⟩ := (Option.any_eq_true _ _).mp default
  rw [tier, Option.map_some]
  unfold installerTier at tier
  repeat' split at tier
  all_goals cases tier
  all_goals first | rfl | cases default

theorem settledDisposition_degraded (more : Bool) (entry : PackageEntry)
    (evidence : ev = installerEvidence snap) :
    settledDisposition snap rpm (ev.degradedIf more) entry = settledDisposition snap rpm ev entry ↔
      ¬ (more = true ∧ isInstallerDefault snap rpm entry = true) := by
  subst evidence
  cases more with
  | false => simp [InstallerEvidence.degradedIf]
  | true =>
    unfold settledDisposition isInstallerDefault installerVerdict
    cases isPreExcluded entry with
    | true => simp
    | false =>
      by_cases installed : entry.sourceRepo = "anaconda"
      · simp only [installed, if_true, Bool.not_false, Bool.true_and, true_and, Bool.false_eq_true,
          if_false]
        rw [installerTier_degraded]
        split
        · rename_i default
          rw [installerTier_excluded default]
          simp [default, FindingKind.included, FindingKind.excluded]
        · rename_i kept
          simp [kept]
      · simp [installed]

theorem settlePackage_again (same : SameReadings snap rpm snap' rpm')
    (leaves : leafSet rpm' = leafSet rpm) (more : Bool) (evidence : ev = installerEvidence snap) (entry : PackageEntry) :
    settlePackage snap' rpm' (ev.degradedIf more) (settlePackage snap rpm ev entry) =
      settlePackage snap rpm ev entry ↔ ¬ (more = true ∧ isInstallerDefault snap rpm entry = true) := by
  have lock : settledLock snap' rpm' (ev.degradedIf more)
      { entry with
        disposition := settledDisposition snap rpm ev entry
        locked := settledLock snap rpm ev entry } = settledLock snap rpm ev entry := by
    rw [settledLock, plumbing_verdict, settledLock, plumbing_verdict, Bool.or_assoc, Bool.or_self]
  rw [settlePackage_eq, settlePackage_eq, lock, settledDisposition_again same leaves,
    ← settledDisposition_degraded more entry evidence]
  constructor
  · exact fun agree => congrArg PackageEntry.disposition agree
  · intro agree
    rw [agree]

end Twice

theorem normalizeConfig_again (refined refined' : Refined ConfigFileEntry)
    (same : refined'.triage = refined.triage) (entry : ConfigFileEntry) :
    normalizeConfig refined' (normalizeConfig refined entry) = normalizeConfig refined entry := by
  have decided : ∀ bucket kind, (configDefault bucket kind).isActionable = true := by
    intro bucket kind
    cases bucket <;> rfl
  unfold normalizeConfig
  rw [same]
  by_cases own : isInspectahRepoFile entry.path = true
  · simp [own]
  · by_cases fixed : (!entry.disposition.isActionable) = true
    · simp [own, fixed]
    · by_cases narrow : isPartial entry.aggregate = true
      · simp [own, fixed, narrow]
      · simp [own, fixed, narrow, decided]

theorem normalizeConfig_path (refined : Refined ConfigFileEntry) (entry : ConfigFileEntry) :
    (normalizeConfig refined entry).path = entry.path ∧
      (normalizeConfig refined entry).kind = entry.kind := by
  unfold normalizeConfig
  repeat' split
  all_goals exact ⟨rfl, rfl⟩

/-- What each file's triage rests on besides its path and kind. -/
def configReports (hints : List RedactionHint) (files : List ConfigFileEntry) :
    List (Refined ConfigFileEntry) :=
  hints.foldl applyHint (files.map classifyConfigRow)

theorem configReports_same (hints : List RedactionHint) {files files' : List ConfigFileEntry}
    (rows : List.Forall₂ (fun a b => b.path = a.path ∧ b.kind = a.kind) files files') :
    List.Forall₂ (fun a b => b.triage = a.triage) (configReports hints files)
      (configReports hints files') := by
  have start : List.Forall₂ (fun a b : Refined ConfigFileEntry =>
      b.triage = a.triage ∧ b.entry.path = a.entry.path)
      (files.map classifyConfigRow) (files'.map classifyConfigRow) := by
    rw [List.forall₂_map_left_iff, List.forall₂_map_right_iff]
    refine rows.imp fun a b ab => ?_
    simp [classifyConfigRow, ab.1, ab.2]
  have run : ∀ as bs, List.Forall₂ (fun a b : Refined ConfigFileEntry =>
      b.triage = a.triage ∧ b.entry.path = a.entry.path) as bs →
      List.Forall₂ (fun a b : Refined ConfigFileEntry =>
        b.triage = a.triage ∧ b.entry.path = a.entry.path)
        (hints.foldl applyHint as) (hints.foldl applyHint bs) := by
    induction hints with
    | nil => exact fun as bs rel => rel
    | cons hint rest ih =>
      intro as bs rel
      exact ih _ _ (forall_updateFirst_both _ _ _ _ _ (fun a b ab => by rw [ab.2])
        (fun a b ab => ⟨by rw [ab.1], ab.2⟩) rel)
  exact (run _ _ start).imp fun a b ab => ab.1

/-- The service rows normalization would add. -/
def orphanShadows (services : ServiceSection) : List ServiceStateChange :=
  services.dropIns.filterMap (orphanShadow services)

theorem orphanShadow_unowned {services : ServiceSection} {d : SystemdDropIn}
    {row : ServiceStateChange} (made : orphanShadow services d = some row) :
    row.owningPackage = none ∧ row.unit = d.unit := by
  unfold orphanShadow at made
  split at made
  · obtain ⟨state, _, rfl⟩ := Option.map_eq_some_iff.mp made
    exact ⟨rfl, rfl⟩
  · cases made

theorem mem_orphanShadows {services : ServiceSection} {row : ServiceStateChange}
    (mem : row ∈ orphanShadows services) : row.owningPackage = none := by
  obtain ⟨d, _, made⟩ := List.mem_filterMap.mp mem
  exact (orphanShadow_unowned made).1

/-- Every unit that could get a row has one after the first pass. -/
theorem orphanShadows_again (services : ServiceSection) :
    orphanShadows (synthesizeOrphanShadows services) = [] := by
  rw [orphanShadows, List.filterMap_eq_nil_iff]
  intro d mem
  change d ∈ services.dropIns at mem
  cases first : orphanShadow services d with
  | some row =>
    have present : row ∈ (synthesizeOrphanShadows services).stateChanges :=
      List.mem_append.mpr (.inr (List.mem_filterMap.mpr ⟨d, mem, first⟩))
    have has : ((synthesizeOrphanShadows services).stateChanges.any fun s => s.unit == d.unit) =
        true := List.any_eq_true.mpr ⟨row, present, by simp [(orphanShadow_unowned first).2]⟩
    simp [orphanShadow, has]
  | none =>
    unfold orphanShadow at first ⊢
    split
    · rename_i shadow
      have before : (services.stateChanges.any fun s => s.unit == d.unit) = false := by
        have none_after := shadow.2
        simp only [synthesizeOrphanShadows, List.any_append, Bool.not_or, Bool.and_eq_true,
          Bool.not_eq_true'] at none_after
        exact none_after.1
      rw [if_pos ⟨shadow.1, by simp [before]⟩, Option.map_eq_none_iff] at first
      rw [Option.map_eq_none_iff]
      exact first
    · rfl

theorem synthesizeOrphanShadows_again (services : ServiceSection) :
    synthesizeOrphanShadows (synthesizeOrphanShadows services) = synthesizeOrphanShadows services := by
  have none_left := orphanShadows_again services
  unfold orphanShadows at none_left
  rw [synthesizeOrphanShadows, none_left, List.append_nil]

def addsShadowRow (snap : InspectionSnapshot) : Bool :=
  ((snap.services.map orphanShadows).getD []).any fun _ => true

def clearLeaves (snap : InspectionSnapshot) (rpm : RpmSection) : RpmSection :=
  if snap.aggregateMeta.isSome then { rpm with leafPackages := none } else rpm

def excludeOwnRepo (f : RepoFile) : RepoFile :=
  if isInspectahRepoFile f.path then { f with disposition := .excluded } else f

def settleRpm (snap : InspectionSnapshot) (ev : InstallerEvidence) (rpm : RpmSection) : RpmSection :=
  { rpm with
    packagesAdded := rpm.packagesAdded.map (settlePackage snap rpm ev)
    repoFiles := rpm.repoFiles.map excludeOwnRepo }

def settleConfig (hints : List RedactionHint) (c : ConfigSection) : ConfigSection :=
  { c with files := overlay normalizeConfig (configReports hints c.files) c.files }

theorem clearAggregateLeaves_eq (snap : InspectionSnapshot) :
    clearAggregateLeaves snap = snap.onRpm (clearLeaves snap) := by
  unfold clearAggregateLeaves clearLeaves
  split
  · rfl
  · simp [InspectionSnapshot.onRpm]

theorem normalizePackageDefaults_eq (snap : InspectionSnapshot) :
    normalizePackageDefaults (classifyPackages snap) snap = snap.onRpm fun rpm =>
      { rpm with
        packagesAdded := rpm.packagesAdded.map (settlePackage snap rpm (installerEvidence snap)) } := by
  unfold normalizePackageDefaults classifyPackages InspectionSnapshot.onRpm
  cases snap.rpm with
  | none => rfl
  | some rpm =>
    simp only [Option.map_some, overlay_map]
    rfl

theorem normalizeConfigDefaults_eq (snap base : InspectionSnapshot) (same : base.config = snap.config) :
    normalizeConfigDefaults (classifyConfigs base) snap =
      snap.onConfig (settleConfig (unresolvedHints base)) := by
  unfold normalizeConfigDefaults classifyConfigs InspectionSnapshot.onConfig
  rw [same]
  cases snap.config with
  | none => rfl
  | some c => rfl

theorem normalizeSnapshot_eq (snap : InspectionSnapshot) : normalizeSnapshot snap =
    { snap with
      rpm := snap.rpm.map fun rpm =>
        settleRpm (clearAggregateLeaves snap) (installerEvidence (clearAggregateLeaves snap))
          (clearLeaves snap rpm)
      config := snap.config.map (settleConfig (unresolvedHints snap))
      nonRpmSoftware := snap.nonRpmSoftware.map fun n =>
        { n with items := n.items.map normalizeLanguageEnv }
      services := snap.services.map synthesizeOrphanShadows } := by
  have hints : unresolvedHints (clearAggregateLeaves snap) = unresolvedHints snap := by
    rw [clearAggregateLeaves_eq]
    rfl
  unfold normalizeSnapshot
  dsimp only
  rw [normalizePackageDefaults_eq, normalizeConfigDefaults_eq _ (clearAggregateLeaves snap) (by rfl), hints]
  simp only [clearAggregateLeaves_eq, InspectionSnapshot.onRpm, InspectionSnapshot.onConfig,
    normalizeInspectahRepoFiles, normalizeLanguageEnvDefaults, InspectionSnapshot.onNonRpm,
    InspectionSnapshot.onServices, Option.map_map]
  rfl

section Again

variable (snap : InspectionSnapshot)

theorem settleRpm_leaves (base : InspectionSnapshot) (ev : InstallerEvidence) (rpm : RpmSection) :
    clearLeaves (normalizeSnapshot snap) (settleRpm base ev (clearLeaves snap rpm)) =
      settleRpm base ev (clearLeaves snap rpm) := by
  have tied : (normalizeSnapshot snap).aggregateMeta = snap.aggregateMeta := by
    rw [normalizeSnapshot_eq]
  unfold clearLeaves
  rw [tied]
  cases snap.aggregateMeta.isSome <;> rfl

theorem clearAggregateLeaves_normalized :
    clearAggregateLeaves (normalizeSnapshot snap) = normalizeSnapshot snap := by
  have rpm_eq : (normalizeSnapshot snap).rpm.map (clearLeaves (normalizeSnapshot snap)) =
      (normalizeSnapshot snap).rpm := by
    rw [show (normalizeSnapshot snap).rpm = _ from
      congrArg InspectionSnapshot.rpm (normalizeSnapshot_eq snap)]
    cases snap.rpm with
    | none => rfl
    | some rpm => simp only [Option.map_some, settleRpm_leaves]
  rw [clearAggregateLeaves_eq, InspectionSnapshot.onRpm, rpm_eq]

end Again

/-- The same files, as far as the installer's evidence reads them. -/
def SameConfigFacts (c d : ConfigSection) : Prop :=
  List.Forall₂ (fun a b : ConfigFileEntry => b.path = a.path ∧ b.kind = a.kind) c.files d.files

theorem SameConfigFacts.refl (c : ConfigSection) : SameConfigFacts c c :=
  List.forall₂_same.mpr fun _ _ => ⟨rfl, rfl⟩

theorem any_modified_congr {c d : ConfigSection} (same : SameConfigFacts c d) (p : String → Bool) :
    (d.files.any fun f => isModifiedConfig f && p f.path) =
      c.files.any fun f => isModifiedConfig f && p f.path :=
  (any_related _ _ _ (fun a b ab => by rw [isModifiedConfig, isModifiedConfig, ab.1, ab.2])
    same).symm

section Evidence

variable {a b : InspectionSnapshot}

theorem buildModifiedConfigSet_congr
    (ownership : b.rpm.map (·.fileOwnership) = a.rpm.map (·.fileOwnership))
    (config : Option.Rel SameConfigFacts a.config b.config) :
    buildModifiedConfigSet b = buildModifiedConfigSet a := by
  unfold buildModifiedConfigSet
  generalize a.config = x at config ⊢
  generalize b.config = y at config ⊢
  generalize a.rpm = u at ownership ⊢
  generalize b.rpm = v at ownership ⊢
  cases config with
  | none => rfl
  | some same =>
    cases u with
    | none =>
      cases v with
      | none => rfl
      | some rpm' => cases ownership
    | some rpm =>
      cases v with
      | none => cases ownership
      | some rpm' =>
        have owner : rpm'.fileOwnership = rpm.fileOwnership := Option.some.inj ownership
        simp only [owner, any_modified_congr same]

theorem hasOrphanedModifiedConfigs_congr
    (ownership : b.rpm.map (·.fileOwnership) = a.rpm.map (·.fileOwnership))
    (config : Option.Rel SameConfigFacts a.config b.config) :
    hasOrphanedModifiedConfigs b = hasOrphanedModifiedConfigs a := by
  unfold hasOrphanedModifiedConfigs
  rw [ownership]
  generalize a.config = x at config ⊢
  generalize b.config = y at config ⊢
  cases config with
  | none => rfl
  | some same =>
    exact any_modified_congr same fun path =>
      !(((a.rpm.map (·.fileOwnership)).getD []).flatMap (·.paths)).contains path

theorem hasConfig_congr
    (ownership : b.rpm.map (·.fileOwnership) = a.rpm.map (·.fileOwnership))
    (config : Option.Rel SameConfigFacts a.config b.config) :
    (b.config.isSome && b.rpm.any fun r => !r.fileOwnership.isEmpty) =
      (a.config.isSome && a.rpm.any fun r => !r.fileOwnership.isEmpty) := by
  have owned : ∀ x : Option RpmSection, (x.any fun r => !r.fileOwnership.isEmpty) =
      (x.map (·.fileOwnership)).any fun o => !o.isEmpty := fun x => by cases x <;> rfl
  rw [owned, owned, ownership]
  congr 1
  generalize a.config = x at config ⊢
  generalize b.config = y at config ⊢
  cases config <;> rfl

theorem installerEvidence_congr
    (ownership : b.rpm.map (·.fileOwnership) = a.rpm.map (·.fileOwnership))
    (config : Option.Rel SameConfigFacts a.config b.config)
    (services : b.services.isSome = a.services.isSome) (extra : List ServiceStateChange)
    (rows : b.stateChanges = a.stateChanges ++ extra)
    (unowned : ∀ row ∈ extra, row.owningPackage = none) :
    installerEvidence b = (installerEvidence a).degradedIf (!extra.isEmpty) := by
  have user : buildUserEnabledServiceSet b = buildUserEnabledServiceSet a := by
    change b.stateChanges.filterMap _ = a.stateChanges.filterMap _
    rw [rows, List.filterMap_append]
    have none_extra : extra.filterMap (fun svc =>
        if svc.currentState = .enabled ∧ svc.defaultState ≠ some .enable then svc.owningPackage
        else none) = [] := by
      rw [List.filterMap_eq_nil_iff]
      intro row mem
      rw [unowned row mem, ite_self]
    rw [none_extra, List.append_nil]
  have unattributed : hasUnattributedServices b =
      (hasUnattributedServices a || !extra.isEmpty) := by
    change b.stateChanges.any _ = (a.stateChanges.any _ || _)
    rw [rows, List.any_append]
    congr 1
    cases extra with
    | nil => rfl
    | cons row rest => simp [unowned row List.mem_cons_self]
  unfold installerEvidence InstallerEvidence.degradedIf
  dsimp only
  rw [user, buildModifiedConfigSet_congr ownership config, services,
    hasConfig_congr ownership config, hasOrphanedModifiedConfigs_congr ownership config, unattributed,
    Bool.or_right_comm]

end Evidence

section Reopened

variable (snap : InspectionSnapshot)

theorem config_normalized :
    Option.Rel SameConfigFacts snap.config (normalizeSnapshot snap).config := by
  rw [normalizeSnapshot_eq]
  cases snap.config with
  | none => exact .none
  | some c =>
    exact .some (forall_overlay _ (fun _ => ⟨rfl, rfl⟩) _
      (fun refined e => normalizeConfig_path refined e) _ _)

theorem ownership_cleared : (clearAggregateLeaves snap).rpm.map (·.fileOwnership) =
    snap.rpm.map (·.fileOwnership) := by
  rw [clearAggregateLeaves_eq, InspectionSnapshot.onRpm, Option.map_map]
  congr 1
  funext rpm
  unfold clearLeaves
  rw [Function.comp_apply]
  split <;> rfl

theorem installerEvidence_cleared :
    installerEvidence (clearAggregateLeaves snap) = installerEvidence snap := by
  have config : Option.Rel SameConfigFacts snap.config (clearAggregateLeaves snap).config := by
    rw [clearAggregateLeaves_eq]
    exact rel_refl SameConfigFacts.refl _
  have services : (clearAggregateLeaves snap).services = snap.services := by
    rw [clearAggregateLeaves_eq]
    rfl
  have rows : (clearAggregateLeaves snap).stateChanges = snap.stateChanges ++ [] := by
    rw [List.append_nil, InspectionSnapshot.stateChanges, services]
    rfl
  rw [installerEvidence_congr (ownership_cleared snap) config (by rw [services]) [] rows (by simp)]
  simp [InstallerEvidence.degradedIf]

theorem ownership_normalized : (normalizeSnapshot snap).rpm.map (·.fileOwnership) =
    snap.rpm.map (·.fileOwnership) := by
  rw [normalizeSnapshot_eq, Option.map_map]
  congr 1
  funext rpm
  unfold clearLeaves settleRpm
  rw [Function.comp_apply]
  split <;> rfl

theorem installerEvidence_normalized : installerEvidence (normalizeSnapshot snap) =
    (installerEvidence snap).degradedIf (addsShadowRow snap) := by
  have rows : (normalizeSnapshot snap).stateChanges =
      snap.stateChanges ++ (snap.services.map orphanShadows).getD [] := by
    rw [normalizeSnapshot_eq]
    unfold InspectionSnapshot.stateChanges
    cases snap.services <;> rfl
  have unowned : ∀ row ∈ (snap.services.map orphanShadows).getD [], row.owningPackage = none := by
    intro row mem
    cases sec : snap.services with
    | none => rw [sec] at mem; cases mem
    | some services => rw [sec] at mem; exact mem_orphanShadows mem
  have adds : addsShadowRow snap = !((snap.services.map orphanShadows).getD []).isEmpty := by
    unfold addsShadowRow
    cases (snap.services.map orphanShadows).getD [] <;> simp
  rw [adds]
  refine installerEvidence_congr (ownership_normalized snap) (config_normalized snap) ?_ _ rows unowned
  rw [normalizeSnapshot_eq]
  cases snap.services <;> rfl

theorem readings_cleared (rpm : RpmSection) :
    SameReadings snap rpm (clearAggregateLeaves snap) (clearLeaves snap rpm) := by
  rw [clearAggregateLeaves_eq]
  unfold clearLeaves
  split <;> exact ⟨rfl, rfl, rfl, rfl, rfl⟩

theorem readings_settled (ev : InstallerEvidence) (rpm : RpmSection) :
    SameReadings (clearAggregateLeaves snap) rpm (normalizeSnapshot snap)
      (settleRpm (clearAggregateLeaves snap) ev rpm) where
  baseline := by
    rw [normalizeSnapshot_eq, clearAggregateLeaves_eq]
    rfl
  paths := by
    have files := config_normalized snap
    rw [clearAggregateLeaves_eq]
    change _ = (snap.config.map (·.files.map (·.path))).getD []
    generalize snap.config = x at files ⊢
    generalize (normalizeSnapshot snap).config = y at files ⊢
    cases files with
    | none => rfl
    | some same =>
      exact map_related (same.imp fun a b ab => ab.1)
  suppressed := rfl
  versionChanges := rfl
  ownership := rfl

theorem isInstallerDefault_cleared (rpm : RpmSection) (entry : PackageEntry) :
    isInstallerDefault (clearAggregateLeaves snap) (clearLeaves snap rpm) entry =
      isInstallerDefault snap rpm entry := by
  unfold isInstallerDefault
  rw [installerEvidence_cleared]
  exact congrArg (fun v => !isPreExcluded entry && Option.any _ v)
    (installerVerdict_again (readings_cleared snap rpm) entry entry.disposition entry.locked)

theorem excludeOwnRepo_again (f : RepoFile) : excludeOwnRepo (excludeOwnRepo f) = excludeOwnRepo f := by
  unfold excludeOwnRepo
  by_cases own : isInspectahRepoFile f.path = true <;> simp [own]

theorem settleRpm_again_iff (rpm : RpmSection) :
    settleRpm (normalizeSnapshot snap) (installerEvidence (normalizeSnapshot snap))
        (settleRpm (clearAggregateLeaves snap) (installerEvidence (clearAggregateLeaves snap))
          (clearLeaves snap rpm)) =
      settleRpm (clearAggregateLeaves snap) (installerEvidence (clearAggregateLeaves snap))
        (clearLeaves snap rpm) ↔
      ∀ e ∈ rpm.packagesAdded, ¬ (addsShadowRow snap = true ∧ isInstallerDefault snap rpm e = true) := by
  let base := clearAggregateLeaves snap
  let ev := installerEvidence base
  let cleared := clearLeaves snap rpm
  let settled := settleRpm base ev cleared
  have packages : cleared.packagesAdded = rpm.packagesAdded := by
    simp only [cleared, clearLeaves]
    split <;> rfl
  have evidence : installerEvidence (normalizeSnapshot snap) = ev.degradedIf (addsShadowRow snap) := by
    rw [installerEvidence_normalized, ← installerEvidence_cleared]
  have row (e : PackageEntry) : settlePackage (normalizeSnapshot snap) settled
      (ev.degradedIf (addsShadowRow snap)) (settlePackage base cleared ev e) =
        settlePackage base cleared ev e ↔
      ¬ (addsShadowRow snap = true ∧ isInstallerDefault snap rpm e = true) := by
    rw [← isInstallerDefault_cleared]
    exact settlePackage_again (readings_settled snap ev cleared) rfl (addsShadowRow snap) rfl e
  have files : settled.repoFiles.map excludeOwnRepo = settled.repoFiles := by
    change (cleared.repoFiles.map excludeOwnRepo).map excludeOwnRepo = cleared.repoFiles.map excludeOwnRepo
    rw [List.map_map]
    exact List.map_congr_left fun f _ => excludeOwnRepo_again f
  have split : settleRpm (normalizeSnapshot snap) (installerEvidence (normalizeSnapshot snap)) settled =
      settled ↔ settled.packagesAdded.map (settlePackage (normalizeSnapshot snap) settled
        (ev.degradedIf (addsShadowRow snap))) = settled.packagesAdded := by
    rw [evidence]
    constructor
    · exact fun same => congrArg RpmSection.packagesAdded same
    · intro same
      rw [settleRpm, same, files]
  change settleRpm (normalizeSnapshot snap) (installerEvidence (normalizeSnapshot snap)) settled =
    settled ↔ _
  rw [split]
  change (cleared.packagesAdded.map _).map _ = cleared.packagesAdded.map _ ↔ _
  rw [List.map_map, packages, List.map_inj_left]
  exact forall₂_congr fun e _ => row e

theorem settleConfig_again (hints : List RedactionHint) (c : ConfigSection) :
    settleConfig hints (settleConfig hints c) = settleConfig hints c := by
  have rows := forall_overlay (fun a b : ConfigFileEntry => b.path = a.path ∧ b.kind = a.kind)
    (fun _ => ⟨rfl, rfl⟩) normalizeConfig normalizeConfig_path (configReports hints c.files) c.files
  have files := overlay_again normalizeConfig ((configReports_same hints rows).imp
    fun a b same => normalizeConfig_again a b same) c.files
  exact congrArg ConfigSection.mk files

theorem normalizeLanguageEnv_again (item : NonRpmItem) :
    normalizeLanguageEnv (normalizeLanguageEnv item) = normalizeLanguageEnv item := by
  unfold normalizeLanguageEnv isLanguageEnv
  by_cases low : ([METHOD_PYTHON_VENV, METHOD_PIP_DIST_INFO, METHOD_NPM_LOCKFILE,
    METHOD_NPM_MANIFEST, METHOD_NPM_GLOBAL, METHOD_GEM_LOCKFILE, METHOD_GEM_SYSTEM].contains
      item.method && item.confidence != "high") = true
  · simp only [low, if_true]
  · simp only [low, if_false, Bool.false_eq_true]

/-- Opening adds a service row and leaves out an installer default, which the second opening
    undoes. -/
def ShiftsOnReopening : Prop :=
  addsShadowRow snap = true ∧
    ∃ rpm, snap.rpm = some rpm ∧ ∃ e ∈ rpm.packagesAdded, isInstallerDefault snap rpm e = true

/-- Opening settles everything but those packages. -/
theorem normalizeSnapshot_again_iff :
    normalizeSnapshot (normalizeSnapshot snap) = normalizeSnapshot snap ↔
      ¬ ShiftsOnReopening snap := by
  have sections := normalizeSnapshot_eq snap
  have config : (normalizeSnapshot snap).config.map
      (settleConfig (unresolvedHints (normalizeSnapshot snap))) = (normalizeSnapshot snap).config := by
    rw [sections, Option.map_map]
    cases snap.config with
    | none => rfl
    | some c => exact congrArg some (settleConfig_again _ c)
  have software : (normalizeSnapshot snap).nonRpmSoftware.map (fun n =>
      { n with items := n.items.map normalizeLanguageEnv }) =
        (normalizeSnapshot snap).nonRpmSoftware := by
    rw [sections, Option.map_map]
    congr 1
    funext n
    simp [normalizeLanguageEnv_again]
  have services : (normalizeSnapshot snap).services.map synthesizeOrphanShadows =
      (normalizeSnapshot snap).services := by
    rw [sections, Option.map_map]
    congr 1
    funext s
    exact synthesizeOrphanShadows_again s
  have again : normalizeSnapshot (normalizeSnapshot snap) =
      { normalizeSnapshot snap with
        rpm := (normalizeSnapshot snap).rpm.map fun rpm =>
          settleRpm (normalizeSnapshot snap) (installerEvidence (normalizeSnapshot snap))
            (clearLeaves (normalizeSnapshot snap) rpm) } := by
    rw [normalizeSnapshot_eq (normalizeSnapshot snap), config, software, services,
      clearAggregateLeaves_normalized]
  have rpm_eq : (normalizeSnapshot snap).rpm = snap.rpm.map fun rpm =>
      settleRpm (clearAggregateLeaves snap) (installerEvidence (clearAggregateLeaves snap))
        (clearLeaves snap rpm) := congrArg InspectionSnapshot.rpm sections
  have only_rpm : normalizeSnapshot (normalizeSnapshot snap) = normalizeSnapshot snap ↔
      (normalizeSnapshot snap).rpm.map (fun rpm =>
        settleRpm (normalizeSnapshot snap) (installerEvidence (normalizeSnapshot snap))
          (clearLeaves (normalizeSnapshot snap) rpm)) = (normalizeSnapshot snap).rpm := by
    rw [again]
    constructor
    · exact fun same => congrArg InspectionSnapshot.rpm same
    · intro same
      rw [same]
  rw [only_rpm, rpm_eq, Option.map_map, ShiftsOnReopening]
  cases snap.rpm with
  | none => simp
  | some rpm =>
    rw [Option.map_some, Option.map_some, Function.comp_apply, settleRpm_leaves, Option.some_inj,
      settleRpm_again_iff]
    simp only [not_and, Bool.not_eq_true, Option.some.injEq, exists_eq_left', not_exists]
    exact ⟨fun all added e mem => all e mem added, fun all e mem added => all added e mem⟩

theorem readSections_excludeOwnRepo (files : List RepoFile) :
    RepoIndex.readSections (files.map excludeOwnRepo) = RepoIndex.readSections files := by
  have path : ∀ f, (excludeOwnRepo f).path = f.path := fun f => by
    unfold excludeOwnRepo
    split <;> exact rfl
  have content : ∀ f, (excludeOwnRepo f).content = f.content := fun f => by
    unfold excludeOwnRepo
    split <;> exact rfl
  unfold RepoIndex.readSections
  rw [List.foldl_map]
  simp only [path, content]

theorem packagesBySource_settled (base : InspectionSnapshot) (rpm : RpmSection)
    (ev : InstallerEvidence) (packages : List PackageEntry) :
    RepoIndex.packagesBySource (packages.map (settlePackage base rpm ev)) =
      RepoIndex.packagesBySource packages := by
  unfold RepoIndex.packagesBySource
  rw [List.foldl_map]
  congr 1
  funext m p
  rw [settlePackage_eq]
  rfl

theorem build_normalized : RepoIndex.build (normalizeSnapshot snap) = RepoIndex.build snap := by
  have rpm_eq : (normalizeSnapshot snap).rpm = snap.rpm.map fun rpm =>
      settleRpm (clearAggregateLeaves snap) (installerEvidence (clearAggregateLeaves snap))
        (clearLeaves snap rpm) := congrArg InspectionSnapshot.rpm (normalizeSnapshot_eq snap)
  unfold RepoIndex.build
  rw [rpm_eq]
  cases snap.rpm with
  | none => rfl
  | some rpm =>
    have cleared : (clearLeaves snap rpm).repoFiles = rpm.repoFiles ∧
        (clearLeaves snap rpm).packagesAdded = rpm.packagesAdded ∧
        (clearLeaves snap rpm).gpgKeys = rpm.gpgKeys := by
      unfold clearLeaves
      split <;> exact ⟨rfl, rfl, rfl⟩
    simp only [Option.map_some, settleRpm, readSections_excludeOwnRepo, packagesBySource_settled,
      cleared.1, cleared.2.1, cleared.2.2]

end Reopened

def SessionCore.withTimeline (c : SessionCore) (timeline : List TimelineEntry) (cursor : Nat) :
    SessionCore :=
  { c with history := restoredHistory timeline cursor }

theorem reopened_session_equal_iff (env : Env) (disk : Disk) (snap : InspectionSnapshot) :
    (∀ timeline cursor,
      let live := (RefineSession.new env disk snap).withTimeline timeline cursor
      let resumed := (RefineSession.new env disk
        (RefineSession.new env disk snap).original).withTimeline timeline cursor
      resumed.original = live.original ∧
        resumed.projected env.toHashing = live.projected env.toHashing) ↔
      ¬ ShiftsOnReopening snap := by
  rw [← normalizeSnapshot_again_iff]
  constructor
  · exact fun all => (all [] 0).1
  · intro settled timeline cursor
    refine ⟨settled, ?_⟩
    change projectSnapshot _ (normalizeSnapshot (normalizeSnapshot snap))
        (RepoIndex.build (normalizeSnapshot snap)) _ =
      projectSnapshot _ (normalizeSnapshot snap) (RepoIndex.build snap) _
    rw [settled, build_normalized]
    rfl

def shadowedUnitHost : InspectionSnapshot :=
  { rpm := some
      { packagesAdded :=
          [{ name := "lshw", arch := "x86_64", sourceRepo := "anaconda" }]
        fileOwnership := [{ packageName := "chrony", paths := ["/etc/chrony.conf"] }] }
    config := some { files := [{ path := "/etc/chrony.conf", kind := .rpmOwnedModified }] }
    services := some
      { enabledUnits := ["web.service"]
        dropIns :=
          [{ unit := "web.service", path := "/etc/systemd/system/web.service"
             shadowType := some .fullShadow }] } }

/-- Resuming turns the installer's default exclusion into an inclusion. -/
theorem resume_includes_installer_default :
    (RefineSession.new sampleEnv sampleDisk
        (RefineSession.new sampleEnv sampleDisk shadowedUnitHost).original).original ≠
      (RefineSession.new sampleEnv sampleDisk shadowedUnitHost).original ∧
    (RefineSession.new sampleEnv sampleDisk
        (RefineSession.new sampleEnv sampleDisk shadowedUnitHost).original).projected
          sampleEnv.toHashing ≠
      (RefineSession.new sampleEnv sampleDisk shadowedUnitHost).projected sampleEnv.toHashing := by
  have live : (rpmPackages (RefineSession.new sampleEnv sampleDisk shadowedUnitHost).original).map
      (·.disposition) = [.excluded] := by decide
  have resumed : (rpmPackages (RefineSession.new sampleEnv sampleDisk
      (RefineSession.new sampleEnv sampleDisk shadowedUnitHost).original).original).map
        (·.disposition) = [.included] := by decide
  constructor
  · intro same
    rw [same, live] at resumed
    cases resumed
  · intro same
    have shown := congrArg (fun snap => (rpmPackages snap).map (·.disposition)) same
    revert shown
    decide

end Inspectah
