import Inspectah.Library.FirstMatch
import Inspectah.Refine.Types

/-!
Triage. Each classifier says, row by row, which bucket an item falls in and why; the installer
pass then revises what came with the installer.
-/
namespace Inspectah

variable (snap : InspectionSnapshot)

def SENSITIVE_PATHS : List String :=
  ["/etc/shadow", "/etc/gshadow", "/etc/ssh/", "/etc/pki/", "/etc/ssl/", "/etc/security/"]

def isSensitivePath (path : String) : Bool := SENSITIVE_PATHS.any (Text.startsWith path)

def OS_DEFAULT_SENSITIVE_PREFIXES : List String :=
  ["/etc/pki/ca-trust/", "/etc/pki/rpm-gpg/", "/etc/pki/fwupd/", "/etc/pki/fwupd-metadata/",
    "/etc/pki/nssdb/", "/etc/ssl/", "/etc/security/", "/etc/ssh/ssh_config.d/",
    "/etc/ssh/sshd_config.d/"]

def OS_DEFAULT_SENSITIVE_EXACT : List String := ["/etc/ssh/moduli", "/etc/ssh/ssh_config"]

def isOsDefaultSensitive (path : String) : Bool :=
  OS_DEFAULT_SENSITIVE_PREFIXES.any (Text.startsWith path) ||
    OS_DEFAULT_SENSITIVE_EXACT.contains path

def PLATFORM_PLUMBING_PREFIXES : List String := ["grub2-", "grubby", "shim-", "efibootmgr"]

def INSTALLER_NOISE_PATTERNS : List String :=
  ["-fonts", "-fonts-common", "fonts-filesystem", "default-fonts-", "lshw", "lsscsi",
    "libsysfs", "initscripts-", "prefixdevname", "rootfiles", "kernel-tools",
    "dracut-config-rescue", "mtools", "biosdevname"]

def CONFIG_ONLY_PROMOTION : List String := ["sudo", "logrotate", "chrony", "sssd", "pam"]

def isPlatformPlumbing (name : String) : Bool :=
  PLATFORM_PLUMBING_PREFIXES.any fun p => Text.startsWith name p || name == p

/-- A leading dash makes a suffix, a trailing one a prefix; any other is a name, or that and a
    dash. -/
def isInstallerNoise (name : String) : Bool :=
  INSTALLER_NOISE_PATTERNS.any fun pattern =>
    if Text.startsWith pattern "-" then Text.endsWith name pattern
    else if Text.endsWith pattern "-" then Text.startsWith name pattern
    else name == pattern || Text.startsWith name (pattern ++ "-")

def isConfigOnlyPromotable (name : String) : Bool := CONFIG_ONLY_PROMOTION.contains name

def tagged (bucket : TriageBucket) (reason : TriageReason) : TriageTag :=
  { triage := .singleHost bucket, primaryReason := reason }

/-- What the installer pass reads outside the package it judges. -/
structure InstallerEvidence where
  userEnabledServicePackages : List String
  modifiedConfigPackages : List String
  hasServices : Bool
  hasConfig : Bool
  degraded : Bool
  deriving DecidableEq

def buildUserEnabledServiceSet : List String :=
  ((snap.services.map (·.stateChanges)).getD []).filterMap fun svc =>
    if svc.currentState = .enabled ∧ svc.defaultState ≠ some .enable then svc.owningPackage
    else none

def isModifiedConfig (f : ConfigFileEntry) : Bool := f.kind == .rpmOwnedModified

def buildModifiedConfigSet : List String :=
  match snap.config, snap.rpm with
  | some config, some rpm =>
    (rpm.fileOwnership.filter fun owner =>
      config.files.any fun f => isModifiedConfig f && owner.paths.contains f.path).map
        (·.packageName)
  | _, _ => []

def hasUnattributedServices : Bool :=
  ((snap.services.map (·.stateChanges)).getD []).any (·.owningPackage.isNone)

def hasOrphanedModifiedConfigs : Bool :=
  let owned := ((snap.rpm.map (·.fileOwnership)).getD []).flatMap (·.paths)
  ((snap.config.map (·.files)).getD []).any fun f =>
    isModifiedConfig f && !owned.contains f.path

def installerEvidence : InstallerEvidence :=
  let hasConfig := snap.config.isSome && (snap.rpm.any fun r => !r.fileOwnership.isEmpty)
  { userEnabledServicePackages := buildUserEnabledServiceSet snap
    modifiedConfigPackages := buildModifiedConfigSet snap
    hasServices := snap.services.isSome
    hasConfig := hasConfig
    degraded := hasUnattributedServices snap || (hasConfig && hasOrphanedModifiedConfigs snap) }

def installerTier (ev : InstallerEvidence) (name : String) (reason : TriageReason) :
    Option (FindingKind × TriageTag) :=
  if isPlatformPlumbing name then
    some (.excluded, tagged .baseline .packagePlatformPlumbing)
  else if !(reason == .packageUserAdded || reason == .packageProvenanceUnavailable) then none
  else if !ev.hasServices || !ev.hasConfig then none
  else if ev.userEnabledServicePackages.contains name && ev.modifiedConfigPackages.contains name then
    some (.included, tagged .site .packageInstallerPromotedService)
  else if isConfigOnlyPromotable name && ev.modifiedConfigPackages.contains name then
    some (.included, tagged .site .packageInstallerPromotedConfig)
  else if isInstallerNoise name && !ev.degraded then
    some (.excluded, tagged .baseline .packageInstallerDefault)
  else
    some (.included, tagged .investigate
      (if ev.degraded && isInstallerNoise name then .packageInstallerEvidenceUnavailable
        else .packageInstallerAmbiguous))

def anacondaClassification (ev : InstallerEvidence) (pkg : Refined PackageEntry) :
    Refined PackageEntry :=
  if pkg.entry.sourceRepo ≠ "anaconda" then pkg
  else
    match installerTier ev pkg.entry.name pkg.triage.primaryReason with
    | none => pkg
    | some (disposition, tag) =>
      { entry :=
          { pkg.entry with
            disposition := disposition
            locked := pkg.entry.locked || isPlatformPlumbing pkg.entry.name }
        triage := tag }

def isDowngrade (changes : List VersionChange) (entry : PackageEntry) : Bool :=
  changes.any fun vc => vc.name == entry.name && vc.arch == entry.arch && vc.direction == .downgrade

/-- `baseline` is the set of `name.arch` keys, or none without baseline data. -/
def classifyPackage (entry : PackageEntry) (baseline : Option (String → Bool))
    (versionChanges : List VersionChange) : TriageTag :=
  if entry.state = .localInstall then tagged .investigate .packageLocalInstall
  else if entry.state = .noRepo then tagged .investigate .packageNoRepoSource
  else if entry.sourceRepo.isEmpty || Text.eqIgnoreAsciiCase entry.sourceRepo "@commandline" then
    tagged .investigate .packageNoRepoSource
  else
    match baseline with
    | none => tagged .investigate .packageProvenanceUnavailable
    | some inBaseline =>
      if entry.state = .modified then
        tagged (if isDowngrade versionChanges entry then .investigate else .site)
          .packageVersionChanged
      else if inBaseline (canonicalPackageId entry.name entry.arch) then
        tagged .baseline .packageBaselineMatch
      else tagged .site .packageUserAdded

def ownedPaths (rpm : RpmSection) (name : String) : Option (List String) :=
  (rpm.fileOwnership.reverse.find? fun e => e.packageName == name).map (·.paths)

def isConfigCaptured (rpm : RpmSection) (entry : PackageEntry) : Bool :=
  let configPaths := (snap.config.map (·.files.map (·.path))).getD []
  Text.eqIgnoreAsciiCase entry.sourceRepo "@commandline" &&
    match ownedPaths rpm entry.name with
    | none => false
    | some owned =>
      !owned.isEmpty && owned.all fun p => Text.startsWith p "/etc/" && configPaths.contains p

def baselineKeys : Option (String → Bool) :=
  snap.baseline.map fun b key => (b.packages.lookup key).isSome

/-- One package before the installer pass. -/
def classifyPackageRow (rpm : RpmSection) (entry : PackageEntry) :
    Refined PackageEntry :=
  if (rpm.baselineSuppressed.getD []).contains (canonicalPackageId entry.name entry.arch) then
    ⟨entry, tagged .baseline .packageBaselineMatch⟩
  else
    let tag := classifyPackage entry (baselineKeys snap) rpm.versionChanges
    let annotations := if isSensitivePath entry.name then [.sensitivePath] else []
    if isConfigCaptured snap rpm entry then
      ⟨{ entry with disposition := .excluded },
        { tagged .site .packageConfigCaptured with annotations := annotations }⟩
    else ⟨entry, { tag with annotations := annotations }⟩

def classifyPackages : List (Refined PackageEntry) :=
  match snap.rpm with
  | none => []
  | some rpm => rpm.packagesAdded.map fun entry =>
      anacondaClassification (installerEvidence snap) (classifyPackageRow snap rpm entry)

def configTriage : ConfigFileKind → TriageBucket × TriageReason
  | .rpmOwnedDefault => (.baseline, .configDefault)
  | .baselineMatch => (.baseline, .configBaselineMatch)
  | .unowned => (.site, .configUnowned)
  | .rpmOwnedModified => (.site, .configModified)
  | .orphaned => (.site, .configOrphaned)

def classifyConfigRow (entry : ConfigFileEntry) : Refined ConfigFileEntry :=
  let (bucket, reason) := configTriage entry.kind
  ⟨entry,
    { tagged bucket reason with
      annotations :=
        if isSensitivePath entry.path && !isOsDefaultSensitive entry.path then [.sensitivePath]
        else [] }⟩

def unresolvedHints : List RedactionHint :=
  match snap.redactionState with
  | some (.partiallyRedacted _ _ _ hints) => hints
  | some (.sensitiveRetained _ _ _ hints) => hints
  | _ => []

def applyHint (configs : List (Refined ConfigFileEntry)) (hint : RedactionHint) :
    List (Refined ConfigFileEntry) :=
  FirstMatch.updateFirst (fun c => c.entry.path == hint.path)
    (fun c => { c with
      triage := { tagged .investigate (.custom "unresolved redaction hint") with
        annotations := c.triage.annotations } }) configs

def classifyConfigs : List (Refined ConfigFileEntry) :=
  match snap.config with
  | none => []
  | some config => (unresolvedHints snap).foldl applyHint (config.files.map classifyConfigRow)

def knownUnitState (services : ServiceSection) (unit : String) : Option ServiceUnitState :=
  if services.disabledUnits.contains unit then some .disabled
  else if services.enabledUnits.contains unit then some .enabled
  else none

def orphanShadow (services : ServiceSection) (dropin : SystemdDropIn) :
    Option ServiceStateChange :=
  if dropin.shadowType = some .fullShadow ∧
      !(services.stateChanges.any fun s => s.unit == dropin.unit) then
    (knownUnitState services dropin.unit).map fun state =>
      { unit := dropin.unit
        currentState := state
        shadowType := some .fullShadow
        shadowRationale := some "base image updates to this unit will be silently ignored" }
  else none

def synthesizeOrphanShadows (services : ServiceSection) : ServiceSection :=
  { services with
    stateChanges := services.stateChanges ++ services.dropIns.filterMap (orphanShadow services) }

def classifyService (change : ServiceStateChange) : TriageTag :=
  if change.owningPackage.isNone then tagged .investigate .serviceUnknownOrigin
  else tagged .site .serviceNonDefaultState

def classifyServices :
    List (Refined ServiceStateChange) × List (Refined SystemdDropIn) :=
  match snap.services with
  | none => ([], [])
  | some services =>
    (services.stateChanges.map fun c => ⟨c, classifyService c⟩,
      services.dropIns.map fun d => ⟨d, tagged .site .serviceDropInPresent⟩)

def classifyFlatpak (app : FlatpakApp) : TriageTag :=
  if app.remote.isEmpty || app.branch.isEmpty then
    tagged .investigate .flatpakIncompleteProvenance
  else
    { tagged .site .flatpakProvisionedOnFirstBoot with annotations := [.firstBootProvisioned] }

def classifyContainers :
    List (Refined QuadletUnit) × List (Refined FlatpakApp) :=
  match snap.containers with
  | none => ([], [])
  | some containers =>
    (containers.quadletUnits.map fun q => ⟨q, tagged .site .quadletUserDeployed⟩,
      containers.flatpakApps.map fun f => ⟨f, classifyFlatpak f⟩)

def SYSCTL_DENY_LIST : List String := ["vm.drop_caches", "vm.compact_memory", "kernel.sysrq"]

def isFileBacked (source : String) : Bool :=
  Text.startsWith source "/etc/sysctl.d/" || source == "/etc/sysctl.conf"

def classifySingleSysctl (s : SysctlOverride) : TriageTag :=
  if isFileBacked s.source then tagged .site .sysctlFileBackedOverride
  else { tagged .site .sysctlNoBaseline with annotations := [.runtimeOnlyObservation] }

def classifySysctls : List (Refined SysctlOverride) :=
  match snap.kernelBoot with
  | none => []
  | some kb => (kb.sysctlOverrides.filter fun s => !SYSCTL_DENY_LIST.contains s.key).map fun s =>
      ⟨s, classifySingleSysctl s⟩

def classifyTuned : List RefinedTunedSelection :=
  match snap.kernelBoot with
  | none => []
  | some kb =>
    if kb.tunedActive.isEmpty then []
    else
      let custom := (((snap.config.map (·.files)).getD []).filter (·.category == .tuned)).map (·.path)
      let installed := ((snap.rpm.map (·.packagesAdded)).getD []).any fun p => p.name == "tuned"
      let tag : TriageTag :=
        if !installed then
          { tagged .investigate .tunedUnusualState with
            annotations := [.requiresProjectedPackage "tuned"] }
        else if !custom.isEmpty then tagged .site .tunedCustomProfile
        else tagged .site .tunedNonDefaultProfile
      [{ activeProfile := kb.tunedActive
         customProfiles := custom
         triage := tag
         incl := kb.tunedDisposition.isIncluded }]

end Inspectah
