import Inspectah.Core.Packages
import Inspectah.Core.HostFiles
import Inspectah.Core.HostState

/-!
The inspection snapshot: one host as scanned, or several merged. Loading reads
the exact schema version and refuses every other.
-/
namespace Inspectah

variable (snap : InspectionSnapshot)

structure OsRelease where
  name : String := ""
  versionId : String := ""
  version : String := ""
  id : String := ""
  idLike : String := ""
  prettyName : String := ""
  variantId : String := ""
  deriving DecidableEq

inductive SystemType where
  | unknown
  | packageMode
  | rpmOstree
  | bootc
  deriving DecidableEq

structure UnverifiablePackage where
  name : String := ""
  reason : String := ""
  deriving DecidableEq

structure RepoStatus where
  repoId : String := ""
  repoName : String := ""
  error : String := ""
  affectedPackages : List String := []
  deriving DecidableEq

structure PreflightResult where
  status : String := ""
  statusReason : Option String := none
  available : List String := []
  unavailable : List String := []
  unverifiable : List UnverifiablePackage := []
  directInstall : List String := []
  repoUnreachable : List RepoStatus := []
  baseImage : String := ""
  reposQueried : List String := []
  timestamp : String := ""
  deriving DecidableEq

inductive WarningSeverity where
  | info
  | warning
  | error
  deriving DecidableEq

structure Warning where
  inspector : String := ""
  message : String := ""
  severity : Option WarningSeverity := none
  extra : TextMap Json := ∅

inductive RedactionKind where
  | excluded
  | flagged
  | inline
  deriving DecidableEq

inductive DetectionMethod where
  | pattern
  | heuristic
  | pathBased
  deriving DecidableEq

inductive SecretFindingKind where
  | privateKey | certificate | passwordHash | password | awsKey | jdbcPassword
  | postgresPassword | mongodbPassword | redisPassword | wireguardKey | wifiPsk
  | shadowHash | noPassword | genericCredential
  deriving DecidableEq

inductive Confidence where
  | high
  | medium
  | low
  deriving DecidableEq

structure RedactionHint where
  path : String := ""
  reason : String := ""
  confidence : Option Confidence := none
  deriving DecidableEq

structure RedactionFinding where
  path : String := ""
  source : String := ""
  kind : RedactionKind := .excluded
  pattern : String := ""
  remediation : String := ""
  line : Option Int := none
  replacement : Option String := none
  detectionMethod : DetectionMethod := .pattern
  confidence : Option Confidence := none
  findingKind : Option SecretFindingKind := none
  deriving DecidableEq

inductive RedactionState where
  | fullyRedacted (redactedBy configHash : String)
  | partiallyRedacted (redactedBy configHash : String) (unresolvedCount : Nat)
      (unresolvedHints : List RedactionHint)
  | sensitiveRetained (redactedBy configHash : String) (unresolvedCount : Nat)
      (unresolvedHints : List RedactionHint)
  | unknown
  | raw
  deriving DecidableEq

inductive InspectorId where
  | rpm | config | services | network | storage | scheduledTasks | containers
  | nonRpmSoftware | kernelBoot | selinux | usersGroups | subscription | hardware
  | ostree | osRelease
  deriving DecidableEq

inductive Completeness where
  | complete
  | partially (degradedSections : List InspectorId) (reason : String)
  | incomplete (failedSections degradedSections : List InspectorId) (reason : String)
  deriving DecidableEq

inductive ResolutionStrategy where
  | cliOverride
  | universalBlue
  | bootcStatus
  | fedoraAtomicDesktop
  | osRelease
  deriving DecidableEq

structure TargetImageIdentity where
  imageRef : String
  strategy : ResolutionStrategy
  deriving DecidableEq

structure BaselinePackageEntry where
  name : String
  epoch : Option String
  version : String
  release : String
  arch : String
  deriving DecidableEq

structure BaselineData where
  imageDigest : String
  packages : TextMap BaselinePackageEntry
  extractedAt : String

structure AggregateSnapshotMeta where
  label : String := ""
  hostCount : Nat := 0
  hostnames : List String := []
  mergedAt : String := ""
  baselineProvisional : Bool := false
  sectionHostCounts : List (String × Nat) := []
  deriving DecidableEq

structure RepoSourceEntry where
  repo : String
  hostCount : Nat
  deriving DecidableEq

def SCHEMA_VERSION : Nat := 25

structure InspectionSnapshot where
  schemaVersion : Nat := 0
  metadata : TextMap Json := ∅
  osRelease : Option OsRelease := none
  systemType : SystemType := .unknown
  rpm : Option RpmSection := none
  config : Option ConfigSection := none
  services : Option ServiceSection := none
  network : Option NetworkSection := none
  storage : Option StorageSection := none
  scheduledTasks : Option ScheduledTaskSection := none
  containers : Option ContainerSection := none
  nonRpmSoftware : Option NonRpmSoftwareSection := none
  unmanagedFiles : Option UnmanagedFileSection := none
  kernelBoot : Option KernelBootSection := none
  selinux : Option SelinuxSection := none
  usersGroups : Option UserGroupSection := none
  preflight : PreflightResult := {}
  warnings : List Warning := []
  redactions : List RedactionFinding := []
  redactionHints : List RedactionHint := []
  redactionState : Option RedactionState := none
  completeness : Completeness := .complete
  targetImage : Option TargetImageIdentity := none
  baseline : Option BaselineData := none
  sensitiveSnapshot : Bool := false
  preservedCredentials : Bool := false
  preservedSshKeys : Bool := false
  subscription : Option SubscriptionSection := none
  preservedSubscription : Bool := false
  redactionSkipped : Bool := false
  aggregateMeta : Option AggregateSnapshotMeta := none
  rpmRepoConflicts : TextMap (List RepoSourceEntry) := ∅

namespace InspectionSnapshot

def onRpm (f : RpmSection → RpmSection) (snap : InspectionSnapshot) : InspectionSnapshot :=
  { snap with rpm := snap.rpm.map f }

def onConfig (f : ConfigSection → ConfigSection) (snap : InspectionSnapshot) : InspectionSnapshot :=
  { snap with config := snap.config.map f }

def onServices (f : ServiceSection → ServiceSection) (snap : InspectionSnapshot) :
    InspectionSnapshot :=
  { snap with services := snap.services.map f }

def onContainers (f : ContainerSection → ContainerSection) (snap : InspectionSnapshot) :
    InspectionSnapshot :=
  { snap with containers := snap.containers.map f }

def onKernelBoot (f : KernelBootSection → KernelBootSection) (snap : InspectionSnapshot) :
    InspectionSnapshot :=
  { snap with kernelBoot := snap.kernelBoot.map f }

def onUsersGroups (f : UserGroupSection → UserGroupSection) (snap : InspectionSnapshot) :
    InspectionSnapshot :=
  { snap with usersGroups := snap.usersGroups.map f }

def onNonRpm (f : NonRpmSoftwareSection → NonRpmSoftwareSection) (snap : InspectionSnapshot) :
    InspectionSnapshot :=
  { snap with nonRpmSoftware := snap.nonRpmSoftware.map f }

def onUnmanaged (f : UnmanagedFileSection → UnmanagedFileSection) (snap : InspectionSnapshot) :
    InspectionSnapshot :=
  { snap with unmanagedFiles := snap.unmanagedFiles.map f }

/-- The groups the package manager knows, or none without an RPM section. -/
def installedGroups : List InstalledGroup :=
  (snap.rpm.bind (·.installedGroups)).getD []

/-! The rows the operator decides most often. -/

def configFiles : List ConfigFileEntry :=
  (snap.config.map (·.files)).getD []

def stateChanges : List ServiceStateChange :=
  (snap.services.map (·.stateChanges)).getD []

def dropIns : List SystemdDropIn :=
  (snap.services.map (·.dropIns)).getD []

def quadletUnits : List QuadletUnit :=
  (snap.containers.map (·.quadletUnits)).getD []

def flatpakApps : List FlatpakApp :=
  (snap.containers.map (·.flatpakApps)).getD []

def sysctlOverrides : List SysctlOverride :=
  (snap.kernelBoot.map (·.sysctlOverrides)).getD []

end InspectionSnapshot

/-- The rows of a section that may be absent. -/
def rowsOf {σ α : Type} (rows : σ → List α) (sec : Option σ) : List α := (sec.map rows).getD []

def rpmPackages : List PackageEntry :=
  (snap.rpm.map (·.packagesAdded)).getD []

end Inspectah
