import Inspectah.Core.Finding
import Inspectah.Core.Json

/-!
The sections that describe how the host runs rather than files it carries:
network, storage, scheduled work, kernel and boot, SELinux, users, and the
subscription the host was registered with.
-/
namespace Inspectah

structure NMConnection where
  path : String := ""
  name : String := ""
  method : String := ""
  connType : String := ""
  disposition : FindingKind := .inventory
  locked : Bool := false
  acknowledged : Bool := false
  aggregate : Option AggregatePrevalence := none
  deriving DecidableEq

structure FirewallZone where
  path : String := ""
  name : String := ""
  content : String := ""
  services : List String := []
  ports : List String := []
  richRules : List String := []
  disposition : FindingKind := .included
  locked : Bool := false
  aggregate : Option AggregatePrevalence := none
  deriving DecidableEq

structure FirewallDirectRule where
  ipv : String := ""
  table : String := ""
  chain : String := ""
  priority : String := ""
  args : String := ""
  disposition : FindingKind := .included
  locked : Bool := false
  deriving DecidableEq

structure StaticRouteFile where
  path : String := ""
  name : String := ""
  deriving DecidableEq

structure ProxyEntry where
  source : String := ""
  line : String := ""
  deriving DecidableEq

structure NetworkSection where
  connections : List NMConnection := []
  firewallZones : List FirewallZone := []
  firewallDirectRules : List FirewallDirectRule := []
  staticRoutes : List StaticRouteFile := []
  ipRoutes : List String := []
  ipRules : List String := []
  resolvProvenance : String := ""
  hostsAdditions : List String := []
  proxy : List ProxyEntry := []

structure FstabEntry where
  device : String := ""
  mountPoint : String := ""
  fstype : String := ""
  options : String := ""
  disposition : FindingKind := .included
  locked : Bool := false
  acknowledged : Bool := false
  aggregate : Option AggregatePrevalence := none
  attentionReason : Option String := none
  deriving DecidableEq

structure CredentialRef where
  mountPoint : String := ""
  credentialPath : String := ""
  source : String := ""
  deriving DecidableEq

structure MountPoint where
  target : String := ""
  source : String := ""
  fstype : String := ""
  options : String := ""
  deriving DecidableEq

structure LvmVolume where
  lvName : String := ""
  vgName : String := ""
  lvSize : String := ""
  deriving DecidableEq

def RUN_TMPFILES_PREFIX : String := "/run/tmpfiles.d/"

inductive VarDirBacking where
  | tmpfiles (conf line : String)
  | stateDirectory (declaredBy : List String)
  | cacheDirectory (declaredBy : List String)
  | logsDirectory (declaredBy : List String)
  | rpmOwned (package : String)
  | unbacked
  deriving DecidableEq

structure UnbackedVarAdvisory where
  disposition : FindingKind := .included
  paths : List String := []
  deriving DecidableEq

structure VarDirectory where
  path : String := ""
  backing : Option VarDirBacking := none
  mode : Option String := none
  ownerName : Option String := none
  groupName : Option String := none
  ownerUid : Option Nat := none
  ownerGid : Option Nat := none
  deriving DecidableEq

structure StorageSection where
  fstabEntries : List FstabEntry := []
  mountPoints : List MountPoint := []
  lvmInfo : List LvmVolume := []
  varDirectories : List VarDirectory := []
  credentialRefs : List CredentialRef := []
  unbackedVarAdvisory : Option UnbackedVarAdvisory := none

structure CronJob where
  path : String := ""
  source : String := ""
  rpmOwned : Bool := false
  disposition : FindingKind := .included
  locked : Bool := false
  aggregate : Option AggregatePrevalence := none
  deriving DecidableEq

structure SystemdTimer where
  name : String := ""
  onCalendar : String := ""
  execStart : String := ""
  description : String := ""
  source : String := ""
  path : String := ""
  timerContent : String := ""
  serviceContent : String := ""
  disposition : FindingKind := .included
  locked : Bool := false
  aggregate : Option AggregatePrevalence := none
  deriving DecidableEq

structure AtJob where
  file : String := ""
  command : String := ""
  user : String := ""
  workingDir : String := ""
  disposition : FindingKind := .included
  locked : Bool := false
  aggregate : Option AggregatePrevalence := none
  deriving DecidableEq

structure GeneratedTimerUnit where
  name : String := ""
  timerContent : String := ""
  serviceContent : String := ""
  cronExpr : String := ""
  sourcePath : String := ""
  command : String := ""
  disposition : FindingKind := .included
  locked : Bool := false
  aggregate : Option AggregatePrevalence := none
  deriving DecidableEq

structure ScheduledTaskSection where
  cronJobs : List CronJob := []
  systemdTimers : List SystemdTimer := []
  atJobs : List AtJob := []
  generatedTimerUnits : List GeneratedTimerUnit := []

structure SysctlOverride where
  key : String := ""
  runtime : String := ""
  default : String := ""
  source : String := ""
  disposition : FindingKind := .included
  locked : Bool := false
  aggregate : Option AggregatePrevalence := none
  deriving DecidableEq

structure KernelModule where
  name : String := ""
  size : String := ""
  usedBy : String := ""
  disposition : FindingKind := .included
  locked : Bool := false
  aggregate : Option AggregatePrevalence := none
  deriving DecidableEq

structure AlternativeEntry where
  name : String := ""
  path : String := ""
  status : String := ""
  deriving DecidableEq

structure KernelBootSection where
  cmdline : String := ""
  grubDefaults : String := ""
  sysctlOverrides : List SysctlOverride := []
  loadedModules : List KernelModule := []
  tunedActive : String := ""
  tunedDisposition : FindingKind := .included
  locale : Option String := none
  timezone : Option String := none
  alternatives : List AlternativeEntry := []

inductive FcontextFileType where
  | all
  | regularFile
  | directory
  | charDevice
  | blockDevice
  | socket
  | symlink
  | namedPipe
  deriving DecidableEq

structure SelinuxContext where
  user : String := ""
  role : String := ""
  type : String := ""
  level : Option String := none
  deriving DecidableEq

inductive FcontextRule where
  | label (spec : String) (fileType : FcontextFileType) (context : SelinuxContext)
      (disposition : FindingKind) (aggregate : Option AggregatePrevalence)
  | unlabel (spec : String) (fileType : FcontextFileType)
      (disposition : FindingKind) (aggregate : Option AggregatePrevalence)
  | equivalence (subject labeledLike : String)
      (disposition : FindingKind) (aggregate : Option AggregatePrevalence)
  | unparsed (raw : String)
  deriving DecidableEq

inductive FcontextSource where
  | policyStore
  | semanageList
  deriving DecidableEq

structure SelinuxPortLabel where
  protocol : String := ""
  port : String := ""
  labelType : String := ""
  disposition : FindingKind := .included
  locked : Bool := false
  aggregate : Option AggregatePrevalence := none
  deriving DecidableEq

structure SelinuxSection where
  mode : String := ""
  customModules : List String := []
  booleanOverrides : List Json := []
  fcontextRules : List FcontextRule := []
  fcontextSource : FcontextSource := .semanageList
  fipsMode : Bool := false
  portLabels : List SelinuxPortLabel := []

inductive UserContainerfileStrategy where
  | skip
  | useradd
  deriving DecidableEq

structure UserGroupSection where
  users : List Json := []
  groups : List Json := []
  sudoersRules : List String := []
  sshAuthorizedKeysRefs : List Json := []
  passwdEntries : List String := []
  shadowEntries : List String := []
  groupEntries : List String := []
  gshadowEntries : List String := []
  subuidEntries : List String := []
  subgidEntries : List String := []

/-- A time is its Unix timestamp. -/
structure SubscriptionFile where
  path : String := ""
  content : String := ""
  sizeBytes : Nat := 0
  certExpiry : Option Int := none
  deriving DecidableEq

structure SubscriptionSection where
  entitlementCerts : List SubscriptionFile := []
  caCerts : List SubscriptionFile := []
  configFiles : List SubscriptionFile := []
  earliestExpiry : Option Int := none
  incomplete : Bool := false
  orgId : Option String := none
  systemUuid : Option String := none
  rhsmServer : Option String := none
  sourceHostname : Option String := none

instance : LockableRow NMConnection where
  disposition := (·.disposition)
  decide d e := { e with disposition := d }
  locked := (·.locked)

instance : LockableRow FirewallZone where
  disposition := (·.disposition)
  decide d e := { e with disposition := d }
  locked := (·.locked)

instance : LockableRow FirewallDirectRule where
  disposition := (·.disposition)
  decide d e := { e with disposition := d }
  locked := (·.locked)

instance : LockableRow FstabEntry where
  disposition := (·.disposition)
  decide d e := { e with disposition := d }
  locked := (·.locked)

instance : LockableRow CronJob where
  disposition := (·.disposition)
  decide d e := { e with disposition := d }
  locked := (·.locked)

instance : LockableRow SystemdTimer where
  disposition := (·.disposition)
  decide d e := { e with disposition := d }
  locked := (·.locked)

instance : LockableRow AtJob where
  disposition := (·.disposition)
  decide d e := { e with disposition := d }
  locked := (·.locked)

instance : LockableRow GeneratedTimerUnit where
  disposition := (·.disposition)
  decide d e := { e with disposition := d }
  locked := (·.locked)

instance : LockableRow SysctlOverride where
  disposition := (·.disposition)
  decide d e := { e with disposition := d }
  locked := (·.locked)

instance : LockableRow SelinuxPortLabel where
  disposition := (·.disposition)
  decide d e := { e with disposition := d }
  locked := (·.locked)

end Inspectah
