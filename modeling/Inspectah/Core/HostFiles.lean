import Inspectah.Core.Finding
import Inspectah.Core.Json

/-!
The sections whose rows are files or units the image would carry: configuration,
services, containers, software outside RPM, and unmanaged files.
-/
namespace Inspectah

inductive ConfigFileKind where
  | rpmOwnedDefault
  | rpmOwnedModified
  | unowned
  | orphaned
  | baselineMatch
  deriving DecidableEq

inductive ConfigCategory where
  | tmpfiles | environment | audit | pam | tuned | kernelModule | initramfs | libraryPath
  | journal | logrotate | automount | sysctl | cryptoPolicy | identity | limits | other
  deriving DecidableEq

inductive ConfigShadow where
  | sysctl
  | services
  deriving DecidableEq

structure ConfigFileEntry where
  path : String := ""
  kind : ConfigFileKind := .unowned
  category : ConfigCategory := .other
  content : String := ""
  rpmVaFlags : Option String := none
  package : Option String := none
  diffAgainstRpm : Option String := none
  disposition : FindingKind := .included
  locked : Bool := false
  variantSelection : VariantSelection := .only
  aggregate : Option AggregatePrevalence := none
  attentionReason : Option String := none
  shadowedBy : Option ConfigShadow := none
  deriving DecidableEq

structure ConfigSection where
  files : List ConfigFileEntry := []

inductive ServiceUnitState where
  | enabled
  | disabled
  | masked
  deriving DecidableEq

inductive PresetDefault where
  | enable
  | disable
  deriving DecidableEq

structure ServiceStateChange where
  unit : String := ""
  currentState : ServiceUnitState := .enabled
  defaultState : Option PresetDefault := none
  disposition : FindingKind := .included
  locked : Bool := false
  owningPackage : Option String := none
  aggregate : Option AggregatePrevalence := none
  attentionReason : Option String := none
  shadowType : Option ShadowType := none
  shadowRationale : Option String := none
  deriving DecidableEq

structure SystemdDropIn where
  unit : String := ""
  path : String := ""
  content : String := ""
  disposition : FindingKind := .included
  locked : Bool := false
  variantSelection : VariantSelection := .only
  aggregate : Option AggregatePrevalence := none
  attentionReason : Option String := none
  shadowType : Option ShadowType := none
  shadowRationale : Option String := none
  deriving DecidableEq

structure ServiceSection where
  stateChanges : List ServiceStateChange := []
  enabledUnits : List String := []
  disabledUnits : List String := []
  dropIns : List SystemdDropIn := []
  presetMatchedUnits : List String := []

structure QuadletUnit where
  path : String := ""
  name : String := ""
  content : String := ""
  image : String := ""
  disposition : FindingKind := .included
  locked : Bool := false
  variantSelection : VariantSelection := .only
  aggregate : Option AggregatePrevalence := none
  ports : List String := []
  volumes : List String := []
  generated : Bool := false
  deriving DecidableEq

structure ComposeService where
  service : String := ""
  image : String := ""
  deriving DecidableEq

structure ComposeFile where
  path : String := ""
  images : List ComposeService := []
  disposition : FindingKind := .included
  locked : Bool := false
  variantSelection : VariantSelection := .only
  aggregate : Option AggregatePrevalence := none
  rawContent : Option String := none
  deriving DecidableEq

structure ContainerMount where
  mountType : String := ""
  source : String := ""
  destination : String := ""
  mode : String := ""
  rw : Bool := false
  deriving DecidableEq

structure RunningContainer where
  id : String := ""
  name : String := ""
  image : String := ""
  imageId : String := ""
  status : String := ""
  restartPolicy : String := ""
  mounts : List ContainerMount := []
  networks : Json := .null
  ports : Json := .null
  env : List String := []
  inspectData : Bool := false
  disposition : FindingKind := .included
  locked : Bool := false
  acknowledged : Bool := false
  aggregate : Option AggregatePrevalence := none

structure FlatpakApp where
  appId : String := ""
  origin : String := ""
  branch : String := ""
  disposition : FindingKind := .included
  locked : Bool := false
  aggregate : Option AggregatePrevalence := none
  remote : String := ""
  remoteUrl : String := ""
  deriving DecidableEq

structure ContainerSection where
  quadletUnits : List QuadletUnit := []
  composeFiles : List ComposeFile := []
  runningContainers : List RunningContainer := []
  flatpakApps : List FlatpakApp := []

structure LanguagePackage where
  name : String := ""
  version : String := ""
  pinned : Bool := false
  deriving DecidableEq

structure NonRpmItem where
  path : String := ""
  name : String := ""
  method : String := ""
  confidence : String := ""
  disposition : FindingKind := .included
  locked : Bool := false
  acknowledged : Bool := false
  lang : String := ""
  isStatic : Bool := false
  version : String := ""
  sharedLibs : List String := []
  systemSitePackages : Bool := false
  packages : List LanguagePackage := []
  hasCExtensions : Bool := false
  gitRemote : String := ""
  gitCommit : String := ""
  gitBranch : String := ""
  manifestFiles : TextMap String := ∅
  rpmFiltered : Bool := false
  files : Option Json := none
  content : String := ""
  aggregate : Option AggregatePrevalence := none
  reviewStatus : String := ""
  notes : String := ""

structure NonRpmSoftwareSection where
  items : List NonRpmItem := []
  envFiles : List ConfigFileEntry := []

inductive FileType where
  | other
  | elfBinary
  | jar
  | script
  | dataFile
  | config
  | symlink
  deriving DecidableEq

structure ProvenanceSignals where
  fileType : FileType := .other
  lastModified : Nat := 0
  uid : Nat := 0
  gid : Nat := 0
  permissions : String := ""
  isMutable : Bool := false
  writableMount : Bool := false
  serviceWorkingDir : Bool := false
  deriving DecidableEq

structure UnmanagedFile where
  path : String := ""
  size : Nat := 0
  fileType : FileType := .other
  provenance : ProvenanceSignals := {}
  disposition : FindingKind := .included
  locked : Bool := false
  acknowledged : Bool := false
  underVar : Bool := false
  linkTarget : String := ""
  aggregate : Option AggregatePrevalence := none
  contentHash : String := ""
  variantSelection : VariantSelection := .only
  deriving DecidableEq

structure UnmanagedUsrEntry where
  path : String := ""
  fileCount : Nat := 0
  totalSizeBytes : Nat := 0
  fileType : FileType := .other
  disposition : FindingKind := .included
  deriving DecidableEq

structure UnmanagedFileSection where
  items : List UnmanagedFile := []
  usrEntries : List UnmanagedUsrEntry := []
  totalSize : Nat := 0
  totalCount : Nat := 0

instance : LockableRow ConfigFileEntry where
  disposition := (·.disposition)
  decide d e := { e with disposition := d }
  locked := (·.locked)

instance : LockableRow ServiceStateChange where
  disposition := (·.disposition)
  decide d e := { e with disposition := d }
  locked := (·.locked)

instance : LockableRow SystemdDropIn where
  disposition := (·.disposition)
  decide d e := { e with disposition := d }
  locked := (·.locked)

instance : LockableRow QuadletUnit where
  disposition := (·.disposition)
  decide d e := { e with disposition := d }
  locked := (·.locked)

instance : LockableRow ComposeFile where
  disposition := (·.disposition)
  decide d e := { e with disposition := d }
  locked := (·.locked)

instance : LockableRow RunningContainer where
  disposition := (·.disposition)
  decide d e := { e with disposition := d }
  locked := (·.locked)

instance : LockableRow FlatpakApp where
  disposition := (·.disposition)
  decide d e := { e with disposition := d }
  locked := (·.locked)

instance : LockableRow NonRpmItem where
  disposition := (·.disposition)
  decide d e := { e with disposition := d }
  locked := (·.locked)

instance : LockableRow UnmanagedFile where
  disposition := (·.disposition)
  decide d e := { e with disposition := d }
  locked := (·.locked)

end Inspectah
