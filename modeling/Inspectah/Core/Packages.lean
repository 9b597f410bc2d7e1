import Inspectah.Core.Finding
import Inspectah.Core.Json
import Inspectah.Core.Text

/-!
The RPM section. A repo id is the name in a `[section]` header; spellings that differ in ASCII
case are one repo, so maps are keyed by the folded one.
-/
namespace Inspectah

inductive RepoTier where
  | distro
  | officialOptional
  | thirdParty
  | none
  deriving DecidableEq

def DISTRO_REPOS : List String :=
  ["baseos", "appstream", "fedora", "updates", "updates-testing", "extras", "anaconda"]

def OFFICIAL_OPTIONAL_REPOS : List String := ["crb", "codeready-builder", "rhel-extensions"]

def DISTRO_REPO_KEYWORDS : List String := ["baseos", "appstream"]

def OFFICIAL_OPTIONAL_KEYWORDS : List String := ["codeready-builder", "crb"]

/-- The first hit of the keyword stands between the ends of the id or dashes. -/
def containsKeywordSegment (id keyword : String) : Bool :=
  match Text.findChars keyword.toList id.toList with
  | some (before, after) =>
    (before.isEmpty || before.getLast? == some '-') && (after.isEmpty || after.head? == some '-')
  | Option.none => false

def repoTier (sectionId : String) : RepoTier :=
  if sectionId.isEmpty then .none
  else
    let id := Text.asciiLower sectionId
    if id = "@commandline" then .none
    else if DISTRO_REPOS.contains id then .distro
    else if OFFICIAL_OPTIONAL_REPOS.contains id then .officialOptional
    else if DISTRO_REPO_KEYWORDS.any (containsKeywordSegment id) then .distro
    else if OFFICIAL_OPTIONAL_KEYWORDS.any (containsKeywordSegment id) then .officialOptional
    else .thirdParty

structure RepoId where
  raw : String
  deriving DecidableEq

/-- What `Eq`, `Ord` and `Hash` of a repo id read. -/
def RepoId.folded (id : RepoId) : String := Text.asciiLower id.raw

inductive PseudoRepo where
  | commandline
  | anaconda
  | system
  deriving DecidableEq

/-- How the repo a package was installed from maps to a section on the host. -/
inductive RepoAttribution where
  | exact (id : RepoId)
  | resolved (recorded : String) (id : RepoId)
  | ambiguous (recorded : String) (candidates : List RepoId)
  | stale (recorded : String)
  | pseudo (which : PseudoRepo) (recorded : String)
  | unrecorded
  deriving DecidableEq

structure RepoSectionDef where
  id : RepoId
  enabled : Bool := true
  hasSource : Bool := false
  gpgKeyPaths : List String := []
  deriving DecidableEq

def stripTrailingComment (value : String) : String :=
  String.ofList (value.toList.takeWhile fun c => !(c == '#' || c == ';'))

def isEnabledValue (value : String) : Bool :=
  ["1", "true", "yes", "on"].contains (Text.asciiLower value)

/-- The `file://` paths of a `gpgkey` value. -/
def gpgKeyFiles (value : String) : List String :=
  (Text.splitOn (fun c => c == ',' || Text.isAsciiWhitespace c) value).filterMap fun part =>
    (Text.afterPrefix part "file://").filter fun path => !path.isEmpty

/-- One `key=value` line of a section; anything else leaves the section as it is. -/
def readSectionLine (trimmed : String) (sec : RepoSectionDef) : RepoSectionDef :=
  match Text.splitOnce '=' trimmed with
  | Option.none => sec
  | some (key, value) =>
    let key := Text.trim key
    let value := Text.trim (stripTrailingComment value)
    if key = "enabled" then { sec with enabled := isEnabledValue value }
    else if ["baseurl", "metalink", "mirrorlist"].contains key then { sec with hasSource := true }
    else if key = "gpgkey" then { sec with gpgKeyPaths := sec.gpgKeyPaths ++ gpgKeyFiles value }
    else sec

def sectionHeader (trimmed : String) : Option RepoSectionDef :=
  if Text.startsWith trimmed "[" && Text.endsWith trimmed "]" then
    some { id := ⟨String.ofList (trimmed.toList.drop 1).dropLast⟩ }
  else Option.none

def readRepoLine (state : List RepoSectionDef × Option RepoSectionDef) (line : String) :
    List RepoSectionDef × Option RepoSectionDef :=
  let trimmed := Text.trim line
  match sectionHeader trimmed with
  | some opened => (state.1 ++ state.2.toList, some opened)
  | Option.none => (state.1, state.2.map (readSectionLine trimmed))

def parseRepoSections (content : String) : List RepoSectionDef :=
  let (closed, current) := (Text.lines content).foldl readRepoLine ([], Option.none)
  closed ++ current.toList

example : (parseRepoSections "[Epel]\nenabled=0 ; off\ngpgkey=file:///k\nbaseurl=x\n").map
    (fun s => (s.id.raw, s.enabled, s.hasSource, s.gpgKeyPaths)) =
    [("Epel", false, true, ["/k"])] := by decide

inductive PackageState where
  | added
  | baseImageOnly
  | modified
  | localInstall
  | noRepo
  deriving DecidableEq

inductive VersionChangeDirection where
  | upgrade
  | downgrade
  deriving DecidableEq

structure PackageEntry where
  name : String := ""
  epoch : String := ""
  version : String := ""
  release : String := ""
  arch : String := ""
  state : PackageState := .added
  disposition : FindingKind := .included
  locked : Bool := false
  acknowledged : Bool := false
  sourceRepo : String := ""
  repoAttribution : RepoAttribution := .unrecorded
  repoEnablingFrom : List RepoId := []
  repolessAnnotation : String := ""
  repolessCached : Bool := false
  uploaded : Bool := false
  cachePath : Option String := none
  uploadedVersion : Option String := none
  aggregate : Option AggregatePrevalence := none
  deriving DecidableEq

/-- `format!("{name}.{arch}")`. -/
def canonicalPackageId (name arch : String) : String := name ++ "." ++ arch

structure VersionChange where
  name : String := ""
  arch : String := ""
  hostVersion : String := ""
  baseVersion : String := ""
  hostEpoch : String := ""
  baseEpoch : String := ""
  direction : VersionChangeDirection := .upgrade
  deriving DecidableEq

structure EnabledModuleStream where
  moduleName : String := ""
  stream : String := ""
  profiles : List String := []
  disposition : FindingKind := .included
  locked : Bool := false
  baselineMatch : Bool := false
  aggregate : Option AggregatePrevalence := none

structure VersionLockEntry where
  rawPattern : String := ""
  name : String := ""
  epoch : Int := 0
  version : String := ""
  release : String := ""
  arch : String := ""
  disposition : FindingKind := .included
  locked : Bool := false
  aggregate : Option AggregatePrevalence := none

structure RpmVaEntry where
  path : String := ""
  flags : String := ""
  package : Option String := none
  deriving DecidableEq

structure OstreePackageOverride where
  name : String := ""
  fromNevra : String := ""
  toNevra : String := ""
  deriving DecidableEq

/-- A `.repo` file, or a GPG key one of them references. -/
structure RepoFile where
  path : String := ""
  content : String := ""
  isDefaultRepo : Bool := false
  disposition : FindingKind := .included
  locked : Bool := false
  aggregate : Option AggregatePrevalence := none
  deriving DecidableEq

structure FileOwnershipEntry where
  packageName : String := ""
  paths : List String := []
  deriving DecidableEq

structure InstalledGroup where
  name : String := ""
  members : List String := []
  optionalInstalled : List String := []
  deriving DecidableEq

structure RpmSection where
  packagesAdded : List PackageEntry := []
  baseImageOnly : List PackageEntry := []
  rpmVa : List RpmVaEntry := []
  repoFiles : List RepoFile := []
  gpgKeys : List RepoFile := []
  dnfHistoryRemoved : List String := []
  versionChanges : List VersionChange := []
  leafPackages : Option (List String) := none
  autoPackages : Option (List String) := none
  leafDepTree : Json := .null
  moduleStreams : List EnabledModuleStream := []
  versionLocks : List VersionLockEntry := []
  moduleStreamConflicts : List String := []
  baselineModuleStreams : Option (TextMap String) := none
  versionlockCommandOutput : Option String := none
  multiarchPackages : List String := []
  duplicatePackages : List String := []
  ostreeOverrides : List OstreePackageOverride := []
  ostreeRemovals : List String := []
  baseImage : Option String := none
  baselineSuppressed : Option (List String) := none
  baselinePackageNames : Option (List String) := none
  leafAuthorityHosts : Option Nat := none
  leafTotalHosts : Option Nat := none
  fileOwnership : List FileOwnershipEntry := []
  installedGroups : Option (List InstalledGroup) := none

instance : LockableRow PackageEntry where
  disposition := (·.disposition)
  decide d e := { e with disposition := d }
  locked := (·.locked)

instance : LockableRow EnabledModuleStream where
  disposition := (·.disposition)
  decide d e := { e with disposition := d }
  locked := (·.locked)

instance : LockableRow VersionLockEntry where
  disposition := (·.disposition)
  decide d e := { e with disposition := d }
  locked := (·.locked)

instance : LockableRow RepoFile where
  disposition := (·.disposition)
  decide d e := { e with disposition := d }
  locked := (·.locked)

end Inspectah
