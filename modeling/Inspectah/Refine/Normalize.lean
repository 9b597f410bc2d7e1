import Inspectah.Refine.Classify

/-!
Normalization. Loading locks what can never travel to an image; opening a
session then writes the tier defaults the classifiers imply into the rows, so
that the operations of the session start from settled dispositions.
-/
namespace Inspectah

open FirstMatch

variable (snap : InspectionSnapshot)

def METHOD_PYTHON_VENV : String := "python venv"
def METHOD_PIP_DIST_INFO : String := "pip dist-info"
def METHOD_NPM_LOCKFILE : String := "npm lockfile"
def METHOD_NPM_MANIFEST : String := "npm manifest"
def METHOD_GEM_LOCKFILE : String := "gem lockfile"
def METHOD_GEM_SYSTEM : String := "gem system"
def METHOD_NPM_GLOBAL : String := "npm global"

def isLanguageEnv (item : NonRpmItem) : Bool :=
  [METHOD_PYTHON_VENV, METHOD_PIP_DIST_INFO, METHOD_NPM_LOCKFILE, METHOD_NPM_MANIFEST,
    METHOD_NPM_GLOBAL, METHOD_GEM_LOCKFILE, METHOD_GEM_SYSTEM].contains item.method

def isAnacondaClassified : TriageReason → Bool
  | .packagePlatformPlumbing => true
  | .packageInstallerDefault => true
  | .packageInstallerPromotedService => true
  | .packageInstallerPromotedConfig => true
  | .packageInstallerAmbiguous => true
  | .packageInstallerEvidenceUnavailable => true
  | _ => false

def collectDepTreeNames : Json → List String
  | .obj fields =>
    let deps := fields.flatMap fun f =>
      match f.2 with
      | .arr items => items.filterMap Json.asStr
      | _ => []
    deps.filter fun name => !fields.any fun f => f.1 == name
  | _ => []

def leafSet (rpm : RpmSection) : Option (List String) :=
  rpm.leafPackages.map fun leaves =>
    leaves.filter fun name => !(collectDepTreeNames rpm.leafDepTree).contains name

/-- Fewer hosts carry the item than there are. -/
def isPartial (aggregate : Option AggregatePrevalence) : Bool :=
  aggregate.any fun a => a.count < a.total

def bucketDefault (leaves : Option (List String)) (bucket : TriageBucket) (entry : PackageEntry) :
    FindingKind :=
  match bucket with
  | .baseline => .included
  | .site =>
    match leaves with
    | none => .included
    | some names => .fromBool (names.contains (canonicalPackageId entry.name entry.arch))
  | .investigate => .excluded

def isPreExcluded (entry : PackageEntry) : Bool :=
  isPartial entry.aggregate || !entry.repolessAnnotation.isEmpty

/-- The installer pass decides for its own, the bucket for the rest; prevalence and a missing
    repository overrule both. -/
def normalizePackage (leaves : Option (List String)) (refined : Refined PackageEntry)
    (entry : PackageEntry) : PackageEntry :=
  let decided :=
    if isAnacondaClassified refined.triage.primaryReason then
      { entry with
        disposition := refined.entry.disposition
        locked := refined.entry.locked }
    else { entry with disposition := bucketDefault leaves refined.triage.bucket entry }
  if isPreExcluded entry then { decided with disposition := .excluded } else decided

def normalizePackageDefaults (packages : List (Refined PackageEntry)) (snap : InspectionSnapshot) :
    InspectionSnapshot :=
  snap.onRpm fun rpm =>
    { rpm with
      packagesAdded := overlay (normalizePackage (leafSet rpm)) packages rpm.packagesAdded }

def MERGE_HOSTILE_PATHS : List String := ["/etc/fstab", "/etc/crypttab"]

def lockFstab (e : FstabEntry) : FstabEntry :=
  { e with
    disposition := .excluded
    locked := true
    attentionReason := some "host state — not image-portable" }

def lockMergeHostile (e : ConfigFileEntry) : ConfigFileEntry :=
  if MERGE_HOSTILE_PATHS.contains e.path then
    { e with
      disposition := .excluded
      locked := true
      attentionReason := some "merge-hostile — fights bootc /etc 3-way merge" }
  else e

def normalizeMergeHostileConfigs : InspectionSnapshot :=
  { snap with
    storage := snap.storage.map fun s => { s with fstabEntries := s.fstabEntries.map lockFstab }
    config := snap.config.map fun c => { c with files := c.files.map lockMergeHostile } }

def INCOMPATIBLE_SERVICES : List String :=
  ["dnf-makecache.service", "dnf-makecache.timer", "packagekit.service",
    "packagekit-offline-update.service"]

def lockIncompatibleService (e : ServiceStateChange) : ServiceStateChange :=
  if INCOMPATIBLE_SERVICES.contains e.unit then
    { e with
      disposition := .excluded
      locked := true
      attentionReason := some "service-image-mode-incompatible" }
  else e

def lockIncompatibleDropIn (e : SystemdDropIn) : SystemdDropIn :=
  if INCOMPATIBLE_SERVICES.contains e.unit then
    { e with
      disposition := .excluded
      locked := true
      attentionReason := some "parent service image-mode incompatible" }
  else e

def normalizeIncompatibleServices : InspectionSnapshot :=
  snap.onServices fun s =>
    { s with
      stateChanges := s.stateChanges.map lockIncompatibleService
      dropIns := s.dropIns.map lockIncompatibleDropIn
      enabledUnits := s.enabledUnits.filter fun u => !INCOMPATIBLE_SERVICES.contains u }

def lastSegment (path : String) : String := (Text.splitOn (· == '/') path).getLast?.getD ""

def isInspectahRepoFile (path : String) : Bool :=
  Text.startsWith path "/etc/yum.repos.d/" &&
    (Text.startsWith (lastSegment path) "_copr" && Text.contains (lastSegment path) "inspectah")

def normalizeInspectahRepoFiles : InspectionSnapshot :=
  snap.onRpm fun rpm =>
    { rpm with
      repoFiles := rpm.repoFiles.map fun f =>
        if isInspectahRepoFile f.path then { f with disposition := .excluded } else f }

def normalizeLanguageEnv (item : NonRpmItem) : NonRpmItem :=
  if isLanguageEnv item && item.confidence != "high" then { item with disposition := .excluded }
  else item

def normalizeLanguageEnvDefaults : InspectionSnapshot :=
  snap.onNonRpm fun n => { n with items := n.items.map normalizeLanguageEnv }

def configDefault (bucket : TriageBucket) (kind : ConfigFileKind) : FindingKind :=
  match bucket with
  | .baseline => .excluded
  | .site => .fromBool (kind != .orphaned)
  | .investigate => .included

/-- The tool's own repository definition is locked out; advisory and inventory findings stay. -/
def normalizeConfig (refined : Refined ConfigFileEntry) (entry : ConfigFileEntry) :
    ConfigFileEntry :=
  if isInspectahRepoFile entry.path then { entry with disposition := .excluded, locked := true }
  else if !entry.disposition.isActionable then entry
  else if isPartial entry.aggregate then { entry with disposition := .excluded }
  else { entry with disposition := configDefault refined.triage.bucket entry.kind }

def normalizeConfigDefaults (configs : List (Refined ConfigFileEntry)) (snap : InspectionSnapshot) :
    InspectionSnapshot :=
  snap.onConfig fun c => { c with files := overlay normalizeConfig configs c.files }

/-- Leaf filtering is for single hosts; an aggregate narrows by prevalence. -/
def clearAggregateLeaves : InspectionSnapshot :=
  if snap.aggregateMeta.isSome then snap.onRpm fun rpm => { rpm with leafPackages := none }
  else snap

def normalizeSnapshot : InspectionSnapshot :=
  let snap := clearAggregateLeaves snap
  let packages := classifyPackages snap
  let configs := classifyConfigs snap
  let snap := normalizePackageDefaults packages snap
  let snap := normalizeConfigDefaults configs snap
  let snap := normalizeInspectahRepoFiles snap
  let snap := normalizeLanguageEnvDefaults snap
  snap.onServices synthesizeOrphanShadows

/-- `load_for_refine`, behind serde: a row without a disposition arrives actionable and included. -/
def loadForRefine (deserialize : String → Except String InspectionSnapshot) (rawJson : String) :
    Except RefineError InspectionSnapshot :=
  match deserialize rawJson with
  | .error message => .error (.snapshotLoad message)
  | .ok snap =>
    if snap.schemaVersion = SCHEMA_VERSION then
      .ok (normalizeMergeHostileConfigs (normalizeIncompatibleServices snap))
    else
      .error (.snapshotLoad ("unsupported schema version: " ++ toString snap.schemaVersion ++
        " (accepted: " ++ toString SCHEMA_VERSION ++ ")"))

end Inspectah
