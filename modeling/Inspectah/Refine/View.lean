import Inspectah.Library.History
import Inspectah.Refine.Normalize
import Inspectah.Refine.Projection
import Inspectah.Refine.Uploads

/-!
What a session shows. The view, the render context and the decision projection
are computed together from the projected snapshot and the active timeline.
-/
namespace Inspectah

open UndoHistory

variable (original : InspectionSnapshot) (active : List TimelineEntry)

structure UserGroupDecision where
  name : String
  uid : Nat
  gid : Nat
  shell : String
  home : String
  disposition : FindingKind
  classification : String
  containerfileStrategy : UserContainerfileStrategy
  passwordChoice : String
  passwordHash : Option String
  hasSudo : Option Bool
  hasSubuid : Option Bool
  sshKeyCount : Option Nat
  sshKeys : Option (List String)
  classificationRationale : Option String
  supplementaryGroups : Option (List String)
  passwordStatus : Option String

inductive DegradationReason where
  | memberExcluded
  | memberOverridden
  | multilibConflict
  deriving DecidableEq

inductive GroupRenderState where
  | renderable
  | excluded
  | ungrouped
  | degraded (reason : DegradationReason)
  | inert
  deriving DecidableEq

structure RenderContext where
  groupStates : TextMap GroupRenderState
  verifiedUploads : TextMap VerifiedUpload

/-- Hashing, the Containerfile renderer, and the typed reading of a user record. -/
structure Env extends Hashing where
  preview : InspectionSnapshot → TextMap Bool → RenderContext → String
  decodeUser : Json → Option UserGroupDecision

structure SectionStats where
  kind : SectionKind
  total : Nat
  included : Nat
  excluded : Nat
  advisory : Nat
  deriving DecidableEq

structure RefineStats where
  sections : List SectionStats
  needsReviewCount : Nat
  opsApplied : Nat
  canUndo : Bool
  canRedo : Bool
  baselineAvailable : Bool
  deriving DecidableEq

structure RepoEffective where
  memberCount : Nat := 0
  included : Nat := 0
  unlisted : Nat := 0
  deriving DecidableEq

structure RefinedView where
  packages : List (Refined PackageEntry)
  configFiles : List (Refined ConfigFileEntry)
  containerfilePreview : String
  stats : RefineStats
  repoEffective : KeyedMap RepoEffective
  generation : Nat

structure SectionChangeSummary where
  kind : SectionKind
  included : List ItemId
  excluded : List ItemId
  deriving DecidableEq

structure ChangesSummary where
  sections : List SectionChangeSummary
  variantsChanged : Nat
  isDirty : Bool
  deriving DecidableEq

structure RepoGroup where
  sectionId : String
  provenance : RepoProvenance
  isDistro : Bool
  tier : RepoTier
  packageCount : Nat
  enabled : Bool
  deriving DecidableEq

structure BaselineSummary where
  imageRef : String
  imageDigest : String
  strategy : String
  baselineCount : Nat
  userAddedCount : Nat
  reviewCount : Nat
  deriving DecidableEq

structure DecisionProjection where
  serviceStates : List (Refined ServiceStateChange)
  serviceDropins : List (Refined SystemdDropIn)
  quadlets : List (Refined QuadletUnit)
  flatpaks : List (Refined FlatpakApp)
  sysctls : List (Refined SysctlOverride)
  tuned : List RefinedTunedSelection
  repoGroups : List RepoGroup
  versionChanges : List VersionChange
  usersGroups : List UserGroupDecision
  isSensitive : Bool
  baselineSummary : Option BaselineSummary

structure SessionCore where
  original : InspectionSnapshot
  repoIndex : RepoIndex
  baselineAvailable : Bool
  refineMode : RefineMode
  history : History TimelineEntry := .empty
  generation : Nat := 0
  viewed : List String := []
  tarballPath : Option String := none
  uploadDir : Option String := none
  uploadDirCanon : Option String := none
  priorCache : KeyedMap PriorCache := ∅
  rescanWarnings : List String := []
  durabilityDegraded : Bool := false

namespace SessionCore

def activeOps (c : SessionCore) : List RefinementOp := timelineOps c.history.active

/-- `project_snapshot`, `snapshot_projected`. -/
def projected (h : Hashing) (c : SessionCore) : InspectionSnapshot :=
  projectSnapshot h c.original c.repoIndex c.history.active

def isUngrouped (name : String) : Bool :=
  active.contains (.view (.ungroupGroup name))

end SessionCore

def isEffectiveMember (p : PackageEntry) : Bool := p.disposition.isActionable && !p.locked

def effectiveMembers (packages : List PackageEntry) (members : List String) : List PackageEntry :=
  (packages.filter fun p => members.contains p.name).filter isEffectiveMember

/-- The last entry with a toggle of the group, its first such toggle, and the entries after. -/
def lastGroupOp (name : String) : List TimelineEntry → Option (Bool × List TimelineEntry)
  | [] => none
  | entry :: rest =>
    match lastGroupOp name rest with
    | some found => some found
    | none => (entry.ops.findSome? fun
        | .setInclude (.group n) incl => if n == name then some incl else none
        | _ => none).map fun incl => (incl, rest)

def divergentOverrides (members : List String) (groupOp : Option (Bool × List TimelineEntry)) :
    List String :=
  match groupOp with
  | none => []
  | some (incl, later) => (timelineOps later).filterMap fun
    | .setInclude (.package name _) i => if members.contains name && i != incl then some name else none
    | _ => none

structure MemberScan where
  anyExcluded : Bool := false
  allExcluded : Bool := true
  hasMember : Bool := false

def scanMember (effective : List PackageEntry) (overrides : List String) (member : String)
    (scan : MemberScan) : Except DegradationReason MemberScan :=
  match effective.filter fun p => p.name == member with
  | [] => .ok scan
  | [pkg] =>
    if pkg.locked then .ok scan
    else if overrides.contains pkg.name then .error .memberOverridden
    else if pkg.disposition.isIncluded then
      .ok { scan with hasMember := true, allExcluded := false }
    else .ok { scan with hasMember := true, anyExcluded := true }
  | _ => .error .multilibConflict

def scanMembers (effective : List PackageEntry) (overrides : List String) :
    List String → MemberScan → Except DegradationReason MemberScan
  | [], scan => .ok scan
  | m :: ms, scan =>
    match scanMember effective overrides m scan with
    | .error reason => .error reason
    | .ok scan => scanMembers effective overrides ms scan

def deriveGroupState (members : List String) (effective : List PackageEntry) (ungrouped : Bool)
    (groupExcluded : Bool) (overrides : List String) : GroupRenderState :=
  if ungrouped then .ungrouped
  else
    match scanMembers effective overrides members {} with
    | .error reason => .degraded reason
    | .ok scan =>
      if !scan.hasMember then .inert
      else if groupExcluded && scan.allExcluded then .excluded
      else if scan.anyExcluded then .degraded .memberExcluded
      else .renderable

def groupState (effective : List PackageEntry)
    (group : InstalledGroup) : GroupRenderState :=
  let groupOp := lastGroupOp group.name active
  deriveGroupState group.members effective (SessionCore.isUngrouped active group.name)
    (groupOp.any fun o => !o.1) (divergentOverrides group.members groupOp)

def packageId (p : PackageEntry) : String := canonicalPackageId p.name p.arch

def countMember (visible : List String) (m : KeyedMap RepoEffective) (p : PackageEntry) :
    KeyedMap RepoEffective :=
  if p.sourceRepo.isEmpty then m
  else
    let id := RepoId.folded ⟨p.sourceRepo⟩
    let e := (m.lookup id).getD {}
    m.insert id
      { memberCount := e.memberCount + 1
        included := e.included + (if p.disposition.isIncluded then 1 else 0)
        unlisted := e.unlisted + (if visible.contains (packageId p) then 0 else 1) }

/-- Operator decisions outrank what the classifier re-derives. -/
def restoreDecision (rows : List PackageEntry) (pkg : Refined PackageEntry) :
    Refined PackageEntry :=
  match rows.find? fun e => e.name == pkg.entry.name && e.arch == pkg.entry.arch with
  | none => pkg
  | some e =>
    { pkg with entry := { pkg.entry with disposition := e.disposition, locked := e.locked } }

def aggregateBucket (ctx : AggregateContext) (item : ItemId) (bucket : TriageBucket)
    (count total : Nat) : AggregateBucket :=
  match ctx.zones.lookup item with
  | some .divergent => if total ≤ count then .investigate else .divergent
  | some .nearConsensus => .partway
  | some .consensus => .universal
  | none =>
    match bucket with
    | .investigate => .investigate
    | .site => .divergent
    | .baseline => .universal

def aggregateTriage (ctx : AggregateContext) (item : ItemId)
    (aggregate : Option AggregatePrevalence) (tag : TriageTag) : TriageTag :=
  let count := (aggregate.map fun a => a.count.toNat).getD 0
  let total := (aggregate.map fun a => a.total.toNat).getD ctx.totalHosts
  { tag with triage := .aggregate (aggregateBucket ctx item tag.bucket count total) ⟨count, total⟩ }

def RefineMode.isAggregate : RefineMode → Bool
  | .aggregate _ => true
  | .singleHost => false

def triagePackage (mode : RefineMode) (pkg : Refined PackageEntry) : Refined PackageEntry :=
  match mode with
  | .singleHost => pkg
  | .aggregate ctx =>
    { pkg with triage :=
        aggregateTriage ctx (.package pkg.entry.name pkg.entry.arch) pkg.entry.aggregate pkg.triage }

def triageConfig (mode : RefineMode) (cfg : Refined ConfigFileEntry) : Refined ConfigFileEntry :=
  match mode with
  | .singleHost => cfg
  | .aggregate ctx =>
    { cfg with triage :=
        aggregateTriage ctx (.config cfg.entry.path) cfg.entry.aggregate cfg.triage }

def sameName (p q : PackageEntry) : Bool := p.name == q.name && p.arch == q.arch

/-- Packages the normalizers excluded, which dnf resolves by itself. -/
def hiddenDeps (mode : RefineMode) (original : InspectionSnapshot) : List PackageEntry :=
  (rpmPackages original).filter fun p =>
    !p.disposition.isIncluded && !(mode.isAggregate && isPartial p.aggregate)

def isListed (hidden : List PackageEntry) (pkg : Refined PackageEntry) : Bool :=
  pkg.triage.primaryReason != .packagePlatformPlumbing &&
    (pkg.entry.disposition.isIncluded || !hidden.any (sameName pkg.entry) ||
      pkg.triage.bucket == .investigate)

/-- The last row of a name and arch is the one a map built from the rows keeps. -/
def originalInclude (p : PackageEntry) : Option Bool :=
  ((rpmPackages original).reverse.find? (sameName p)).map (·.disposition.isIncluded)

def ungroupedMembers : List String :=
  (original.installedGroups.filter fun g => SessionCore.isUngrouped active g.name).flatMap (·.members)

def isLeafListed (leaves : List String) (pkg : Refined PackageEntry) : Bool :=
  leaves.contains (packageId pkg.entry) || pkg.triage.bucket == .investigate ||
    pkg.entry.disposition.isIncluded !=
      (originalInclude original pkg.entry).getD pkg.entry.disposition.isIncluded ||
    (ungroupedMembers original active).contains pkg.entry.name

def filterListed (mode : RefineMode) (original : InspectionSnapshot) (active : List TimelineEntry)
    (rpm : Option RpmSection) (packages : List (Refined PackageEntry)) :
    List (Refined PackageEntry) :=
  match rpm with
  | none => packages
  | some rpm =>
    let packages := packages.filter fun p =>
      !(rpm.baselineSuppressed.getD []).contains (packageId p.entry)
    match rpm.leafPackages with
    | none => packages
    | some leaves =>
      if mode.isAggregate then packages
      else packages.filter (isLeafListed original active leaves)

/-- The projected snapshot with every package at the state its row is shown in. -/
def syncClassified (classified : List (Refined PackageEntry)) (snap : InspectionSnapshot) :
    InspectionSnapshot :=
  snap.onRpm fun rpm =>
    { rpm with packagesAdded := rpm.packagesAdded.map fun p =>
        match classified.reverse.find? fun c => packageId c.entry == packageId p with
        | none => p
        | some c =>
          { p with
            disposition := .fromBool c.entry.disposition.isIncluded
            locked := c.entry.locked } }

def SectionStats.fromDispositions (kind : SectionKind) (ds : List FindingKind) : SectionStats where
  kind := kind
  total := ds.length
  included := ds.countP (· == .actionable true)
  excluded := ds.countP (· == .actionable false)
  advisory := ds.countP fun d => !d.isActionable

def originalIncludes : TextMap Bool :=
  (rpmPackages original).foldl (fun m p => m.insert (packageId p) p.disposition.isIncluded) ∅

def previewIncludes (order : HashOrder.Order) (original : InspectionSnapshot) : TextMap Bool :=
  let byName : AList fun _ : String × String => Bool :=
    (rpmPackages original).foldl (fun m p => m.insert (p.name, p.arch) p.disposition.isIncluded) ∅
  (order.iter byName.entries).foldl
    (fun m e => m.insert (canonicalPackageId e.1.1 e.1.2) e.2) ∅

structure ViewParts where
  packages : List (Refined PackageEntry)
  configFiles : List (Refined ConfigFileEntry)
  /-- The projection the preview renders. -/
  shown : InspectionSnapshot

def viewParts (h : Hashing) (c : SessionCore) : ViewParts :=
  let projected := c.projected h
  let all := ((classifyPackages projected).map (restoreDecision (rpmPackages projected))).map
    (triagePackage c.refineMode)
  { packages := filterListed c.refineMode c.original c.history.active projected.rpm
      (all.filter (isListed (hiddenDeps c.refineMode c.original)))
    configFiles := (classifyConfigs projected).map (triageConfig c.refineMode)
    shown := syncClassified all projected }

def effectivePackages (shown : InspectionSnapshot) : List PackageEntry :=
  (rpmPackages shown).filter isEffectiveMember

def groupStates (c : SessionCore) (effective : List PackageEntry) : TextMap GroupRenderState :=
  c.original.installedGroups.foldl
    (fun m g => m.insert g.name (groupState c.history.active effective g)) ∅

def computeRenderContext (h : Hashing) (disk : Disk) (c : SessionCore) : RenderContext :=
  let shown := (viewParts h c).shown
  { groupStates := groupStates c (effectivePackages shown)
    verifiedUploads := verifiedUploads (proveStagedUploads disk c.uploadDirCanon (rpmPackages shown)) }

def computeRepoEffective (parts : ViewParts) : KeyedMap RepoEffective :=
  (effectivePackages parts.shown).foldl
    (countMember (parts.packages.map fun p => packageId p.entry)) ∅

def computeStats (c : SessionCore) (parts : ViewParts) : RefineStats where
  sections :=
    [.fromDispositions .package (parts.packages.map (·.entry.disposition)),
      .fromDispositions .config (parts.configFiles.map (·.entry.disposition))]
  needsReviewCount := parts.packages.countP (fun p => p.triage.bucket == .investigate) +
    parts.configFiles.countP (fun f => f.triage.bucket == .investigate)
  opsApplied := c.history.cursor
  canUndo := 0 < c.history.cursor
  canRedo := c.history.cursor < c.history.entries.length
  baselineAvailable := c.baselineAvailable

def computeView (env : Env) (c : SessionCore) (ctx : RenderContext) : RefinedView :=
  let parts := viewParts env.toHashing c
  { packages := parts.packages
    configFiles := parts.configFiles
    containerfilePreview := env.preview parts.shown (previewIncludes env.order c.original) ctx
    stats := computeStats c parts
    repoEffective := computeRepoEffective parts
    generation := c.generation }

end Inspectah
