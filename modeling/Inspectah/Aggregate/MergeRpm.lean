import Inspectah.Core.Snapshot
import Inspectah.Library.Grouping
import Inspectah.Library.HashOrder
import Mathlib.Data.String.Basic

/-!
The generic merge engine: rows are grouped by identity, and a group becomes one row, or one
for each content, stamped with its hosts. The RPM sections go through it; packages are then
cut down to leaves, in which a host without leaf data has no say, though it counts when
packages are narrowed to those every host has.
-/
namespace Inspectah

open Grouping

/-- A row that several hosts can carry; without content variants, or roles, it has no key for
    them. -/
class AggregateMergeable (α : Type) [FindingRow α] where
  identityKey : α → String
  aggregate : α → Option AggregatePrevalence
  setAggregate : Option AggregatePrevalence → α → α
  contentVariantKey : α → Option String
  variantSelection : α → Option VariantSelection
  setVariantSelection : VariantSelection → α → α
  identityKey_decide : ∀ d a, identityKey (FindingRow.decide d a) = identityKey a := by
    intros; rfl
  identityKey_setAggregate : ∀ p a, identityKey (setAggregate p a) = identityKey a := by
    intros; rfl
  identityKey_setVariantSelection : ∀ v a, identityKey (setVariantSelection v a) = identityKey a := by
    intros; rfl
  aggregate_decide : ∀ d a, aggregate (FindingRow.decide d a) = aggregate a := by intros; rfl
  aggregate_setAggregate : ∀ p a, aggregate (setAggregate p a) = p := by intros; rfl
  aggregate_setVariantSelection : ∀ v a, aggregate (setVariantSelection v a) = aggregate a := by
    intros; rfl
  contentVariantKey_decide : ∀ d a,
    contentVariantKey (FindingRow.decide d a) = contentVariantKey a := by intros; rfl
  contentVariantKey_setAggregate : ∀ p a,
    contentVariantKey (setAggregate p a) = contentVariantKey a := by intros; rfl
  contentVariantKey_setVariantSelection : ∀ v a,
    contentVariantKey (setVariantSelection v a) = contentVariantKey a := by intros; rfl
  variantSelection_decide : ∀ d a,
    variantSelection (FindingRow.decide d a) = variantSelection a := by intros; rfl
  variantSelection_setAggregate : ∀ p a,
    variantSelection (setAggregate p a) = variantSelection a := by intros; rfl
  variantSelection_setVariantSelection : ∀ v a,
    variantSelection (setVariantSelection v a) = (variantSelection a).map fun _ => v := by
      intros; rfl
  disposition_setAggregate : ∀ p a,
    FindingRow.disposition (setAggregate p a) = FindingRow.disposition a := by intros; rfl
  disposition_setVariantSelection : ∀ v a,
    FindingRow.disposition (setVariantSelection v a) = FindingRow.disposition a := by intros; rfl

attribute [simp] AggregateMergeable.identityKey_decide AggregateMergeable.identityKey_setAggregate
  AggregateMergeable.identityKey_setVariantSelection AggregateMergeable.aggregate_decide
  AggregateMergeable.aggregate_setAggregate AggregateMergeable.aggregate_setVariantSelection
  AggregateMergeable.contentVariantKey_decide AggregateMergeable.contentVariantKey_setAggregate
  AggregateMergeable.contentVariantKey_setVariantSelection
  AggregateMergeable.variantSelection_decide AggregateMergeable.variantSelection_setAggregate
  AggregateMergeable.variantSelection_setVariantSelection
  AggregateMergeable.disposition_setAggregate AggregateMergeable.disposition_setVariantSelection

/-- `serde_json::to_string`. -/
class Serialize (α : Type) where
  toJson : α → String

open AggregateMergeable

abbrev HostRow (α : Type) := Nat × α

section Engine

variable {α : Type} [FindingRow α] [AggregateMergeable α]

def AggregateMergeable.setInclude (val : Bool) (a : α) : α :=
  FindingRow.decide ((FindingRow.disposition a).withInclude val) a

/-- Fewer hosts carry the row than there are. -/
def isDominated (a : α) : Bool := (aggregate a).any fun f => decide (f.count < f.total)

/-- One row of `narrow_non_universal`. -/
def narrowNonUniversal (a : α) : α := if isDominated a then setInclude false a else a

def hostsOf (hostnames : List String) (rows : List (HostRow α)) : List String :=
  distinctSorted (rows.map fun row => hostnames.getD row.1 "")

def prevalenceOf (totalHosts : Nat) (hostnames : List String) (rows : List (HostRow α)) :
    AggregatePrevalence :=
  { count := (hostsOf hostnames rows).length
    total := totalHosts
    hosts := hostsOf hostnames rows }

def stampPrevalence (prevalence : AggregatePrevalence) (a : α) : α :=
  setInclude true (setAggregate (some prevalence) a)

section Payload

variable [Serialize α]

/-- How many rows have a payload, and the position of the first of them. -/
structure PayloadCount where
  payload : String
  count : Nat
  first : Nat
  deriving DecidableEq

/-- The row as text, with what merging writes blanked out. -/
def payloadOf (a : α) : String := Serialize.toJson (setInclude true (setAggregate none a))

def countPayload (payload : String) (pos : Nat) : List PayloadCount → List PayloadCount
  | [] => [⟨payload, 1, pos⟩]
  | c :: rest =>
    if c.payload = payload then { c with count := c.count + 1 } :: rest
    else c :: countPayload payload pos rest

def payloadCounts (rows : List α) : List PayloadCount :=
  rows.zipIdx.foldl (fun counts row => countPayload (payloadOf row.1) row.2 counts) []

def PayloadCount.before (a b : PayloadCount) : Prop :=
  b.count < a.count ∨ (a.count = b.count ∧ a.first ≤ b.first)

instance : DecidableRel PayloadCount.before := fun a b =>
  inferInstanceAs (Decidable (b.count < a.count ∨ (a.count = b.count ∧ a.first ≤ b.first)))

def mostPrevalentPayload (rows : List α) : Option α :=
  ((payloadCounts rows).insertionSort PayloadCount.before).head?.bind fun c => rows[c.first]?

end Payload

def hostCount (rows : List (HostRow α)) : Nat := (distinctSorted (rows.map Prod.fst)).length

/-- More hosts first; of equally many, the lesser content hash. -/
def ranksBefore (a b : String × List (HostRow α)) : Prop :=
  hostCount b.2 < hostCount a.2 ∨ (hostCount a.2 = hostCount b.2 ∧ a.1 ≤ b.1)

instance : DecidableRel (@ranksBefore α) := fun a b =>
  inferInstanceAs (Decidable (hostCount b.2 < hostCount a.2 ∨
    (hostCount a.2 = hostCount b.2 ∧ a.1 ≤ b.1)))

def variantRole (rank : Nat) : VariantSelection := if rank = 0 then .selected else .alternative

def variantRow (totalHosts : Nat) (hostnames aggregateHosts : List String)
    (ranked : (String × List (HostRow α)) × Nat) : Option α :=
  ranked.1.2.head?.map fun first =>
    setVariantSelection (variantRole ranked.2)
      (stampPrevalence
        { prevalenceOf totalHosts hostnames ranked.1.2 with
          aggregateCount := some aggregateHosts.length
          aggregateHosts := some aggregateHosts }
        first.2)

/-- The rows one group's contents become. A single content keeps its first row's selection. -/
def mergeSubgroups (totalHosts : Nat) (hostnames : List String) :
    List (String × List (HostRow α)) → List α
  | [(_, rows)] =>
    (rows.head?.map fun first =>
      stampPrevalence (prevalenceOf totalHosts hostnames rows) first.2).toList
  | subgroups =>
    let aggregateHosts := hostsOf hostnames (subgroups.flatMap Prod.snd)
    let ranked := subgroups.insertionSort ranksBefore
    (ranked.zipIdx.filterMap (variantRow totalHosts hostnames aggregateHosts)).map narrowNonUniversal

def variantKeyOf (row : HostRow α) : String := (contentVariantKey row.2).getD ""

/-- `none` where the program panics: a row of the group has no variant key. -/
def mergeWithVariants (order : HashOrder.Order) (group : List (HostRow α)) (totalHosts : Nat)
    (hostnames : List String) : Option (List α) :=
  if group.any fun row => (contentVariantKey row.2).isNone then none
  else some (mergeSubgroups totalHosts hostnames (order.iter (groupBy variantKeyOf group)))

variable [Serialize α]

/-- The rows one identity's group becomes. Whether it has variants is read off
    its first row. -/
def mergeGroup (order : HashOrder.Order) (totalHosts : Nat) (hostnames : List String)
    (group : List (HostRow α)) : Option (List α) :=
  let group := group.insertionSort fun a b => a.1 ≤ b.1
  match group.head? with
  | none => some []
  | some first =>
    if (contentVariantKey first.2).isSome then mergeWithVariants order group totalHosts hostnames
    else
      some ((mostPrevalentPayload (group.map Prod.snd)).map
        (stampPrevalence (prevalenceOf totalHosts hostnames group))).toList

def mergeItems (order : HashOrder.Order) (items : List (HostRow α)) (totalHosts : Nat)
    (hostnames : List String) : Option (List α) :=
  let groups := order.iter (groupBy (fun row : HostRow α => identityKey row.2) items)
  (groups.mapM fun group => mergeGroup order totalHosts hostnames group.2).map fun results =>
    (results.flatten.map narrowNonUniversal).insertionSort fun a b => identityKey a ≤ identityKey b

end Engine

end Inspectah

namespace Inspectah

open Grouping

def nameArch (name arch : String) : String := name ++ "." ++ arch

instance : AggregateMergeable PackageEntry where
  identityKey e := nameArch e.name e.arch
  aggregate := (·.aggregate)
  setAggregate p e := { e with aggregate := p }
  contentVariantKey _ := none
  variantSelection _ := none
  setVariantSelection _ e := e

instance : AggregateMergeable RepoFile where
  identityKey e := e.path
  aggregate := (·.aggregate)
  setAggregate p e := { e with aggregate := p }
  contentVariantKey _ := none
  variantSelection _ := none
  setVariantSelection _ e := e

instance : AggregateMergeable EnabledModuleStream where
  identityKey e := e.moduleName ++ ":" ++ e.stream
  aggregate := (·.aggregate)
  setAggregate p e := { e with aggregate := p }
  contentVariantKey _ := none
  variantSelection _ := none
  setVariantSelection _ e := e

instance : AggregateMergeable VersionLockEntry where
  identityKey e := nameArch e.name e.arch
  aggregate := (·.aggregate)
  setAggregate p e := { e with aggregate := p }
  contentVariantKey _ := none
  variantSelection _ := none
  setVariantSelection _ e := e

section Collect

variable {σ α : Type}

def collectItems (sections : List (Option σ)) (rows : σ → List α) : List (HostRow α) :=
  sections.zipIdx.flatMap fun sec => (sec.1.map rows).getD [] |>.map fun row => (sec.2, row)

def collectStringLists (sections : List (Option σ)) (texts : σ → List String) :
    List (List String) :=
  sections.filterMap fun sec => sec.map texts

def dedupStrings (lists : List (List String)) : List String := distinctSorted lists.flatten

def mergeByKey (sections : List (Option σ)) (rows : σ → List α) (key : α → String) : List α :=
  (firstOfEach key [] ((sections.filterMap id).flatMap rows)).insertionSort fun a b =>
    key a ≤ key b

def hostsByName (sections : List (Option σ)) (hostnames : List String) (value : σ → Option α) :
    List (String × α) :=
  (sections.zipIdx.filterMap fun sec =>
    (sec.1.bind value).map fun v => (hostnames.getD sec.2 "", v)).insertionSort fun a b => a.1 ≤ b.1

def firstHostOption (sections : List (Option σ)) (hostnames : List String) (value : σ → Option α) :
    Option α :=
  (hostsByName sections hostnames value).head?.map (·.2)

def baselineHostOption (sections : List (Option σ)) (baselineIdx : Option Nat)
    (value : σ → Option α) : Option α :=
  baselineIdx.bind fun idx => (sections[idx]?.join).bind value

end Collect

def leafLists (sections : List (Option RpmSection)) : List (List String) :=
  sections.filterMap fun sec => sec.bind (·.leafPackages)

/-- The packages that are leaves on every authoritative host. -/
def leafIntersection : List (List String) → Option (List String)
  | [] => none
  | first :: rest => some (distinctSorted (first.filter fun name => rest.all (·.contains name)))

def mergedDepTree (sections : List (Option RpmSection)) (hostnames leaves : List String) : Json :=
  match firstHostOption sections hostnames fun rpm => rpm.leafPackages.map fun _ => rpm.leafDepTree with
  | some (Json.obj fields) => .obj (fields.filter fun f => leaves.contains f.1)
  | _ => .obj []

def isUniversal (pkg : PackageEntry) : Bool :=
  pkg.aggregate.any fun f => decide (f.total ≤ f.count)

def survivesLeafFilter (leaves : List String) (lists : List (List String)) (pkg : PackageEntry) :
    Bool :=
  let id := nameArch pkg.name pkg.arch
  if isUniversal pkg then leaves.contains id else lists.any (·.contains id)

/-- A leaf of every authoritative host is included, whatever narrowing decided. -/
def forceLeaf (leaves : List String) (pkg : PackageEntry) : PackageEntry :=
  if leaves.contains (nameArch pkg.name pkg.arch) then
    { pkg with disposition := .included }
  else pkg

def cutToLeaves (lists : List (List String)) (packages : List PackageEntry) : List PackageEntry :=
  match leafIntersection lists with
  | none => packages
  | some leaves => (packages.filter (survivesLeafFilter leaves lists)).map (forceLeaf leaves)

/-- What hash tables and `str::to_lowercase` do. -/
structure MergeEnv where
  order : HashOrder.Order
  lowercase : String → String

/-- More hosts first; of equally many, the lesser repository. -/
def RepoSourceEntry.before (a b : RepoSourceEntry) : Prop :=
  b.hostCount < a.hostCount ∨ (a.hostCount = b.hostCount ∧ a.repo ≤ b.repo)

instance : DecidableRel RepoSourceEntry.before := fun a b =>
  inferInstanceAs (Decidable (b.hostCount < a.hostCount ∨
    (a.hostCount = b.hostCount ∧ a.repo ≤ b.repo)))

def repoCounts (env : MergeEnv) (sections : List (Option RpmSection)) (pkg : PackageEntry) :
    List RepoSourceEntry :=
  let rows := ((sections.filterMap id).flatMap (·.packagesAdded)).filter fun p =>
    p.name == pkg.name && p.arch == pkg.arch && !p.sourceRepo.isEmpty
  (env.order.iter (groupBy (fun p : PackageEntry => env.lowercase p.sourceRepo) rows)).map
    fun group => ⟨group.1, group.2.length⟩

/-- The ranked sources of a package whose hosts disagree across tiers. -/
def conflictOf (env : MergeEnv) (sections : List (Option RpmSection)) (pkg : PackageEntry) :
    Option (List RepoSourceEntry) :=
  let counts := repoCounts env sections pkg
  if counts.length < 2 then none
  else if (counts.map fun e => repoTier e.repo).dedup.length < 2 then none
  else some (counts.insertionSort RepoSourceEntry.before)

def repoConflicts (env : MergeEnv) (sections : List (Option RpmSection))
    (packages : List PackageEntry) : TextMap (List RepoSourceEntry) :=
  packages.foldl (fun conflicts pkg =>
    match conflictOf env sections pkg with
    | none => conflicts
    | some entries => conflicts.insert (nameArch pkg.name pkg.arch) entries) ∅

/-- The majority repository of a conflict replaces the one the row came with. -/
def reconcileSource (conflicts : TextMap (List RepoSourceEntry)) (pkg : PackageEntry) :
    PackageEntry :=
  match (conflicts.lookup (nameArch pkg.name pkg.arch)).bind List.head? with
  | none => pkg
  | some winner => { pkg with sourceRepo := winner.repo }

section Merge

variable [Serialize PackageEntry] [Serialize RepoFile] [Serialize EnabledModuleStream]
  [Serialize VersionLockEntry]

/-- `none` where the engine panics, `some none` when no host has the section. -/
def mergeRpmSections (env : MergeEnv) (sections : List (Option RpmSection)) (totalHosts : Nat)
    (hostnames : List String) (baselineHostIdx : Option Nat) :
    Option (Option (RpmSection × TextMap (List RepoSourceEntry))) := do
  if sections.all (·.isNone) then return none
  let packagesAdded ← mergeItems env.order (collectItems sections (·.packagesAdded)) totalHosts hostnames
  let baseImageOnly ← mergeItems env.order (collectItems sections (·.baseImageOnly)) totalHosts hostnames
  let repoFiles ← mergeItems env.order (collectItems sections (·.repoFiles)) totalHosts hostnames
  let gpgKeys ← mergeItems env.order (collectItems sections (·.gpgKeys)) totalHosts hostnames
  let moduleStreams ← mergeItems env.order (collectItems sections (·.moduleStreams)) totalHosts hostnames
  let versionLocks ← mergeItems env.order (collectItems sections (·.versionLocks)) totalHosts hostnames
  let lists := leafLists sections
  let leafPackages := leafIntersection lists
  let packages := cutToLeaves lists packagesAdded
  let conflicts := repoConflicts env sections packages
  return some
    ({ packagesAdded := packages.map (reconcileSource conflicts)
       baseImageOnly := baseImageOnly
       rpmVa := mergeByKey sections (·.rpmVa) (·.path)
       repoFiles := repoFiles
       gpgKeys := gpgKeys
       dnfHistoryRemoved := dedupStrings (collectStringLists sections (·.dnfHistoryRemoved))
       versionChanges := mergeByKey sections (·.versionChanges) fun vc =>
         nameArch vc.name vc.arch
       leafPackages := leafPackages
       autoPackages := none
       leafDepTree :=
         match leafPackages with
         | none => .obj []
         | some leaves => mergedDepTree sections hostnames leaves
       moduleStreams := moduleStreams
       versionLocks := versionLocks
       moduleStreamConflicts := dedupStrings (collectStringLists sections (·.moduleStreamConflicts))
       baselineModuleStreams := baselineHostOption sections baselineHostIdx (·.baselineModuleStreams)
       versionlockCommandOutput := firstHostOption sections hostnames (·.versionlockCommandOutput)
       multiarchPackages := dedupStrings (collectStringLists sections (·.multiarchPackages))
       duplicatePackages := dedupStrings (collectStringLists sections (·.duplicatePackages))
       ostreeOverrides := mergeByKey sections (·.ostreeOverrides) (·.name)
       ostreeRemovals := dedupStrings (collectStringLists sections (·.ostreeRemovals))
       baseImage := baselineHostOption sections baselineHostIdx (·.baseImage)
       baselinePackageNames := baselineHostOption sections baselineHostIdx (·.baselinePackageNames)
       leafAuthorityHosts := some lists.length
       leafTotalHosts := some totalHosts
       baselineSuppressed := baselineHostOption sections baselineHostIdx (·.baselineSuppressed)
       fileOwnership := mergeByKey sections (·.fileOwnership) (·.packageName)
       installedGroups := none }, conflicts)

/-- A host without a name in its metadata is called `<unknown>`. -/
def extractHostname (snap : InspectionSnapshot) : String :=
  ((snap.metadata.lookup "hostname").bind Json.asStr).getD "<unknown>"

/-- The canonical order of hosts: by name, whatever order they were given in. -/
def sortedHosts (snapshots : List InspectionSnapshot) : List (String × InspectionSnapshot) :=
  (snapshots.map fun snap => (extractHostname snap, snap)).insertionSort fun a b => a.1 ≤ b.1

/-- The RPM section `merge_snapshots` gives the merged snapshot. -/
def mergedRpm (env : MergeEnv) (snapshots : List InspectionSnapshot) (baselineHostIdx : Option Nat) :
    Option (Option (RpmSection × TextMap (List RepoSourceEntry))) :=
  mergeRpmSections env ((sortedHosts snapshots).map (·.2.rpm)) snapshots.length
    ((sortedHosts snapshots).map (·.1)) baselineHostIdx

end Merge

@[reducible] def packageJson : Serialize PackageEntry := ⟨fun e => e.name ++ "-" ++ e.version⟩
@[reducible] def repoFileJson : Serialize RepoFile := ⟨fun f => f.path ++ f.content⟩
@[reducible] def moduleStreamJson : Serialize EnabledModuleStream := ⟨fun m => m.moduleName ++ m.stream⟩
@[reducible] def versionLockJson : Serialize VersionLockEntry := ⟨fun v => v.rawPattern⟩

def sampleMerging : MergeEnv := ⟨.insertion, Text.asciiLower⟩

end Inspectah
