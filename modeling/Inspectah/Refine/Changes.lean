import Inspectah.Refine.View

/-!
Pending changes, and the decision projection that reads them: differences between the opened
snapshot and its projection.
-/
namespace Inspectah

section Rows

variable {α : Type} [FindingRow α]

def inclusionChange (orig proj : α) : Option Bool :=
  let now := (FindingRow.disposition proj).isIncluded
  if (FindingRow.disposition orig).isIncluded = now then none else some now

/-- The ids of the rows whose inclusion became `incl`; rows pair up by position. -/
def changedRows (id : α → ItemId) (incl : Bool) (orig proj : List α) : List ItemId :=
  (List.zip orig proj).filterMap fun rows =>
    if inclusionChange rows.1 rows.2 = some incl then some (id rows.1) else none

end Rows

def SectionChangeSummary.isEmpty (s : SectionChangeSummary) : Bool :=
  s.included.isEmpty && s.excluded.isEmpty

def packageChanges (orig proj : InspectionSnapshot) : SectionChangeSummary :=
  let id (p : PackageEntry) : ItemId := .package p.name p.arch
  match orig.rpm, proj.rpm with
  | some o, some p =>
    ⟨.package, changedRows id true o.packagesAdded p.packagesAdded,
      changedRows id false o.packagesAdded p.packagesAdded⟩
  | _, _ => ⟨.package, [], []⟩

def configChanges (orig proj : InspectionSnapshot) : SectionChangeSummary :=
  let id (f : ConfigFileEntry) : ItemId := .config f.path
  match orig.config, proj.config with
  | some o, some p =>
    ⟨.config, changedRows id true o.files p.files, changedRows id false o.files p.files⟩
  | _, _ => ⟨.config, [], []⟩

section Variants

variable (h : Hashing)

def sameVariant {α : Type} [VariantRow α] (a b : α) : Bool :=
  VariantRow.path b == VariantRow.path a && rowHash h b == rowHash h a

def selectionChanged {α : Type} [VariantRow α] (proj : List α) (orig : α) : Bool :=
  match proj.find? (sameVariant h orig) with
  | none => true
  | some e => VariantRow.selection e != VariantRow.selection orig

def isNewVariant {α : Type} [VariantRow α] (orig : List α) (proj : α) : Bool :=
  !orig.any (sameVariant h proj) && VariantRow.selection proj != .only

def changedVariants {α : Type} [VariantRow α] (orig proj : List α) : Nat :=
  orig.countP (selectionChanged h proj) + proj.countP (isNewVariant h orig)

def composeSelectionChanged (proj : List ComposeFile) (orig : ComposeFile) : Bool :=
  match proj.find? fun e =>
      e.path == orig.path && e.contentVariantKey h == orig.contentVariantKey h with
  | none => true
  | some e => e.variantSelection != orig.variantSelection

def configVariantsChanged (orig proj : InspectionSnapshot) : Nat :=
  match orig.config, proj.config with
  | some o, some p => changedVariants h o.files p.files
  | _, _ => 0

def dropinVariantsChanged (orig proj : InspectionSnapshot) : Nat :=
  match orig.services, proj.services with
  | some o, some p => changedVariants h o.dropIns p.dropIns
  | _, _ => 0

/-- Quadlets, then the selection of compose files. -/
def containerVariantsChanged (orig proj : InspectionSnapshot) : Nat :=
  match orig.containers, proj.containers with
  | some o, some p =>
    changedVariants h o.quadletUnits p.quadletUnits +
      o.composeFiles.countP (composeSelectionChanged h p.composeFiles)
  | _, _ => 0

def variantsChanged (orig proj : InspectionSnapshot) : Nat :=
  configVariantsChanged h orig proj + dropinVariantsChanged h orig proj +
    containerVariantsChanged h orig proj

end Variants

def TimelineEntry.isView : TimelineEntry → Bool
  | .view _ => true
  | _ => false

namespace SessionCore

def repoChanges (h : Hashing) (c : SessionCore) : SectionChangeSummary :=
  ⟨.repo, [], (h.order.iter (excludedSectionsAt c.activeOps)).map fun id => .repo id.raw⟩

def pendingChanges (h : Hashing) (c : SessionCore) : ChangesSummary :=
  let proj := c.projected h
  let sections :=
    [packageChanges c.original proj, configChanges c.original proj, c.repoChanges h].filter
      fun s => !s.isEmpty
  let changed := variantsChanged h c.original proj
  { sections := sections
    variantsChanged := changed
    isDirty := sections.any (fun s => !s.isEmpty) || 0 < changed ||
      c.history.active.any TimelineEntry.isView }

def isDirty (h : Hashing) (c : SessionCore) : Bool := (c.pendingChanges h).isDirty

def reposExcluded (h : Hashing) (c : SessionCore) : List String :=
  (c.repoChanges h).excluded.filterMap fun
    | .repo path => some path
    | _ => none

def isSensitive (h : Hashing) (c : SessionCore) : Bool :=
  let proj := c.projected h
  proj.sensitiveSnapshot || hasNewPassword proj

end SessionCore

def RepoGroup.le (a b : RepoGroup) : Prop :=
  (a.isDistro = true ∧ b.isDistro = false) ∨ (a.isDistro = b.isDistro ∧ a.sectionId ≤ b.sectionId)

instance : DecidableRel RepoGroup.le := fun a b => inferInstanceAs (Decidable
  ((a.isDistro = true ∧ b.isDistro = false) ∨ (a.isDistro = b.isDistro ∧ a.sectionId ≤ b.sectionId)))

def repoGroup (index : RepoIndex) (packages : List (Refined PackageEntry)) (excluded : List String)
    (sectionId : String) : RepoGroup where
  sectionId := sectionId
  provenance := if sectionId.isEmpty then .unknown else index.provenance ⟨sectionId⟩
  isDistro := !sectionId.isEmpty && RepoIndex.isDistroRepo sectionId
  tier := repoTier sectionId
  packageCount := packages.countP fun p => p.entry.sourceRepo == sectionId
  enabled := !excluded.contains sectionId

def buildRepoGroups (h : Hashing) (c : SessionCore) (packages : List (Refined PackageEntry)) :
    List RepoGroup :=
  let ids := packages.map (·.entry.sourceRepo) ++
    c.repoIndex.packagesByRepo.entries.map fun e => e.2.1.raw
  (ids.dedup.map (repoGroup c.repoIndex packages (c.reposExcluded h))).insertionSort RepoGroup.le

def strategyName : ResolutionStrategy → String
  | .cliOverride => "cli-override"
  | .universalBlue => "universal-blue"
  | .bootcStatus => "bootc-status"
  | .fedoraAtomicDesktop => "fedora-atomic-desktop"
  | .osRelease => "os-release"

def deriveBaselineSummary (snap : InspectionSnapshot) (packages : List (Refined PackageEntry)) :
    Option BaselineSummary :=
  match snap.targetImage, snap.baseline with
  | some target, some baseline => some
      { imageRef := target.imageRef
        imageDigest := baseline.imageDigest
        strategy := strategyName target.strategy
        baselineCount := packages.countP fun p => p.triage.primaryReason == .packageBaselineMatch
        userAddedCount := packages.countP fun p => p.triage.primaryReason == .packageUserAdded
        reviewCount := packages.countP fun p => p.triage.bucket == .investigate }
  | _, _ => none

def projectDecisions (env : Env) (c : SessionCore) (packages : List (Refined PackageEntry)) :
    DecisionProjection :=
  let snap := c.projected env.toHashing
  { serviceStates := (classifyServices snap).1
    serviceDropins := (classifyServices snap).2
    quadlets := (classifyContainers snap).1
    flatpaks := (classifyContainers snap).2
    sysctls := classifySysctls snap
    tuned := classifyTuned snap
    repoGroups := buildRepoGroups env.toHashing c packages
    versionChanges := (snap.rpm.map (·.versionChanges)).getD []
    usersGroups := ((snap.usersGroups.map (·.users)).getD []).filterMap env.decodeUser
    isSensitive := c.isSensitive env.toHashing
    baselineSummary := deriveBaselineSummary c.original packages }

end Inspectah
