import Inspectah.Library.FirstMatch
import Inspectah.Refine.Materialize
import Inspectah.Refine.Types

/-!
The projection: the active operations replayed in order, variants materialized, sensitivity
raised, locks clamped, and packages that brought a repository demoted where it is no longer
carried.
-/
namespace Inspectah

variable (snap : InspectionSnapshot) (original : InspectionSnapshot)

def YUM_REPOS_DIR : String := "/etc/yum.repos.d/"

def REPO_CONFIG_DIRS : List String := [YUM_REPOS_DIR, "/etc/pki/rpm-gpg/"]

structure ServingLoss where
  id : RepoId
  file : Option String

inductive RepoEnablingExport where
  | notEnabling
  | served
  | lost (loss : ServingLoss)

section

variable (rpm : RpmSection)

def definingFile (id : RepoId) : Option String :=
  (rpm.repoFiles.find? fun f =>
    (parseRepoSections f.content).any fun s => s.id.folded == id.folded).map (·.path)

def keysIncluded (paths : List String) : Bool :=
  paths.all fun path => rpm.gpgKeys.any fun k => k.disposition.isIncluded && k.path == path

def sectionSurvives (id : RepoId) : Bool :=
  (rpm.repoFiles.filter (·.disposition.isIncluded)).any fun f =>
    (parseRepoSections f.content).any fun s =>
      s.id.folded == id.folded && s.enabled && keysIncluded rpm s.gpgKeyPaths

def droppedOwnedPath (pkg : PackageEntry) : Option String :=
  (rpm.fileOwnership.find? fun entry => entry.packageName == pkg.name).bind fun owned =>
    (owned.paths.filter fun path => REPO_CONFIG_DIRS.any (Text.startsWith path)).find? fun path =>
      !(rpm.repoFiles ++ rpm.gpgKeys).any fun f => f.path == path && f.disposition.isIncluded

def repoEnablingExport (pkg : PackageEntry) : RepoEnablingExport :=
  match pkg.repoEnablingFrom with
  | [] => .notEnabling
  | firstId :: _ =>
    let named := (pkg.repoEnablingFrom.findSome? fun id =>
      (definingFile rpm id).map fun f => (id, some f)).getD (firstId, none)
    match droppedOwnedPath rpm pkg with
    | some dropped => .lost ⟨named.1, some dropped⟩
    | none =>
      if pkg.repoEnablingFrom.any (sectionSurvives rpm) then .served
      else .lost ⟨named.1, named.2⟩

def demotePackage (pkg : PackageEntry) : PackageEntry :=
  if pkg.disposition.isIncluded then
    match repoEnablingExport rpm pkg with
    | .lost loss =>
      { pkg with repolessAnnotation := "No repo source: the repo that served " ++ pkg.name ++ " (" ++
          loss.id.raw ++ ") is not carried by this export" }
    | .served => pkg
    | .notEnabling => pkg
  else pkg

end

/-- Every package is judged against the section as it was before any demotion. -/
def demoteUnservedRepoEnabling : InspectionSnapshot :=
  snap.onRpm fun rpm => { rpm with packagesAdded := rpm.packagesAdded.map (demotePackage rpm) }

def isItemLocked (snap : InspectionSnapshot) : ItemId → Bool
  | .package name arch => ((snap.rpm.bind fun r =>
      r.packagesAdded.find? fun e => e.name == name && e.arch == arch).map (·.locked)).getD false
  | .config path => ((snap.config.bind fun c =>
      c.files.find? fun e => e.path == path).map (·.locked)).getD false
  | .service unit => ((snap.services.bind fun s =>
      s.stateChanges.find? fun e => e.unit == unit).map (·.locked)).getD false
  | .dropIn path => ((snap.services.bind fun s =>
      s.dropIns.find? fun e => e.path == path).map (·.locked)).getD false
  | .quadlet path => ((snap.containers.bind fun c =>
      c.quadletUnits.find? fun e => e.path == path).map (·.locked)).getD false
  | .flatpak appId remote branch => ((snap.containers.bind fun c =>
      c.flatpakApps.find? fun e =>
        e.appId == appId && e.remote == remote && e.branch == branch).map (·.locked)).getD false
  | .fstab mountPoint => ((snap.storage.bind fun s =>
      s.fstabEntries.find? fun e => e.mountPoint == mountPoint).map (·.locked)).getD false
  | .sysctl key => ((snap.kernelBoot.bind fun k =>
      k.sysctlOverrides.find? fun e => e.key == key).map (·.locked)).getD false
  | _ => false

/-- Network rows are inventory unless a scan said otherwise; inventory stays. -/
def clampLockedDecision {α : Type} [LockableRow α] (a : α) : α :=
  if LockableRow.locked a && !(FindingRow.disposition a).isInventory then
    FindingRow.decide .excluded a
  else a

def clampRpm (rpm : RpmSection) : RpmSection :=
  { rpm with
    packagesAdded := rpm.packagesAdded.map clampLocked
    moduleStreams := rpm.moduleStreams.map clampLocked
    versionLocks := rpm.versionLocks.map clampLocked
    repoFiles := rpm.repoFiles.map clampLocked }

def clampServices (s : ServiceSection) : ServiceSection :=
  { s with
    stateChanges := s.stateChanges.map clampLocked
    dropIns := s.dropIns.map clampLocked }

def clampContainers (c : ContainerSection) : ContainerSection :=
  { c with
    quadletUnits := c.quadletUnits.map clampLocked
    composeFiles := c.composeFiles.map clampLocked
    runningContainers := c.runningContainers.map clampLocked
    flatpakApps := c.flatpakApps.map clampLocked }

def clampNetwork (n : NetworkSection) : NetworkSection :=
  { n with
    connections := n.connections.map clampLockedDecision
    firewallZones := n.firewallZones.map clampLockedDecision
    firewallDirectRules := n.firewallDirectRules.map clampLockedDecision }

def clampScheduled (s : ScheduledTaskSection) : ScheduledTaskSection :=
  { s with
    cronJobs := s.cronJobs.map clampLocked
    systemdTimers := s.systemdTimers.map clampLocked
    atJobs := s.atJobs.map clampLocked
    generatedTimerUnits := s.generatedTimerUnits.map clampLocked }

/-- Keys, base-image-only packages, environment files and unmanaged files are not visited. -/
def clampLockedItems : InspectionSnapshot :=
  { snap with
    rpm := snap.rpm.map clampRpm
    config := snap.config.map fun c => { c with files := c.files.map clampLocked }
    services := snap.services.map clampServices
    containers := snap.containers.map clampContainers
    storage := snap.storage.map fun s => { s with fstabEntries := s.fstabEntries.map clampLocked }
    kernelBoot := snap.kernelBoot.map fun k =>
      { k with sysctlOverrides := k.sysctlOverrides.map clampLocked }
    network := snap.network.map clampNetwork
    scheduledTasks := snap.scheduledTasks.map clampScheduled
    selinux := snap.selinux.map fun s => { s with portLabels := s.portLabels.map clampLocked }
    nonRpmSoftware := snap.nonRpmSoftware.map fun n => { n with items := n.items.map clampLocked } }

theorem clampLockedDecision_excludes {α : Type} [LockableRow α] (a : α)
    (locked : LockableRow.locked a = true) :
    (FindingRow.disposition (clampLockedDecision a)).isIncluded = false := by
  unfold clampLockedDecision
  rw [locked, Bool.true_and]
  split
  · simp
  · rename_i inventory
    cases h : FindingRow.disposition a <;> simp_all [FindingKind.isInventory, FindingKind.isIncluded]

@[simp] theorem locked_clampLockedDecision {α : Type} [LockableRow α] (a : α) :
    LockableRow.locked (clampLockedDecision a) = LockableRow.locked a := by
  unfold clampLockedDecision
  split <;> simp

open FirstMatch

def excludeSection (excluded : List RepoId) : RefinementOp → List RepoId
  | .setInclude (.repo path) incl =>
    let id : RepoId := ⟨path⟩
    if incl then excluded.filter fun e => e.folded != id.folded
    else if excluded.any fun e => e.folded == id.folded then excluded
    else excluded ++ [id]
  | _ => excluded

def excludedSectionsAt (ops : List RefinementOp) : List RepoId := ops.foldl excludeSection []

def cascadeRepoPackages (sectionId : String) (incl : Bool) (rpm : RpmSection) : RpmSection :=
  { rpm with
    packagesAdded := updateWhere
      (fun p => Text.eqIgnoreAsciiCase p.sourceRepo sectionId && !p.locked)
      (FindingRow.decide (.fromBool incl)) rpm.packagesAdded }

def decideRepoFile (path : String) (d : FindingKind) (rpm : RpmSection) : RpmSection :=
  { rpm with repoFiles := updateFirst (·.path == path) (FindingRow.decide d) rpm.repoFiles }

def decideGpgKey (path : String) (d : FindingKind) (rpm : RpmSection) : RpmSection :=
  { rpm with gpgKeys := updateFirst (·.path == path) (FindingRow.decide d) rpm.gpgKeys }

section Repo

variable (index : RepoIndex) (excluded : List RepoId)

def isSectionExcluded (folded : String) : Bool := excluded.any fun e => e.folded == folded

def fileFullyExcluded (file : String) : Bool :=
  index.repoFileBySection.entries.all fun e => !e.2.contains file || isSectionExcluded excluded e.1

def keyFullyExcluded (key : String) : Bool :=
  match index.sectionsByGpgKey.lookup key with
  | none => false
  | some sections => sections.all (isSectionExcluded excluded)

def excludeRepo (sectionId : String) (rpm : RpmSection) : RpmSection :=
  let id : RepoId := ⟨sectionId⟩
  let rpm := cascadeRepoPackages sectionId false rpm
  let rpm := (index.filesOf id).foldl
    (fun rpm file =>
      if fileFullyExcluded index excluded file then decideRepoFile file .excluded rpm else rpm) rpm
  (index.keysOf id).foldl
    (fun rpm key =>
      if keyFullyExcluded index excluded key then decideGpgKey key .excluded rpm else rpm) rpm

def includeRepo (sectionId : String) (rpm : RpmSection) : RpmSection :=
  let id : RepoId := ⟨sectionId⟩
  let rpm := cascadeRepoPackages sectionId true rpm
  let rpm := (index.filesOf id).foldl (fun rpm file => decideRepoFile file .included rpm) rpm
  (index.keysOf id).foldl (fun rpm key => decideGpgKey key .included rpm) rpm

end Repo

def setService (unit : String) (incl : Bool) (s : ServiceSection) : ServiceSection :=
  { s with
    stateChanges := updateFirst (·.unit == unit) (FindingRow.decide (.fromBool incl)) s.stateChanges
    dropIns := updateWhere (·.unit == unit) (FindingRow.decide (.fromBool incl)) s.dropIns }

def setGroup (members : List String) (incl : Bool) (rpm : RpmSection) : RpmSection :=
  { rpm with
    packagesAdded := updateWhere (fun p => members.contains p.name && !(incl && p.locked))
      (FindingRow.decide (.fromBool incl)) rpm.packagesAdded }

def groupMembers (name : String) : List String :=
  ((snap.installedGroups.find? fun g => g.name == name).map (·.members)).getD []

/-- The `SetInclude` arm. A stale inclusion of a locked item is skipped; a kind without an arm
    changes nothing. -/
def setInclude (index : RepoIndex) (excluded : List RepoId)
    (item : ItemId) (incl : Bool) (snap : InspectionSnapshot) : InspectionSnapshot :=
  if incl && isItemLocked original item then snap
  else
    match item with
    | .package name arch => snap.onRpm fun rpm =>
        { rpm with
          packagesAdded := updateFirst (fun e => e.name == name && e.arch == arch)
            (FindingRow.decide (.fromBool incl)) rpm.packagesAdded }
    | .config path => snap.onConfig fun c =>
        { c with
          files := updateFirst (fun e => e.path == path)
            (fun e => FindingRow.decide (e.disposition.withInclude incl) e) c.files }
    | .repo path => snap.onRpm
        (if incl then includeRepo index path else excludeRepo index excluded path)
    | .service unit => snap.onServices (setService unit incl)
    | .dropIn path => snap.onServices fun s =>
        { s with
          dropIns := updateFirst (fun e => e.path == path)
            (FindingRow.decide (.fromBool incl)) s.dropIns }
    | .quadlet path => snap.onContainers fun c =>
        { c with
          quadletUnits := updateFirst (fun e => e.path == path)
            (FindingRow.decide (.fromBool incl)) c.quadletUnits }
    | .flatpak appId remote branch => snap.onContainers fun c =>
        { c with
          flatpakApps := updateFirst
            (fun e => e.appId == appId && e.remote == remote && e.branch == branch)
            (FindingRow.decide (.fromBool incl)) c.flatpakApps }
    | .sysctl key => snap.onKernelBoot fun k =>
        { k with
          sysctlOverrides := updateFirst (fun e => e.key == key)
            (FindingRow.decide (.fromBool incl)) k.sysctlOverrides }
    | .tunedSelection profile => snap.onKernelBoot fun k =>
        if k.tunedActive == profile then { k with tunedDisposition := .fromBool incl } else k
    | .group name => snap.onRpm (setGroup (groupMembers original name) incl)
    | _ => snap

def isUser (username : String) (user : Json) : Bool :=
  (user.get "name").bind Json.asStr == some username

def updateUser (username : String) (f : Json → Json) (snap : InspectionSnapshot) :
    InspectionSnapshot :=
  snap.onUsersGroups fun ug => { ug with users := updateFirst (isUser username) f ug.users }

def strategyText : UserContainerfileStrategy → String
  | .skip => "skip"
  | .useradd => "useradd"

/-- The hash the scan recorded, not the one an earlier operation left. -/
def originalHash (username : String) : Option String :=
  ((original.usersGroups.bind fun ug => ug.users.find? (isUser username)).bind
    (Json.get "password_hash")).bind Json.asStr

def setPassword (original : InspectionSnapshot) : UserPasswordOp → Json → Json
  | .new _ hash, user =>
    let user := Json.insert "password_choice" (.str "new") user
    match hash with
    | none => user
    | some text => Json.insert "password_hash" (.str text) user
  | .none _, user => (Json.insert "password_choice" (.str "none") user).remove "password_hash"
  | .preserve username, user =>
    let user := Json.insert "password_choice" (.str "preserve") user
    match originalHash original username with
    | none => user.remove "password_hash"
    | some text => Json.insert "password_hash" (.str text) user

def isEnv (ecosystem envPath : String) (item : NonRpmItem) : Bool :=
  item.lang == ecosystem && item.path == envPath

def pinPackages (f : List LanguagePackage → List LanguagePackage) (ecosystem envPath : String)
    (snap : InspectionSnapshot) : InspectionSnapshot :=
  snap.onNonRpm fun n =>
    { n with
      items := updateFirst (isEnv ecosystem envPath)
        (fun item => { item with packages := f item.packages }) n.items }

def setPinned (pinned : Bool) (p : LanguagePackage) : LanguagePackage := { p with pinned := pinned }

def setPackagePin (item : ItemId) (pinned : Bool) (snap : InspectionSnapshot) :
    InspectionSnapshot :=
  match item with
  | .languagePackage ecosystem envPath package =>
    pinPackages (updateFirst (·.name == package) (setPinned pinned)) ecosystem envPath snap
  | _ => snap

/-- One operation of the replay. The variant operations change the variant
    state on the side, not the snapshot. -/
def replayOp (original : InspectionSnapshot) (index : RepoIndex) (excluded : List RepoId)
    (snap : InspectionSnapshot) : RefinementOp → InspectionSnapshot
  | .setInclude item incl => setInclude original index excluded item incl snap
  | .userStrategy username strategy =>
    updateUser username (Json.insert "containerfile_strategy" (.str (strategyText strategy))) snap
  | .userPassword p => updateUser p.username (setPassword original p) snap
  | .selectVariant .. => snap
  | .editVariant .. => snap
  | .discardVariant .. => snap
  | .setPackagePin item pinned => setPackagePin item pinned snap
  | .setBulkPackagePin ecosystem envPath pinned =>
    pinPackages (·.map (setPinned pinned)) ecosystem envPath snap

def hasNewPassword : Bool :=
  ((snap.usersGroups.map (·.users)).getD []).any fun u =>
    ((u.get "password_choice").bind Json.asStr).getD "" == "new" &&
      (((u.get "password_hash").bind Json.asStr).map fun s => !s.isEmpty).getD false

def retainSensitive : Option RedactionState → Option RedactionState
  | some (.fullyRedacted by_ hash) => some (.sensitiveRetained by_ hash 0 [])
  | some (.partiallyRedacted by_ hash count hints) =>
    some (.sensitiveRetained by_ hash count hints)
  | state => state

/-- A password set during refinement makes the projection sensitive. -/
def raiseSensitivity (original snap : InspectionSnapshot) : InspectionSnapshot :=
  if !original.sensitiveSnapshot && hasNewPassword snap then
    { snap with
      sensitiveSnapshot := true
      redactionState := retainSensitive snap.redactionState }
  else snap

def finishProjection (h : Hashing) (original : InspectionSnapshot)
    (state : VariantProjectionState) (snap : InspectionSnapshot) : InspectionSnapshot :=
  demoteUnservedRepoEnabling
    (clampLockedItems (raiseSensitivity original (materializeVariants h state snap)))

def replay (index : RepoIndex) (ops : List RefinementOp) :
    InspectionSnapshot :=
  ops.foldl (replayOp original index (excludedSectionsAt ops)) original

/-- `project_snapshot` over the active part of a timeline. -/
def projectSnapshot (h : Hashing) (original : InspectionSnapshot) (index : RepoIndex)
    (active : List TimelineEntry) : InspectionSnapshot :=
  let ops := timelineOps active
  finishProjection h original (buildVariantState h original ops) (replay original index ops)

end Inspectah
