import Inspectah.Refine.Changes

/-!
The refine session: opening a snapshot, the operations on it, and the checks
that stand before them. An operation returns its result together with the
session it leaves, because a refusal may come after a change.
-/
namespace Inspectah

open UndoHistory

/-- A session with its caches: they are recomputed by whatever changes the rest. -/
structure RefineSession extends SessionCore where
  cachedView : RefinedView
  cachedRenderContext : RenderContext
  cachedDecisions : DecisionProjection

structure Outcome (α : Type) where
  result : Except RefineError α
  session : RefineSession

/-- `recompute_view`. -/
def recomputeView (env : Env) (disk : Disk) (c : SessionCore) : RefineSession :=
  let ctx := computeRenderContext env.toHashing disk c
  let view := computeView env c ctx
  { c with
    cachedView := view
    cachedRenderContext := ctx
    cachedDecisions := projectDecisions env c view.packages }

def classifyZone (p : AggregatePrevalence) : PrevalenceZone :=
  if p.count = p.total then .consensus
  else if p.total ≤ p.count * 2 then .nearConsensus
  else .divergent

def PrevalenceZone.rank : PrevalenceZone → Nat
  | .divergent => 0
  | .nearConsensus => 1
  | .consensus => 2

abbrev Zones := AList fun _ : ItemId => PrevalenceZone

/-- A path with several versions is in the zone of its most divergent one. -/
def configZone (zones : Zones) (e : ConfigFileEntry) : Zones :=
  match e.aggregate with
  | none => zones
  | some p =>
    let zone := classifyZone p
    match zones.lookup (.config e.path) with
    | none => zones.insert (.config e.path) zone
    | some current =>
      zones.insert (.config e.path) (if zone.rank < current.rank then zone else current)

def packageZone (zones : Zones) (e : PackageEntry) : Zones :=
  match e.aggregate with
  | none => zones
  | some p => zones.insert (.package e.name e.arch) (classifyZone p)

def summedZone {α : Type} (path : α → String) (aggregate : α → Option AggregatePrevalence)
    (rows : List α) (p : String) : Option PrevalenceZone :=
  match (rows.filter fun e => path e == p).filterMap aggregate with
  | [] => none
  | first :: rest => some (classifyZone
      { count := (first :: rest).foldl (fun n a => n + a.count) 0
        total := first.total })

def summedZones {α : Type} (item : String → ItemId) (path : α → String)
    (aggregate : α → Option AggregatePrevalence) (rows : List α) (zones : Zones) : Zones :=
  (rows.map path).dedup.foldl
    (fun zones p => ((summedZone path aggregate rows p).map (zones.insert (item p))).getD zones)
    zones

def buildZones (snap : InspectionSnapshot) : Zones :=
  let zones := ((snap.config.map (·.files)).getD []).foldl configZone ∅
  let zones := (rpmPackages snap).foldl packageZone zones
  let zones := summedZones .dropIn (·.path) (·.aggregate)
    ((snap.services.map (·.dropIns)).getD []) zones
  summedZones .quadlet (·.path) (·.aggregate)
    ((snap.containers.map (·.quadletUnits)).getD []) zones

def refineMode (snap : InspectionSnapshot) : RefineMode :=
  match snap.aggregateMeta with
  | none => .singleHost
  | some info => .aggregate
      { aggregateMeta := info
        zones := buildZones snap
        totalHosts := info.hostCount
        zonesActive := 3 ≤ info.hostCount
        repoConflicts := snap.rpmRepoConflicts }

def openSnapshot (snap : InspectionSnapshot) : SessionCore :=
  let normalized := normalizeSnapshot snap
  { original := normalized
    repoIndex := RepoIndex.build snap
    baselineAvailable := (snap.rpm.bind (·.baselinePackageNames)).isSome
    refineMode := refineMode normalized }

/-- `RefineSession::new`. -/
def RefineSession.new (env : Env) (disk : Disk) (snap : InspectionSnapshot) : RefineSession :=
  recomputeView env disk (openSnapshot snap)

def restoredHistory (timeline : List TimelineEntry) (cursor : Nat) : History TimelineEntry :=
  ⟨timeline, min cursor timeline.length, Nat.min_le_right _ _⟩

/-- `try_autosave`: only a permanent failure leaves a mark on the session. -/
def tryAutosave (fails : Bool) (s : RefineSession) : RefineSession :=
  if s.tarballPath.isSome && !s.durabilityDegraded && fails then
    { s with durabilityDegraded := true }
  else s

/-- `resume_from`, once tarball and saved session are read and have given `snap`. -/
def RefineSession.resume (env : Env) (disk : Disk) (snap : InspectionSnapshot) (tarball : String)
    (timeline : List TimelineEntry) (cursor : Nat) : RefineSession :=
  let fresh := RefineSession.new env disk snap
  let c := { openSnapshot fresh.original with tarballPath := some tarball }
  tryAutosave disk.autosaveFails
    (recomputeView env disk { c with history := restoredHistory timeline cursor })

section Checks

variable (h : Hashing) (c : SessionCore)

def userExists (username : String) : Bool :=
  ((c.original.usersGroups.map (·.users)).getD []).any (isUser username)

def variantState : VariantProjectionState := buildVariantState h c.original c.activeOps

def envItem (snap : InspectionSnapshot) (ecosystem envPath : String) : Option NonRpmItem :=
  snap.nonRpmSoftware.bind fun n => n.items.find? (isEnv ecosystem envPath)

def envPackage (snap : InspectionSnapshot) (ecosystem envPath package : String) :
    Option LanguagePackage :=
  (envItem snap ecosystem envPath).bind fun item => item.packages.find? (·.name == package)

def required (found : Bool) (what : String) : Except RefineError Unit :=
  if found then .ok () else .error (.unknownTarget what)

/-- A drop-in may not be included while its unit's own row is excluded. -/
def parentExcluded (snap : InspectionSnapshot) (path : String) : Bool :=
  match snap.services with
  | none => false
  | some s =>
    match s.dropIns.find? fun d => d.path == path with
    | none => false
    | some d => s.stateChanges.any fun r =>
        r.unit == d.unit && r.disposition == .actionable false

def validateConfig (path : String) : Except RefineError Unit :=
  match c.original.config.bind fun s => s.files.find? fun e => e.path == path with
  | none => .error (.unknownTarget path)
  | some e =>
    if e.disposition.isAdvisory then .error (.advisoryNotToggleable path)
    else if e.disposition.isInventory then .error (.inventoryNotToggleable path)
    else .ok ()

def validateRepo (sectionId : String) (incl : Bool) : Except RefineError Unit :=
  if RepoIndex.isDistroRepo sectionId then
    .error (.badRequest ("cannot toggle distro repo: " ++ sectionId))
  else
    let prov := c.repoIndex.provenance ⟨sectionId⟩
    if prov = .verified ∨ prov = .incomplete then .ok ()
    else
      .error (.badRequest ("cannot " ++ (if incl then "include" else "exclude") ++ " repo '" ++
        sectionId ++ "': provenance is " ++ prov.debug))

def validateDropIn (path : String) (incl : Bool) : Except RefineError Unit :=
  if !((c.original.services.map (·.dropIns)).getD []).any (fun d => d.path == path) then
    .error (.unknownTarget path)
  else if incl && parentExcluded (c.projected h) path then
    .error (.badRequest "cannot include drop-in when parent service is excluded")
  else .ok ()

/-- The `SetInclude` arm of `validate_target`. -/
def validateToggle (item : ItemId) (incl : Bool) : Except RefineError Unit :=
  let snap := c.original
  match item with
  | .package name arch => required
      ((rpmPackages snap).any fun e => e.name == name && e.arch == arch)
      (canonicalPackageId name arch)
  | .config path => validateConfig c path
  | .repo path => validateRepo c path incl
  | .service unit => required
      (((snap.services.map (·.stateChanges)).getD []).any fun s => s.unit == unit) unit
  | .dropIn path => validateDropIn h c path incl
  | .quadlet path => required
      (((snap.containers.map (·.quadletUnits)).getD []).any fun q => q.path == path) path
  | .flatpak appId remote branch => required
      (((snap.containers.map (·.flatpakApps)).getD []).any fun f =>
        f.appId == appId && f.remote == remote && f.branch == branch)
      (appId ++ " (" ++ remote ++ "/" ++ branch ++ ")")
  | .sysctl key => required
      (((snap.kernelBoot.map (·.sysctlOverrides)).getD []).any fun s => s.key == key) key
  | .tunedSelection profile => required
      ((snap.kernelBoot.map fun k => k.tunedActive == profile).getD false) profile
  | .nmConnection path => .error (.inventoryNotToggleable (ItemId.nmConnection path).debug)
  | .firewallZone path => .error (.inventoryNotToggleable (ItemId.firewallZone path).debug)
  | .group name => required (snap.installedGroups.any fun g => g.name == name) name
  -- Accepted without a check: the kinds the replay has no arm for.
  | _ => .ok ()

def validateEdit (item : ItemId) (basedOn : Option ContentHash) : Except RefineError Unit :=
  let present (path : String) : Except RefineError Unit :=
    required ((hostContents c.original item).any fun row => row.1 == path) path
  let carrier : Except RefineError Unit :=
    match item with
    | .config path => present path
    | .dropIn path => present path
    | .quadlet path => present path
    | .compose _ => .error (.badRequest
        "EditVariant not supported for Compose items (structured carrier)")
    | other => .error (.badRequest ("EditVariant not supported for " ++ other.debug))
  match carrier, basedOn, itemPath item with
  | .error e, _, _ => .error e
  | .ok (), some hash, some path =>
    if (variantState h c).isUserVariant path hash || isHostVariant h c.original item path hash then
      .ok ()
    else .error (.badRequest ("based_on hash " ++ hash.hex ++ " not found in variant pool"))
  | .ok (), _, _ => .ok ()

/-- `validate_target`. -/
def validateTarget : RefinementOp → Except RefineError Unit
  | .setInclude item incl => validateToggle h c item incl
  | .userStrategy username _ => required (userExists c username) username
  | .userPassword p => required (userExists c p.username) p.username
  | .selectVariant item target => validateSelect h c.original (variantState h c) item target
  | .editVariant item _ basedOn => validateEdit h c item basedOn
  | .discardVariant item variant => validateDiscard h c.original (variantState h c) item variant
  | .setPackagePin item _ =>
    match item with
    | .languagePackage ecosystem envPath package => required
        (envPackage c.original ecosystem envPath package).isSome
        (ecosystem ++ ":" ++ envPath ++ ":" ++ package)
    | other => .error (.badRequest
        ("SetPackagePin requires LanguagePackage item_id, got " ++ other.debug))
  | .setBulkPackagePin ecosystem envPath _ => required
      (envItem c.original ecosystem envPath).isSome (ecosystem ++ ":" ++ envPath)

def isLockedInclusion (snap : InspectionSnapshot) : RefinementOp → Bool
  | .setInclude item true => isItemLocked snap item
  | _ => false

def stateWord (incl : Bool) : String := if incl then "included" else "excluded"

def nothingToDecide (name : String) (present : Nat) : RefineError :=
  .noopTarget ("nothing to decide in '" ++ name ++ "': " ++
    if 0 < present then "all " ++ toString present ++ " members are locked"
    else "no package is attributed to it")

def alreadyAt (name : String) (members : Nat) (incl : Bool) : RefineError :=
  .noopTarget ("all " ++ toString members ++ " effective members of '" ++ name ++
    "' are already " ++ stateWord incl)

def checkGroupNoop (name : String) (incl : Bool) : Except RefineError Unit :=
  match c.original.installedGroups.find? fun g => g.name == name with
  | none => .ok ()
  | some group =>
    let packages := rpmPackages (c.projected h)
    let effective := effectiveMembers packages group.members
    if effective.isEmpty then
      .error (nothingToDecide name ((packages.filter fun p => group.members.contains p.name).countP
        (·.disposition.isActionable)))
    else if effective.all fun p => p.disposition.isIncluded == incl then
      .error (alreadyAt name effective.length incl)
    else .ok ()

def checkRepoNoop (view : RefinedView) (sectionId : String) (incl : Bool) :
    Except RefineError Unit :=
  let effective := (view.repoEffective.lookup (RepoId.folded ⟨sectionId⟩)).getD {}
  if effective.memberCount = 0 then
    .error (nothingToDecide sectionId (((rpmPackages (c.projected h)).filter fun p =>
      Text.eqIgnoreAsciiCase p.sourceRepo sectionId).countP (·.disposition.isActionable)))
  else if (incl && effective.included == effective.memberCount) ||
      (!incl && effective.included == 0) then
    .error (alreadyAt sectionId effective.memberCount incl)
  else .ok ()

def checkNoop (view : RefinedView) : RefinementOp → Except RefineError Unit
  | .setInclude (.group name) incl => checkGroupNoop h c name incl
  | .setInclude (.repo path) incl => checkRepoNoop h c view path incl
  | _ => .ok ()

/-- `is_op_noop`: the kinds it can tell; every other operation is recorded. -/
def isOpNoop (op : RefinementOp) : Bool :=
  let proj := c.projected h
  match op with
  | .setInclude (.package name arch) incl =>
    ((proj.rpm.bind fun r => r.packagesAdded.find? fun e => e.name == name && e.arch == arch).map
      fun e => e.disposition.isIncluded == incl).getD false
  | .setInclude (.config path) incl =>
    ((proj.config.bind fun s => s.files.find? fun e => e.path == path).map
      fun e => e.disposition.isIncluded == incl).getD false
  | .setPackagePin (.languagePackage ecosystem envPath package) pinned =>
    ((envPackage proj ecosystem envPath package).map fun p => p.pinned == pinned).getD false
  | .setBulkPackagePin ecosystem envPath pinned =>
    ((envItem proj ecosystem envPath).map fun item =>
      item.packages.all fun p => p.pinned == pinned).getD false
  | _ => false

def isDirectiveNoop : ViewDirective → Bool
  | .ungroupGroup name => SessionCore.isUngrouped c.history.active name

end Checks

section Operations

variable (env : Env) (disk : Disk)

def RefineSession.moveTo (s : RefineSession) (history : History TimelineEntry) : RefineSession :=
  tryAutosave disk.autosaveFails (recomputeView env disk
    { s.toSessionCore with
      history := history
      generation := s.generation + 1 })

def RefineSession.record (s : RefineSession) (entry : TimelineEntry) : RefineSession :=
  s.moveTo env disk (s.history.record entry)

def RefineSession.apply (op : RefinementOp) (s : RefineSession) : Outcome Unit :=
  match validateTarget env.toHashing s.toSessionCore op with
  | .error e => ⟨.error e, s⟩
  | .ok () =>
    if isLockedInclusion s.original op then ⟨.ok (), s⟩
    else
      match checkNoop env.toHashing s.toSessionCore s.cachedView op with
      | .error e => ⟨.error e, s⟩
      | .ok () =>
        if isOpNoop env.toHashing s.toSessionCore op then ⟨.ok (), s⟩
        else ⟨.ok (), s.record env disk (.op op)⟩

def RefineSession.applyDirective (directive : ViewDirective) (s : RefineSession) : Outcome Unit :=
  match directive with
  | .ungroupGroup name =>
    if !s.original.installedGroups.any fun g => g.name == name then
      ⟨.error (.badRequest ("unknown group: " ++ name)), s⟩
    else if isDirectiveNoop s.toSessionCore directive then ⟨.ok (), s⟩
    else ⟨.ok (), s.record env disk (.view directive)⟩

def RefineSession.applyBatch (ops : List RefinementOp) (s : RefineSession) : Outcome Unit :=
  match ops.filter fun op => !isLockedInclusion s.original op with
  | [] => ⟨.ok (), s⟩
  | op :: rest => ⟨.ok (), s.record env disk (.batch (op :: rest))⟩

def RefineSession.undo (s : RefineSession) : Outcome Unit :=
  match s.history.undo with
  | none => ⟨.error .nothingToUndo, s⟩
  | some history => ⟨.ok (), s.moveTo env disk history⟩

def RefineSession.redo (s : RefineSession) : Outcome Unit :=
  match s.history.redo with
  | none => ⟨.error .nothingToRedo, s⟩
  | some history => ⟨.ok (), s.moveTo env disk history⟩

def RefineSession.reset (s : RefineSession) : Outcome Unit :=
  if s.history.entries.isEmpty then ⟨.error .nothingToUndo, s⟩
  else ⟨.ok (), s.moveTo env disk .empty⟩

end Operations

def VALID_SECTIONS : List String :=
  ["packages", "configs", "services", "containers", "users_groups", "network", "storage",
    "scheduled_tasks", "non_rpm_software", "kernel_boot", "selinux"]

def validateViewedId (id : String) : Except RefineError Unit :=
  match Text.splitOnce ':' id with
  | none => .error (.badRequest
      ("invalid viewed ID format: expected 'section:item_id', got '" ++ id ++ "'"))
  | some (sec, item) =>
    if item.isEmpty then
      .error (.badRequest ("invalid viewed ID: item_id is empty in '" ++ id ++ "'"))
    else if !VALID_SECTIONS.contains sec then
      .error (.badRequest ("invalid viewed ID section '" ++ sec ++ "': must be one of [" ++
        ", ".intercalate (VALID_SECTIONS.map debugText) ++ "]"))
    else .ok ()

def RefineSession.markViewed (id : String) (s : RefineSession) : Outcome Unit :=
  match validateViewedId id with
  | .error e => ⟨.error e, s⟩
  | .ok () => ⟨.ok (), { s with viewed := if s.viewed.contains id then s.viewed else s.viewed ++ [id] }⟩

end Inspectah
