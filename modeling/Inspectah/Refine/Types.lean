import Mathlib.Data.List.AList
import Inspectah.Core.Snapshot

/-!
The vocabulary of a refine session: what an operation names, what it asks for,
what a refusal says, and what the classifiers report about an item.
-/
namespace Inspectah

structure ContentHash where
  hex : String
  deriving DecidableEq

/-- `ContentHash::new`: 64 hexadecimal digits. -/
def ContentHash.new (s : String) : Option ContentHash :=
  if s.utf8ByteSize = 64 && s.toList.all (fun c => c.isDigit || ('a' ≤ c && c ≤ 'f') ||
      ('A' ≤ c && c ≤ 'F')) then some ⟨s⟩
  else none

inductive ItemId where
  | package (name arch : String)
  | repo (path : String)
  | moduleStream (moduleStream : String)
  | versionLock (nameArch : String)
  | config (path : String)
  | service (unit : String)
  | dropIn (path : String)
  | quadlet (path : String)
  | compose (path : String)
  | flatpak (appId remote branch : String)
  | nmConnection (path : String)
  | firewallZone (path : String)
  | sysctl (key : String)
  | tunedSelection (profile : String)
  | cronJob (path : String)
  | systemdTimer (name : String)
  | atJob (file : String)
  | generatedTimer (name : String)
  | selinuxPort (protocolPort : String)
  | fstab (mountPoint : String)
  | nonRpm (name : String)
  | languageEnv (ecosystem path : String)
  | languagePackage (ecosystem envPath package : String)
  | unmanagedFile (path : String)
  | group (name : String)
  deriving DecidableEq

/-- `{:?}` of a text: quoted, with the escapes a path or a name can need. -/
def debugText (s : String) : String :=
  let escape (c : Char) : String :=
    if c == '"' then "\\\"" else if c == '\\' then "\\\\"
    else if c == '\n' then "\\n" else if c == '\t' then "\\t" else if c == '\r' then "\\r"
    else c.toString
  "\"" ++ String.join (s.toList.map escape) ++ "\""

/-- `{:?}` of an item id: the kind's name and its fields. -/
def ItemId.debug : ItemId → String
  | package n a => render "Package" [("name", n), ("arch", a)]
  | repo p => render "Repo" [("path", p)]
  | moduleStream m => render "ModuleStream" [("module_stream", m)]
  | versionLock n => render "VersionLock" [("name_arch", n)]
  | config p => render "Config" [("path", p)]
  | service u => render "Service" [("unit", u)]
  | dropIn p => render "DropIn" [("path", p)]
  | quadlet p => render "Quadlet" [("path", p)]
  | compose p => render "Compose" [("path", p)]
  | flatpak a r b => render "Flatpak" [("app_id", a), ("remote", r), ("branch", b)]
  | nmConnection p => render "NMConnection" [("path", p)]
  | firewallZone p => render "FirewallZone" [("path", p)]
  | sysctl k => render "Sysctl" [("key", k)]
  | tunedSelection p => render "TunedSelection" [("profile", p)]
  | cronJob p => render "CronJob" [("path", p)]
  | systemdTimer n => render "SystemdTimer" [("name", n)]
  | atJob f => render "AtJob" [("file", f)]
  | generatedTimer n => render "GeneratedTimer" [("name", n)]
  | selinuxPort p => render "SelinuxPort" [("protocol_port", p)]
  | fstab m => render "Fstab" [("mount_point", m)]
  | nonRpm n => render "NonRpm" [("name", n)]
  | languageEnv e p => render "LanguageEnv" [("ecosystem", e), ("path", p)]
  | languagePackage e p n =>
    render "LanguagePackage" [("ecosystem", e), ("env_path", p), ("package", n)]
  | unmanagedFile p => render "UnmanagedFile" [("path", p)]
  | group n => render "Group" [("name", n)]
where
  render (kind : String) (fields : List (String × String)) : String :=
    kind ++ " \x7b " ++ ", ".intercalate (fields.map fun f => f.1 ++ ": " ++ debugText f.2) ++
      " \x7d"

inductive UserPasswordOp where
  | new (username : String) (hash : Option String)
  | none (username : String)
  | preserve (username : String)
  deriving DecidableEq

def UserPasswordOp.username : UserPasswordOp → String
  | .new u _ => u
  | .none u => u
  | .preserve u => u

inductive RefinementOp where
  | setInclude (itemId : ItemId) (incl : Bool)
  | userStrategy (username : String) (strategy : UserContainerfileStrategy)
  | userPassword (op : UserPasswordOp)
  | selectVariant (itemId : ItemId) (target : ContentHash)
  | editVariant (itemId : ItemId) (content : String) (basedOn : Option ContentHash)
  | discardVariant (itemId : ItemId) (variant : ContentHash)
  | setPackagePin (itemId : ItemId) (pinned : Bool)
  | setBulkPackagePin (ecosystem envPath : String) (pinned : Bool)
  deriving DecidableEq

inductive ViewDirective where
  | ungroupGroup (groupName : String)
  deriving DecidableEq

inductive TimelineEntry where
  | op (o : RefinementOp)
  | view (directive : ViewDirective)
  | batch (ops : List RefinementOp)
  deriving DecidableEq

def TimelineEntry.ops : TimelineEntry → List RefinementOp
  | .op o => [o]
  | .view _ => []
  | .batch ops => ops

/-- The operations of a timeline in replay order. -/
def timelineOps (timeline : List TimelineEntry) : List RefinementOp :=
  timeline.flatMap TimelineEntry.ops

@[simp] theorem timelineOps_nil : timelineOps [] = [] := rfl

@[simp] theorem timelineOps_append (a b : List TimelineEntry) :
    timelineOps (a ++ b) = timelineOps a ++ timelineOps b := List.flatMap_append

@[simp] theorem timelineOps_singleton (e : TimelineEntry) : timelineOps [e] = e.ops := by
  simp [timelineOps]

inductive RefineError where
  | unknownTarget (what : String)
  | nothingToUndo
  | nothingToRedo
  | staleGeneration (expected actual : Nat)
  | tarballError (message : String)
  | snapshotLoad (message : String)
  | badRequest (message : String)
  | inventoryNotToggleable (what : String)
  | advisoryNotToggleable (what : String)
  | noopTarget (message : String)
  deriving DecidableEq

inductive RepoProvenance where
  | verified
  | incomplete
  | disabled
  | stale
  | unknown
  deriving DecidableEq

/-- `{:?}` of a provenance. -/
def RepoProvenance.debug : RepoProvenance → String
  | .verified => "Verified"
  | .incomplete => "Incomplete"
  | .disabled => "Disabled"
  | .stale => "Stale"
  | .unknown => "Unknown"

inductive TriageBucket where
  | baseline
  | site
  | investigate
  deriving DecidableEq

inductive AggregateBucket where
  | investigate
  | divergent
  | partway
  | universal
  deriving DecidableEq

structure Prevalence where
  count : Nat
  total : Nat
  deriving DecidableEq

inductive Triage where
  | singleHost (bucket : TriageBucket)
  | aggregate (bucket : AggregateBucket) (prevalence : Prevalence)
  deriving DecidableEq

inductive TriageAnnotation where
  | sensitivePath
  | firstBootProvisioned
  | requiresProjectedPackage (name : String)
  | runtimeOnlyObservation
  deriving DecidableEq

inductive TriageReason where
  | packageBaselineMatch | packageUserAdded | packageVersionChanged
  | packageProvenanceUnavailable | packageLocalInstall | packageNoRepoSource
  | packageConfigCaptured
  | configDefault | configBaselineMatch | configModified | configUnowned | configOrphaned
  | serviceNonDefaultState | serviceUnknownOrigin | serviceDropInPresent
  | quadletUserDeployed
  | flatpakProvisionedOnFirstBoot | flatpakIncompleteProvenance
  | sysctlFileBackedOverride | sysctlNoBaseline
  | tunedNonDefaultProfile | tunedCustomProfile | tunedUnusualState
  | packagePlatformPlumbing | packageInstallerDefault | packageInstallerPromotedService
  | packageInstallerPromotedConfig | packageInstallerAmbiguous
  | packageInstallerEvidenceUnavailable
  | custom (text : String)
  deriving DecidableEq

structure TriageTag where
  triage : Triage
  primaryReason : TriageReason
  annotations : List TriageAnnotation := []
  deriving DecidableEq

def TriageTag.bucket (tag : TriageTag) : TriageBucket :=
  match tag.triage with
  | .singleHost b => b
  | .aggregate .investigate _ => .investigate
  | .aggregate .divergent _ => .investigate
  | .aggregate .partway _ => .site
  | .aggregate .universal _ => .baseline

/-- A row with the triage its classifier gave it: `RefinedPackage`, `RefinedConfig` and the
    others. -/
structure Refined (α : Type) where
  entry : α
  triage : TriageTag

structure RefinedTunedSelection where
  activeProfile : String
  customProfiles : List String
  triage : TriageTag
  incl : Bool

inductive SectionKind where
  | package
  | config
  | repo
  deriving DecidableEq

inductive PrevalenceZone where
  | divergent
  | nearConsensus
  | consensus
  deriving DecidableEq

structure AggregateContext where
  aggregateMeta : AggregateSnapshotMeta
  zones : AList fun _ : ItemId => PrevalenceZone
  totalHosts : Nat
  zonesActive : Bool
  repoConflicts : TextMap (List RepoSourceEntry)

inductive RefineMode where
  | singleHost
  | aggregate (ctx : AggregateContext)

end Inspectah
