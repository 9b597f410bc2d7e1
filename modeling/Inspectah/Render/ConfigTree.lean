import Inspectah.Library.Writers
import Inspectah.Refine.PayloadExtraction
import Inspectah.Render.SystemLines

/-!
The config tree, written beside the Containerfile. A refusal is passed over unless the writer
says it must have what it asked for.
-/
namespace Inspectah

open Writers (Step)

variable (snap : InspectionSnapshot)

/-- A path is the pieces joined, one after the other, onto the output directory. -/
inductive FileRequest where
  | makeDirs (path : List String)
  /-- The directories above the path. -/
  | makeParents (path : List String)
  | write (path : List String) (content : String)
  /-- `safe_write_file`: the directories above the file and, where its path ends in a
      name, the file. -/
  | writeWithParents (path : List String) (content : String)
  deriving DecidableEq

def FileRequest.path : FileRequest → List String
  | makeDirs path => path
  | makeParents path => path
  | write path _ => path
  | writeWithParents path _ => path

def FileRequest.isWrite : FileRequest → Bool
  | write .. => true
  | _ => false

def NUL : Char := Char.ofNat 0

/-- No file system takes a path with a NUL, nor a file whose path does not end in a name. -/
def FileRequest.Grantable (r : FileRequest) : Prop :=
  (∀ piece ∈ r.path, NUL ∉ piece.toList) ∧
    (r.isWrite → ((r.path.getLast?).bind finalName).isSome)

instance (r : FileRequest) : Decidable r.Grantable := inferInstanceAs (Decidable (_ ∧ _))

abbrev WriteStep := Step FileRequest

def attempt (r : FileRequest) : WriteStep := ⟨r, false⟩
def require (r : FileRequest) : WriteStep := ⟨r, true⟩

inductive TreePathError where
  | nulByte
  | absolutePath
  | traversal
  deriving DecidableEq

def validatePath (path : String) : Except TreePathError Unit :=
  if path.toList.contains NUL then .error .nulByte
  else if Text.startsWith path "/" then .error .absolutePath
  else if (pathPieces path).contains ['.', '.'] then .error .traversal
  else .ok ()

def isValidPath (path : String) : Bool := (validatePath path).toBool

def QUADLET_PREFIX : String := "etc/containers/systemd/"

def serviceOwnedPaths : List String :=
  (snap.dropIns.map fun d => trimSlashes d.path).filter fun rel => !rel.isEmpty

def containerOwnedPaths : List String :=
  (snap.quadletUnits.map fun q => trimSlashes q.path).filter fun rel => !rel.isEmpty

def dhcpConnectionPaths : List String :=
  ((rowsOf (·.connections) snap.network).filter fun c => c.method == "auto" && !c.path.isEmpty).map
    fun c => trimSlashes c.path

/-- Another section writes the file itself, or it describes a connection without settings. -/
def isWrittenElsewhere (rel : String) : Bool :=
  (dhcpConnectionPaths snap).contains rel || Text.startsWith rel QUADLET_PREFIX ||
    (containerOwnedPaths snap).contains rel || (serviceOwnedPaths snap).contains rel

def copiedConfig : List ConfigFileEntry :=
  (includedConfig snap).filter fun e =>
    let rel := trimSlashes e.path
    !rel.isEmpty && !isWrittenElsewhere snap rel && isValidPath rel

def CONFIG_DIR : String := "config"

def configFile (path content : String) : WriteStep :=
  attempt (.writeWithParents [CONFIG_DIR, trimSlashes path] content)

def configSteps : List WriteStep :=
  (copiedConfig snap).map fun e => configFile e.path e.content

structure TreeFile where
  path : String
  content : String
  included : Bool

def RepoFile.treeFile (r : RepoFile) : TreeFile := ⟨r.path, r.content, r.disposition.isIncluded⟩
def FirewallZone.treeFile (z : FirewallZone) : TreeFile :=
  ⟨z.path, z.content, z.disposition.isIncluded⟩

def treeCopies (files : List TreeFile) : List TreeFile :=
  files.filter fun f => f.included && !f.path.isEmpty && isValidPath (trimSlashes f.path)

def treeFileSteps (files : List TreeFile) : List WriteStep :=
  (treeCopies files).map fun f => configFile f.path f.content

def sectionFiles : List TreeFile :=
  (rowsOf (·.repoFiles) snap.rpm).map (·.treeFile) ++
    (rowsOf (·.gpgKeys) snap.rpm).map (·.treeFile) ++
    (rowsOf (·.firewallZones) snap.network).map (·.treeFile)

def SYSCTL_DIR : String := "sysctl/etc/sysctl.d"
def KARGS_DIR : String := "usr/lib/bootc/kargs.d"

def sysctlConf (overrides : List SysctlOverride) : String :=
  "# Migrated sysctl overrides — generated by inspectah\n" ++
    String.join (overrides.map fun s => s.key ++ " = " ++ s.runtime ++ "\n")

def kargsToml (kargs : List String) : String :=
  "[kargs]\n# Migrated from kernel cmdline by inspectah\n" ++
    String.join (kargs.map fun k => "append = [\"" ++ k ++ "\"]\n")

def kernelSteps (kb : KernelBootSection) : List WriteStep :=
  let sysctls := kb.sysctlOverrides.filter (·.disposition.isIncluded)
  let kargs := operatorKargs kb.cmdline
  (if sysctls.isEmpty then []
   else
    [attempt (.makeDirs [SYSCTL_DIR]),
     attempt (.write [SYSCTL_DIR, SYNTHESIZED_SYSCTL_FILE] (sysctlConf sysctls))]) ++
  (if kargs.isEmpty then []
   else
    [attempt (.makeDirs [CONFIG_DIR, KARGS_DIR]),
     attempt (.write [CONFIG_DIR, KARGS_DIR, "inspectah-migrated.toml"] (kargsToml kargs))])

def DROP_INS_DIR : String := "drop-ins"

def copiedDropIns : List SystemdDropIn :=
  snap.dropIns.filter fun d => d.disposition.isIncluded && isValidPath (trimSlashes d.path)

def dropInSteps : List WriteStep :=
  (copiedDropIns snap).map fun d =>
    attempt (.writeWithParents [DROP_INS_DIR, trimSlashes d.path] d.content)

def UNIT_DIR : String := "etc/systemd/system"

def generatedUnitFiles (u : GeneratedTimerUnit) : List (String × String) :=
  (if u.timerContent.isEmpty then [] else [(timerUnit u.name, u.timerContent)]) ++
    (if u.serviceContent.isEmpty then [] else [(serviceUnit u.name, u.serviceContent)])

def localUnitFiles (t : SystemdTimer) : List (String × String) :=
  (if t.name.isEmpty || t.timerContent.isEmpty then [] else [(timerUnit t.name, t.timerContent)]) ++
    (if t.name.isEmpty || t.serviceContent.isEmpty then []
     else [(serviceUnit t.name, t.serviceContent)])

/-- A local timer's files are written whatever was decided about the timer. -/
def scheduledUnitFiles : List (String × String) :=
  (generatedTimers snap).flatMap generatedUnitFiles ++
    ((rowsOf (·.systemdTimers) snap.scheduledTasks).filter fun t => t.source == "local").flatMap
      localUnitFiles

def unitFileStep (file : String × String) : WriteStep :=
  attempt (.write [CONFIG_DIR, UNIT_DIR, file.1] file.2)

def scheduledSteps : List WriteStep :=
  if (rowsOf (·.generatedTimerUnits) snap.scheduledTasks).isEmpty &&
      (rowsOf (·.systemdTimers) snap.scheduledTasks).isEmpty then []
  else attempt (.makeDirs [CONFIG_DIR, UNIT_DIR]) :: (scheduledUnitFiles snap).map unitFileStep

def writtenQuadlets : List QuadletUnit :=
  snap.quadletUnits.filter fun u =>
    u.disposition.isIncluded && !u.name.isEmpty && !u.content.isEmpty

def quadletSteps : List WriteStep :=
  (writtenQuadlets snap).flatMap fun u =>
    [attempt (.makeDirs ["quadlet"]), attempt (.write ["quadlet", u.name] u.content)]

def escapeJson (s : String) : String :=
  let hex (n : Nat) : List Char := (Nat.toDigits 16 n).leftpad 4 '0'
  replaceChars (fun c =>
    if c = '"' then ['\\', '"']
    else if c = '\\' then ['\\', '\\']
    else if c = '\n' then ['\\', 'n']
    else if c = '\r' then ['\\', 'r']
    else if c = '\t' then ['\\', 't']
    else if c.toNat = 8 then ['\\', 'b']
    else if c.toNat = 12 then ['\\', 'f']
    else if c.toNat < 32 then '\\' :: 'u' :: hex c.toNat
    else [c]) s

def manifestField (key value : String) : String := "    \"" ++ key ++ "\": \"" ++ escapeJson value ++ "\""

/-- One application of the pretty-printed manifest. -/
def manifestEntry (app : FlatpakApp) : String :=
  "  \x7b\n" ++ ",\n".intercalate
    ([manifestField "app_id" app.appId, manifestField "remote" app.remote,
      manifestField "branch" app.branch] ++
     (if app.remoteUrl.isEmpty then [] else [manifestField "remote_url" app.remoteUrl])) ++ "\n  \x7d"

def flatpakManifest (apps : List FlatpakApp) : String :=
  "[\n" ++ ",\n".intercalate (apps.map manifestEntry) ++ "\n]"

/-- The first application of each remote that has a name. -/
def flatpakRemotes (apps : List FlatpakApp) : List FlatpakApp :=
  (apps.filter fun app => !app.remote.isEmpty).foldl
    (fun seen app => if seen.any fun s => s.remote == app.remote then seen else seen ++ [app]) []

def flatpakService (apps : List FlatpakApp) : String :=
  let remotes := flatpakRemotes apps
  let unknown := remotes.filter (·.remoteUrl.isEmpty)
  let known := remotes.filter fun app => !app.remoteUrl.isEmpty
  "[Unit]\nDescription=Provision Flatpak applications from inspectah manifest\n" ++
  "After=network-online.target\nWants=network-online.target\n" ++
  "ConditionPathExists=!/var/lib/inspectah/.flatpak-provisioned\n" ++
  "\n[Service]\nType=oneshot\nRemainAfterExit=yes\nRestart=on-failure\nRestartSec=30s\n\n" ++
  (if unknown.isEmpty then ""
   else "# WARNING: The following remote(s) could not be fully reconstructed\n" ++
    "# because no URL was captured. You must configure them manually.\n" ++
    "# See: flatpak remote-modify --help\n" ++
    String.join (unknown.map fun app => "# Remote '" ++ (app.remote ++ "': URL unknown\n")) ++ "\n") ++
  String.join (known.map fun app => "ExecStartPre=/usr/bin/flatpak remote-add --if-not-exists " ++
    app.remote ++ " " ++ app.remoteUrl ++ "\n") ++
  String.join (apps.map fun app => "ExecStart=/usr/bin/flatpak install -y --noninteractive " ++
    app.remote ++ " " ++ app.appId ++ "//" ++ app.branch ++ "\n") ++
  "ExecStartPost=/usr/bin/mkdir -p /var/lib/inspectah\n" ++
  "ExecStartPost=/usr/bin/touch /var/lib/inspectah/.flatpak-provisioned\n" ++
  "\n[Install]\nWantedBy=multi-user.target\n" ++
  "\n[Unit]\nStartLimitBurst=3\nStartLimitIntervalSec=300s\n"

def flatpakSteps : List WriteStep :=
  let apps := snap.flatpakApps.filter (·.disposition.isIncluded)
  if apps.isEmpty then []
  else
    [attempt (.makeDirs ["flatpak"]),
     attempt (.write ["flatpak", "flatpak-install.json"] (flatpakManifest apps)),
     attempt (.write ["flatpak", "flatpak-provision.service"] (flatpakService apps))]

def subscriptionFile (decoded : Option String) (dir : List String) (name : String) :
    List WriteStep × Bool :=
  match decoded with
  | some content => ([require (.makeDirs dir), require (.write (dir ++ [name]) content)], true)
  | none => ([require (.makeDirs dir)], false)

def subscriptionFiles (place : SubscriptionFile → Option (List String × String))
    (decode : String → Option String) : List SubscriptionFile → List WriteStep × Bool
  | [] => ([], true)
  | f :: rest =>
    match place f with
    | none => subscriptionFiles place decode rest
    | some (dir, name) =>
      let (steps, goesOn) := subscriptionFile (decode f.content) dir name
      if goesOn then
        let (more, done) := subscriptionFiles place decode rest
        (steps ++ more, done)
      else (steps, false)

def configPlace (f : SubscriptionFile) : Option (List String × String) :=
  if Text.contains f.path "rhsm.conf" then some (["subscription", "rhsm"], "rhsm.conf")
  else if Text.contains f.path "redhat.repo" then some (["subscription"], "redhat.repo")
  else none

def ownPlace (dir : List String) (f : SubscriptionFile) : Option (List String × String) :=
  some (dir, (Text.fileName f.path).getD "")

/-- `decode` is base64, of the library. -/
def subscriptionSteps (decode : String → Option String) (sub : SubscriptionSection) :
    List WriteStep :=
  let certs := subscriptionFiles (ownPlace ["subscription", "entitlement"]) decode
    sub.entitlementCerts
  let cas := subscriptionFiles (ownPlace ["subscription", "rhsm/ca"]) decode sub.caCerts
  let configs := subscriptionFiles configPlace decode sub.configFiles
  certs.1 ++ (if certs.2 then cas.1 ++ (if cas.2 then configs.1 else []) else [])

def writeConfigTree (decode : String → Option String) (snap : InspectionSnapshot) :
    List WriteStep :=
  require (.makeDirs [CONFIG_DIR]) :: configSteps snap ++ treeFileSteps (sectionFiles snap) ++
  ((snap.kernelBoot.map kernelSteps).getD []) ++ dropInSteps snap ++ scheduledSteps snap ++
  quadletSteps snap ++ flatpakSteps snap ++
  (if snap.preservedSubscription then
     (snap.subscription.map (subscriptionSteps decode)).getD []
   else [])

def includedEnvFiles : List ConfigFileEntry :=
  (rowsOf (·.envFiles) snap.nonRpmSoftware).filter fun e =>
    e.disposition.isIncluded && !e.path.isEmpty && !(Text.trim e.content).isEmpty

def writeEnvFiles : List WriteStep :=
  let included := includedEnvFiles snap
  if included.isEmpty then []
  else require (.makeDirs ["env-files"]) ::
    (included.filter fun e =>
      !(trimSlashes e.path).isEmpty && isValidPath (trimSlashes e.path)).map fun e =>
        attempt (.writeWithParents ["env-files", trimSlashes e.path] e.content)

end Inspectah
