import Inspectah.Refine.Projection
import Inspectah.Render.ServiceIntent
import Inspectah.Render.Users

/-!
What becomes of the `/var` directories: made by a creator that reaches the image, or
provisioned by the export, or left to the operator; and the lines that provision them.
-/
namespace Inspectah

variable (snap : InspectionSnapshot)

def ETC_TMPFILES_PREFIX : String := "/etc/tmpfiles.d/"
def USR_TMPFILES_PREFIX : String := "/usr/lib/tmpfiles.d/"

def ETC_UNIT_DIR : String := "/etc/systemd/system"
def SYSTEM_UNIT_DIRS : List String := [ETC_UNIT_DIR, "/usr/lib/systemd/system"]

inductive UnresolvedReason where
  | unownedFragment
  | unownedUnit
  | baseUnknown
  deriving DecidableEq

def UnresolvedReason.text : UnresolvedReason → String
  | .unownedFragment => "no package owns that file"
  | .unownedUnit => "no package owns that unit"
  | .baseUnknown => "the target base package set is unknown"

inductive EffectiveBacking where
  | carried
  | provision (lost : Option String)
  | unresolved (creator : String) (reason : UnresolvedReason)
  deriving DecidableEq

inductive Carriage where
  | carried
  | lost
  | unknown
  deriving DecidableEq

inductive UnitReach where
  | carried
  | lost
  | unresolved (reason : UnresolvedReason)
  deriving DecidableEq

def lastValue {V : Type} (pairs : List (String × V)) (key : String) : Option V :=
  ((pairs.filter fun p => p.1 == key).getLast?).map (·.2)

/-- What the export carries, as the creators are looked up in it. -/
structure Evidence where
  configFiles : List (String × Bool)
  etcUnitIncludes : List (String × Bool)
  fileOwners : List (String × String)
  installSet : List String
  baseline : Option (List String)

def isLostServing (rpm : RpmSection) (pkg : PackageEntry) : Bool :=
  match repoEnablingExport rpm pkg with
  | .lost _ => true
  | _ => false

/-- An inventory row stands for a decision taken elsewhere, so it decides no unit. -/
def Evidence.fromSnapshot : Evidence :=
  let files := (snap.config.map (·.files)).getD []
  let dropIns := (snap.services.map (·.dropIns)).getD []
  { configFiles := files.map fun e => (e.path, e.disposition.isIncluded)
    etcUnitIncludes :=
      ((files.filter fun e => parentDir e.path == some ETC_UNIT_DIR && !e.disposition.isInventory).map
        fun e => (e.path, e.disposition.isIncluded)) ++
      ((dropIns.filter fun d => parentDir d.path == some ETC_UNIT_DIR).map fun d =>
        (d.path, d.disposition.isIncluded))
    fileOwners := (snap.rpm.map fun rpm => rpm.fileOwnership.flatMap fun entry =>
      entry.paths.map fun path => (path, entry.packageName)).getD []
    installSet := (snap.rpm.map fun rpm =>
      (((rpm.packagesAdded.filter (·.disposition.isIncluded)).filter fun pkg =>
        isPackageInstallable pkg || pkg.uploaded || pkg.repolessCached).filter fun pkg =>
          !isLostServing rpm pkg).map (·.name)).getD []
    baseline := snap.rpm.bind (·.baselinePackageNames) }

namespace Evidence

variable (ev : Evidence)

def fileOwner (path : String) : Option String :=
  (ev.fileOwners.find? fun p => p.1 == path).map (·.2)

def carriage (package : String) : Carriage :=
  if ev.installSet.contains package then .carried
  else
    match ev.baseline with
    | some names => if names.contains package then .carried else .lost
    | none => .unknown

/-- The operator decides about a unit under `/etc`, the package about one under `/usr`. -/
def unitFileReach (path : String) : UnitReach :=
  match parentDir path with
  | none => .lost
  | some parent =>
    if !SYSTEM_UNIT_DIRS.contains parent then .lost
    else if parent == ETC_UNIT_DIR then
      if lastValue ev.etcUnitIncludes path == some true then .carried else .lost
    else
      match ev.fileOwner path with
      | none => .unresolved .unownedUnit
      | some package =>
        match ev.carriage package with
        | .carried => .carried
        | .lost => .lost
        | .unknown => .unresolved .baseUnknown

end Evidence

def declaringUnitLabel (declaredBy : List String) : String :=
  ", ".intercalate ((declaredBy.map fun path => (Text.fileName path).getD path).foldl
    (fun names name => if names.contains name then names else names ++ [name]) [])

def fromCarriage (carriage : Carriage) (creator : String) : EffectiveBacking :=
  match carriage with
  | .carried => .carried
  | .lost => .provision (some creator)
  | .unknown => .unresolved creator .baseUnknown

/-- One declaring unit that reaches the image is enough; one that cannot be placed
    leaves the directory open. -/
def classifyDeclarers (declaredBy : List String) (ev : Evidence) : EffectiveBacking :=
  if declaredBy.any fun path => ev.unitFileReach path == .carried then .carried
  else
    match declaredBy.findSome? fun path =>
        match ev.unitFileReach path with
        | .unresolved reason => some reason
        | _ => none with
    | some reason => .unresolved (declaringUnitLabel declaredBy) reason
    | none =>
      if declaredBy.isEmpty then .provision none
      else .provision (some (declaringUnitLabel declaredBy))

def classifyBacking (backing : Option VarDirBacking) (ev : Evidence) : EffectiveBacking :=
  match backing with
  | none => .provision none
  | some .unbacked => .provision none
  | some (.tmpfiles conf _) =>
    if Text.startsWith conf RUN_TMPFILES_PREFIX then .provision (some conf)
    else if Text.startsWith conf USR_TMPFILES_PREFIX then
      match ev.fileOwner conf with
      | some package => fromCarriage (ev.carriage package) conf
      | none => .unresolved conf .unownedFragment
    else if lastValue ev.configFiles conf == some true then .carried
    else .provision (some conf)
  | some (.stateDirectory declaredBy) => classifyDeclarers declaredBy ev
  | some (.cacheDirectory declaredBy) => classifyDeclarers declaredBy ev
  | some (.logsDirectory declaredBy) => classifyDeclarers declaredBy ev
  | some (.rpmOwned package) => fromCarriage (ev.carriage package) package

/-- The outcome of each `/var` directory, in the order the scan lists them. -/
def effectiveVarBacking : List (VarDirectory × EffectiveBacking) :=
  ((snap.storage.map (·.varDirectories)).getD []).map fun d =>
    (d, classifyBacking d.backing (Evidence.fromSnapshot snap))

open BuildScript (Line Segment)

def KNOWN_PACKAGE_ACCOUNTS : List (String × List String) :=
  [("postgresql-server", ["postgres"]), ("bind", ["named"]), ("mysql-server", ["mysql"]),
   ("mariadb-server", ["mysql"]), ("httpd", ["apache"]), ("nginx", ["nginx"]),
   ("redis", ["redis"]), ("mongodb-server", ["mongod"]), ("rabbitmq-server", ["rabbitmq"]),
   ("elasticsearch", ["elasticsearch"]), ("grafana", ["grafana"]),
   ("prometheus", ["prometheus"]), ("tomcat", ["tomcat"]), ("dovecot", ["dovecot"]),
   ("postfix", ["postfix"]), ("chrony", ["chrony"]), ("openssh-server", ["sshd"]),
   ("rpcbind", ["rpc"]), ("nfs-utils", ["nfsnobody"]), ("haproxy", ["haproxy"]),
   ("squid", ["squid"]), ("memcached", ["memcached"])]

/-- The accounts the Containerfile itself creates. -/
def collectMaterializedUsernames : List String :=
  (useraddUsers snap).filterMap fun u => (u.get "name").bind Json.asStr

def replicatedRpms : List String :=
  ((rowsOf (·.packagesAdded) snap.rpm).filter (·.disposition.isIncluded)).map (·.name)

def providingPackage (replicated : List String) (owner : String) : Option String :=
  match (KNOWN_PACKAGE_ACCOUNTS.filter fun (pkg, accounts) =>
      replicated.contains pkg && accounts.contains owner).getLast? with
  | some (pkg, _) => some pkg
  | none => if replicated.contains owner then some owner else none

def knownToken (value : String) (h : exportTokenFault value = none) : ExportToken := ⟨value, h⟩

def DEFAULT_VAR_DIR_MODE : ExportToken := knownToken "0755" (by decide)
def DEFAULT_VAR_DIR_OWNER : ExportToken := knownToken "root" (by decide)

/-- The decimal digits of an id pass the check. -/
def numericToken (id : Nat) : ExportToken :=
  match ExportToken.parse (toString id) with
  | .ok token => token
  | .error _ => DEFAULT_VAR_DIR_OWNER

def provedAccountName (name : Option String) : Option ExportToken :=
  name.bind fun name => (ExportToken.parse name).toOption

structure Ownership where
  owner : ExportToken
  group : ExportToken
  comment : String

/-- An account that may not exist in the image is written as its number. -/
def resolveTmpfilesOwnership (d : VarDirectory) : Ownership :=
  let uid := d.ownerUid.getD 0
  let gid := d.ownerGid.getD 0
  if uid = 0 then ⟨DEFAULT_VAR_DIR_OWNER, DEFAULT_VAR_DIR_OWNER, ""⟩
  else
    match provedAccountName d.ownerName with
    | none => ⟨numericToken uid, numericToken gid, ""⟩
    | some owner =>
      let group := provedAccountName d.groupName
      if (collectMaterializedUsernames snap).contains owner.text then
        ⟨owner, group.getD (numericToken gid), ""⟩
      else
        match providingPackage (replicatedRpms snap) owner.text with
        | some pkg => ⟨owner, group.getD owner, "created by package: " ++ pkg⟩
        | none => ⟨numericToken uid, numericToken gid,
            "account '" ++ owner.text ++ "' not guaranteed in image"⟩

def lostCreatorComment (path : ExportPath) (creator : String) : Line :=
  note (path.text ++ ": created on the host by " ++ sanitizeForComment creator ++
    ", which this export does not carry")

def mkdirLine (path : ExportPath) : Line := .command [.fixed "RUN mkdir -p ", bare path.text]

def tmpfilesDirLine (path : ExportPath) (mode owner group : ExportToken) : Line :=
  .command [.fixed "d ", bare path.text, .fixed " ", bare mode.text, .fixed " ", bare owner.text,
    .fixed " ", bare group.text, .fixed " -"]

def REFUSED_PATH_REASON : String :=
  "its path has characters this export will not write into a build instruction"

def REFUSED_MODE_REASON : String :=
  "its recorded mode is not one this export will write into a tmpfiles.d entry"

def refusedFieldComment (path reason : String) : Line :=
  note ("FIXME: create " ++ sanitizeForComment path ++ " by hand; " ++ reason)

/-- An instruction, and the entry to uncomment if it turns out to be needed. -/
def unresolvedFixmeLines (d : VarDirectory) (path : ExportPath)
    (creator : String) (reason : UnresolvedReason) : List Line :=
  let lines (mode owner group : ExportToken) : List Line :=
    [note ("FIXME: confirm the base image creates " ++ path.text ++ "; on the host " ++
       sanitizeForComment creator ++ " created it and " ++ reason.text ++
       "; if the base does not, uncomment the next line"),
     .comment (tmpfilesDirLine path mode owner group).text]
  match d.mode with
  | none => lines DEFAULT_VAR_DIR_MODE DEFAULT_VAR_DIR_OWNER DEFAULT_VAR_DIR_OWNER
  | some mode =>
    match ExportToken.parse mode with
    | .error _ => [refusedFieldComment d.path REFUSED_MODE_REASON]
    | .ok mode =>
      let who := resolveTmpfilesOwnership snap d
      lines mode who.owner who.group

def ownershipComment (comment : String) : List Line :=
  if comment.isEmpty then [] else [note comment]

/-- What one directory puts into the `tmpfiles.d` file. -/
def tmpfilesLines (snap : InspectionSnapshot) (d : VarDirectory) : EffectiveBacking → List Line
  | .carried => []
  | .provision lost =>
    match d.mode with
    | none => []
    | some mode =>
      match ExportPath.parse d.path, ExportToken.parse mode with
      | .error _, _ => [refusedFieldComment d.path REFUSED_PATH_REASON]
      | .ok _, .error _ => [refusedFieldComment d.path REFUSED_MODE_REASON]
      | .ok path, .ok mode =>
        let who := resolveTmpfilesOwnership snap d
        (lost.toList.map (lostCreatorComment path)) ++ ownershipComment who.comment ++
          [tmpfilesDirLine path mode who.owner who.group]
  | .unresolved creator reason =>
    match ExportPath.parse d.path with
    | .error _ => [refusedFieldComment d.path REFUSED_PATH_REASON]
    | .ok path => unresolvedFixmeLines snap d path creator reason

def tmpfilesConfLines : List Line :=
  (effectiveVarBacking snap).flatMap fun (d, outcome) => tmpfilesLines snap d outcome

def renderTmpfilesConf : Option String :=
  let lines := tmpfilesConfLines snap
  if lines.isEmpty then none else some (BuildScript.scriptText lines ++ "\n")

def varDirLines (snap : InspectionSnapshot) (d : VarDirectory) : EffectiveBacking → List Line
  | .carried => []
  | .provision lost =>
    if d.mode.isSome then []
    else
      match ExportPath.parse d.path with
      | .error _ => [refusedFieldComment d.path REFUSED_PATH_REASON]
      | .ok path => (lost.toList.map (lostCreatorComment path)) ++ [mkdirLine path]
  | .unresolved creator reason =>
    match ExportPath.parse d.path with
    | .error _ => [refusedFieldComment d.path REFUSED_PATH_REASON]
    | .ok path => unresolvedFixmeLines snap d path creator reason

def varDirSectionLines (tmpfilesStaged : Bool) : List Line :=
  match snap.storage with
  | none => []
  | some _ =>
    containerSection "/var directory provisioning"
      ((if tmpfilesStaged then
          [note "/var directories with known ownership/mode provisioned via tmpfiles.d",
           .copy [.fixed "config/usr/lib/tmpfiles.d/inspectah-var.conf"]
             [.fixed "/usr/lib/tmpfiles.d/inspectah-var.conf"]]
        else []) ++
       (effectiveVarBacking snap).flatMap fun (d, outcome) => varDirLines snap d outcome)

end Inspectah
