import Inspectah.Collect.Executor
import Inspectah.Core.Snapshot
import Inspectah.Library.FirstMatch

/-!
The users and groups of a host, from the account files, sudoers rules, SSH keys and
subordinate ids.
-/
namespace Inspectah

open FirstMatch (updateFirst)

variable (host : AccountHost) (sec : UserGroupSection) (uppercase : String → String)

inductive IoErrorKind where
  | permissionDenied
  | notFound
  | other
  deriving DecidableEq

structure IoError where
  kind : IoErrorKind
  text : String
  deriving DecidableEq

structure AccountHost where
  readFile : String → Except IoError String
  readDir : String → DirRead

structure UserGroupOptions where
  preservePasswordHashes : Bool := false
  preserveSshKeys : Bool := false

def NON_SYSTEM_UID_MIN : Nat := 1000
def NON_SYSTEM_UID_MAX : Nat := 60000
def NON_SYSTEM_GID_MIN : Nat := 1000
def NON_SYSTEM_GID_MAX : Nat := 60000

def VALID_LOGIN_SHELLS : List String :=
  ["/bin/bash", "/bin/zsh", "/bin/sh", "/bin/fish", "/bin/tcsh", "/bin/csh", "/usr/bin/bash",
    "/usr/bin/zsh", "/usr/bin/fish"]

def USER_SECRET_PATTERNS : List String := ["PASSWORD", "SECRET", "TOKEN", "KEY", "CREDENTIAL"]

def entryLines (text : String) : List String :=
  ((Text.lines text).map Text.trim).filter fun line => !(line.isEmpty || Text.startsWith line "#")

def accountFields (line : String) : List String := Text.splitOn (· == ':') line

def firstField (line : String) : String := (accountFields line).headD ""

def isBetween (low high n : Nat) : Bool := low ≤ n && n < high

structure AccountRecord where
  name : String
  entry : Json
  raw : String

/-- A user of `/etc/passwd` outside the system range. -/
def passwdRecord (line : String) : Option AccountRecord :=
  match accountFields line with
  | name :: _ :: uid :: gid :: _ :: home :: shell :: _ =>
    (parseU32 uid).bind fun uid =>
      if isBetween NON_SYSTEM_UID_MIN NON_SYSTEM_UID_MAX uid then
        some
          { name
            entry := .obj
              [("gid", ((parseU32 gid).map fun g => Json.num (toString g)).getD .null),
                ("home", .str home), ("include", .bool true), ("name", .str name),
                ("shell", .str shell), ("uid", .num (toString uid))]
            raw := line }
      else none
  | _ => none

/-- A group of `/etc/group` outside the system range. -/
def groupRecord (line : String) : Option AccountRecord :=
  match accountFields line with
  | name :: _ :: gid :: rest =>
    (parseU32 gid).bind fun gid =>
      if isBetween NON_SYSTEM_GID_MIN NON_SYSTEM_GID_MAX gid then
        let members := rest.headD ""
        let members := if members.isEmpty then [] else Text.splitOn (· == ',') members
        some
          { name
            entry := .obj
              [("gid", .num (toString gid)), ("include", .bool true),
                ("members", .arr (members.map Json.str)), ("name", .str name),
                ("source", .str (if 1000 ≤ gid then "custom" else "system"))]
            raw := line }
      else none
  | _ => none

inductive PasswordStatus where
  | locked
  | disabled
  | noPassword
  | passwordSet
  | unknown
  deriving DecidableEq

def PasswordStatus.text : PasswordStatus → String
  | .locked => "locked"
  | .disabled => "disabled"
  | .noPassword => "no_password"
  | .passwordSet => "password_set"
  | .unknown => "unknown"

def passwordStatus (hashField : String) : PasswordStatus :=
  if Text.startsWith hashField "!!" || hashField == "!" then .locked
  else if hashField == "*" then .disabled
  else if hashField.isEmpty then .noPassword
  else if Text.startsWith hashField "$" then .passwordSet
  else .unknown

structure ShadowRecord where
  username : String
  hashField : String
  status : PasswordStatus
  safeEntry : String

/-- An entry of `/etc/shadow` for a user that was kept, its hash replaced by the status. -/
def shadowRecord (users : List String) (line : String) : Option ShadowRecord :=
  match accountFields line with
  | username :: hashField :: rest =>
    if users.contains username then
      some
        { username
          hashField
          status := passwordStatus hashField
          safeEntry := username ++ ":" ++ (passwordStatus hashField).text ++ ":" ++
            ":".intercalate rest }
    else none
  | _ => none

/-- An entry of `/etc/gshadow` for a group that was kept, its password replaced. -/
def gshadowEntry (groups : List String) (line : String) : Option String :=
  match accountFields line with
  | name :: _ :: admins :: members :: _ =>
    if groups.contains name then some (name ++ ":!:" ++ admins ++ ":" ++ members) else none
  | _ => none

def onUsers (f : Json → Json) (sec : UserGroupSection) : UserGroupSection :=
  { sec with users := sec.users.map f }

def onUser (name : String) (f : Json → Json) (sec : UserGroupSection) : UserGroupSection :=
  { sec with users := updateFirst (fun user => strField user "name" == name) f sec.users }

def parsePasswd (text : String) (sec : UserGroupSection) : UserGroupSection × List String :=
  let records := (entryLines text).filterMap passwdRecord
  ({ sec with
      users := sec.users ++ records.map (·.entry)
      passwdEntries := sec.passwdEntries ++ records.map (·.raw) },
    records.map (·.name))

def orInsert (key : String) (value user : Json) : Json :=
  if (user.get key).isSome then user else Json.insert key value user

def classifyUser (user : Json) : String :=
  if VALID_LOGIN_SHELLS.contains (strField user "shell") then "interactive" else "non-interactive"

def setDefaults (user : Json) : Json :=
  orInsert "password_choice" (.str "none")
    (orInsert "containerfile_strategy" (.str "skip")
      (Json.insert "classification" (.str (classifyUser user)) user))

def shadowHint (username : String) : RedactionHint :=
  { path := "/etc/shadow"
    reason := "shadow entry for user '" ++ username ++ "' contains password hash" }

def recordShadow (preserveHashes : Bool) (out : UserGroupSection × List RedactionHint)
    (r : ShadowRecord) : UserGroupSection × List RedactionHint :=
  let hints := if r.status = .passwordSet then out.2 ++ [shadowHint r.username] else out.2
  let sec :=
    if preserveHashes && r.status = .passwordSet then
      onUser r.username (Json.insert "password_hash" (.str r.hashField)) out.1
    else out.1
  let sec := { sec with shadowEntries := sec.shadowEntries ++ [r.safeEntry] }
  (onUser r.username (Json.insert "password_status" (.str r.status.text)) sec, hints)

def parseShadow (text : String) (users : List String) (preserveHashes : Bool)
    (out : UserGroupSection × List RedactionHint) : UserGroupSection × List RedactionHint :=
  ((entryLines text).filterMap (shadowRecord users)).foldl (recordShadow preserveHashes) out

def parseGroup (text : String) (sec : UserGroupSection) : UserGroupSection × List String :=
  let records := (entryLines text).filterMap groupRecord
  ({ sec with
      groups := sec.groups ++ records.map (·.entry)
      groupEntries := sec.groupEntries ++ records.map (·.raw) },
    records.map (·.name))

def parseGshadow (text : String) (groups : List String) (sec : UserGroupSection) :
    UserGroupSection :=
  { sec with
    gshadowEntries := sec.gshadowEntries ++ (entryLines text).filterMap (gshadowEntry groups) }

/-- The lines of a `subuid` or `subgid` file for users that were kept. -/
def subidEntries (path : String) (users : List String) : List String :=
  match host.readFile path with
  | .error _ => []
  | .ok text => (entryLines text).filter fun line => users.contains (firstField line)

def secretPattern (upper : String) : Option String :=
  USER_SECRET_PATTERNS.find? fun pattern =>
    Text.contains upper pattern &&
      !(pattern == "PASSWORD" && (Text.contains upper "NOPASSWD" || Text.contains upper "PASSWD:"))

def sudoersHint (pattern : String) : RedactionHint :=
  { path := "sudoers", reason := "sudoers rule matches secret pattern '" ++ pattern ++ "'" }

def sudoersRule (line : String) :
    Option (String × Option RedactionHint) :=
  if line.isEmpty then none
  else if Text.startsWith line "#includedir" || Text.startsWith line "@includedir" then
    some (line, none)
  else if Text.startsWith line "#" || Text.startsWith line "Defaults" then none
  else some (line, (secretPattern (uppercase line)).map sudoersHint)

def extractSudoersRules (text : String)
    (out : UserGroupSection × List RedactionHint) : UserGroupSection × List RedactionHint :=
  let rules := ((Text.lines text).map Text.trim).filterMap (sudoersRule uppercase)
  ({ out.1 with sudoersRules := out.1.sudoersRules ++ rules.map (·.1) },
    out.2 ++ rules.filterMap (·.2))

def sudoersFiles : List String :=
  match host.readDir "/etc/sudoers.d" with
  | .entries names =>
    (names.filter fun name => !Text.startsWith name ".").map ("/etc/sudoers.d/" ++ ·)
  | _ => []

def parseSudoers (host : AccountHost)
    (out : UserGroupSection × List RedactionHint) : UserGroupSection × List RedactionHint :=
  ("/etc/sudoers" :: sudoersFiles host).foldl (fun out path =>
    match host.readFile path with
    | .ok text => extractSudoersRules uppercase text out
    | .error _ => out) out

structure SshKeys where
  username : String
  path : String
  lines : List String

def sshKeysOf (user : Json) : Option SshKeys :=
  let home := strField user "home"
  if home.isEmpty then none
  else
    match host.readFile (home ++ "/.ssh/authorized_keys") with
    | .error _ => none
    | .ok content =>
      some
        { username := strField user "name"
          path := home ++ "/.ssh/authorized_keys"
          lines := entryLines content }

def recordSshKeys (preserveKeys : Bool) (sec : UserGroupSection) (keys : SshKeys) :
    UserGroupSection :=
  let count := Json.num (toString keys.lines.length)
  let sec :=
    { sec with
      sshAuthorizedKeysRefs := sec.sshAuthorizedKeysRefs ++
        [.obj [("key_count", count), ("path", .str keys.path), ("user", .str keys.username)]] }
  onUser keys.username (fun user =>
    let user := Json.insert "ssh_key_count" count user
    if preserveKeys then Json.insert "ssh_keys" (.arr (keys.lines.map Json.str)) user else user) sec

def collectSshKeys (preserveKeys : Bool) (sec : UserGroupSection) :
    UserGroupSection :=
  (sec.users.filterMap (sshKeysOf host)).foldl (recordSshKeys preserveKeys) sec

/-- The groups a line of `/etc/group` puts a user in, once for each mention. -/
def membershipsOn (username line : String) : List String :=
  match accountFields line with
  | group :: _ :: _ :: members :: _ =>
    (((Text.splitOn (· == ',') members).map Text.trim).filter fun member =>
      !member.isEmpty && member == username).map fun _ => group
  | _ => []

def enrichSupplementaryGroups (groupText : String) (sec : UserGroupSection) : UserGroupSection :=
  onUsers (fun user => Json.insert "supplementary_groups" (.arr
    (((entryLines groupText).flatMap (membershipsOn (strField user "name"))).map Json.str)) user) sec

def firstWord (rule : String) : String := (splitWhitespace rule).headD ""

def isUserSpec (word : String) : Bool :=
  !(Text.startsWith word "#" || Text.startsWith word "@" || Text.startsWith word "%")

def hasSudo (rules : List String) (user : Json) : Bool :=
  ((rules.map firstWord).filter isUserSpec).contains (strField user "name") ||
    (((user.get "supplementary_groups").bind Json.asArray).getD []).any fun group =>
      rules.any fun rule => firstWord rule == "%" ++ (group.asStr.getD "")

def enrichSudoFlags : UserGroupSection :=
  onUsers (fun user => Json.insert "has_sudo" (.bool (hasSudo sec.sudoersRules user)) user) sec

def enrichSubuidFlags : UserGroupSection :=
  onUsers (fun user => Json.insert "has_subuid"
    (.bool ((sec.subuidEntries.map firstField).contains (strField user "name"))) user) sec

/-- The signals a classification rests on. A key count is its literal. -/
def classificationRationale (user : Json) : String :=
  let text := fun key => (user.get key).bind Json.asStr
  let shell := (text "shell").map fun shell =>
    "shell=" ++ (Text.splitOn (· == '/') shell).getLastD shell
  let home := (text "home").map ("home=" ++ ·)
  let password := (text "password_status").map ("password=" ++ ·)
  let rights := if (user.get "has_sudo").bind Json.asBool = some true then "sudo=yes" else "sudo=no"
  let keys := match user.get "ssh_key_count" with
    | some (.num count) => some ("ssh_keys=" ++ count)
    | _ => none
  let groups := match (user.get "supplementary_groups").bind Json.asArray with
    | some (group :: rest) =>
      some ("groups=" ++ "+".intercalate ((group :: rest).filterMap Json.asStr))
    | _ => none
  ", ".intercalate (shell.toList ++ home.toList ++ password.toList ++ [rights] ++ keys.toList ++
    groups.toList)

def setRationale (user : Json) : Json :=
  Json.insert "classification_rationale" (.str (classificationRationale user)) user

structure UserGroupOutput where
  userGroups : UserGroupSection
  redactionHints : List RedactionHint

inductive InspectorError where
  | failed (reason : String)
  | degraded (output : UserGroupOutput) (reason : String)

def shadowDegraded : Except IoError String → Option String
  | .ok _ => none
  | .error e =>
    match e.kind with
    | .permissionDenied => some "cannot read /etc/shadow: permission denied"
    | .notFound => none
    | .other => some ("cannot read /etc/shadow: " ++ e.text)

def groupDegraded : Except IoError String → Option String
  | .ok _ => none
  | .error e => some ("cannot read /etc/group: " ++ e.text)

def readShadow (users : List String) (preserveHashes : Bool)
    (sec : UserGroupSection) : UserGroupSection × List RedactionHint :=
  match host.readFile "/etc/shadow" with
  | .ok text => parseShadow text users preserveHashes (sec, [])
  | .error _ => (sec, [])

def readGroup : UserGroupSection × List String :=
  match host.readFile "/etc/group" with
  | .ok text => parseGroup text sec
  | .error _ => (sec, [])

def readGshadow (groups : List String) (sec : UserGroupSection) :
    UserGroupSection :=
  match host.readFile "/etc/gshadow" with
  | .ok text => parseGshadow text groups sec
  | .error _ => sec

def readSubids (users : List String) (sec : UserGroupSection) :
    UserGroupSection :=
  { sec with
    subuidEntries := sec.subuidEntries ++ subidEntries host "/etc/subuid" users
    subgidEntries := sec.subgidEntries ++ subidEntries host "/etc/subgid" users }

def readSupplementaryGroups : UserGroupSection :=
  match host.readFile "/etc/group" with
  | .ok text => enrichSupplementaryGroups text sec
  | .error _ => sec

/-- From the text of `/etc/passwd` to the section and the hints. -/
def collectAccounts (options : UserGroupOptions)
    (host : AccountHost) (passwdText : String) : UserGroupOutput :=
  let passwd := parsePasswd passwdText {}
  let shadow :=
    readShadow host passwd.2 options.preservePasswordHashes (onUsers setDefaults passwd.1)
  let group := readGroup host shadow.1
  let accounts := readSubids host passwd.2 (readGshadow host group.2 group.1)
  let sudoers := parseSudoers uppercase host (accounts, shadow.2)
  let keys := collectSshKeys host options.preserveSshKeys sudoers.1
  let enriched := enrichSubuidFlags (enrichSudoFlags (readSupplementaryGroups host keys))
  { userGroups := onUsers setRationale enriched
    redactionHints := sudoers.2 }

def inspectUsers (options : UserGroupOptions) (host : AccountHost) :
    Except InspectorError UserGroupOutput :=
  match host.readFile "/etc/passwd" with
  | .error e => .error (.failed ("cannot read /etc/passwd: " ++ e.text))
  | .ok passwdText =>
    let output := collectAccounts uppercase options host passwdText
    let reasons := (shadowDegraded (host.readFile "/etc/shadow")).toList ++
      (groupDegraded (host.readFile "/etc/group")).toList
    if reasons.isEmpty then .ok output
    else .error (.degraded output ("; ".intercalate reasons))

end Inspectah
