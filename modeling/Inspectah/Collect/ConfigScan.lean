import Inspectah.Collect.ConfigWalk
import Inspectah.Core.HostFiles
import Inspectah.Library.FirstMatch
import Mathlib.Data.List.Sort
import Mathlib.Data.String.Basic

/-!
The scan of `/etc`: the files rpm reports as changed, those no package owns, those of removed
packages, and the advisories on outdated ones.
-/
namespace Inspectah

variable (host : ConfigHost) (path : String)

/-- A prefix that ends in a slash or a dot stands for all it begins; any other for itself. -/
def CATEGORY_RULES : List (ConfigCategory × List String) :=
  [(.tmpfiles, ["/etc/tmpfiles.d/"]),
   (.environment, ["/etc/environment", "/etc/profile.d/"]),
   (.audit, ["/etc/audit/rules.d/"]),
   (.pam, ["/etc/pam.d/"]),
   (.tuned, ["/etc/tuned/"]),
   (.kernelModule, ["/etc/modules-load.d/", "/etc/modprobe.d/"]),
   (.initramfs, ["/etc/dracut.conf.d/"]),
   (.libraryPath, ["/etc/ld.so.conf.d/"]),
   (.journal, ["/etc/systemd/journald.conf.d/"]),
   (.logrotate, ["/etc/logrotate.d/"]),
   (.automount, ["/etc/auto.master", "/etc/auto."]),
   (.sysctl, ["/etc/sysctl.d/", "/etc/sysctl.conf"]),
   (.cryptoPolicy, ["/etc/crypto-policies/"]),
   (.identity, ["/etc/nsswitch.conf", "/etc/sssd/", "/etc/krb5.conf", "/etc/krb5.conf.d/",
     "/etc/ipa/"]),
   (.limits, ["/etc/security/limits."])]

def classifyConfigPath : ConfigCategory :=
  ((CATEGORY_RULES.find? fun rule => rule.2.any fun pre => path == pre ||
    ((Text.endsWith pre "/" || Text.endsWith pre ".") && Text.startsWith path pre)).map
      (·.1)).getD .other

def isSelinuxFcontextStoreFile : Bool :=
  Text.startsWith path "/etc/selinux/" &&
    (Text.endsWith path "/contexts/files/file_contexts.local" ||
      Text.endsWith path "/contexts/files/file_contexts.subs")

/-- The size or the digest differs. -/
def hasContentChange (flags : String) : Bool :=
  flags.toList[0]? == some 'S' || flags.toList[2]? == some '5'

def classifyRpmVaKind (flags : String) : ConfigFileKind :=
  if hasContentChange flags then .rpmOwnedModified else .rpmOwnedDefault

def isRpmOwnedViaSymlink : Bool :=
  host.isLink path &&
    match host.finalTarget path with
    | some resolved => host.isRpmOwned resolved
    | none => false

def isAuthselectPamLink (path flags : String) : Bool :=
  Text.startsWith path "/etc/pam.d/" && flags.toList.contains 'L' &&
    (flags.toList.all fun c => c == '.' || c == 'L') &&
    match host.finalTarget path with
    | some resolved => Text.startsWith resolved "/etc/authselect/"
    | none => false

/-- Links known to be safe, by where they are and where they lead. -/
def CROSS_TREE_SYMLINK_ALLOWLIST : List (String × String) :=
  [("/etc/localtime", "/usr/share/zoneinfo/"), ("/etc/alternatives/", "/usr/"),
   ("/etc/ssl/certs/ca-bundle.crt", "/etc/pki/"), ("/etc/pki/tls/cert.pem", "/etc/pki/"),
   ("/etc/crypto-policies/back-ends/", "/usr/share/crypto-policies/"),
   ("/etc/resolv.conf", "/run/")]

def isAllowlisted (source resolved : String) : Bool :=
  CROSS_TREE_SYMLINK_ALLOWLIST.any fun entry =>
    Text.startsWith source entry.1 && Text.startsWith resolved entry.2

def crossesTreeBoundary (source target : String) : Option String :=
  if Text.startsWith source "/etc/" && Text.startsWith target "/var/" then
    some "Symlink crosses /etc → /var: config is stateful via /var persistence, not subject to /etc 3-way merge"
  else if Text.startsWith source "/etc/" && Text.startsWith target "/usr/" then
    some "Symlink crosses /etc → /usr: target is in the immutable /usr layer"
  else if Text.startsWith source "/opt/" && Text.startsWith target "/usr/" then
    some "Symlink crosses /opt → /usr: target is in the immutable /usr layer"
  else none

/-- Why the scan is not complete. -/
inductive ConfigFailure where
  | walk (dirs : List String)
  | unreadableDir (dir : String)
  | tooLarge (bytes : Nat) (path : String)
  | denied (path : String)
  deriving DecidableEq

def ConfigFailure.text : ConfigFailure → String
  | walk dirs => "permission denied during /etc walk: " ++
      "; ".intercalate (dirs.map fun dir => "permission denied: " ++ dir)
  | unreadableDir dir => "permission denied: " ++ dir
  | tooLarge bytes path => "file too large (" ++ toString bytes ++ " bytes): " ++ path
  | denied path => "permission denied reading " ++ path

def ConfigFailure.file : ConfigFailure → Option String
  | tooLarge _ path => some path
  | denied path => some path
  | _ => none

def MAX_CONFIG_FILE_SIZE : Nat := 256 * 1024

structure ConfigScan where
  files : List ConfigFileEntry := []
  failures : List ConfigFailure := []

instance : Append ConfigScan where
  append a b := ⟨a.files ++ b.files, a.failures ++ b.failures⟩

def gatherScans : List ConfigScan → ConfigScan
  | [] => {}
  | scan :: scans => scan ++ gatherScans scans

/-- No text and perhaps no word of it, where the file cannot be read. -/
def readConfigContent : String × List ConfigFailure :=
  match host.readFile path with
  | .ok content =>
    if content.utf8ByteSize > MAX_CONFIG_FILE_SIZE then
      ("", [.tooLarge content.utf8ByteSize path])
    else (content, [])
  | .error .denied => ("", [.denied path])
  | .error .other => ("", [])

def dhcpConnectionFiles : List String :=
  match host.etc.readDir ["NetworkManager", "system-connections"] with
  | .entries names =>
    ((names.filter (Text.endsWith · ".nmconnection")).map fun name =>
      "/etc/NetworkManager/system-connections/" ++ name).filter fun path =>
        match host.readFile path with
        | .ok content => Text.contains content "method=auto"
        | .error _ => false
  | _ => []

/-- The reports on files of `/etc`, in the order of their paths. -/
def vaEntries : List RpmVaEntry :=
  (host.verification.filter fun v => Text.startsWith v.path "/etc").insertionSort fun a b =>
    a.path ≤ b.path

def vaPaths : List String := (vaEntries host).map (·.path)

/-- No rule keeps the reported file out. -/
def isVaKept (v : RpmVaEntry) : Bool :=
  host.fileExists v.path && !(dhcpConnectionFiles host).contains v.path &&
    !isSelinuxFcontextStoreFile v.path && !isAuthselectPamLink host v.path v.flags

def modifiedEntry (v : RpmVaEntry) (content : String) : ConfigFileEntry where
  path := v.path
  kind := classifyRpmVaKind v.flags
  category := classifyConfigPath v.path
  content := content
  rpmVaFlags := some v.flags
  package := v.package
  disposition := .excluded

def vaScan (v : RpmVaEntry) : ConfigScan :=
  if !isVaKept host v then {}
  else
    let read := readConfigContent host v.path
    if classifyRpmVaKind v.flags = .rpmOwnedDefault then { failures := read.2 }
    else { files := [modifiedEntry v read.1], failures := read.2 }

def modifiedScan : ConfigScan := gatherScans ((vaEntries host).map (vaScan host))

def absPath (rel : String) : String := "/etc/" ++ rel

def isPackaged : Bool :=
  (vaPaths host).contains path || host.isRpmOwned path || isRpmOwnedViaSymlink host path

def unownedEntry (path content : String) (disposition : FindingKind) : ConfigFileEntry where
  path := path
  kind := .unowned
  category := classifyConfigPath path
  content := content
  disposition := disposition

/-- What a link of `/etc` is, if it is not copied as the file it leads to. -/
inductive LinkFinding where
  | advisory (rationale : String)
  | allowlisted

def linkFinding : Option LinkFinding :=
  if host.isLink path then
    match host.finalTarget path with
    | none => some (.advisory "Broken cross-tree symlink")
    | some resolved =>
      if isAllowlisted path resolved then some .allowlisted
      else (crossesTreeBoundary path resolved).map .advisory
  else none

def unownedFile : ConfigScan :=
  if isPackaged host path || isExcludedUnowned host path || isDevArtifact path ||
      (dhcpConnectionFiles host).contains path then {}
  else
    match linkFinding host path with
    | some .allowlisted => {}
    | some (.advisory rationale) =>
      { files := [unownedEntry path "" (.advisory .crossTreeSymlink rationale)] }
    | none =>
      let read := readConfigContent host path
      { files := [unownedEntry path read.1 .included], failures := read.2 }

def unownedScan : ConfigScan :=
  match walkEtc host "/etc" host.etc with
  | .ok walk =>
    { failures := walk.denied.map .unreadableDir } ++
      gatherScans (walk.files.map fun rel => unownedFile host (absPath rel))
  | .error dirs => { failures := [.walk dirs] }

def isRemoval (line : String) : Bool :=
  Text.contains line "Erase" || Text.contains line "Removed" || Text.contains line "Remove"

/-- The first word of a line on a removal, where more follow and it is no number. -/
def removedPackage (line : String) : Option String :=
  if isRemoval (Text.trim line) then
    match splitWhitespace (Text.trim line) with
    | candidate :: _ :: _ => if candidate.toList.all Char.isDigit then none else some candidate
    | _ => none
  else none

def parseRemovedPackages (output : String) : List String :=
  (Text.lines output).filterMap removedPackage

def removedPackages : List String :=
  if host.dnfHistory.exitCode ≠ 0 then [] else parseRemovedPackages host.dnfHistory.stdout

def baseName (rel : String) : String := ((Text.splitOn (· == '/') rel).getLast?).getD rel

def orphanEntry (path package content : String) : ConfigFileEntry where
  path := path
  kind := .orphaned
  category := classifyConfigPath path
  content := content
  package := some package

/-- `seen` are the files collected before any orphan is. -/
def isOrphanOf (seen : List String) (package rel : String) : Bool :=
  Text.contains (baseName rel) package && !seen.contains (absPath rel) &&
    !isPackaged host (absPath rel) && !(dhcpConnectionFiles host).contains (absPath rel)

def orphanFile (seen : List String) (package rel : String) : ConfigScan :=
  if isOrphanOf host seen package rel then
    let read := readConfigContent host (absPath rel)
    { files := [orphanEntry (absPath rel) package read.1], failures := read.2 }
  else {}

def detectOrphanedConfigs (seen : List String) : ConfigScan :=
  gatherScans ((removedPackages host).flatMap fun package =>
    (walkEtcRecursive host "/etc" host.etc).map fun rel => orphanFile host seen package rel)

inductive DetectionRule where
  /-- Every entry of the directory, a path of names below `/etc`. -/
  | fileGlob (dir : List String)
  | fileGlobWithoutCounterpart (dir : List String) (counterpart : String → String)
  | fileHasCustomEntries (path : String)

structure ModernizationPattern where
  detection : DetectionRule
  rationale : String
  minOsMajor : Option Nat := none

def sysvinitToSystemdUnit (initScript : String) : String :=
  "/usr/lib/systemd/system/" ++ baseName initScript ++ ".service"

def MODERNIZATION_PATTERNS : List ModernizationPattern :=
  [{ detection := .fileGlobWithoutCounterpart ["init.d"] sysvinitToSystemdUnit,
     rationale := "SysVinit script with no systemd equivalent — create a .service unit for image mode" },
   { detection := .fileGlob ["xinetd.d"],
     rationale := "xinetd is deprecated — convert to systemd socket activation" },
   { detection := .fileHasCustomEntries "/etc/anacrontab",
     rationale := "anacrontab has custom entries — consider systemd timers instead" }]

/-- The paths of the entries of a directory of `/etc`. -/
def entryPaths (dir : List String) : List String :=
  match host.etc.readDir dir with
  | .entries names => names.map fun name => absPath ("/".intercalate (dir ++ [name]))
  | _ => []

def isCustomEntry (line : String) : Bool :=
  let fields := splitWhitespace line
  match fields with
  | _ :: _ :: jobId :: _ => !(["cron.daily", "cron.weekly", "cron.monthly"].contains jobId)
  | _ => false

def isAnacronLine (line : String) : Bool :=
  !line.isEmpty && !Text.startsWith line "#" &&
    ((line.toList.head?.map Char.isDigit).getD false || Text.startsWith line "@")

def hasCustomEntries (content : String) : Bool :=
  (((Text.lines content).map Text.trim).filter isAnacronLine).any isCustomEntry

def detectedPaths (host : ConfigHost) : DetectionRule → List String
  | .fileGlob dir => entryPaths host dir
  | .fileGlobWithoutCounterpart dir counterpart =>
    (entryPaths host dir).filter fun path => !host.fileExists (counterpart path)
  | .fileHasCustomEntries path =>
    match host.readFile path with
    | .ok content => if hasCustomEntries content then [path] else []
    | .error _ => []

def checkModernizationPatterns (osMajor : Nat) :
    List (String × FindingKind) :=
  (MODERNIZATION_PATTERNS.filter fun pattern => pattern.minOsMajor.all (· ≤ osMajor)).flatMap
    fun pattern => (detectedPaths host pattern.detection).map fun path =>
      (path, .advisory .modernization pattern.rationale)

def modernizations : List (String × FindingKind) :=
  (host.osMajor.map (checkModernizationPatterns host)).getD []

def foldAdvisory (files : List ConfigFileEntry) (advisory : String × FindingKind) :
    List ConfigFileEntry :=
  if files.any (·.path == advisory.1) then
    FirstMatch.updateFirst (·.path == advisory.1) (fun e => { e with disposition := advisory.2 })
      files
  else files ++ [unownedEntry advisory.1 "" advisory.2]

def sortFilesByPath (files : List ConfigFileEntry) : List ConfigFileEntry :=
  files.insertionSort fun a b => a.path ≤ b.path

def OSTREE_VOLATILE_NAMES : List String :=
  ["resolv.conf", "hostname", "machine-id", ".updated", "ld.so.cache"]

def OSTREE_SKIP_BASENAMES : List String := ["os-release"]

def ostreeEntry (kind : ConfigFileKind) (rel content : String) : ConfigFileEntry where
  path := "etc/" ++ rel
  kind := kind
  category := classifyConfigPath (absPath rel)
  content := content

/-- The files of `/usr/etc` that `/etc` is compared with. -/
def tierOne : List String :=
  if (host.usrEtc.readDir []).isRead || host.fileExists "/usr/etc" then
    (walkEtcRecursive host "/usr/etc" host.usrEtc).filter fun rel =>
      !OSTREE_VOLATILE_NAMES.contains (baseName rel)
  else []

def changedFile (rel : String) : Option ConfigFileEntry :=
  if !host.fileExists (absPath rel) then none
  else
    match host.readFile ("/usr/etc/" ++ rel), host.readFile (absPath rel) with
    | .ok usrContent, .ok etcContent =>
      if usrContent ≠ etcContent then some (ostreeEntry .rpmOwnedModified rel etcContent) else none
    | _, _ => none

/-- The files of `/etc` alone. -/
def tierTwo : List String :=
  (walkEtcRecursive host "/etc" host.etc).filter fun rel =>
    !(tierOne host).contains rel && !OSTREE_VOLATILE_NAMES.contains (baseName rel) &&
      !OSTREE_SKIP_BASENAMES.contains (baseName rel)

def etcOnlyFile (rel : String) : ConfigFileEntry :=
  ostreeEntry .unowned rel ((host.readFile (absPath rel)).toOption.getD "")

def isEtcThere : Bool :=
  (host.etc.readDir []).isRead || host.fileExists "/etc"

def runOstreeConfig : List ConfigFileEntry :=
  if isEtcThere host then
    (tierOne host).filterMap (changedFile host) ++ (tierTwo host).map (etcOnlyFile host)
  else []

/-- The files of packages and of none. -/
def collectedScan : ConfigScan := modifiedScan host ++ unownedScan host

def packageScan : ConfigScan :=
  collectedScan host ++ detectOrphanedConfigs host ((collectedScan host).files.map (·.path))

def inspectConfig : ConfigScan :=
  if host.isOstree then { files := runOstreeConfig host }
  else if isEtcThere host then
    { files := sortFilesByPath ((modernizations host).foldl foldAdvisory (packageScan host).files),
      failures := (packageScan host).failures }
  else {}

end Inspectah
