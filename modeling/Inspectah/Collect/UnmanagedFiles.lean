import Inspectah.Collect.HostTree
import Inspectah.Core.HostFiles
import Inspectah.Library.Grouping
import Inspectah.Library.HashOrder

/-!
The scan for files that no package owns: a walk of `/opt`, `/srv` and `/usr/local` that lists each
file, and a walk of the rest of `/usr` that reports the highest unowned directories.
-/
namespace Inspectah

open HashOrder (Order)

def UNMANAGED_SCAN_ROOTS : List String := ["/opt", "/srv", "/usr/local"]

def PRUNE_DIRS : List String :=
  ["node_modules", ".git", "__pycache__", ".tox", ".venv", ".cache", ".npm", "target", "build",
    "dist", ".eggs", "vendor"]

/-- What reading a root gives, links followed, the entries of `/usr`, the commands, and sizes by
    `lstat`. -/
structure UnmanagedHost where
  scanRoot : String → HostNode
  usr : HostDir
  run : String → List String → ExecResult
  lstatSize : String → Option Nat
  scanRootNamed : ∀ root, (scanRoot root).Named
  usrDistinct : usr.names.Nodup
  usrNamed : usr.Named

def detectSystemInstallDate (host : UnmanagedHost) : Nat :=
  let read (result : ExecResult) : Option Nat :=
    if result.success then parseBelow U64_RANGE (Text.trim result.stdout) else none
  ((read (host.run "stat" ["-c", "%Z", "/etc/machine-id"])).or
    (read (host.run "rpm" ["-q", "--qf", "%\x7bINSTALLTIME\x7d", "filesystem"]))).getD 0

/-- `HashMap::insert`. -/
def insertMount (mounts : List (String × Bool)) (mount : String × Bool) : List (String × Bool) :=
  mounts.filter (fun m => m.1 != mount.1) ++ [mount]

/-- Mount points and whether they are writable. A later line for a mount point counts. -/
def parseMountRwFlags (host : UnmanagedHost) : List (String × Bool) :=
  let result := host.run "cat" ["/proc/mounts"]
  if !result.success then []
  else
    (Text.lines result.stdout).foldl (fun mounts line =>
      match splitWhitespace line with
      | _ :: mountPoint :: _ :: options :: _ =>
        insertMount mounts (mountPoint, (Text.splitOn (· == ',') options).any (· == "rw"))
      | _ => mounts) []

/-- One step over the table of mounts: the length of the best match so far, and its flag. -/
def betterMount (path : String) (best : Nat × Bool) (mount : String × Bool) : Nat × Bool :=
  if Text.startsWith path mount.1 && best.1 < mount.1.utf8ByteSize then
    (mount.1.utf8ByteSize, mount.2)
  else best

def isOnWritableMount (order : Order) (path : String) (mounts : List (String × Bool)) : Bool :=
  ((order.iter mounts).foldl (betterMount path) (0, false)).2

def collectServiceWorkingDirs (host : UnmanagedHost) : List String :=
  ["/etc/systemd/system", "/usr/lib/systemd/system"].flatMap fun unitDir =>
    let result := host.run "grep" ["-rh", "WorkingDirectory=", unitDir]
    if !result.success then []
    else
      ((Text.lines result.stdout).map fun line =>
        Text.trim ((Text.afterPrefix (Text.trim line) "WorkingDirectory=").getD "")).filter
          fun value => !value.isEmpty && Text.startsWith value "/"

def isUnderServiceWorkdir (path : String) (workdirs : List String) : Bool :=
  workdirs.any (Text.startsWith path)

def classifyUnmanagedFileType (host : UnmanagedHost) (path : String) : FileType :=
  let result := host.run "file" ["-b", path]
  if !result.success then .other
  else
    let output := Text.asciiLower result.stdout
    if Text.contains output "elf" then .elfBinary
    else if Text.contains output "java archive" || Text.endsWith path ".jar" then .jar
    else if Text.contains output "script" || Text.contains output "text executable" then .script
    else if Text.contains output "symbolic link" then .symlink
    else if [".conf", ".cfg", ".ini", ".yaml", ".yml", ".toml", ".json"].any (Text.endsWith path) then
      .config
    else .dataFile

structure FileMetadata where
  size : Nat := 0
  lastModified : Nat := 0
  uid : Nat := 0
  gid : Nat := 0
  permissions : String := ""

def getFileMetadata (host : UnmanagedHost) (path : String) : FileMetadata :=
  let result := host.run "stat" ["-c", "%s %Y %u %g %a", path]
  if !result.success then {}
  else
    match splitWhitespace result.stdout with
    | size :: mtime :: uid :: gid :: mode :: _ =>
      { size := (parseBelow U64_RANGE size).getD 0
        lastModified := (parseBelow U64_RANGE mtime).getD 0
        uid := (parseU32 uid).getD 0
        gid := (parseU32 gid).getD 0
        permissions := "0" ++ mode }
    | _ => {}

def isRpmOwnedPath (host : UnmanagedHost) (path : String) : Bool :=
  (host.run "rpm" ["-qf", path]).success

/-- What the walk is given beside the tree. -/
structure UnmanagedScan where
  host : UnmanagedHost
  order : Order
  languageEnvPaths : List String
  excludePaths : List String
  installDate : Nat
  mounts : List (String × Bool)
  serviceWorkdirs : List String

structure Inventory where
  items : List UnmanagedFile := []
  totalSize : Nat := 0

def Inventory.push (inventory : Inventory) (file : UnmanagedFile) : Inventory :=
  { items := inventory.items ++ [file]
    totalSize := (inventory.totalSize + file.size) % U64_RANGE }

def UnmanagedScan.isExcluded (scan : UnmanagedScan) (path : String) : Bool :=
  scan.excludePaths.any (Text.startsWith path)

def UnmanagedScan.isLanguageEnv (scan : UnmanagedScan) (path : String) : Bool :=
  scan.languageEnvPaths.any (Text.startsWith path)

def UnmanagedScan.provenance (scan : UnmanagedScan) (path : String) (fileType : FileType) :
    ProvenanceSignals :=
  let metadata := getFileMetadata scan.host path
  { fileType
    lastModified := metadata.lastModified
    uid := metadata.uid
    gid := metadata.gid
    permissions := metadata.permissions
    isMutable := 0 < scan.installDate && scan.installDate < metadata.lastModified
    writableMount := isOnWritableMount scan.order path scan.mounts
    serviceWorkingDir := isUnderServiceWorkdir path scan.serviceWorkdirs }

def UnmanagedScan.symlinkItem (scan : UnmanagedScan) (path : String) : UnmanagedFile :=
  let target := scan.host.run "readlink" ["-f", path]
  { path
    size := (getFileMetadata scan.host path).size
    fileType := .symlink
    provenance := scan.provenance path .symlink
    linkTarget := if target.success then Text.trim target.stdout else "" }

def UnmanagedScan.fileItem (scan : UnmanagedScan) (path : String) : UnmanagedFile :=
  let fileType := classifyUnmanagedFileType scan.host path
  let hash := scan.host.run "sha256sum" [path]
  { path
    size := (getFileMetadata scan.host path).size
    fileType
    provenance := scan.provenance path fileType
    contentHash := if hash.success then (splitWhitespace hash.stdout).headD "" else "" }

mutual
def walkForUnmanaged (scan : UnmanagedScan) (dir : String) (node : HostNode)
    (inventory : Inventory) : Inventory :=
  match node with
  | .dir entries => walkForUnmanagedEntries scan dir entries inventory
  | _ => inventory

/-- The loop over the entries. A directory that cannot be read is taken for a file. -/
def walkForUnmanagedEntries (scan : UnmanagedScan) (dir : String) (entries : HostDir)
    (inventory : Inventory) : Inventory :=
  match entries with
  | .nil => inventory
  | .cons entry node rest =>
    walkForUnmanagedEntries scan dir rest
      (match node with
       | .link =>
         if scan.isExcluded (dir ++ "/" ++ entry) then inventory
         else if isRpmOwnedPath scan.host (dir ++ "/" ++ entry) then inventory
         else if scan.isLanguageEnv (dir ++ "/" ++ entry) then inventory
         else inventory.push (scan.symlinkItem (dir ++ "/" ++ entry))
       | .dir _ =>
         if PRUNE_DIRS.contains entry then inventory
         else if scan.isExcluded (dir ++ "/" ++ entry) then inventory
         else if scan.isLanguageEnv (dir ++ "/" ++ entry) then inventory
         else walkForUnmanaged scan (dir ++ "/" ++ entry) node inventory
       | _ =>
         if scan.isExcluded (dir ++ "/" ++ entry) then inventory
         else if isRpmOwnedPath scan.host (dir ++ "/" ++ entry) then inventory
         else if scan.isLanguageEnv (dir ++ "/" ++ entry) then inventory
         else inventory.push (scan.fileItem (dir ++ "/" ++ entry)))
end

def USR_PRUNE_DIRS : List String :=
  ["/usr/share/doc/", "/usr/share/man/", "/usr/share/locale/", "/usr/share/info/",
    "/usr/share/licenses/", "/usr/share/icons/", "/usr/share/pixmaps/", "/usr/share/fonts/",
    "/usr/share/mime/", "/usr/share/zoneinfo/", "/usr/lib/.build-id/"]

def USR_PREFIX : String := "/usr/"

def USR_PRUNE_FILE_PATTERNS : List String :=
  [".pyc", "__pycache__", ".cache", ".fontconfig", "fonts.cache", "ld.so.cache"]

def isPrunedFile (path : String) : Bool :=
  USR_PRUNE_FILE_PATTERNS.any fun pat => Text.endsWith path pat || Text.contains path pat

/-- `replace("//", "/")`, from the left. -/
def halveSlashes : List Char → List Char
  | '/' :: '/' :: rest => '/' :: halveSlashes rest
  | c :: rest => c :: halveSlashes rest
  | [] => []

def normalizePath (path : String) : String :=
  String.ofList (halveSlashes (path.toList.reverse.dropWhile (· == '/')).reverse)

def USRMERGE_LEGACY_PREFIXES : List String := ["/lib/", "/lib64/", "/bin/", "/sbin/"]

/-- The paths packages record, the ones from before the merge of `/usr` under both names. -/
def buildRpmOwnedSet (host : UnmanagedHost) : List String :=
  let result := host.run "rpm" ["--query", "--all", "--qf", "[%\x7bFILENAMES\x7d\\n]"]
  if !result.success then []
  else
    ((Text.lines result.stdout).map normalizePath).flatMap fun path =>
      if path.isEmpty then []
      else if USRMERGE_LEGACY_PREFIXES.any (Text.startsWith path) then ["/usr" ++ path, path]
      else [path]

/-- What the walk of `/usr` does not go into. -/
def UnmanagedScan.isFiltered (scan : UnmanagedScan) (path : String) : Bool :=
  USR_PRUNE_DIRS.any (Text.startsWith path) ||
    (UNMANAGED_SCAN_ROOTS.filter (Text.startsWith · USR_PREFIX)).any
      (fun root => path == root || Text.startsWith path (root ++ "/")) ||
    scan.isExcluded path || scan.isLanguageEnv path

mutual
/-- The paths of `WalkDir` that are no directories. -/
def walkDir (keep : String → Bool) (path : String) (node : HostNode) : List String :=
  if !keep (normalizePath path) then []
  else
    match node with
    | .file => [path]
    | .link => [path]
    | .closed => []
    | .dir entries => walkDirEntries keep path entries

def walkDirEntries (keep : String → Bool) (dir : String) (entries : HostDir) : List String :=
  match entries with
  | .nil => []
  | .cons entry node rest =>
    walkDir keep (dir ++ "/" ++ entry) node ++ walkDirEntries keep dir rest
end

def findShallowestUnownedAncestor (file : String) (owned : List String) : String :=
  let parts := Text.splitChars (· == '/') file.toList
  let dirs := (List.range' 3 (parts.length - 3)).map fun i =>
    String.ofList (['/'].intercalate (parts.take i))
  (dirs.find? fun dir => !dir.isEmpty && !owned.contains dir).getD file

def classifyUsrFileType (path : String) : FileType :=
  if Text.endsWith path ".so" || Text.contains path ".so." then .elfBinary
  else if Text.endsWith path ".jar" then .jar
  else .script

def usrEntry (group : String × List (String × Nat)) : UnmanagedUsrEntry :=
  { path := group.1
    fileCount := group.2.length % 2 ^ 32
    totalSizeBytes := (group.2.map (·.2)).sum % U64_RANGE
    fileType :=
      match group.2 with
      | [only] => if only.1 = group.1 then classifyUsrFileType only.1 else .other
      | _ => .other }

/-- A row for each ancestor, ordered by path as the `BTreeMap` is. -/
def collapseToAncestors (files : List (String × Nat)) (owned : List String) :
    List UnmanagedUsrEntry :=
  ((Grouping.groupBy (fun file => findShallowestUnownedAncestor file.1 owned) files).insertionSort
    fun a b => a.1 ≤ b.1).map usrEntry

def walkUsrForUnmanaged (scan : UnmanagedScan) (owned : List String) : List UnmanagedUsrEntry :=
  let found := walkDir (fun path => !scan.isFiltered path) "/usr" (.dir scan.host.usr)
  let unmanaged := (found.map normalizePath).filter fun path =>
    !isPrunedFile path && !owned.contains path
  collapseToAncestors (unmanaged.map fun path => (path, (scan.host.lstatSize path).getD 0)) owned

def scanUnmanagedFiles (host : UnmanagedHost) (order : Order)
    (languageEnvPaths excludePaths : List String) : UnmanagedFileSection :=
  let scan : UnmanagedScan :=
    { host, order, languageEnvPaths, excludePaths
      installDate := detectSystemInstallDate host
      mounts := parseMountRwFlags host
      serviceWorkdirs := collectServiceWorkingDirs host }
  let inventory := UNMANAGED_SCAN_ROOTS.foldl
    (fun inventory root => walkForUnmanaged scan root (host.scanRoot root) inventory) {}
  { items := inventory.items
    usrEntries := walkUsrForUnmanaged scan (buildRpmOwnedSet host)
    totalSize := inventory.totalSize
    totalCount := inventory.items.length }

end Inspectah
