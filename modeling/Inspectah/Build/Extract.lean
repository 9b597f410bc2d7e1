import Inspectah.Library.DescendingLinks
import Inspectah.Refine.PayloadExtraction

/-!
The extraction a build starts with. Every entry of the archive is checked before it is written;
paths are compared as text, while writing follows the links extracted so far.
-/
namespace Inspectah

variable (out : List String) (st : Extraction) (e : ArchiveEntry)
open LinkedTree

/-- `tar::EntryType`, as far as the extractor tells types apart. -/
inductive ArchiveEntryType where
  | regular
  | gnuSparse
  | directory
  | symlink
  | link
  | char
  | block
  | fifo
  | other
  deriving DecidableEq

structure ArchiveEntry where
  path : String
  entryType : ArchiveEntryType := .regular
  linkName : Option String := none
  data : List UInt8 := []
  deriving DecidableEq

inductive EntryKind where
  | regular
  | directory
  | symlink
  deriving DecidableEq

def EntryKind.label : EntryKind → String
  | .regular => "regular"
  | .directory => "directory"
  | .symlink => "symlink"

inductive ArchiveViolation where
  | pathTraversal (path : String)
  | absolutePath (path : String)
  | duplicatePath (path : String)
  | typeReplacement (path was now : String)
  | specialFileType (path kind : String)
  | hardlink (path : String)
  | symlinkEscape (path target : String)
  deriving DecidableEq

def ArchiveViolation.text : ArchiveViolation → String
  | .pathTraversal p => "path traversal: " ++ p
  | .absolutePath p => "absolute path: " ++ p
  | .duplicatePath p => "duplicate entry: " ++ p
  | .typeReplacement path was now =>
    "type replacement at " ++ path ++ ": " ++ was ++ " -> " ++ now
  | .specialFileType path kind => "forbidden file type at " ++ path ++ ": " ++ kind
  | .hardlink p => "hardlinks are not supported in inspectah tarballs: " ++ p
  | .symlinkEscape path target => "symlink escape: " ++ path ++ " -> " ++ target

inductive ExtractFailure where
  | violation (v : ArchiveViolation)
  | escapedRoot (path : String)
  /-- An error of the system or of the archive reader. -/
  | system
  deriving DecidableEq

/-- The tree and its writes, the bytes of the files written, newest first, and the paths met. -/
structure Extraction where
  log : Log String
  contents : List (List String × List UInt8) := []
  seenPaths : List (String × EntryKind) := []

def Extraction.contentAt (p : List String) : Option (List UInt8) :=
  (st.contents.find? fun c => c.1 == p).map (·.2)

def Component.text : Component → String
  | .rootDir => "/"
  | .curDir => "."
  | .parentDir => ".."
  | .normal name => name

/-- The components below the archive's own top directory. -/
def strippedComponents (path : String) : List Component := (components path).drop 1

def strippedPath (path : String) : String :=
  String.ofList (['/'].intercalate ((strippedComponents path).map (·.text.toList)))

def strippedSteps (path : String) : List (Step String) := (strippedComponents path).filterMap stepOf

def entryKind : ArchiveEntryType → Except String EntryKind
  | .regular => .ok .regular
  | .gnuSparse => .ok .regular
  | .directory => .ok .directory
  | .symlink => .ok .symlink
  | .char => .error "char device"
  | .block => .error "block device"
  | .fifo => .error "FIFO"
  | .link => .error "unknown"
  | .other => .error "unknown"

def seenKind (seen : List (String × EntryKind)) (path : String) : Option EntryKind :=
  (seen.find? fun s => s.1 == path).map (·.2)

/-- `HashMap::insert`: the newest entry of a path is found first. -/
def markSeen (path : String) (kind : EntryKind) : Extraction :=
  { st with seenPaths := (path, kind) :: st.seenPaths }

def linkEscapes (target : String) : Bool :=
  Text.contains target ".." || Text.startsWith target "/"

def checkEntry : Except ArchiveViolation EntryKind :=
  if Text.contains (strippedPath e.path) ".." then .error (.pathTraversal e.path)
  else if Text.startsWith (strippedPath e.path) "/" then .error (.absolutePath e.path)
  else if e.entryType = .link then .error (.hardlink e.path)
  else
    match entryKind e.entryType with
    | .error kind => .error (.specialFileType e.path kind)
    | .ok kind =>
      match seenKind st.seenPaths (strippedPath e.path) with
      | some prev =>
        if prev ≠ kind then
          .error (.typeReplacement (strippedPath e.path) prev.label kind.label)
        else if kind ≠ .directory then .error (.duplicatePath (strippedPath e.path))
        else .ok kind
      | none =>
        match e.entryType, e.linkName with
        | .symlink, some target =>
          if linkEscapes target then .error (.symlinkEscape (strippedPath e.path) target)
          else .ok kind
        | _, _ => .ok kind

/-- `File::create`: the file the path leads to, created or truncated, and where it is. -/
def createFileAt (l : Log String) (steps : List (Step String)) :
    Log String × Option (List String) :=
  match l.tree.resolve MAX_LINKS out steps with
  | none => (l, none)
  | some there =>
    match l.tree.get there with
    | some .file => (l.write there .file, some there)
    | none => if l.tree.isDir there.dropLast then (l.write there .file, some there) else (l, none)
    | _ => (l, none)

/-- `symlink`: the link is made in the directory its path leads to, and only where nothing is. -/
def createLinkAt (l : Log String) (steps : List (Step String))
    (target : String) : Log String × Bool :=
  if target.isEmpty then (l, false)
  else
    match l.tree.resolve MAX_LINKS out steps.dropLast, steps.getLast? with
    | some parent, some (.into name) =>
      l.createLink parent name (Text.startsWith target "/") (pathSteps target)
    | _, _ => (l, false)

/-- A file is written whole, and its path followed again to see that it is below the root. -/
def extractRegular :
    Extraction × Option ExtractFailure :=
  let steps := strippedSteps e.path
  match st.log.makeDirs MAX_LINKS out steps.dropLast with
  | (l, none) => ({ st with log := l }, some .system)
  | (l, some _) =>
    match createFileAt out l steps with
    | (l, none) => ({ st with log := l }, some .system)
    | (l, some there) =>
      let st := { st with log := l, contents := (there, e.data) :: st.contents }
      match l.tree.resolve MAX_LINKS out steps with
      | none => (st, some .system)
      | some canonical =>
        if out.isPrefixOf canonical then (st, none)
        else (st, some (.escapedRoot (strippedPath e.path)))

def extractSymlink :
    Extraction × Option ExtractFailure :=
  match e.linkName with
  | none => (st, none)
  | some target =>
    let steps := strippedSteps e.path
    match st.log.makeDirs MAX_LINKS out steps.dropLast with
    | (l, none) => ({ st with log := l }, some .system)
    | (l, some _) =>
      match createLinkAt out l steps target with
      | (l, true) => ({ st with log := l }, none)
      | (l, false) => ({ st with log := l }, some .system)

def extractDirectory :
    Extraction × Option ExtractFailure :=
  match st.log.makeDirs MAX_LINKS out (strippedSteps e.path) with
  | (l, none) => ({ st with log := l }, some .system)
  | (l, some _) => ({ st with log := l }, none)

def extractArchiveEntry :
    Extraction × Option ExtractFailure :=
  if (strippedPath e.path).isEmpty then (st, none)
  else
    match checkEntry st e with
    | .error violation => (st, some (.violation violation))
    | .ok kind =>
      let st := markSeen st (strippedPath e.path) kind
      match kind with
      | .directory => extractDirectory out st e
      | .regular => extractRegular out st e
      | .symlink => extractSymlink out st e

/-- `TarballExtractor::extract`, over what the archive reader yields; it may fail at any entry. -/
def extractTarball (out : List String) : Extraction → List (Option ArchiveEntry) →
    Extraction × Option ExtractFailure
  | st, [] => (st, none)
  | st, none :: _ => (st, some .system)
  | st, some e :: rest =>
    match extractArchiveEntry out st e with
    | (st, some failure) => (st, some failure)
    | (st, none) => extractTarball out st rest

end Inspectah
