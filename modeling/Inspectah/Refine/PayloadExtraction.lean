import Inspectah.Core.Text
import Inspectah.Library.LinkedTree
import Inspectah.Refine.Uploads

/-!
The payload an export takes from the source tarball: the loader checks every entry, and an
export writes those the projected snapshot includes.
-/
namespace Inspectah

variable (snap : InspectionSnapshot) (path : String)
open LinkedTree

def MAX_UNPACKED_SIZE : Nat := 512 * 1024 * 1024
def MAX_FILE_COUNT : Nat := 10000
def MAX_SINGLE_FILE : Nat := 256 * 1024 * 1024

/-- Symbolic links a path is followed through before the system gives up. -/
def MAX_LINKS : Nat := 40

inductive EntryType where
  | regular
  | link
  | symlink
  | directory
  | other (name : String)
  deriving DecidableEq

def EntryType.debug : EntryType → String
  | .regular => "Regular"
  | .link => "Link"
  | .symlink => "Symlink"
  | .directory => "Directory"
  | .other name => name

def EntryType.isLink (t : EntryType) : Bool := t == .symlink || t == .link

structure TarEntry where
  path : String
  entryType : EntryType := .regular
  linkName : Option String := none
  size : Nat := 0
  deriving DecidableEq

inductive ExtractError where
  | archiveSafety (message : String)
  | tarballError (message : String)
  /-- A tarball error with the system's own text. -/
  | system
  deriving DecidableEq

def stepOf : Component → Option (Step String)
  | .parentDir => some .up
  | .normal name => some (.into name)
  | .rootDir => none
  | .curDir => none

/-- The steps the system takes along a path, from its root or from a directory. -/
def pathSteps : List (Step String) := (components path).filterMap stepOf

/-- The name a path ends in, unless it ends in a slash or a dot. -/
def finalName : Option String :=
  match ((pathPieces path).getLast?).bind componentOf with
  | some (.normal name) => some name
  | _ => none

def extractSafeEntry (unpackError : Option String) (fileCount totalSize : Nat) (e : TarEntry) :
    Except ExtractError Unit :=
  if MAX_FILE_COUNT < fileCount then
    .error (.archiveSafety ("archive exceeds " ++ toString MAX_FILE_COUNT ++ " entry limit"))
  else if .parentDir ∈ components e.path then
    .error (.archiveSafety ("path traversal: " ++ e.path))
  else if Text.startsWith e.path "/" then
    .error (.archiveSafety ("path traversal: absolute path " ++ e.path))
  else if e.entryType ≠ .regular ∧ e.entryType ≠ .directory ∧ e.entryType ≠ .symlink then
    .error (.archiveSafety
      ("unsupported entry type: " ++ e.entryType.debug ++ " for " ++ e.path))
  else if MAX_SINGLE_FILE < e.size then
    .error (.archiveSafety
      ("single file exceeds " ++ toString (MAX_SINGLE_FILE / (1024 * 1024)) ++ " MiB"))
  else if MAX_UNPACKED_SIZE < totalSize then
    .error (.archiveSafety
      ("archive exceeds " ++ toString (MAX_UNPACKED_SIZE / (1024 * 1024)) ++ " MiB unpacked limit"))
  else
    match unpackError with
    | some message => .error (.tarballError message)
    | none => .ok ()

def extractSafeFrom (unpackIn : List TarEntry → TarEntry → Option String) (totalSize : Nat)
    (unpacked : List TarEntry) : List TarEntry → Except ExtractError Unit
  | [] => .ok ()
  | e :: rest =>
    match extractSafeEntry (unpackIn unpacked e) (unpacked.length + 1) (totalSize + e.size) e with
    | .error refusal => .error refusal
    | .ok () => extractSafeFrom unpackIn (totalSize + e.size) (unpacked ++ [e]) rest

/-- `unpackIn` is the error unpacking an entry gives after the entries before it. -/
def extractSafe (unpackIn : List TarEntry → TarEntry → Option String) (entries : List TarEntry) :
    Except ExtractError Unit :=
  extractSafeFrom unpackIn 0 [] entries

def REPOLESS_DIR : String := "repoless-packages"
def REPOLESS_PREFIX : String := "repoless-packages/"
def UNMANAGED_PREFIX : String := "unmanaged/"

def isSingleNormalComponent (rel : String) : Bool :=
  match components rel with
  | [.normal _] => true
  | _ => false

def sanitizePathForLog : String :=
  String.ofList (path.toList.map fun c => if Text.isControl c then '?' else c)

def includedUnmanaged : List String :=
  (snap.unmanagedFiles.map fun s =>
    (s.items.filter (·.disposition.isIncluded)).map fun f =>
      String.ofList (f.path.toList.dropWhile (· == '/'))).getD []

def includedRepoless : List String :=
  (snap.rpm.map fun r =>
    ((r.packagesAdded.filter fun p =>
      p.disposition.isIncluded && p.repolessCached && !p.uploaded).map nevraFilename).filter
        fun n => stagedNameFault n == none).getD []

/-- The entry's path below the tarball's own top directory. -/
def relOf : String :=
  match Text.splitOnce '/' path with
  | some (_, rel) => rel
  | none => path

inductive Route where
  | skip
  | unmanaged
  | repoless
  deriving DecidableEq

/-- `should_extract` and `in_repoless`. -/
def routeOf : Except ExtractError Route :=
  match Text.afterPrefix (relOf path) UNMANAGED_PREFIX with
  | some fileRel =>
    .ok (if !fileRel.isEmpty && fileRel ∈ includedUnmanaged snap then .unmanaged else .skip)
  | none =>
    match Text.afterPrefix (relOf path) REPOLESS_PREFIX with
    | some filename =>
      if !filename.isEmpty && !isSingleNormalComponent filename then
        .error (.tarballError ("source tarball entry escapes " ++ REPOLESS_DIR ++ ": " ++
          sanitizePathForLog path))
      else .ok (if !filename.isEmpty && filename ∈ includedRepoless snap then .repoless else .skip)
    | none => .ok .skip

def finish (done : Log String × Bool) : Log String × Option ExtractError :=
  (done.1, if done.2 then none else some .system)

/-- An entry below the export directory: a link as a symbolic link, anything else as a file. -/
def placeEntry (out : List String) (l : Log String) (e : TarEntry) :
    Log String × Option ExtractError :=
  match l.makeDirs MAX_LINKS out (pathSteps (relOf e.path)).dropLast with
  | (l, none) => (l, some .system)
  | (l, some parent) =>
    if e.entryType.isLink then
      match e.linkName with
      | none => (l, none)
      | some target =>
        match finalName (relOf e.path) with
        | none => (l, some .system)
        | some name =>
          if target.isEmpty then (l, some .system)
          else finish (l.createLink parent name (Text.startsWith target "/") (pathSteps target))
    else
      match finalName (relOf e.path) with
      | none => (l, some .system)
      | some name => finish (l.createFile MAX_LINKS parent name)

def extractEntry (out : List String) (l : Log String) (e : TarEntry) :
    Log String × Option ExtractError :=
  match routeOf snap e.path with
  | .error refusal => (l, some refusal)
  | .ok .skip => (l, none)
  | .ok .unmanaged => placeEntry out l e
  | .ok .repoless =>
    if e.entryType.isLink then
      (l, some (.tarballError ("source tarball entry in " ++ REPOLESS_DIR ++
        " is a link, not a regular file: " ++ sanitizePathForLog e.path)))
    else placeEntry out l e

/-- The entries in order, up to the first that fails. -/
def extractEntries (extract : Log String → TarEntry → Log String × Option ExtractError) :
    Log String → List TarEntry → Log String × Option ExtractError
  | l, [] => (l, none)
  | l, e :: rest =>
    match extract l e with
    | (l, some refusal) => (l, some refusal)
    | (l, none) => extractEntries extract l rest

theorem extractEntries_cons (extract : Log String → TarEntry → Log String × Option ExtractError)
    (l : Log String) (e : TarEntry) (rest : List TarEntry) :
    extractEntries extract l (e :: rest) =
      if (extract l e).2 = none then extractEntries extract (extract l e).1 rest
      else extract l e := by
  rw [extractEntries]
  split
  · rename_i stopped
    simp [stopped]
  · rename_i continued
    simp [continued]

def extractPayloadDirsFromTarball (out : List String) (l : Log String)
    (entries : List TarEntry) : Log String × Option ExtractError :=
  extractEntries (extractEntry snap out) l entries

end Inspectah
