import Inspectah.Core.Text
import Inspectah.Refine.Types
import Mathlib.Data.List.Sort

/-!
RPM filenames, the allowlist a staged name must pass, which it carries as a proof, and staged
uploads, proved again whenever the view is computed. What the file system answers is an input.
-/
namespace Inspectah

def KNOWN_ARCHES : List String :=
  ["x86_64", "aarch64", "ppc64le", "s390x", "i686", "i386", "armv7hl", "noarch", "src"]

def MAX_UPLOAD_FILENAME_LEN : Nat := 200

/-- The name before a case-insensitive `.rpm` suffix. -/
def stripRpmSuffix (s : String) : Option String :=
  let cs := s.toList
  if 4 ≤ cs.length ∧ Text.asciiLower (String.ofList (cs.drop (cs.length - 4))) = ".rpm" then
    some (String.ofList (cs.take (cs.length - 4)))
  else none

structure RpmFilename where
  name : String
  arch : String
  versionRelease : Option String
  deriving DecidableEq

/-- The characters before the first dash that a digit follows, and those after it. -/
def splitVersion : List Char → Option (List Char × List Char)
  | [] => none
  | c :: cs =>
    if c == '-' && (cs.head?.any Char.isDigit) then some ([], cs)
    else (splitVersion cs).map fun (before, after) => (c :: before, after)

def RpmFilename.parseUntrusted (filename : String) : Option RpmFilename :=
  (stripRpmSuffix filename).bind fun stem =>
    (KNOWN_ARCHES.find? fun a =>
      Text.endsWith stem ("." ++ a) || Text.endsWith stem ("_" ++ a)).bind fun arch =>
      let beforeArch := stem.toList.take (stem.toList.length - arch.toList.length - 1)
      if beforeArch.isEmpty then none
      else
        match splitVersion beforeArch with
        | some (name, version) =>
          if name.isEmpty then none
          else some ⟨String.ofList name, arch, some (String.ofList version)⟩
        | none => some ⟨String.ofList beforeArch, arch, none⟩

def isAllowedNameChar (c : Char) : Bool :=
  c.isAlphanum || c == '.' || c == '_' || c == '+' || c == '~' || c == '^' || c == '-'

inductive NameError where
  | empty
  | tooLong
  | badFirstByte
  | badByte (position : Nat)
  | notRpm
  deriving DecidableEq

def NameError.text : NameError → String
  | .empty => "staged filename is empty"
  | .tooLong => "staged filename exceeds the maximum staged name length"
  | .badFirstByte => "staged filename must start with a letter or digit"
  | .badByte position => "staged filename has a disallowed byte at position " ++ toString position
  | .notRpm => "staged filename does not end in .rpm"

/-- The first fault in the order of the checks. All before a disallowed character is ASCII. -/
def stagedNameFault (name : String) : Option NameError :=
  if name.isEmpty then some .empty
  else if MAX_UPLOAD_FILENAME_LEN < name.utf8ByteSize then some .tooLong
  else if (stripRpmSuffix name).isNone then some .notRpm
  else if !(name.toList.head?.any Char.isAlphanum) then some .badFirstByte
  else (name.toList.findIdx? fun c => !isAllowedNameChar c).map .badByte

structure StagedName where
  text : String
  admitted : stagedNameFault text = none

instance : DecidableEq StagedName := fun a b =>
  decidable_of_iff (a.text = b.text) ⟨fun h => by cases a; cases b; cases h; rfl, fun h => h ▸ rfl⟩

def StagedName.parse (name : String) : Except NameError StagedName :=
  match h : stagedNameFault name with
  | some fault => .error fault
  | none => .ok ⟨name, h⟩

/-- What `lstat` of the upload directory's path finds. -/
inductive DirProbe where
  | notFound
  | failed (message : String)
  | symlink
  | notDirectory
  | directory (uid mode : Nat)

/-- What stands under a staged name when it is checked and then opened. -/
inductive FileProbe where
  | missing
  | unreadable (message : String)
  | notRegular
  | replaced
  | regular
  deriving DecidableEq

/-- The answers of the file system during one session operation. -/
structure Disk where
  euid : Nat
  probeDir : String → DirProbe
  createDir : String → Option String
  canonicalize : String → Except String String
  /-- The canonical directory a path's parent resolves to. -/
  parentOf : String → Option String
  sweepPartFiles : String → Option String
  readDir : String → Except String (List String)
  probeFile : String → FileProbe
  /-- The error removing a file would give, if any. -/
  removeFile : String → Option String
  /-- Saving the session fails for good. -/
  autosaveFails : Bool

def Disk.without (disk : Disk) (path : String) : Disk :=
  { disk with probeFile := fun p => if p = path then .missing else disk.probeFile p }

def SHARED_WRITE_BITS : Nat := 0o022

def joinPath (dir name : String) : String :=
  if Text.endsWith dir "/" then dir ++ name else dir ++ "/" ++ name

def octal4 (mode : Nat) : String :=
  let digits := String.ofList (Nat.toDigits 8 mode)
  String.ofList (List.replicate (4 - digits.length) '0') ++ digits

def prepareUploadDir (disk : Disk) (dir : String) : Except RefineError String :=
  let refuse (why : String) : Except RefineError Unit :=
    .error (.tarballError ("upload directory " ++ dir ++ " is " ++ why))
  let checked : Except RefineError Unit :=
    match disk.probeDir dir with
    | .symlink => refuse "a symlink, not a directory"
    | .notDirectory => refuse "not a directory"
    | .directory uid mode =>
      if uid ≠ disk.euid then
        refuse ("owned by uid " ++ toString uid ++ ", not " ++ toString disk.euid)
      else if mode &&& SHARED_WRITE_BITS ≠ 0 then
        refuse ("writable by group or other (mode " ++ octal4 (mode &&& 0o7777) ++ ")")
      else .ok ()
    | .notFound =>
      match disk.createDir dir with
      | some e => .error (.tarballError ("create upload dir " ++ dir ++ ": " ++ e))
      | none => .ok ()
    | .failed e => .error (.tarballError ("stat upload dir " ++ dir ++ ": " ++ e))
  match checked with
  | .error e => .error e
  | .ok () =>
    match disk.canonicalize dir with
    | .error e => .error (.tarballError ("resolve upload dir " ++ dir ++ ": " ++ e))
    | .ok canon => .ok canon

structure VerifiedUpload where
  canonical : String
  basename : StagedName
  uploadedVersion : Option String
  deriving DecidableEq

/-- The version a staged filename names, when it is not the host's. -/
def uploadedVersionOf (pkg : PackageEntry) (basename : String) : Option String :=
  ((RpmFilename.parseUntrusted basename).bind (·.versionRelease)).filter
    fun v => v != pkg.version ++ "-" ++ pkg.release

/-- `verify_staged_upload`; a refusal's cause is not reported past this point. -/
def verifyStagedUpload (disk : Disk) (canon : String) (pkg : PackageEntry) :
    Option VerifiedUpload :=
  pkg.cachePath.bind fun recorded =>
    (Text.fileName recorded).bind fun name =>
      match StagedName.parse name with
      | .error _ => none
      | .ok basename =>
        if disk.parentOf recorded = some canon ∧
            disk.probeFile (joinPath canon basename.text) = .regular then
          some
            { canonical := canonicalPackageId pkg.name pkg.arch
              basename := basename
              uploadedVersion := uploadedVersionOf pkg basename.text }
        else none

def proveStagedUploads (disk : Disk) (uploadDirCanon : Option String)
    (packages : List PackageEntry) : List VerifiedUpload :=
  (packages.filter fun p => p.uploaded && p.disposition.isIncluded).filterMap fun p =>
    uploadDirCanon.bind fun canon => verifyStagedUpload disk canon p

/-- The map the renderer reads; a later proof for one id replaces an earlier. -/
def verifiedUploads (proved : List VerifiedUpload) : TextMap VerifiedUpload :=
  proved.foldl (fun m p => m.insert p.canonical p) ∅

structure UploadMatch where
  canonical : String
  /-- Whether the uploaded version is the host's. -/
  exact : Bool
  hostVersion : String
  uploadedVersion : Option String
  deriving DecidableEq

def hostVersion (pkg : PackageEntry) : String := pkg.version ++ "-" ++ pkg.release

def nevraFilename (pkg : PackageEntry) : String :=
  pkg.name ++ "-" ++ pkg.version ++ "-" ++ pkg.release ++ "." ++ pkg.arch ++ ".rpm"

def nameCandidates (name : String) : List String :=
  let pieces := Text.splitOn (· == '-') name
  ((List.range pieces.length).map fun n =>
    "-".intercalate (pieces.take (pieces.length - n))).filter fun c => c == name || !c.isEmpty

def relaxedMatch (parsed : RpmFilename) (pkg : PackageEntry) : UploadMatch :=
  let differs := parsed.versionRelease.any fun v => v != hostVersion pkg
  { canonical := canonicalPackageId pkg.name pkg.arch
    exact := !differs
    hostVersion := hostVersion pkg
    uploadedVersion := if differs then parsed.versionRelease else none }

/-- Packages without a repository only: the exact file name, then name and architecture, longest
    name first. -/
def matchUploadedRpm (packages : List PackageEntry) (filename : String) : Option UploadMatch :=
  let repoless := packages.filter fun p => !p.repolessAnnotation.isEmpty
  match repoless.find? fun p => filename == nevraFilename p with
  | some pkg => some
      { canonical := canonicalPackageId pkg.name pkg.arch
        exact := true
        hostVersion := hostVersion pkg
        uploadedVersion := none }
  | none =>
    (RpmFilename.parseUntrusted filename).bind fun parsed =>
      (nameCandidates parsed.name).findSome? fun candidate =>
        (repoless.find? fun p => p.name == candidate && p.arch == parsed.arch).map
          (relaxedMatch parsed)

structure PriorCache where
  repolessCached : Bool
  cachePath : Option String
  uploadedVersion : Option String
  deriving DecidableEq

end Inspectah
