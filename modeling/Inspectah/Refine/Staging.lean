import Inspectah.Refine.Session

/-!
The upload directory of a session, and the export. The directory is prepared on
first use: proved ours, swept of part files, and rescanned for files an earlier
session staged.
-/
namespace Inspectah

open FirstMatch

/-- The reversed path without trailing separators and `.` components. -/
def trimTrailing : List Char → List Char
  | '/' :: cs => trimTrailing cs
  | '.' :: '/' :: cs => trimTrailing cs
  | cs => cs

/-- `Path::set_extension("")`: a path that names no file stays as it is. -/
def dropExtension (path : String) : String :=
  let trimmed := trimTrailing path.toList.reverse
  let name := (trimmed.takeWhile (· != '/')).reverse
  if name = [] ∨ name = ['.'] ∨ name = ['.', '.'] then path
  else
    let extension := name.reverse.takeWhile (· != '.')
    -- A dot that starts the name starts no extension.
    if extension.length + 1 < name.length then
      String.ofList (trimmed.drop (extension.length + 1)).reverse
    else String.ofList trimmed.reverse

/-- `<tarball_stem>-uploads`: the suffixes `.gz` and `.tar` go. -/
def uploadsBeside (tarball : String) : String :=
  dropExtension (dropExtension tarball) ++ "-uploads"

def isCanonical (canonical : String) (p : PackageEntry) : Bool :=
  canonicalPackageId p.name p.arch == canonical

def stage (stagedPath : String) (uploadedVersion : Option String) (p : PackageEntry) :
    PackageEntry :=
  { p with
    uploaded := true
    repolessCached := true
    cachePath := some stagedPath
    uploadedVersion := uploadedVersion }

def displaced (p : PackageEntry) : Option PriorCache :=
  if p.repolessCached && !p.uploaded then
    some ⟨p.repolessCached, p.cachePath, p.uploadedVersion⟩
  else none

def unstage (prior : Option PriorCache) (p : PackageEntry) : PackageEntry :=
  let restored := prior.getD ⟨false, none, none⟩
  { p with
    repolessCached := restored.repolessCached
    cachePath := restored.cachePath
    uploadedVersion := restored.uploadedVersion
    uploaded := false }

namespace SessionCore

def updatePackage (test : PackageEntry → Bool) (f : PackageEntry → PackageEntry)
    (c : SessionCore) : SessionCore :=
  { c with
    original := c.original.onRpm fun rpm =>
      { rpm with packagesAdded := updateFirst test f rpm.packagesAdded } }

def recordUploaded (canonical stagedPath : String) (uploadedVersion : Option String)
    (c : SessionCore) : SessionCore :=
  let prior := ((rpmPackages c.original).find? (isCanonical canonical)).bind displaced
  { c.updatePackage (isCanonical canonical) (stage stagedPath uploadedVersion) with
    priorCache := (prior.map fun p => c.priorCache.insert canonical p).getD c.priorCache }

end SessionCore

/-- What the snapshot says about the files of the directory before any is read. -/
structure Claims where
  spokenFor : KeyedMap String := ∅
  warnings : List String := []

def stagedClaim (disk : Disk) (canon : String) (p : PackageEntry) : Option String :=
  if p.uploaded then
    p.cachePath.bind fun path =>
      (Text.fileName path).filter fun _ => disk.parentOf path = some canon
  else none

def addClaim (disk : Disk) (canon : String) (claims : Claims) (p : PackageEntry) : Claims :=
  match stagedClaim disk canon p with
  | none => claims
  | some basename =>
    let canonical := canonicalPackageId p.name p.arch
    { spokenFor := claims.spokenFor.insert basename canonical
      warnings := claims.warnings ++
        ((claims.spokenFor.lookup basename).map fun first =>
          [basename ++ " in the upload directory is claimed by both " ++ first ++ " and " ++
            canonical ++ "; the export cannot write it for both"]).getD [] }

def packagesStagedIn (disk : Disk) (canon : String) (snap : InspectionSnapshot) : Claims :=
  (rpmPackages snap).foldl (addClaim disk canon) {}

structure Rescan where
  core : SessionCore
  warnings : List String
  claimed : KeyedMap String := ∅
  marked : Nat := 0

/-- `lstat` says the name is a regular file. -/
def FileProbe.isFile : FileProbe → Bool
  | .regular => true
  | .replaced => true
  | _ => false

/-- Why an entry of the listing is skipped, if it is. -/
def skipReason (disk : Disk) (canon name : String) : Option String :=
  match StagedName.parse name with
  | .error e => some e.text
  | .ok _ =>
    match disk.probeFile (joinPath canon name) with
    | .missing => some "No such file or directory (os error 2)"
    | .unreadable e => some e
    | .notRegular => some "not a regular file"
    | .replaced => none
    | .regular => none

/-- Two files for one package: the later holds it and the earlier is reported. -/
def Rescan.claim (owner name : String) (r : Rescan) : Rescan :=
  { r with
    claimed := r.claimed.insert owner name
    warnings := r.warnings ++ ((r.claimed.lookup owner).map fun earlier =>
      [earlier ++ " in the upload directory also matches " ++ owner ++ ", which " ++ name ++
        " now holds; it stays staged and unmarked"]).getD [] }

def rescanEntry (disk : Disk) (canon stagedDir : String) (spokenFor : KeyedMap String) (r : Rescan)
    (name : String) : Rescan :=
  match skipReason disk canon name with
  | some why =>
    { r with
      warnings := r.warnings ++ ["skipped " ++ name ++ " in the upload directory: " ++ why] }
  | none =>
    match spokenFor.lookup name with
    | some owner => r.claim owner name
    | none =>
      match matchUploadedRpm (rpmPackages r.core.original) name with
      | none => r
      | some found =>
        { r with
          core := r.core.recordUploaded found.canonical (joinPath stagedDir name)
            found.uploadedVersion
          marked := r.marked + 1 }.claim found.canonical name

/-- The listing in file name order, each name once. -/
def sortedNames (names : List String) : List String := names.dedup.insertionSort (· ≤ ·)

def rescanListing (disk : Disk) (canon stagedDir : String) (names : List String) (c : SessionCore) :
    Rescan :=
  let claims := packagesStagedIn disk canon c.original
  (sortedNames names).foldl (rescanEntry disk canon stagedDir claims.spokenFor)
    { core := c
      warnings := claims.warnings }

section Operations

variable (env : Env) (disk : Disk)

/-- `invalidate_caches`: the timeline did not move, so nothing is saved. -/
def invalidateCaches (c : SessionCore) : RefineSession :=
  recomputeView env disk { c with generation := c.generation + 1 }

def RefineSession.setUploaded (canonical stagedPath : String) (uploadedVersion : Option String)
    (s : RefineSession) : Outcome Unit :=
  ⟨.ok (), invalidateCaches env disk (s.recordUploaded canonical stagedPath uploadedVersion)⟩

/-- `rescan_upload_dir`: one invalidation for the whole pass, and none for a
    pass that marked nothing. -/
def RefineSession.rescanUploadDir (canon stagedDir : String) (s : RefineSession) :
    Outcome (List String) :=
  match disk.readDir canon with
  | .error e => ⟨.error (.tarballError ("read upload dir " ++ canon ++ ": " ++ e)), s⟩
  | .ok names =>
    let pass := rescanListing disk canon stagedDir names s.toSessionCore
    if 0 < pass.marked then ⟨.ok pass.warnings, invalidateCaches env disk pass.core⟩
    else ⟨.ok pass.warnings, s⟩

def stagingDir (c : SessionCore) : Except RefineError String :=
  match c.uploadDir, c.tarballPath with
  | some dir, _ => .ok dir
  | none, some tarball => .ok (uploadsBeside tarball)
  | none, none => .error (.tarballError "cannot derive upload dir: no tarball path set")

def sweepPartFiles (canon : String) : Except RefineError Unit :=
  match disk.sweepPartFiles canon with
  | some e => .error (.tarballError e)
  | none => .ok ()

/-- The directory and its canonical path, once it is proved ours and swept. -/
def prepareStaging (c : SessionCore) : Except RefineError (String × String) :=
  match stagingDir c with
  | .error e => .error e
  | .ok dir =>
    match prepareUploadDir disk dir with
    | .error e => .error e
    | .ok canon =>
      match sweepPartFiles disk canon with
      | .error e => .error e
      | .ok () => .ok (dir, canon)

/-- The session knows its directory before the rescan, and still knows it when
    the rescan fails. -/
def RefineSession.ensureUploadDir (s : RefineSession) : Outcome (String × List String) :=
  match s.uploadDirCanon with
  | some _ => ⟨.ok (s.uploadDir.getD "", s.rescanWarnings), s⟩
  | none =>
    match prepareStaging disk s.toSessionCore with
    | .error e => ⟨.error e, s⟩
    | .ok (dir, canon) =>
      let known := { s with
        uploadDir := some dir
        uploadDirCanon := some canon }
      match known.rescanUploadDir env disk canon dir with
      | ⟨.error e, after⟩ => ⟨.error e, after⟩
      | ⟨.ok warnings, after⟩ => ⟨.ok (dir, warnings), { after with rescanWarnings := warnings }⟩

/-- `resolve_staged_file`: the path to unlink, when there is a file to. -/
def resolveStagedFile (c : SessionCore) (cachePath : String) : Except RefineError (Option String) :=
  let refuse (why : String) : Except RefineError (Option String) :=
    .error (.tarballError ("refusing to remove a staged file: " ++ why))
  match c.uploadDirCanon, Text.fileName cachePath with
  | none, _ => refuse "no upload directory has been prepared"
  | some _, none => refuse "its path names no file"
  | some canon, some basename =>
    match StagedName.parse basename with
    | .error e => refuse e.text
    | .ok _ =>
      if disk.parentOf cachePath ≠ some canon then refuse (basename ++ " is not in " ++ canon)
      else
        let target := joinPath canon basename
        match disk.probeFile target with
        | .regular => .ok (some target)
        | .replaced => .ok (some target)
        | .notRegular => refuse (basename ++ " is not a regular file")
        | .missing => .ok none
        | .unreadable e => refuse (basename ++ ": " ++ e)

def removeStaged (c : SessionCore) (cachePath : Option String) : Except RefineError Disk :=
  match cachePath with
  | none => .ok disk
  | some path =>
    match resolveStagedFile disk c path with
    | .error e => .error e
    | .ok none => .ok disk
    | .ok (some target) =>
      match disk.removeFile target with
      | some e => .error (.tarballError ("remove staged file " ++ target ++ ": " ++ e))
      | none => .ok (disk.without target)

inductive RemovalOutcome where
  | removed
  | cachedOnly
  | notFound
  deriving DecidableEq

def RefineSession.unmarkUploadedRpm (name arch : String) (s : RefineSession) :
    Outcome RemovalOutcome :=
  match (rpmPackages s.original).find? fun p => p.name == name && p.arch == arch with
  | none => ⟨.ok .notFound, s⟩
  | some pkg =>
    if !pkg.uploaded then ⟨.ok (if pkg.repolessCached then .cachedOnly else .notFound), s⟩
    else
      match removeStaged disk s.toSessionCore pkg.cachePath with
      | .error e => ⟨.error e, s⟩
      | .ok disk' =>
        let canonical := canonicalPackageId name arch
        let cleared := s.toSessionCore.updatePackage
          (fun p => p.name == name && p.arch == arch && p.uploaded)
          (unstage (s.priorCache.lookup canonical))
        ⟨.ok .removed, invalidateCaches env disk'
          { cleared with priorCache := s.priorCache.erase canonical }⟩

end Operations

structure ExportPlan where
  projected : InspectionSnapshot
  originalIncludes : TextMap Bool
  renderCtx : RenderContext
  sourceTarball : Option String
  uploadDirCanon : Option String

def RefineSession.plan (h : Hashing) (s : RefineSession) : ExportPlan where
  projected := s.projected h
  originalIncludes := originalIncludes s.original
  renderCtx := s.cachedRenderContext
  sourceTarball := s.tarballPath
  uploadDirCanon := s.uploadDirCanon

def RefineSession.exportPlan (h : Hashing) (expectedGeneration : Nat) (s : RefineSession) :
    Except RefineError ExportPlan :=
  if expectedGeneration ≠ s.generation then
    .error (.staleGeneration expectedGeneration s.generation)
  else .ok (s.plan h)

/-- A call on the session. -/
inductive Request where
  | apply (op : RefinementOp)
  | applyDirective (directive : ViewDirective)
  | applyBatch (ops : List RefinementOp)
  | undo
  | redo
  | reset
  | setUploaded (canonical stagedPath : String) (uploadedVersion : Option String)
  | unmarkUploadedRpm (name arch : String)
  | ensureUploadDir
  | markViewed (id : String)

def Outcome.void {α : Type} (o : Outcome α) : Outcome Unit :=
  ⟨match o.result with
    | .ok _ => .ok ()
    | .error e => .error e, o.session⟩

def RefineSession.handle (env : Env) (disk : Disk) (s : RefineSession) : Request → Outcome Unit
  | .apply op => s.apply env disk op
  | .applyDirective directive => s.applyDirective env disk directive
  | .applyBatch ops => s.applyBatch env disk ops
  | .undo => s.undo env disk
  | .redo => s.redo env disk
  | .reset => s.reset env disk
  | .setUploaded canonical path version => s.setUploaded env disk canonical path version
  | .unmarkUploadedRpm name arch => (s.unmarkUploadedRpm env disk name arch).void
  | .ensureUploadDir => (s.ensureUploadDir env disk).void
  | .markViewed id => s.markViewed id

/-- A request with the answers of the file system while it is served. -/
abbrev Served := Disk × Request

def serve (env : Env) (served : Served) (s : RefineSession) : RefineSession :=
  (s.handle env served.1 served.2).session

end Inspectah
