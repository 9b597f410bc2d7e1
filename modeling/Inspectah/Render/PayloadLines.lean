import Mathlib.Data.String.Basic
import Inspectah.Library.Grouping
import Inspectah.Refine.PayloadExtraction
import Inspectah.Refine.View
import Inspectah.Render.Safety

/-!
The instructions for payload the export carries along: files no package manages, and
RPMs no repository serves.
-/
namespace Inspectah

open BuildScript (Line Segment)

/-- A path in single quotes, each quote of its own escaped. -/
def shellEscape (value : String) : Segment := .operand .escaped value

def VAR_BACKED_SCAN_ROOT : String := "srv"

/-- Below `/srv`, which links into `/var` on the target. -/
def isVarSrv (path : String) : Bool :=
  (components (trimSlashes path)).head? == some (.normal VAR_BACKED_SCAN_ROOT)

def includedUnmanagedFiles (snap : InspectionSnapshot) : List UnmanagedFile :=
  (rowsOf (·.items) snap.unmanagedFiles).filter (·.disposition.isIncluded)

def includedVarSrvPaths (snap : InspectionSnapshot) : List String :=
  ((includedUnmanagedFiles snap).filter fun f => isVarSrv f.path).map (·.path)

def varSrvCommentLines (paths : List String) : List Line :=
  [.comment "",
   note "Not copied: /srv is a symlink to var/srv on bootc images, so content",
   note "there is machine-local data that belongs to the /var lifecycle, not",
   note "image content. A COPY would land in /var/srv once, on first boot, and",
   note "no later image update would change it. Carry it with your /var",
   note "strategy: restore it into /var/srv after deployment, or give it its",
   note "own mount. The files are in this export under unmanaged/srv/."] ++
  paths.map fun p => note ("  " ++ p)

def unmanagedParent (file : UnmanagedFile) : String := (parentDir file.path).getD "/"

def symlinkLine (file : UnmanagedFile) : Line :=
  if file.linkTarget.isEmpty then
    note ("SYMLINK: " ++ (file.path ++ " -> unknown (recreate manually)"))
  else
    .command [.fixed "RUN ln -sf ", shellEscape file.linkTarget, .fixed " ", shellEscape file.path]

/-- The files of one directory: copied together when there are several, then the links. -/
def unmanagedDirLines (dir : String) (files : List UnmanagedFile) : List Line :=
  let regular := files.filter fun f => f.fileType ≠ .symlink
  let relDir := trimSlashes dir
  (if 1 < regular.length then
     [.copy [.fixed "unmanaged/", bare relDir, .fixed "/"] [.fixed "/", bare relDir, .fixed "/"]]
   else regular.map fun f =>
     .copy [.fixed "unmanaged/", bare (trimSlashes f.path)] [bare f.path]) ++
  ((files.filter fun f => f.fileType = .symlink).map symlinkLine)

def unmanagedFileLines (snap : InspectionSnapshot) : List Line :=
  let included := includedUnmanagedFiles snap
  if included.isEmpty then []
  else
    let copied := included.filter fun f => !isVarSrv f.path
    let varSrv := includedVarSrvPaths snap
    [.blank,
     note "=== Unmanaged files (no package manager provenance) ===",
     note "These files were copied directly from the source host. They have",
     note "no upstream update path and must be manually maintained."] ++
    ((Grouping.distinctSorted (copied.map unmanagedParent)).flatMap fun dir =>
      unmanagedDirLines dir (copied.filter fun f => unmanagedParent f == dir)) ++
    (if varSrv.isEmpty then [] else varSrvCommentLines varSrv)

inductive Emission where
  | active
  | commented
  deriving DecidableEq

def installCommands (name : StagedName) : List Line :=
  [.copy [.fixed "repoless-packages/", bare name.text] [.fixed "/tmp/"],
   .command [.fixed "RUN dnf localinstall -y /tmp/", bare name.text, .fixed " \\"],
   .command [.fixed "    && rm /tmp/", bare name.text]]

def installLines (name : StagedName) (emission : Emission) : List Line :=
  match emission with
  | .active => installCommands name
  | .commented =>
    [note ("COPY repoless-packages/" ++ name.text ++ " /tmp/"),
     note ("RUN dnf localinstall -y /tmp/" ++ name.text ++ " \\"),
     note ("    && rm /tmp/" ++ name.text)]

def provenanceLines (pkg : PackageEntry) (source : String) : List Line :=
  [note ("Repo-less package: " ++ sanitizeForComment pkg.name ++ " (" ++ source ++
     ", no repository provenance)"),
   note "WARNING: This package has no upstream repo and no GPG verification."]

def commentId (pkg : PackageEntry) : String := sanitizeForComment (pkg.name ++ "." ++ pkg.arch)

def uploadedLines (pkg : PackageEntry) (upload : VerifiedUpload) : List Line :=
  provenanceLines pkg "uploaded RPM" ++
  [note "It was uploaded in refine. Updates must be managed manually."] ++
  (upload.uploadedVersion.toList.map fun version =>
    note ("uploaded " ++ sanitizeForComment pkg.name ++ "-" ++ (version ++ "." ++
      sanitizeForComment pkg.arch ++ "; the host had " ++
      sanitizeForComment (pkg.version ++ "-" ++ pkg.release)))) ++
  installLines upload.basename .active

def cachedLines (pkg : PackageEntry) : List Line :=
  match StagedName.parse (nevraFilename pkg) with
  | .error _ =>
    [note ("FIXME: upload the RPM for " ++ commentId pkg ++
      " in refine; the cached RPM's filename is not one this can name in a COPY")]
  | .ok name =>
    provenanceLines pkg "cached RPM" ++
    (if pkg.disposition.isIncluded then
       note "It was found in the local dnf cache. Updates must be managed manually." ::
         installLines name .active
     else
       note "Pre-excluded — uncomment after verifying provenance:" :: installLines name .commented)

def repolessPackageLines (verified : TextMap VerifiedUpload) (pkg : PackageEntry) : List Line :=
  match verified.lookup (canonicalPackageId pkg.name pkg.arch) with
  | some upload => uploadedLines pkg upload
  | none =>
    if pkg.uploaded && pkg.disposition.isIncluded then
      [note ("FIXME: upload the RPM for " ++ commentId pkg ++
        " again in refine; the staged file could not be verified for export")]
    else if pkg.repolessCached then cachedLines pkg
    else
      [note ("MANUAL: " ++ sanitizeForComment pkg.name ++ " (no repo source, RPM not in cache)"),
       note "Provide the RPM via the refine UI upload, add a repo, or uncomment:",
       note ("RUN dnf install " ++ sanitizeForComment pkg.name)]

def repolessRpmLines (snap : InspectionSnapshot) (ctx : Option RenderContext) : List Line :=
  let repoless := (rowsOf (·.packagesAdded) snap.rpm).filter fun p => !p.repolessAnnotation.isEmpty
  if repoless.isEmpty then []
  else
    [.blank, note "=== Repo-less RPM packages ==="] ++
    repoless.flatMap (repolessPackageLines ((ctx.map (·.verifiedUploads)).getD ∅))

end Inspectah
