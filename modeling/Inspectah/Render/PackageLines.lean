import Mathlib.Data.List.Sort
import Mathlib.Data.String.Basic
import Inspectah.Library.Grouping
import Inspectah.Refine.View
import Inspectah.Render.VarDirs

/-!
The base image and the packages: repository files and keys, module streams, package
groups, the packages installed by name, and the version locks.
-/
namespace Inspectah

open BuildScript (Line Segment)

variable (snap : InspectionSnapshot) (rpm : RpmSection) (originalIncludes : Option (TextMap Bool))

def CRB_ID_PREFIX : String := "codeready-builder-"
def CRB_ID_EXCLUDED_INFIXES : List String := ["-debug-", "-source-"]
def CRB_BANNER : String :=
  "CRB was enabled on the source host; EPEL packages may depend on it."

def sortStrings (values : List String) : List String := values.insertionSort (· ≤ ·)

def isShellSafeId (id : RepoId) : Bool := (sanitizeShellValue id.raw).isSome

/-- A section of CodeReady Builder's binary packages that is enabled. -/
def isCrbSection (sec : RepoSectionDef) : Bool :=
  sec.enabled && Text.startsWith sec.id.folded CRB_ID_PREFIX &&
    !CRB_ID_EXCLUDED_INFIXES.any (Text.contains sec.id.folded) && isShellSafeId sec.id

/-- Each id once, in order, as the first file spells it. -/
def crbIds : List RepoId :=
  let ids := ((rpm.repoFiles.filter (·.disposition.isIncluded)).flatMap fun f =>
    (parseRepoSections f.content).filter isCrbSection).map (·.id)
  (Grouping.distinctSorted (ids.map (·.folded))).filterMap fun k => ids.find? fun id => id.folded == k

def crbFlags : List Segment :=
  (crbIds rpm).flatMap fun id => [.fixed " --enablerepo=", bare id.raw]

def bannerLines (pending : Bool) : List Line := if pending then [note CRB_BANNER] else []

def DNF_CLEANUP : List Line :=
  [.command [.fixed "    && dnf clean all \\"],
   .command [.fixed "    && rm -rf \\"],
   .command [.fixed "        /var/cache/dnf \\"],
   .command [.fixed "        /var/lib/dnf/history* \\"],
   .command [.fixed "        /var/log/dnf* \\"],
   .command [.fixed "        /var/log/hawkey.log \\"],
   .command [.fixed "        /var/log/rhsm"]]

def dnfInstallLines (names : List String) (flags : List Segment) : List Line :=
  .command (.fixed "RUN dnf install -y" :: flags ++ [.fixed " \\"]) ::
    (names.map fun n => .command [.fixed "    ", bare n, .fixed " \\"]) ++ DNF_CLEANUP

def repoFileLines : List Line :=
  let count := (rpm.repoFiles.filter fun r => r.disposition.isIncluded && !r.isDefaultRepo).length
  if count = 0 then []
  else containerSection ("Custom Repositories (" ++ toString count ++ ")")
    [.copy [.fixed "config/etc/yum.repos.d/"] [.fixed "/etc/yum.repos.d/"]]

def STANDARD_GPG_DIR : String := "etc/pki/rpm-gpg"

/-- Where a key's file is, or the note that its path cannot be written. -/
inductive KeyPlace where
  | refused (note : Line)
  | inDir (dir : String)
  | atRoot

def splitLastSlash (path : String) : Option (String × String) :=
  match path.toList.reverse.span (· != '/') with
  | (_, []) => none
  | (after, _ :: before) => some (String.ofList before.reverse, String.ofList after.reverse)

def keyPlace (key : RepoFile) : KeyPlace :=
  if Text.contains key.path ".." || key.path.toList.any (· == Char.ofNat 0) then
    .refused (note ("FIXME: copy this GPG key in by hand, or exclude it, then rebuild; " ++
      "its path contains unsafe characters: " ++ htmlEscape key.path))
  else if (sanitizeShellValue key.path).isNone then
    .refused (note ("FIXME: copy this GPG key in by hand, or exclude it, then rebuild; " ++
      "its path is unsafe for the shell: " ++ htmlEscape key.path))
  else
    match splitLastSlash (trimSlashes key.path) with
    | some (dir, _) => if dir.isEmpty then .atRoot else .inDir dir
    | none => .atRoot

def KeyPlace.note : KeyPlace → Option Line
  | .refused note => some note
  | _ => none

def KeyPlace.dir : KeyPlace → Option String
  | .inDir dir => some dir
  | _ => none

def KeyPlace.isRoot : KeyPlace → Bool
  | .atRoot => true
  | _ => false

def gpgDirLine (dir : String) : Line :=
  match sanitizeShellValue dir with
  | some safe =>
    .copy [.fixed "config/", bare safe, .fixed "/"] [.fixed "/", bare safe, .fixed "/"]
  | none => note ("FIXME: GPG directory path contains unsafe characters: " ++ htmlEscape dir)

/-- Keys in the standard directory need no import; every other key is imported. -/
def gpgKeyLines : List Line :=
  let included := rpm.gpgKeys.filter (·.disposition.isIncluded)
  let dirs := included.filterMap fun k => (keyPlace k).dir
  let nonstandard := included.filter fun k =>
    (keyPlace k).isRoot || (keyPlace k).dir.any (· != STANDARD_GPG_DIR)
  if included.isEmpty then []
  else containerSection ("GPG Keys (" ++ toString included.length ++ ")")
    ((included.filterMap fun k => (keyPlace k).note) ++
      (if dirs.contains STANDARD_GPG_DIR then
         [.copy [.fixed ("config/" ++ STANDARD_GPG_DIR ++ "/")] [.fixed ("/" ++ STANDARD_GPG_DIR ++ "/")]]
       else []) ++
      (Grouping.distinctSorted (dirs.filter (· != STANDARD_GPG_DIR))).map gpgDirLine ++
      ((included.filter fun k => (keyPlace k).isRoot).map fun k =>
        .copy [.fixed "config/", bare (trimSlashes k.path)] [bare k.path]) ++
      (nonstandard.map fun k => .command [.fixed "RUN rpm --import ", bare k.path]))

def debugTexts (texts : List String) : String := "[" ++ ", ".intercalate (texts.map debugText) ++ "]"

def moduleFixme (ms : EnabledModuleStream) : Option Line :=
  if (sanitizeShellValue ms.moduleName).isNone || (sanitizeShellValue ms.stream).isNone then
    some (note ("FIXME: module stream contains unsafe characters, skipped: " ++
      debugText ms.moduleName ++ ":" ++ debugText ms.stream))
  else if ms.profiles.any fun p => (sanitizeShellValue p).isNone then
    some (note ("FIXME: module profile contains unsafe characters, skipped: " ++
      debugTexts ms.profiles))
  else none

def moduleEnableLine (flags : List Segment) (ms : EnabledModuleStream) : Line :=
  .command (.fixed "RUN dnf module enable -y" :: flags ++
    [.fixed " ", bare ms.moduleName, .fixed ":", bare ms.stream] ++
    (if ms.profiles.isEmpty then []
     else .fixed "/" :: (ms.profiles.map bare).intersperse (.fixed ",")))

/-- The lines, and whether the banner is still to come. -/
def moduleStreamBody (flags : List Segment) : Bool → List EnabledModuleStream → List Line × Bool
  | pending, [] => ([], pending)
  | pending, ms :: rest =>
    match moduleFixme ms with
    | some fixme =>
      let (lines, pending) := moduleStreamBody flags pending rest
      (fixme :: lines, pending)
    | none =>
      let (lines, after) := moduleStreamBody flags false rest
      (bannerLines pending ++ moduleEnableLine flags ms :: lines, after)

def enabledModules : List EnabledModuleStream :=
  rpm.moduleStreams.filter fun ms => ms.disposition.isIncluded && !ms.baselineMatch

def sortGroups (groups : List InstalledGroup) : List InstalledGroup :=
  groups.insertionSort fun a b => a.name ≤ b.name

def knownGroups (ctx : Option RenderContext) : List InstalledGroup :=
  match ctx with
  | some _ => rpm.installedGroups.getD []
  | none => []

def groupStateOf (ctx : Option RenderContext) (name : String) : Option GroupRenderState :=
  ctx.bind fun c => c.groupStates.lookup name

def renderableGroups (ctx : Option RenderContext) : List InstalledGroup :=
  sortGroups ((knownGroups rpm ctx).filter fun g => groupStateOf ctx g.name == some .renderable)

def groupBody (flags : List Segment) (pending : Bool) (groups : List InstalledGroup) : List Line :=
  bannerLines pending ++ .command (.fixed "RUN dnf group install -y" :: flags ++ [.fixed " \\"]) ::
    (groups.map fun g =>
      .command [.fixed "    \"", .operand .double g.name, .fixed "\" \\"]) ++ DNF_CLEANUP

def DegradationReason.label : DegradationReason → String
  | .memberExcluded => "member excluded"
  | .memberOverridden => "member overridden"
  | .multilibConflict => "multilib conflict"

def groupProvenance (ctx : Option RenderContext) (g : InstalledGroup) : List Line :=
  (match groupStateOf ctx g.name with
   | some (.degraded reason) =>
     [note ("\"" ++ (g.name ++ "\" degraded (" ++ reason.label ++ "): members rendered individually"))]
   | _ => []) ++
  (if g.optionalInstalled.isEmpty then []
   else [note ("Optional members from \"" ++ (g.name ++ "\""))])

def provenanceSection (ctx : Option RenderContext) : List Line :=
  let lines := (sortGroups (knownGroups rpm ctx)).flatMap (groupProvenance ctx)
  if lines.isEmpty then [] else lines ++ [.blank]

def NARRATION_WIDTH : Nat := 80

/-- A line under construction starts with its mark, which counts in the width. -/
def wrapWord (wrapped : List String × String) (word : String) : List String × String :=
  let (lines, current) := wrapped
  if 0 < current.utf8ByteSize ∧ NARRATION_WIDTH < 1 + current.utf8ByteSize + 1 + word.utf8ByteSize then
    (lines ++ [current], " " ++ word)
  else (lines, current ++ " " ++ word)

def commentParagraph (text : String) : List Line :=
  let (lines, current) := (splitWhitespace text).foldl wrapWord ([], "")
  (if 0 < current.utf8ByteSize then lines ++ [current] else lines).map .comment

/-- A package's name, and its release package's address before and after the OS version. -/
def RELEASE_PERMALINKS : List (String × String × String) :=
  [("epel-release", "https://dl.fedoraproject.org/pub/epel/epel-release-latest-", ".noarch.rpm")]

def hostOfUrl (url : String) : Option String :=
  (Text.findChars "://".toList url.toList).map fun (_, rest) =>
    String.ofList (rest.takeWhile (· != '/'))

def releasePermalink (pkg : PackageEntry) : Option (String × String) :=
  (RELEASE_PERMALINKS.find? fun p => p.1 == pkg.name).bind fun (_, before, after) =>
    snap.osRelease.bind fun os =>
      ((sanitizeShellValue (String.ofList (os.versionId.toList.takeWhile (· != '.')))).filter
        fun major => !major.isEmpty).bind fun major =>
          (hostOfUrl (before ++ major ++ after)).map fun host => (before ++ major ++ after, host)

def REPO_FILE_SUFFIX : String := ".repo"

def ownedRepoFileName (pkg : PackageEntry) : Option String :=
  (rpm.fileOwnership.find? fun entry => entry.packageName == pkg.name).bind fun owned =>
    (Grouping.distinctSorted (owned.paths.filter fun path =>
      Text.startsWith path YUM_REPOS_DIR && Text.endsWith path REPO_FILE_SUFFIX)).head?.bind fun path =>
        (Text.splitOn (· == '/') path).getLast?

def repoEnablingNarration (pkg : PackageEntry) :
    List Line :=
  let permalink := releasePermalink snap pkg
  commentParagraph (sanitizeForComment pkg.name ++
    " was installed outside any repo on the source host; the host's enabled repos served it, and " ++
    "its repo files and key are copied above, so it installs from the copied definition. The build " ++
    "needs those repo endpoints reachable with any credentials and CA trust they require." ++
    (match ownedRepoFileName rpm pkg with
     | some file => " Installing after the COPY may leave a cosmetic " ++ sanitizeForComment file ++
         ".rpmnew."
     | none => "") ++
    (match permalink with
     | some (_, host) => " Alternative, when " ++ host ++ " is reachable:"
     | none => "")) ++
  permalink.toList.map fun (url, _) => note ("RUN dnf install -y " ++ url)

def demotionFixme (pkg : PackageEntry) (loss : ServingLoss) : Line :=
  let id := sanitizeForComment loss.id.raw
  let tail := sanitizeForComment pkg.name ++
    " installs from that repo definition, which this export does not carry"
  match loss.file with
  | some file => note ("FIXME: include " ++ sanitizeForComment file ++
      " under Configuration Files, or re-include repo " ++ id ++ ", or upload the RPM; " ++ tail)
  | none => note ("FIXME: re-include repo " ++ id ++ ", or upload the RPM; " ++ tail)

def nameCount (packages : List PackageEntry) (name : String) : Nat :=
  (packages.filter fun p => p.name == name).length

def installNameForPackage (installable : List PackageEntry) (pkg : PackageEntry) : String :=
  if 1 < nameCount installable pkg.name ∧ pkg.arch ≠ "" then canonicalPackageId pkg.name pkg.arch
  else pkg.name

/-- Locked packages, the installer's own and those the operator decided need not be leaves. -/
def passesLeafFilter (pkg : PackageEntry) : Bool :=
  let id := canonicalPackageId pkg.name pkg.arch
  pkg.locked || (pkg.sourceRepo == "anaconda" && pkg.disposition.isIncluded) ||
    originalIncludes.any (fun orig =>
      (orig.lookup id).getD pkg.disposition.isIncluded != pkg.disposition.isIncluded) ||
    rpm.leafPackages.all fun leaves => leaves.contains id

def installablePackages :
    List PackageEntry :=
  (((rpm.packagesAdded.filter (·.disposition.isIncluded)).filter isPackageInstallable).filter fun pkg =>
    !(rpm.baselineSuppressed.getD []).contains (canonicalPackageId pkg.name pkg.arch)).filter
      (passesLeafFilter rpm originalIncludes)

def namedPackages (ctx : Option RenderContext) : List (PackageEntry × String) :=
  let installable := installablePackages rpm originalIncludes
  let suppressed := (renderableGroups rpm ctx).flatMap (·.members)
  ((installable.filter fun pkg => !suppressed.contains pkg.name).map fun pkg =>
    (pkg, installNameForPackage installable pkg)).filter fun named =>
      (sanitizeShellValue named.2).isSome

def ordinaryNames (named : List (PackageEntry × String)) : List String :=
  (named.filter fun n =>
    match repoEnablingExport rpm n.1 with
    | .notEnabling => true
    | _ => false).map (·.2)

def servedPackages (named : List (PackageEntry × String)) :
    List (PackageEntry × String) :=
  named.filter fun n =>
    match repoEnablingExport rpm n.1 with
    | .served => true
    | _ => false

def lostPackages (named : List (PackageEntry × String)) :
    List (PackageEntry × ServingLoss) :=
  named.filterMap fun n =>
    match repoEnablingExport rpm n.1 with
    | .lost loss => some (n.1, loss)
    | _ => none

def repoEnablingBody (pending : Bool)
    (named : List (PackageEntry × String)) : List Line :=
  let served := servedPackages rpm named
  (served.flatMap fun n => repoEnablingNarration snap rpm n.1) ++
  ((lostPackages rpm named).map fun (pkg, loss) => demotionFixme pkg loss) ++
  (if served.isEmpty then []
   else bannerLines pending ++ dnfInstallLines (sortStrings (served.map (·.2))) (crbFlags rpm))

def versionLockLines : List Line :=
  let included := rpm.versionLocks.filter (·.disposition.isIncluded)
  let safe := included.filter fun vl => (sanitizeShellValue vl.rawPattern).isSome
  let refused := included.filter fun vl => (sanitizeShellValue vl.rawPattern).isNone
  (if safe.isEmpty then []
   else containerSection "Version Locks"
     (.command [.fixed "RUN dnf install -y python3-dnf-plugin-versionlock && \\"] ::
       (safe.map fun vl =>
         .command [.fixed "    dnf versionlock add ", bare vl.rawPattern, .fixed " && \\"]) ++
       [.command [.fixed "    dnf clean all"]])) ++
  (refused.map fun vl => note ("FIXME: version lock pattern contains unsafe characters, skipped: " ++
    debugText vl.rawPattern)) ++
  (if refused.isEmpty then [] else [.blank])

def leafAuthorityLines : List Line :=
  match rpm.leafAuthorityHosts, rpm.leafTotalHosts with
  | some auth, some total =>
    if auth < total then
      [note ("Leaf classification: " ++ toString auth ++ "/" ++ toString total ++
        " hosts (partial authority)"), .blank]
    else []
  | _, _ => []

def fromLines (base : Option String) : List Line :=
  [match base with
   | some b => .command [.fixed "FROM ", bare b]
   | none => note ("FROM line omitted — target image could not be determined. " ++
       "Use --base-image to specify."),
   .blank]

/-- The packages by name, after every transaction that may have said the banner. -/
def packageInstallSection (pending : Bool)
    (named : List (PackageEntry × String)) : List Line :=
  let names := ordinaryNames rpm named
  if names.isEmpty then []
  else containerSection ("Packages (" ++ toString names.length ++ ")")
    (bannerLines pending ++ dnfInstallLines (sortStrings names) (crbFlags rpm))

def followUpLines : List Line :=
  let todo := rpm.packagesAdded.filterMap manualFollowUpLine
  if todo.isEmpty then [] else .blank :: containerSection "Manual Follow-up Required" todo

def groupSection (flags : List Segment) (pending : Bool) (groups : List InstalledGroup) : List Line :=
  if groups.isEmpty then []
  else containerSection ("Package Groups (" ++ toString groups.length ++ ")")
    (groupBody flags pending groups)

def repoEnablingSection (pending : Bool)
    (named : List (PackageEntry × String)) : List Line :=
  let count := (servedPackages rpm named).length + (lostPackages rpm named).length
  if count = 0 then []
  else containerSection ("Repo-enabling packages (" ++ toString count ++ ")")
    (repoEnablingBody snap rpm pending named)

def rpmLines (ctx : Option RenderContext) : List Line :=
  let flags := crbFlags rpm
  let modules := moduleStreamBody flags (!(crbIds rpm).isEmpty) (enabledModules rpm)
  let groups := renderableGroups rpm ctx
  let pendingAfterGroups := modules.2 && groups.isEmpty
  let named := namedPackages rpm originalIncludes ctx
  leafAuthorityLines rpm ++ repoFileLines rpm ++ gpgKeyLines rpm ++
  containerSection "Module Streams" modules.1 ++
  groupSection flags modules.2 groups ++
  provenanceSection rpm ctx ++
  repoEnablingSection snap rpm pendingAfterGroups named ++
  packageInstallSection rpm (pendingAfterGroups && (servedPackages rpm named).isEmpty) named ++
  followUpLines rpm ++
  versionLockLines rpm

def packagesSectionLines (base : Option String)
    (originalIncludes : Option (TextMap Bool)) (ctx : Option RenderContext) : List Line :=
  fromLines base ++
  match snap.rpm with
  | some rpm => rpmLines snap rpm originalIncludes ctx
  | none => []

end Inspectah
