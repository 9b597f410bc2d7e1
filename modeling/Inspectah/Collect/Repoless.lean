import Inspectah.Collect.Executor
import Inspectah.Core.Snapshot
import Inspectah.Library.Grouping
import Inspectah.Refine.Projection
import Inspectah.Render.PayloadLines
import Inspectah.Render.ServiceIntent
import Mathlib.Data.List.Sort
import Mathlib.Data.String.Basic

/-!
Which repository a package came from, by the sections of the host's repository files, and the
packages no repository brings, with their files in the dnf cache.
-/
namespace Inspectah

/-- `Vec::sort_by` on the spelling of the ids. -/
def sortIds (ids : List RepoId) : List RepoId := ids.insertionSort fun a b => a.raw ≤ b.raw

section

-- `str::to_lowercase`, the Unicode table.
variable (lowercase : String → String)

/-- Every section of that id counts, enabled or not; of several spellings the least is taken. -/
def classifyRecordedRepo (recorded : String) (sections : List RepoSectionDef) : RepoAttribution :=
  let exactly := (sections.filter fun s => s.id.folded == RepoId.folded ⟨recorded⟩).map (·.id)
  match (sortIds exactly).head? with
  | some id => .exact id
  | none =>
    let matching :=
      if recorded.isEmpty then []
      else (sections.filter fun s =>
        s.enabled && Text.contains (lowercase s.id.raw) (lowercase recorded)).map (·.id)
    match matching with
    | [id] => .resolved recorded id
    | _ :: _ :: _ => .ambiguous recorded (sortIds matching)
    | [] =>
      let lower := Text.asciiLower recorded
      if lower = "@commandline" then .pseudo .commandline recorded
      else if lower = "anaconda" then .pseudo .anaconda recorded
      else if lower = "@system" then .pseudo .system recorded
      else if lower = "" then .unrecorded
      else .stale recorded

def attributedRepo (recorded : String) : RepoAttribution → String
  | .exact id => id.raw
  | .resolved _ id => id.raw
  | _ => recorded

def attributePackage (sections : List RepoSectionDef) (pkg : PackageEntry) : PackageEntry :=
  let attribution := classifyRecordedRepo lowercase pkg.sourceRepo sections
  { pkg with
    repoAttribution := attribution
    sourceRepo := attributedRepo pkg.sourceRepo attribution }

def normalizeSourceRepos (packages : List PackageEntry) (repoFiles : List RepoFile) :
    List PackageEntry :=
  packages.map (attributePackage lowercase (repoFiles.flatMap fun rf => parseRepoSections rf.content))

end

def RELEASE_NAME_SUFFIX : String := "-release"

structure DnfHost where
  repolist : ExecResult
  repoquery : ExecResult
  findCache : ExecResult

def getEnabledRepos (repolist : ExecResult) : Option (List String) :=
  if repolist.success then
    some (((Text.lines repolist.stdout).drop 1).filterMap fun line => (splitWhitespace line).head?)
  else none

/-- The packages the enabled repositories have, with the section of each answer. -/
abbrev Available := List (String × RepoId)

def readAvailable (line : String) : Option (String × RepoId) :=
  match splitWhitespace line with
  | [name, repo] => some (name, ⟨repo⟩)
  | _ => none

def getAvailablePackages (repoquery : ExecResult) : Option Available :=
  if repoquery.success then some ((Text.lines repoquery.stdout).filterMap readAvailable) else none

def Available.has (available : Available) (name : String) : Bool :=
  available.any fun answer => answer.1 == name

/-- Each section once, as it is first spelled, in the order of the folded ids. -/
def Available.serving (available : Available) (name : String) : List RepoId :=
  let ids := (available.filter fun answer => answer.1 == name).map (·.2)
  (Grouping.distinctSorted (ids.map (·.folded))).filterMap fun k => ids.find? fun id => id.folded == k

theorem Available.serving_ne_nil {available : Available} {name : String}
    (has : available.has name) : available.serving name ≠ [] := by
  obtain ⟨answer, mem, named⟩ := List.any_eq_true.mp has
  have listed : answer.2 ∈ (available.filter fun answer => answer.1 == name).map (·.2) :=
    List.mem_map_of_mem (List.mem_filter.mpr ⟨mem, named⟩)
  have key := Grouping.mem_distinctSorted.mpr (List.mem_map_of_mem (f := RepoId.folded) listed)
  intro nothing
  have missed := List.filterMap_eq_nil_iff.mp nothing _ key
  rw [List.find?_eq_none] at missed
  exact missed _ listed (beq_self_eq_true _)

inductive RepoEnablingVerdict where
  | enabling (serving : List RepoId)
  | configOnly (capturedRepoFiles : Nat)
  | repoless

def isRepoConfigPath (path : String) : Bool := REPO_CONFIG_DIRS.any (Text.startsWith path)

def classifyRepoEnabling (rpm : RpmSection) (available : Option Available) (pkg : PackageEntry) :
    RepoEnablingVerdict :=
  match available with
  | none => .repoless
  | some available =>
    if pkg.sourceRepo != COMMANDLINE_REPO || !Text.endsWith pkg.name RELEASE_NAME_SUFFIX then .repoless
    else
      match rpm.fileOwnership.find? fun entry => entry.packageName == pkg.name with
      | none => .repoless
      | some owned =>
        let paths := owned.paths.filter isRepoConfigPath
        let repoFiles := paths.filter (rpm.repoFiles.map (·.path)).contains
        if paths.any fun path =>
            !(rpm.repoFiles.map (·.path)).contains path && !(rpm.gpgKeys.map (·.path)).contains path then
          .repoless
        else if repoFiles.isEmpty then .repoless
        else if available.has pkg.name then .enabling (available.serving pkg.name)
        else .configOnly repoFiles.length

/-- What the two passes over the candidates decide of a package. -/
inductive ScanVerdict where
  | enabledRepo
  | enabling (serving : List RepoId)
  | availableByName
  | repoless (capturedRepoFiles : Option Nat)

section

variable (lowercase : String → String)

def repoMatchesEnabled (sourceRepo : String) (enabledRepos : List String) : Bool :=
  enabledRepos.any fun fullId => Text.contains (lowercase fullId) (lowercase sourceRepo)

def isCandidate (enabledRepos : Option (List String)) (pkg : PackageEntry) : Bool :=
  pkg.sourceRepo.isEmpty ||
    match enabledRepos with
    | some repos => !repoMatchesEnabled lowercase pkg.sourceRepo repos
    | none => false

def isClearedByName (available : Option Available) (pkg : PackageEntry) : Bool :=
  !(Text.startsWith pkg.sourceRepo "@" || pkg.sourceRepo.isEmpty) &&
    match available with
    | some available => available.has pkg.name
    | none => false

def judgeByName (available : Option Available) (capturedRepoFiles : Option Nat)
    (pkg : PackageEntry) : ScanVerdict :=
  if isClearedByName available pkg then .availableByName else .repoless capturedRepoFiles

def scanVerdict (dnf : DnfHost) (rpm : RpmSection) (pkg : PackageEntry) : ScanVerdict :=
  let available := getAvailablePackages dnf.repoquery
  if isCandidate lowercase (getEnabledRepos dnf.repolist) pkg then
    match classifyRepoEnabling rpm available pkg with
    | .enabling serving => .enabling serving
    | .configOnly captured => judgeByName available (some captured) pkg
    | .repoless => judgeByName available none pkg
  else .enabledRepo

def cacheFiles (findCache : ExecResult) : List String :=
  if findCache.success then
    ((Text.lines findCache.stdout).map Text.trim).filter fun l => !l.isEmpty
  else []

def repolessReason (capturedRepoFiles : Option Nat) (pkg : PackageEntry) : String :=
  match capturedRepoFiles with
  | some n => "No repo source: owns " ++ toString n ++
      " captured repo file(s) but is not available from them"
  | none =>
    if pkg.sourceRepo.isEmpty then "No repo source"
    else "No repo source — repo '" ++ pkg.sourceRepo ++ "' not in enabled repos"

def annotateRepoless (cache : List String) (capturedRepoFiles : Option Nat) (pkg : PackageEntry) :
    PackageEntry :=
  let reason := repolessReason capturedRepoFiles pkg
  match cache.find? fun f => Text.endsWith f (nevraFilename pkg) with
  | some path =>
    { pkg with
      repolessCached := true
      cachePath := some path
      repolessAnnotation := reason ++ " — cached RPM bundled (pre-excluded, no GPG verification)" }
  | none =>
    { pkg with
      repolessCached := false
      cachePath := none
      repolessAnnotation := reason ++ " — manual resolution needed" }

def scanPackage (dnf : DnfHost) (rpm : RpmSection) (pkg : PackageEntry) : PackageEntry :=
  match scanVerdict lowercase dnf rpm pkg with
  | .enabledRepo => pkg
  | .enabling serving => { pkg with repoEnablingFrom := serving }
  | .availableByName => pkg
  | .repoless captured => annotateRepoless (cacheFiles dnf.findCache) captured pkg

def scanDnfCacheForRepoless (dnf : DnfHost) (rpm : RpmSection) : RpmSection :=
  { rpm with packagesAdded := rpm.packagesAdded.map (scanPackage lowercase dnf rpm) }

end

end Inspectah
