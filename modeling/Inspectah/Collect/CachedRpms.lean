import Inspectah.Collect.ConfigScan
import Inspectah.Collect.Repoless

/-!
Which cached file a repo-less package is bundled with. The scan takes the first path in the
dnf cache that ends in the package's file name, which the path of another package may do.
-/
namespace Inspectah

/-- What tells two builds of a package apart. -/
def PackageEntry.nevra (pkg : PackageEntry) : String × String × String × String × String :=
  (pkg.name, pkg.epoch, pkg.version, pkg.release, pkg.arch)

def IsFileOf (pkg : PackageEntry) (path : String) : Prop := baseName path = nevraFilename pkg

instance (pkg : PackageEntry) (path : String) : Decidable (IsFileOf pkg path) :=
  inferInstanceAs (Decidable (_ = _))

section

variable (lowercase : String → String) (dnf : DnfHost) (rpm : RpmSection)

/-- A package the scan annotates, with what it says about its repository files. -/
structure RepolessTarget where
  pkg : PackageEntry
  captured : Option Nat
  added : pkg ∈ rpm.packagesAdded
  judged : scanVerdict lowercase dnf rpm pkg = .repoless captured

variable {lowercase dnf rpm}

def RepolessTarget.scanned (t : RepolessTarget lowercase dnf rpm) : PackageEntry :=
  scanPackage lowercase dnf rpm t.pkg

/-- What is left to the operator. -/
def RepolessTarget.manualNote (t : RepolessTarget lowercase dnf rpm) : String :=
  repolessReason t.captured t.pkg ++ " — manual resolution needed"

variable (lowercase dnf rpm)

structure BundledAsItself : Prop where
  bundled_iff : ∀ t : RepolessTarget lowercase dnf rpm, t.scanned.repolessCached = true ↔
    ∃ path ∈ cacheFiles dnf.findCache, IsFileOf t.pkg path
  path_iff : ∀ t : RepolessTarget lowercase dnf rpm,
    t.scanned.repolessCached = true ↔ ∃ path, t.scanned.cachePath = some path
  own_file : ∀ (t : RepolessTarget lowercase dnf rpm) (path : String),
    t.scanned.cachePath = some path → path ∈ cacheFiles dnf.findCache ∧ IsFileOf t.pkg path
  own_alone : ∀ (t u : RepolessTarget lowercase dnf rpm) (path : String),
    t.pkg.nevra ≠ u.pkg.nevra → ¬(t.scanned.cachePath = some path ∧ u.scanned.cachePath = some path)
  otherwise : ∀ t : RepolessTarget lowercase dnf rpm, t.scanned.repolessCached = false →
    t.scanned.cachePath = none ∧ t.scanned.repolessAnnotation = t.manualNote

def firstEnding (cache : List String) (pkg : PackageEntry) : Option String :=
  cache.find? fun path => Text.endsWith path (nevraFilename pkg)

/-- The first path with a package's file name at its end is its file, and packages of one file
    name are one, or have no file. -/
structure CacheUnambiguous : Prop where
  first_own : ∀ (t : RepolessTarget lowercase dnf rpm) (path : String),
    firstEnding (cacheFiles dnf.findCache) t.pkg = some path → IsFileOf t.pkg path
  one_each : ∀ t u : RepolessTarget lowercase dnf rpm, t.pkg.nevra ≠ u.pkg.nevra →
    nevraFilename t.pkg = nevraFilename u.pkg →
      ∀ path ∈ cacheFiles dnf.findCache, ¬IsFileOf t.pkg path

variable {lowercase dnf rpm}

theorem endsWith_baseName (path : String) : Text.endsWith path (baseName path) := by
  rw [Text.endsWith, List.isPrefixOf_iff_prefix, List.reverse_prefix, baseName, Text.splitOn,
    List.getLast?_map]
  cases last : (Text.splitChars (· == '/') path.toList).getLast? with
  | none => exact List.suffix_rfl
  | some piece =>
    rw [Option.map_some, Option.getD_some, String.toList_ofList]
    exact getLast_splitChars_suffix last

theorem IsFileOf.ends {pkg : PackageEntry} {path : String} (own : IsFileOf pkg path) :
    Text.endsWith path (nevraFilename pkg) :=
  own ▸ endsWith_baseName path

namespace RepolessTarget

variable (t : RepolessTarget lowercase dnf rpm)

theorem scanned_eq : t.scanned = annotateRepoless (cacheFiles dnf.findCache) t.captured t.pkg := by
  rw [scanned, scanPackage, t.judged]

theorem cachePath_eq : t.scanned.cachePath = firstEnding (cacheFiles dnf.findCache) t.pkg := by
  rw [t.scanned_eq, annotateRepoless, firstEnding]
  split
  next path found => exact found.symm
  next found => exact found.symm

theorem cached_iff : t.scanned.repolessCached = true ↔
    ∃ path, firstEnding (cacheFiles dnf.findCache) t.pkg = some path := by
  rw [t.scanned_eq, annotateRepoless, firstEnding]
  split
  next path found => exact iff_of_true rfl ⟨path, found⟩
  next found =>
    rw [found]
    exact iff_of_false Bool.false_ne_true (by rintro ⟨_, some⟩; cases some)

theorem manual_of_uncached (h : t.scanned.repolessCached = false) :
    t.scanned.cachePath = none ∧ t.scanned.repolessAnnotation = t.manualNote := by
  rw [t.scanned_eq, annotateRepoless] at h ⊢
  split
  next path found =>
    rw [found] at h
    cases h
  next found => exact ⟨rfl, rfl⟩

end RepolessTarget

theorem firstEnding_isSome {cache : List String} {pkg : PackageEntry} {path : String}
    (mem : path ∈ cache) (own : IsFileOf pkg path) : ∃ first, firstEnding cache pkg = some first :=
  Option.isSome_iff_exists.mp (List.find?_isSome.mpr ⟨path, mem, own.ends⟩)

theorem bundled_as_itself_iff (lowercase : String → String) (dnf : DnfHost) (rpm : RpmSection) :
    BundledAsItself lowercase dnf rpm ↔ CacheUnambiguous lowercase dnf rpm := by
  constructor
  · intro right
    refine ⟨fun t path first => (right.own_file t path (t.cachePath_eq.trans first)).2, ?_⟩
    intro t u other same path mem own
    obtain ⟨first, found⟩ := firstEnding_isSome mem own
    refine right.own_alone t u first other ⟨t.cachePath_eq.trans found, u.cachePath_eq.trans ?_⟩
    rw [firstEnding, ← same]
    exact found
  · intro clear
    have own : ∀ (t : RepolessTarget lowercase dnf rpm) (path : String),
        t.scanned.cachePath = some path →
          path ∈ cacheFiles dnf.findCache ∧ IsFileOf t.pkg path := by
      intro t path received
      rw [t.cachePath_eq] at received
      exact ⟨List.mem_of_find?_eq_some received, clear.first_own t path received⟩
    exact
      { bundled_iff := by
          intro t
          rw [t.cached_iff]
          constructor
          · rintro ⟨path, found⟩
            exact ⟨path, own t path (t.cachePath_eq.trans found)⟩
          · rintro ⟨path, mem, file⟩
            exact firstEnding_isSome mem file
        path_iff := fun t => by rw [t.cached_iff, t.cachePath_eq]
        own_file := own
        own_alone := by
          rintro t u path other ⟨first, second⟩
          obtain ⟨mem, file⟩ := own t path first
          exact clear.one_each t u other (file.symm.trans (own u path second).2) path mem file
        otherwise := fun t => t.manual_of_uncached }

end

def fooSection : RpmSection where
  packagesAdded := [{ name := "foo", version := "1.0", release := "1", arch := "x86_64" }]

def libfooCached : DnfHost where
  repolist := { exitCode := 1 }
  repoquery := { exitCode := 1 }
  findCache := { stdout := "/var/cache/dnf/libfoo-1.0-1.x86_64.rpm\n" }

/-- The package is bundled with the file of the one whose name ends in its own. -/
theorem foo_bundled_as_libfoo : ¬BundledAsItself id libfooCached fooSection := by
  intro right
  let t : RepolessTarget id libfooCached fooSection :=
    ⟨_, none, List.mem_singleton_self _, rfl⟩
  have received : t.scanned.cachePath = some "/var/cache/dnf/libfoo-1.0-1.x86_64.rpm" := by
    decide +kernel
  exact absurd (right.own_file t _ received).2 (by decide +kernel)

end Inspectah
