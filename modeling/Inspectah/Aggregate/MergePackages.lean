import Inspectah.Aggregate.PayloadVote

/-!
The packages of a merged RPM section: each is a row the engine merged, cut down to the
leaves, with at most its decision and its source replaced.
-/
namespace Inspectah

open Grouping AggregateMergeable

section Packages

variable {conflicts : TextMap (List RepoSourceEntry)}

theorem reconcileSource_eq (pkg : PackageEntry) :
    ∃ source, reconcileSource conflicts pkg = { pkg with sourceRepo := source } := by
  unfold reconcileSource
  split
  · exact ⟨pkg.sourceRepo, rfl⟩
  · exact ⟨_, rfl⟩

theorem forceLeaf_eq (leaves : List String) (pkg : PackageEntry) :
    ∃ d, forceLeaf leaves pkg = { pkg with disposition := d } := by
  unfold forceLeaf
  split
  · exact ⟨.included, rfl⟩
  · exact ⟨pkg.disposition, rfl⟩

theorem mem_merged_package {lists : List (List String)} {packages : List PackageEntry}
    {pkg : PackageEntry} (mem : pkg ∈ (cutToLeaves lists packages).map (reconcileSource conflicts)) :
    ∃ row ∈ packages, identityKey row = identityKey pkg ∧ row.aggregate = pkg.aggregate ∧
      ∀ leaves, leafIntersection lists = some leaves → nameArch pkg.name pkg.arch ∈ leaves →
        pkg.disposition = .included := by
  obtain ⟨cut, there, rfl⟩ := List.mem_map.mp mem
  obtain ⟨source, reconciled⟩ := @reconcileSource_eq conflicts cut
  rw [reconciled]
  unfold cutToLeaves at there
  cases found : leafIntersection lists with
  | none =>
    rw [found] at there
    refine ⟨cut, there, rfl, rfl, ?_⟩
    intro leaves known
    cases known
  | some leaves =>
    rw [found] at there
    obtain ⟨row, kept, rfl⟩ := List.mem_map.mp there
    obtain ⟨d, forced⟩ := forceLeaf_eq leaves row
    refine ⟨row, (List.mem_filter.mp kept).1, by rw [forced]; rfl, by rw [forced], ?_⟩
    intro leaves' known leaf
    cases known
    have same : nameArch row.name row.arch ∈ leaves := by
      rw [forced] at leaf
      exact leaf
    simp [forceLeaf, same]

end Packages

theorem mem_collectItems {σ α : Type} {sections : List (Option σ)} {rows : σ → List α} {i : Nat}
    {a : α} : (i, a) ∈ collectItems sections rows ↔
      ∃ sec, sections[i]? = some (some sec) ∧ a ∈ rows sec := by
  rw [collectItems, List.mem_flatMap]
  constructor
  · rintro ⟨⟨sec, pos⟩, there, mem⟩
    obtain ⟨row, inside, same⟩ := List.mem_map.mp mem
    cases same
    cases sec with
    | none => cases inside
    | some sec => exact ⟨sec, List.mem_zipIdx_iff_getElem?.mp there, inside⟩
  · rintro ⟨sec, there, inside⟩
    exact ⟨(some sec, i), List.mem_zipIdx_iff_getElem?.mpr there,
      List.mem_map.mpr ⟨a, inside, rfl⟩⟩

theorem aggregate_of_merged {α : Type} [FindingRow α] [AggregateMergeable α] [Serialize α]
    {order : HashOrder.Order} {totalHosts : Nat} {hostnames : List String}
    {items : List (HostRow α)} {merged : List α} (plain : ∀ a : α, contentVariantKey a = none)
    (made : mergeItems order items totalHosts hostnames = some merged) {m : α} (mem : m ∈ merged) :
    aggregate m = some (prevalenceOf totalHosts hostnames (rowsOfKey items (identityKey m))) := by
  obtain ⟨row, -, a, -, at_key, rfl⟩ := (mem_merged_plain plain made).mp mem
  rw [identityKey_narrowNonUniversal, identityKey_stampPrevalence, at_key,
    aggregate_narrowNonUniversal, aggregate_stampPrevalence]

section Merged

variable [Serialize PackageEntry] [Serialize RepoFile] [Serialize EnabledModuleStream]
  [Serialize VersionLockEntry]
variable {env : MergeEnv} {sections : List (Option RpmSection)} {totalHosts : Nat}
  {hostnames : List String} {baselineHostIdx : Option Nat} {rpm : RpmSection}
  {conflicts : TextMap (List RepoSourceEntry)}

theorem mergeRpmSections_packages
    (made : mergeRpmSections env sections totalHosts hostnames baselineHostIdx =
      some (some (rpm, conflicts))) :
    ∃ packages, mergeItems env.order (collectItems sections (·.packagesAdded)) totalHosts hostnames =
        some packages ∧
      rpm.packagesAdded =
        (cutToLeaves (leafLists sections) packages).map (reconcileSource conflicts) ∧
      rpm.leafPackages = leafIntersection (leafLists sections) ∧
      conflicts = repoConflicts env sections (cutToLeaves (leafLists sections) packages) ∧
      ∀ leaves, rpm.leafPackages = some leaves →
        rpm.leafDepTree = mergedDepTree sections hostnames leaves := by
  unfold mergeRpmSections at made
  split at made
  · cases made
  · obtain ⟨packages, merged, made⟩ := Option.bind_eq_some_iff.mp made
    obtain ⟨_, _, made⟩ := Option.bind_eq_some_iff.mp made
    obtain ⟨_, _, made⟩ := Option.bind_eq_some_iff.mp made
    obtain ⟨_, _, made⟩ := Option.bind_eq_some_iff.mp made
    obtain ⟨_, _, made⟩ := Option.bind_eq_some_iff.mp made
    obtain ⟨_, _, made⟩ := Option.bind_eq_some_iff.mp made
    cases made
    refine ⟨packages, merged, rfl, rfl, rfl, fun leaves known => ?_⟩
    dsimp only at known
    rw [known]

theorem mergeRpmSections_total (env : MergeEnv) (sections : List (Option RpmSection))
    (totalHosts : Nat) (hostnames : List String) (baselineHostIdx : Option Nat) :
    (mergeRpmSections env sections totalHosts hostnames baselineHostIdx = some none ∧
      ∀ sec ∈ sections, sec = none) ∨
    ∃ rpm conflicts, mergeRpmSections env sections totalHosts hostnames baselineHostIdx =
      some (some (rpm, conflicts)) := by
  unfold mergeRpmSections
  split
  · rename_i nothing
    refine .inl ⟨rfl, fun sec mem => Option.isNone_iff_eq_none.mp ?_⟩
    exact List.all_eq_true.mp nothing sec mem
  · obtain ⟨packages, packages_eq⟩ := @mergeItems_of_plain _ _ _ _ env.order totalHosts hostnames
      (collectItems sections (·.packagesAdded)) fun _ => rfl
    obtain ⟨base, base_eq⟩ := @mergeItems_of_plain _ _ _ _ env.order totalHosts hostnames
      (collectItems sections (·.baseImageOnly)) fun _ => rfl
    obtain ⟨files, files_eq⟩ := @mergeItems_of_plain _ _ _ _ env.order totalHosts hostnames
      (collectItems sections (·.repoFiles)) fun _ => rfl
    obtain ⟨keys, keys_eq⟩ := @mergeItems_of_plain _ _ _ _ env.order totalHosts hostnames
      (collectItems sections (·.gpgKeys)) fun _ => rfl
    obtain ⟨streams, streams_eq⟩ := @mergeItems_of_plain _ _ _ _ env.order totalHosts hostnames
      (collectItems sections (·.moduleStreams)) fun _ => rfl
    obtain ⟨locks, locks_eq⟩ := @mergeItems_of_plain _ _ _ _ env.order totalHosts hostnames
      (collectItems sections (·.versionLocks)) fun _ => rfl
    rw [packages_eq, base_eq, files_eq, keys_eq, streams_eq, locks_eq]
    exact .inr ⟨_, _, rfl⟩

def packageRows (sections : List (Option RpmSection)) (k : String) : List (HostRow PackageEntry) :=
  rowsOfKey (collectItems sections (·.packagesAdded)) k

theorem merged_package
    (made : mergeRpmSections env sections totalHosts hostnames baselineHostIdx =
      some (some (rpm, conflicts))) {pkg : PackageEntry} (mem : pkg ∈ rpm.packagesAdded) :
    pkg.aggregate =
        some (prevalenceOf totalHosts hostnames (packageRows sections (identityKey pkg))) ∧
      ∀ leaves, rpm.leafPackages = some leaves → nameArch pkg.name pkg.arch ∈ leaves →
        pkg.disposition = .included := by
  obtain ⟨packages, merged, rows, leaves, -⟩ := mergeRpmSections_packages made
  rw [rows] at mem
  obtain ⟨row, there, same, carried, forced⟩ := mem_merged_package mem
  rw [leaves]
  refine ⟨?_, forced⟩
  have stamped := aggregate_of_merged (fun _ => rfl) merged there
  rw [← carried, packageRows, ← same]
  exact stamped

end Merged

end Inspectah
