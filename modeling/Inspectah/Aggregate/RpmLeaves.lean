import Inspectah.Aggregate.MergePackages

/-!
Which packages stay in the merged RPM section. A host that knows its leaves is an authority; a
leaf on all, or a package some host lacks that is a leaf on one, stays.
-/
namespace Inspectah

open Grouping AggregateMergeable

structure HostSections where
  sections : List (Option RpmSection)
  hostnames : List String
  distinct : hostnames.Nodup
  paired : sections.length = hostnames.length

def HasPackage (id : String) (sec : Option RpmSection) : Prop :=
  ∃ rpm, sec = some rpm ∧ ∃ p ∈ rpm.packagesAdded, nameArch p.name p.arch = id

def IsAuthority (sec : Option RpmSection) : Prop :=
  ∃ rpm leaves, sec = some rpm ∧ rpm.leafPackages = some leaves

def IsLeafOn (id : String) (sec : Option RpmSection) : Prop :=
  ∃ rpm leaves, sec = some rpm ∧ rpm.leafPackages = some leaves ∧ id ∈ leaves

namespace HostSections

variable (hosts : HostSections)

def rows : List (HostRow PackageEntry) := collectItems hosts.sections (·.packagesAdded)

def OnEveryHost (id : String) : Prop := ∀ sec ∈ hosts.sections, HasPackage id sec

def HasAuthority : Prop := ∃ sec ∈ hosts.sections, IsAuthority sec

def LeafOnAll (id : String) : Prop := ∀ sec ∈ hosts.sections, IsAuthority sec → IsLeafOn id sec

def LeafOnSome (id : String) : Prop := ∃ sec ∈ hosts.sections, IsLeafOn id sec

def StaysAsLeaf (id : String) : Prop :=
  (hosts.OnEveryHost id ∧ hosts.LeafOnAll id) ∨ (¬ hosts.OnEveryHost id ∧ hosts.LeafOnSome id)

/-- A package that stays is the merged row but for its source; a leaf on all authorities is
    included. -/
def IsKept (row kept : PackageEntry) : Prop :=
  ∃ source decision, kept = { row with sourceRepo := source, disposition := decision } ∧
    (hosts.LeafOnAll (nameArch row.name row.arch) → decision = .included) ∧
    (¬ hosts.LeafOnAll (nameArch row.name row.arch) → decision = row.disposition)

/-- What an aggregate with an authority makes of its merged rows. -/
structure KeepsLeaves (rows : List PackageEntry) (rpm : RpmSection) : Prop where
  survivors : ∃ stay : List PackageEntry, stay.Sublist rows ∧
    (∀ row ∈ rows, row ∈ stay ↔ hosts.StaysAsLeaf (nameArch row.name row.arch)) ∧
    stay.Forall₂ hosts.IsKept rpm.packagesAdded
  leaves : ∃ leaves, rpm.leafPackages = some leaves ∧ leaves.Pairwise (· < ·) ∧
    (∀ id, id ∈ leaves ↔ hosts.LeafOnAll id) ∧
    ∃ fields, rpm.leafDepTree = .obj fields ∧ ∀ field ∈ fields, field.1 ∈ leaves

/-- What an aggregate without an authority makes of its merged rows. -/
structure KeepsAll (rows : List PackageEntry) (rpm : RpmSection) : Prop where
  survivors : rows.Forall₂ (fun row kept => ∃ source, kept = { row with sourceRepo := source })
    rpm.packagesAdded
  leaves : rpm.leafPackages = none

variable {hosts}

theorem mem_leafLists {sections : List (Option RpmSection)} {leaves : List String} :
    leaves ∈ leafLists sections ↔
      ∃ sec ∈ sections, ∃ rpm, sec = some rpm ∧ rpm.leafPackages = some leaves := by
  rw [leafLists, List.mem_filterMap]
  refine exists_congr fun sec => and_congr_right fun _ => ?_
  rw [Option.bind_eq_some_iff]

theorem hasAuthority_iff : hosts.HasAuthority ↔ leafLists hosts.sections ≠ [] := by
  constructor
  · rintro ⟨sec, mem, rpm, leaves, has, known⟩
    exact List.ne_nil_of_mem (mem_leafLists.mpr ⟨sec, mem, rpm, has, known⟩)
  · intro occupied
    obtain ⟨leaves, mem⟩ := List.exists_mem_of_ne_nil _ occupied
    obtain ⟨sec, there, rpm, has, known⟩ := mem_leafLists.mp mem
    exact ⟨sec, there, rpm, leaves, has, known⟩

theorem leafOnSome_iff {id : String} :
    hosts.LeafOnSome id ↔ ∃ leaves ∈ leafLists hosts.sections, id ∈ leaves := by
  constructor
  · rintro ⟨sec, mem, rpm, leaves, has, known, leaf⟩
    exact ⟨leaves, mem_leafLists.mpr ⟨sec, mem, rpm, has, known⟩, leaf⟩
  · rintro ⟨leaves, mem, leaf⟩
    obtain ⟨sec, there, rpm, has, known⟩ := mem_leafLists.mp mem
    exact ⟨sec, there, rpm, leaves, has, known, leaf⟩

theorem leafOnAll_iff {id : String} :
    hosts.LeafOnAll id ↔ ∀ leaves ∈ leafLists hosts.sections, id ∈ leaves := by
  constructor
  · intro every leaves mem
    obtain ⟨sec, there, rpm, has, known⟩ := mem_leafLists.mp mem
    obtain ⟨rpm', leaves', has', known', leaf⟩ := every sec there ⟨rpm, leaves, has, known⟩
    rw [has] at has'
    cases has'
    rw [known] at known'
    cases known'
    exact leaf
  · rintro every sec there ⟨rpm, leaves, has, known⟩
    exact ⟨rpm, leaves, has, known, every leaves (mem_leafLists.mpr ⟨sec, there, rpm, has, known⟩)⟩

theorem mem_leafIntersection {lists : List (List String)} {leaves : List String}
    (known : leafIntersection lists = some leaves) {id : String} :
    id ∈ leaves ↔ ∀ list ∈ lists, id ∈ list := by
  cases lists with
  | nil => cases known
  | cons first rest =>
    cases known
    rw [mem_distinctSorted, List.mem_filter, List.forall_mem_cons, List.all_eq_true]
    simp only [List.contains_iff_mem]

theorem leafIntersection_sorted {lists : List (List String)} {leaves : List String}
    (known : leafIntersection lists = some leaves) : leaves.Pairwise (· < ·) := by
  cases lists with
  | nil => cases known
  | cons first rest =>
    cases known
    exact distinctSorted_sorted _

theorem mergedDepTree_keys (sections : List (Option RpmSection)) (hostnames leaves : List String) :
    ∃ fields, mergedDepTree sections hostnames leaves = .obj fields ∧
      ∀ field ∈ fields, field.1 ∈ leaves := by
  unfold mergedDepTree
  split
  · refine ⟨_, rfl, fun field mem => ?_⟩
    exact List.contains_iff_mem.mp (List.mem_filter.mp mem).2
  · refine ⟨[], rfl, fun field mem => ?_⟩
    cases mem

theorem hasPackage_iff {i : Nat} {sec : Option RpmSection} (at_i : hosts.sections[i]? = some sec)
    (id : String) : HasPackage id sec ↔ ∃ row ∈ rowsOfKey hosts.rows id, row.1 = i := by
  constructor
  · rintro ⟨rpm, rfl, p, mem, same⟩
    exact ⟨(i, p), mem_rowsOfKey.mpr ⟨mem_collectItems.mpr ⟨rpm, at_i, mem⟩, same⟩, rfl⟩
  · rintro ⟨⟨j, p⟩, mem, rfl⟩
    obtain ⟨inside, same⟩ := mem_rowsOfKey.mp mem
    obtain ⟨rpm, found, listed⟩ := mem_collectItems.mp inside
    rw [at_i] at found
    cases found
    exact ⟨rpm, rfl, p, listed, same⟩

theorem rows_inRange (id : String) : InRange hosts.hostnames (rowsOfKey hosts.rows id) := by
  rintro ⟨i, p⟩ mem
  obtain ⟨rpm, found, -⟩ := mem_collectItems.mp (mem_rowsOfKey.mp mem).1
  rw [← hosts.paired]
  exact (List.getElem?_eq_some_iff.mp found).1

/-- The prevalence of a package is total when every host has it. -/
theorem onEveryHost_iff (id : String) : hosts.OnEveryHost id ↔
    hosts.hostnames.length ≤ (hostsOf hosts.hostnames (rowsOfKey hosts.rows id)).length := by
  have few := hostsOf_length_le (@rows_inRange hosts id)
  have full := hostsOf_length_eq_iff hosts.distinct (rows_inRange id)
  rw [show hosts.hostnames.length ≤ (hostsOf hosts.hostnames (rowsOfKey hosts.rows id)).length ↔
      (hostsOf hosts.hostnames (rowsOfKey hosts.rows id)).length = hosts.hostnames.length by omega,
    full]
  constructor
  · intro every i inside
    have there : i < hosts.sections.length := hosts.paired ▸ inside
    have at_i := List.getElem?_eq_getElem there
    exact (hasPackage_iff at_i id).mp (every _ (List.getElem_mem there))
  · intro every sec mem
    obtain ⟨i, there, rfl⟩ := List.getElem_of_mem mem
    have at_i := List.getElem?_eq_getElem there
    exact (hasPackage_iff at_i id).mpr (every i (hosts.paired ▸ there))

theorem isKept_reconciled {conflicts : TextMap (List RepoSourceEntry)} {leaves : List String}
    (known : leafIntersection (leafLists hosts.sections) = some leaves) (row : PackageEntry) :
    hosts.IsKept row (reconcileSource conflicts (forceLeaf leaves row)) := by
  have on_all : nameArch row.name row.arch ∈ leaves ↔
      hosts.LeafOnAll (nameArch row.name row.arch) := by
    rw [mem_leafIntersection known, leafOnAll_iff]
  obtain ⟨source, reconciled⟩ := @reconcileSource_eq conflicts (forceLeaf leaves row)
  by_cases leaf : nameArch row.name row.arch ∈ leaves
  · refine ⟨source, .included, ?_, fun _ => rfl, fun other => absurd (on_all.mp leaf) other⟩
    rw [reconciled, forceLeaf, if_pos (List.contains_iff_mem.mpr leaf)]
  · refine ⟨source, row.disposition, ?_, fun all => absurd (on_all.mpr all) leaf, fun _ => rfl⟩
    rw [reconciled, forceLeaf, if_neg fun has => leaf (List.contains_iff_mem.mp has)]

section Merged

variable [Serialize PackageEntry]
variable {order : HashOrder.Order} {rows : List PackageEntry}

theorem isUniversal_iff
    (made : mergeItems order hosts.rows hosts.hostnames.length hosts.hostnames = some rows)
    {row : PackageEntry} (mem : row ∈ rows) :
    isUniversal row = true ↔ hosts.OnEveryHost (nameArch row.name row.arch) := by
  have stamped : row.aggregate = some (prevalenceOf hosts.hostnames.length hosts.hostnames
      (rowsOfKey hosts.rows (nameArch row.name row.arch))) :=
    aggregate_of_merged (fun _ => rfl) made mem
  rw [onEveryHost_iff, isUniversal, stamped, Option.any_some, decide_eq_true_eq]
  simp only [prevalenceOf, Int.ofNat_le]

theorem survivesLeafFilter_iff
    (made : mergeItems order hosts.rows hosts.hostnames.length hosts.hostnames = some rows)
    {row : PackageEntry} (mem : row ∈ rows) {leaves : List String}
    (known : leafIntersection (leafLists hosts.sections) = some leaves) :
    survivesLeafFilter leaves (leafLists hosts.sections) row = true ↔
      hosts.StaysAsLeaf (nameArch row.name row.arch) := by
  have universal := isUniversal_iff made mem
  have on_all : nameArch row.name row.arch ∈ leaves ↔
      hosts.LeafOnAll (nameArch row.name row.arch) := by
    rw [mem_leafIntersection known, leafOnAll_iff]
  unfold survivesLeafFilter
  dsimp only
  by_cases every : hosts.OnEveryHost (nameArch row.name row.arch)
  · rw [if_pos (universal.mpr every), List.contains_iff_mem, on_all]
    constructor
    · exact fun leaf => .inl ⟨every, leaf⟩
    · rintro (⟨-, leaf⟩ | ⟨partly, -⟩)
      · exact leaf
      · exact absurd every partly
  · rw [if_neg fun is => every (universal.mp is), List.any_eq_true]
    simp only [List.contains_iff_mem]
    rw [← leafOnSome_iff]
    constructor
    · exact fun leaf => .inr ⟨every, leaf⟩
    · rintro (⟨whole, -⟩ | ⟨-, leaf⟩)
      · exact absurd whole every
      · exact leaf

variable [Serialize RepoFile] [Serialize EnabledModuleStream] [Serialize VersionLockEntry]

theorem merged_keepsLeaves {env : MergeEnv} {baselineHostIdx : Option Nat} {rpm : RpmSection}
    {conflicts : TextMap (List RepoSourceEntry)}
    (made : mergeRpmSections env hosts.sections hosts.hostnames.length hosts.hostnames
      baselineHostIdx = some (some (rpm, conflicts))) :
    ∃ rows, mergeItems env.order hosts.rows hosts.hostnames.length hosts.hostnames = some rows ∧
      (hosts.HasAuthority → hosts.KeepsLeaves rows rpm) ∧
      (¬ hosts.HasAuthority → KeepsAll rows rpm) := by
  obtain ⟨rows, merged, packages, leaf_eq, -, tree⟩ := mergeRpmSections_packages made
  refine ⟨rows, merged, fun authority => ?_, fun degraded => ?_⟩
  · cases known : leafIntersection (leafLists hosts.sections) with
    | none =>
      have occupied := hasAuthority_iff.mp authority
      cases lists : leafLists hosts.sections with
      | nil => exact absurd lists occupied
      | cons first rest =>
        rw [lists] at known
        cases known
    | some leaves =>
      rw [known] at leaf_eq
      constructor
      · refine ⟨rows.filter (survivesLeafFilter leaves (leafLists hosts.sections)),
          List.filter_sublist, fun row mem => ?_, ?_⟩
        · rw [List.mem_filter, survivesLeafFilter_iff merged mem known]
          exact and_iff_right mem
        · rw [packages, cutToLeaves, known]
          dsimp only
          rw [List.map_map, List.forall₂_map_right_iff, List.forall₂_same]
          exact fun row _ => isKept_reconciled known row
      · refine ⟨leaves, leaf_eq, leafIntersection_sorted known, fun id => ?_, ?_⟩
        · rw [mem_leafIntersection known, leafOnAll_iff]
        · rw [tree leaves leaf_eq]
          exact mergedDepTree_keys _ _ _
  · have empty : leafLists hosts.sections = [] := by
      by_contra occupied
      exact degraded (hasAuthority_iff.mpr occupied)
    constructor
    · rw [packages, empty, cutToLeaves, leafIntersection]
      dsimp only
      rw [List.forall₂_map_right_iff, List.forall₂_same]
      exact fun row _ => reconcileSource_eq row
    · rw [leaf_eq, empty]
      rfl

/-- Without a section on any host there is none; else what the authorities call leaves stays, or
    everything. -/
theorem leaf_filtering_law (hosts : HostSections) (env : MergeEnv) (baselineHostIdx : Option Nat) :
    (mergeRpmSections env hosts.sections hosts.hostnames.length hosts.hostnames baselineHostIdx =
        some none ∧ ∀ sec ∈ hosts.sections, sec = none) ∨
    ∃ rpm conflicts rows,
      mergeRpmSections env hosts.sections hosts.hostnames.length hosts.hostnames baselineHostIdx =
        some (some (rpm, conflicts)) ∧
      mergeItems env.order hosts.rows hosts.hostnames.length hosts.hostnames = some rows ∧
      (hosts.HasAuthority → hosts.KeepsLeaves rows rpm) ∧
      (¬ hosts.HasAuthority → KeepsAll rows rpm) := by
  rcases mergeRpmSections_total env hosts.sections hosts.hostnames.length hosts.hostnames
    baselineHostIdx with nothing | ⟨rpm, conflicts, made⟩
  · exact .inl nothing
  · obtain ⟨rows, merged, law⟩ := merged_keepsLeaves made
    exact .inr ⟨rpm, conflicts, rows, made, merged, law⟩

end Merged

end HostSections

end Inspectah
