import Inspectah.Aggregate.RpmLeaves

/-!
The repositories a merged package came from. Hosts that disagree across tiers are ranked by
repository, and the leading one becomes the source of the merged row.
-/
namespace Inspectah

open Grouping AggregateMergeable

namespace HostSections

section Sources

variable (sources : List (HostRow String))

def sourcesFrom (repo : String) : List (HostRow String) :=
  sources.filter fun source => source.2 = repo

def SpansTiers : Prop := ∃ a ∈ sources, ∃ b ∈ sources, repoTier a.2 ≠ repoTier b.2

structure RanksHosts (entries : List RepoSourceEntry) : Prop where
  once : (entries.map (·.repo)).Nodup
  sorted : entries.Pairwise RepoSourceEntry.before
  listed : ∀ repo, repo ∈ entries.map (·.repo) ↔ ∃ host, (host, repo) ∈ sources
  counts : ∀ e ∈ entries, e.hostCount = hostCount (sourcesFrom sources e.repo)

end Sources

section Law

variable (env : MergeEnv) (hosts : HostSections)

/-- Host and lower-cased repository of each listing that names one. -/
def packageSources (pkg : PackageEntry) : List (HostRow String) :=
  (hosts.rows.filter fun row =>
      row.2.name == pkg.name && row.2.arch == pkg.arch && !row.2.sourceRepo.isEmpty).map
    fun row => (row.1, env.lowercase row.2.sourceRepo)

structure ConflictsCountHosts (rpm : RpmSection) (conflicts : TextMap (List RepoSourceEntry)) :
    Prop where
  entry : ∀ pkg ∈ rpm.packagesAdded,
    (conflicts.lookup (nameArch pkg.name pkg.arch)).isSome ↔ SpansTiers (hosts.packageSources env pkg)
  only : ∀ id entries, conflicts.lookup id = some entries →
    ∃ pkg ∈ rpm.packagesAdded, nameArch pkg.name pkg.arch = id
  ranks : ∀ pkg ∈ rpm.packagesAdded, ∀ entries,
    conflicts.lookup (nameArch pkg.name pkg.arch) = some entries →
      RanksHosts (hosts.packageSources env pkg) entries ∧
        ∃ first, entries.head? = some first ∧ pkg.sourceRepo = first.repo

def Survives [Serialize PackageEntry] (pkg : PackageEntry) : Prop :=
  (∃ row ∈ hosts.rows, representative (rowsOfKey hosts.rows (identityKey row.2)) = some pkg) ∧
    (hosts.HasAuthority → hosts.StaysAsLeaf (nameArch pkg.name pkg.arch))

def ListsSourcesOnce [Serialize PackageEntry] : Prop :=
  ∀ pkg, hosts.Survives pkg → SpansTiers (hosts.packageSources env pkg) → (hosts.packageSources env pkg).Nodup

end Law

section Counts

variable {env : MergeEnv} {hosts : HostSections} {pkg : PackageEntry}

theorem map_snd_collectItems {σ α : Type} (sections : List (Option σ)) (rows : σ → List α) :
    (collectItems sections rows).map Prod.snd = (sections.filterMap id).flatMap rows := by
  have each : ∀ k, ((sections.zipIdx k).flatMap fun sec =>
      (sec.1.map rows).getD [] |>.map fun row => (sec.2, row)).map Prod.snd =
      (sections.filterMap id).flatMap rows := by
    induction sections with
    | nil => exact fun _ => rfl
    | cons sec rest ih =>
      intro k
      rw [List.zipIdx_cons, List.flatMap_cons, List.map_append, ih]
      cases sec with
      | none => rfl
      | some sec =>
        rw [show (some sec :: rest).filterMap id = sec :: rest.filterMap id from rfl,
          List.flatMap_cons]
        simp
  exact each 0

theorem listedRepos_eq :
    ((((hosts.sections.filterMap id).flatMap (·.packagesAdded)).filter fun p =>
      p.name == pkg.name && p.arch == pkg.arch && !p.sourceRepo.isEmpty).map fun p =>
        env.lowercase p.sourceRepo) = (hosts.packageSources env pkg).map Prod.snd := by
  rw [← map_snd_collectItems, List.filter_map, List.map_map, packageSources, List.map_map, rows]
  rfl

theorem sourcesFrom_length (repo : String) : (sourcesFrom (hosts.packageSources env pkg) repo).length =
    ((hosts.packageSources env pkg).map Prod.snd).count repo := by
  rw [sourcesFrom, List.count_eq_countP, List.countP_map, List.countP_eq_length_filter]
  congr 2

theorem mem_packageSources_snd {repo : String} :
    repo ∈ (hosts.packageSources env pkg).map Prod.snd ↔
      ∃ host, (host, repo) ∈ hosts.packageSources env pkg := by
  simp

theorem mem_repoCounts {e : RepoSourceEntry} : e ∈ repoCounts env hosts.sections pkg ↔
    (∃ host, (host, e.repo) ∈ hosts.packageSources env pkg) ∧
      e.hostCount = (sourcesFrom (hosts.packageSources env pkg) e.repo).length := by
  rw [← mem_packageSources_snd, sourcesFrom_length, ← listedRepos_eq, repoCounts]
  generalize (((hosts.sections.filterMap id).flatMap (·.packagesAdded)).filter fun p =>
    p.name == pkg.name && p.arch == pkg.arch && !p.sourceRepo.isEmpty) = listings
  have length : ∀ repo, (rowsAt (fun p : PackageEntry => env.lowercase p.sourceRepo) listings
      repo).length = (listings.map fun p => env.lowercase p.sourceRepo).count repo := by
    intro repo
    rw [rowsAt, List.count_eq_countP, List.countP_map, List.countP_eq_length_filter]
    congr 2
  rw [List.mem_map]
  constructor
  · rintro ⟨group, there, rfl⟩
    obtain ⟨⟨p, listed, at_repo⟩, same⟩ := mem_groupBy.mp ((HashOrder.mem_iter _).mp there)
    refine ⟨List.mem_map.mpr ⟨p, listed, at_repo⟩, ?_⟩
    rw [same, length]
  · rintro ⟨listed, count⟩
    obtain ⟨p, mem, at_repo⟩ := List.mem_map.mp listed
    have group : (e.repo, rowsAt (fun p : PackageEntry => env.lowercase p.sourceRepo) listings
        e.repo) ∈ groupBy (fun p : PackageEntry => env.lowercase p.sourceRepo) listings :=
      mem_groupBy.mpr ⟨⟨p, mem, at_repo⟩, rfl⟩
    refine ⟨_, (HashOrder.mem_iter _).mpr group, ?_⟩
    rw [length, ← count]

theorem counted {host : Nat} {repo : String}
    (listed : (host, repo) ∈ hosts.packageSources env pkg) :
    (⟨repo, (sourcesFrom (hosts.packageSources env pkg) repo).length⟩ : RepoSourceEntry) ∈
      repoCounts env hosts.sections pkg := mem_repoCounts.mpr ⟨⟨host, listed⟩, rfl⟩

theorem repoCounts_once : ((repoCounts env hosts.sections pkg).map (·.repo)).Nodup := by
  rw [repoCounts, List.map_map]
  have table := (@groupBy_isTable _ _ _ (fun p : PackageEntry => env.lowercase p.sourceRepo)
    (((hosts.sections.filterMap id).flatMap (·.packagesAdded)).filter fun p =>
      p.name == pkg.name && p.arch == pkg.arch && !p.sourceRepo.isEmpty)).nodup
  exact ((env.order.rearranges _).map Prod.fst).nodup_iff.mpr table

theorem two_le_dedup_iff {α β : Type} [DecidableEq β] {l : List α} {f : α → β} :
    2 ≤ (l.map f).dedup.length ↔ ∃ a ∈ l, ∃ b ∈ l, f a ≠ f b := by
  constructor
  · intro two
    obtain ⟨x, y, rest, shape⟩ := exists_first_two two
    have once := List.nodup_dedup (l.map f)
    have hx : x ∈ l.map f := List.mem_dedup.mp (shape ▸ List.mem_cons_self)
    have hy : y ∈ l.map f := List.mem_dedup.mp (shape ▸ List.mem_cons_of_mem _ List.mem_cons_self)
    obtain ⟨a, ha, rfl⟩ := List.mem_map.mp hx
    obtain ⟨b, hb, rfl⟩ := List.mem_map.mp hy
    rw [shape, List.nodup_cons, List.mem_cons, not_or] at once
    exact ⟨a, ha, b, hb, once.1.1⟩
  · rintro ⟨a, ha, b, hb, differ⟩
    by_contra few
    refine differ (HashOrder.eq_of_length_le_one (l := (l.map f).dedup) (by omega) ?_ ?_)
    · exact List.mem_dedup.mpr (List.mem_map_of_mem ha)
    · exact List.mem_dedup.mpr (List.mem_map_of_mem hb)

theorem spansTiers_iff : SpansTiers (hosts.packageSources env pkg) ↔
    2 ≤ ((repoCounts env hosts.sections pkg).map fun e => repoTier e.repo).dedup.length := by
  rw [two_le_dedup_iff]
  constructor
  · rintro ⟨a, ha, b, hb, differ⟩
    exact ⟨_, counted ha, _, counted hb, differ⟩
  · rintro ⟨d, hd, e, he, differ⟩
    obtain ⟨⟨i, there⟩, -⟩ := mem_repoCounts.mp hd
    obtain ⟨⟨j, there'⟩, -⟩ := mem_repoCounts.mp he
    exact ⟨(i, d.repo), there, (j, e.repo), there', differ⟩

theorem conflictOf_eq_some_iff {entries : List RepoSourceEntry} :
    conflictOf env hosts.sections pkg = some entries ↔ SpansTiers (hosts.packageSources env pkg) ∧
      (repoCounts env hosts.sections pkg).insertionSort RepoSourceEntry.before = entries := by
  have few : ((repoCounts env hosts.sections pkg).map fun e => repoTier e.repo).dedup.length ≤
      (repoCounts env hosts.sections pkg).length := by
    have shorter := (List.dedup_sublist ((repoCounts env hosts.sections pkg).map fun e =>
      repoTier e.repo)).length_le
    rwa [List.length_map] at shorter
  rw [spansTiers_iff, conflictOf]
  split
  · constructor
    · intro none_there
      cases none_there
    · rintro ⟨two, -⟩
      omega
  · split
    · constructor
      · intro none_there
        cases none_there
      · rintro ⟨two, -⟩
        omega
    · rw [Option.some_inj]
      exact (and_iff_right (by omega)).symm

theorem hostCount_eq_length_iff {α : Type} {rows : List (HostRow α)} :
    hostCount rows = rows.length ↔ (rows.map Prod.fst).Nodup := by
  rw [hostCount, length_distinctSorted, ← List.length_map (f := Prod.fst)]
  exact Multiset.toFinset_card_eq_card_iff_nodup

theorem nodup_iff_hosts {sources : List (HostRow String)} : sources.Nodup ↔
    ∀ source ∈ sources, ((sources.filter fun s => s.2 = source.2).map Prod.fst).Nodup := by
  constructor
  · intro once source _
    refine (once.filter _).map_on fun a ha b hb same => ?_
    have ha := of_decide_eq_true (List.mem_filter.mp ha).2
    have hb := of_decide_eq_true (List.mem_filter.mp hb).2
    exact Prod.ext same (ha.trans hb.symm)
  · intro each
    rw [List.nodup_iff_count_le_one]
    intro source
    by_cases mem : source ∈ sources
    · have once := List.nodup_iff_count_le_one.mp (each source mem) source.1
      have kept : (sources.filter fun s => s.2 = source.2).count source = sources.count source :=
        List.count_filter (by simp)
      rw [← kept]
      exact le_trans List.count_le_count_map once
    · rw [List.count_eq_zero_of_not_mem mem]
      exact Nat.zero_le 1

theorem before_entry_total (a b : RepoSourceEntry) : a.before b ∨ b.before a := by
  unfold RepoSourceEntry.before
  rcases Nat.lt_trichotomy a.hostCount b.hostCount with less | same | more
  · exact .inr (.inl less)
  · rcases le_total a.repo b.repo with le | ge
    · exact .inl (.inr ⟨same, le⟩)
    · exact .inr (.inr ⟨same.symm, ge⟩)
  · exact .inl (.inl more)

theorem before_entry_trans {a b c : RepoSourceEntry} (hab : a.before b) (hbc : b.before c) :
    a.before c := by
  rcases hab with less | ⟨same, le⟩
  · rcases hbc with less' | ⟨same', -⟩
    · exact .inl (less'.trans less)
    · exact .inl (same' ▸ less)
  · rcases hbc with less' | ⟨same', le'⟩
    · exact .inl (same ▸ less')
    · exact .inr ⟨same.trans same', le.trans le'⟩

theorem ranksHosts_iff : RanksHosts (hosts.packageSources env pkg)
    ((repoCounts env hosts.sections pkg).insertionSort RepoSourceEntry.before) ↔
      (hosts.packageSources env pkg).Nodup := by
  have perm := List.perm_insertionSort RepoSourceEntry.before (repoCounts env hosts.sections pkg)
  rw [nodup_iff_hosts]
  constructor
  · rintro ranks ⟨host, repo⟩ mem
    have entry := perm.mem_iff.mpr (counted mem)
    exact hostCount_eq_length_iff.mp (ranks.counts _ entry).symm
  · intro once
    constructor
    · exact (perm.map _).nodup_iff.mpr repoCounts_once
    · have : Std.Total RepoSourceEntry.before := ⟨before_entry_total⟩
      have : IsTrans RepoSourceEntry RepoSourceEntry.before := ⟨fun _ _ _ => before_entry_trans⟩
      exact List.pairwise_insertionSort _ _
    · intro repo
      rw [(perm.map _).mem_iff, List.mem_map]
      constructor
      · rintro ⟨e, mem, rfl⟩
        exact (mem_repoCounts.mp mem).1
      · rintro ⟨host, listed⟩
        exact ⟨_, counted listed, rfl⟩
    · intro e mem
      obtain ⟨⟨host, there⟩, count⟩ := mem_repoCounts.mp (perm.mem_iff.mp mem)
      rw [count]
      exact (hostCount_eq_length_iff.mpr (once _ there)).symm

end Counts

section Conflicts

variable {env : MergeEnv} {sections : List (Option RpmSection)} {packages : List PackageEntry}

theorem lookup_repoConflicts
    (unique : ∀ p ∈ packages, ∀ q ∈ packages,
      nameArch p.name p.arch = nameArch q.name q.arch → p = q)
    {id : String} {entries : List RepoSourceEntry} :
    (repoConflicts env sections packages).lookup id = some entries ↔
      ∃ pkg ∈ packages, nameArch pkg.name pkg.arch = id ∧
        conflictOf env sections pkg = some entries := by
  induction packages using List.reverseRecOn with
  | nil => simp [repoConflicts]
  | append_singleton init last ih =>
    have among := ih fun p hp q hq => unique p (List.mem_append_left _ hp) q
      (List.mem_append_left _ hq)
    have at_last : ∀ p ∈ init, nameArch p.name p.arch = nameArch last.name last.arch → p = last :=
      fun p hp => unique p (List.mem_append_left _ hp) last (List.mem_append_right _ (by simp))
    rw [repoConflicts, List.foldl_concat, ← repoConflicts]
    cases conflict : conflictOf env sections last with
    | none =>
      dsimp only
      rw [among]
      constructor
      · rintro ⟨p, mem, has⟩
        exact ⟨p, List.mem_append_left _ mem, has⟩
      · rintro ⟨p, mem, same, has⟩
        rcases List.mem_append.mp mem with mem | mem
        · exact ⟨p, mem, same, has⟩
        · rw [List.mem_singleton.mp mem, conflict] at has
          cases has
    | some ranking =>
      dsimp only
      by_cases here : id = nameArch last.name last.arch
      · rw [here, Finmap.lookup_insert]
        constructor
        · intro same
          exact ⟨last, List.mem_append_right _ (by simp), rfl, conflict.trans same⟩
        · rintro ⟨p, mem, same, has⟩
          have is_last : p = last := by
            rcases List.mem_append.mp mem with mem | mem
            · exact at_last p mem same
            · exact List.mem_singleton.mp mem
          rw [← conflict, ← is_last, has]
      · rw [Finmap.lookup_insert_of_ne _ here, among]
        constructor
        · rintro ⟨p, mem, has⟩
          exact ⟨p, List.mem_append_left _ mem, has⟩
        · rintro ⟨p, mem, same, has⟩
          rcases List.mem_append.mp mem with mem | mem
          · exact ⟨p, mem, same, has⟩
          · exact absurd (by rw [← same, List.mem_singleton.mp mem]) here

theorem cutToLeaves_unique {lists : List (List String)}
    (unique : ∀ p ∈ packages, ∀ q ∈ packages,
      nameArch p.name p.arch = nameArch q.name q.arch → p = q) :
    ∀ p ∈ cutToLeaves lists packages, ∀ q ∈ cutToLeaves lists packages,
      nameArch p.name p.arch = nameArch q.name q.arch → p = q := by
  intro p hp q hq same
  unfold cutToLeaves at hp hq
  cases known : leafIntersection lists with
  | none =>
    rw [known] at hp hq
    exact unique p hp q hq same
  | some leaves =>
    rw [known] at hp hq
    obtain ⟨row, hrow, rfl⟩ := List.mem_map.mp hp
    obtain ⟨row', hrow', rfl⟩ := List.mem_map.mp hq
    obtain ⟨d, forced⟩ := forceLeaf_eq leaves row
    obtain ⟨d', forced'⟩ := forceLeaf_eq leaves row'
    rw [forced, forced'] at same
    rw [unique row (List.mem_filter.mp hrow).1 row' (List.mem_filter.mp hrow').1 same]

end Conflicts

section Survivors

variable [Serialize PackageEntry]
variable {env : MergeEnv} {hosts : HostSections} {rows : List PackageEntry}

theorem cut_iff
    (made : mergeItems env.order hosts.rows hosts.hostnames.length hosts.hostnames = some rows)
    {name arch : String} :
    (∃ cut ∈ cutToLeaves (leafLists hosts.sections) rows, cut.name = name ∧ cut.arch = arch) ↔
      ∃ row ∈ rows, (hosts.HasAuthority → hosts.StaysAsLeaf (nameArch row.name row.arch)) ∧
        row.name = name ∧ row.arch = arch := by
  unfold cutToLeaves
  cases known : leafIntersection (leafLists hosts.sections) with
  | none =>
    have degraded : ¬ hosts.HasAuthority := fun authority => by
      obtain ⟨first, rest, lists⟩ := List.exists_cons_of_ne_nil (hasAuthority_iff.mp authority)
      rw [lists] at known
      cases known
    refine exists_congr fun row => and_congr_right fun _ => ?_
    exact (and_iff_right fun authority => absurd authority degraded).symm
  | some leaves =>
    have authority : hosts.HasAuthority := hasAuthority_iff.mpr fun empty => by
      rw [empty] at known
      cases known
    constructor
    · rintro ⟨cut, mem, rfl, rfl⟩
      obtain ⟨row, kept, rfl⟩ := List.mem_map.mp mem
      obtain ⟨there, stays⟩ := List.mem_filter.mp kept
      obtain ⟨d, forced⟩ := forceLeaf_eq leaves row
      rw [forced]
      exact ⟨row, there, fun _ => (survivesLeafFilter_iff made there known).mp stays, rfl, rfl⟩
    · rintro ⟨row, there, stays, rfl, rfl⟩
      obtain ⟨d, forced⟩ := forceLeaf_eq leaves row
      have kept := (survivesLeafFilter_iff made there known).mpr (stays authority)
      refine ⟨forceLeaf leaves row, List.mem_map_of_mem (List.mem_filter.mpr ⟨there, kept⟩), ?_⟩
      rw [forced]
      exact ⟨rfl, rfl⟩

omit [Serialize PackageEntry] in
theorem narrowNonUniversal_name (pkg : PackageEntry) :
    (narrowNonUniversal pkg).name = pkg.name ∧ (narrowNonUniversal pkg).arch = pkg.arch := by
  unfold narrowNonUniversal
  split
  · exact ⟨rfl, rfl⟩
  · exact ⟨rfl, rfl⟩

theorem survives_iff
    (made : mergeItems env.order hosts.rows hosts.hostnames.length hosts.hostnames = some rows)
    {name arch : String} :
    (∃ cut ∈ cutToLeaves (leafLists hosts.sections) rows, cut.name = name ∧ cut.arch = arch) ↔
      ∃ pkg, hosts.Survives pkg ∧ pkg.name = name ∧ pkg.arch = arch := by
  rw [cut_iff made]
  constructor
  · rintro ⟨row, mem, stays, rfl, rfl⟩
    obtain ⟨source, known, pkg, stands, -, rfl⟩ := (mem_merged_plain (fun _ => rfl) made).mp mem
    obtain ⟨name, arch⟩ := narrowNonUniversal_name (stampPrevalence (prevalenceOf
      hosts.hostnames.length hosts.hostnames (rowsOfKey hosts.rows (identityKey source.2))) pkg)
    rw [name, arch] at stays ⊢
    exact ⟨pkg, ⟨⟨source, known, stands⟩, stays⟩, rfl, rfl⟩
  · rintro ⟨pkg, ⟨⟨source, known, stands⟩, stays⟩, rfl, rfl⟩
    obtain ⟨chosen, stands', merged, -⟩ := representative_merged made known fun _ _ => rfl
    rw [stands] at stands'
    cases stands'
    obtain ⟨name, arch⟩ := narrowNonUniversal_name (stampPrevalence (prevalenceOf
      hosts.hostnames.length hosts.hostnames (rowsOfKey hosts.rows (identityKey source.2))) pkg)
    refine ⟨_, merged, ?_, name, arch⟩
    rw [name, arch]
    exact stays

end Survivors

section Main

variable {env : MergeEnv} {hosts : HostSections} {pkg : PackageEntry}

theorem packageSources_congr {other : PackageEntry} (name : other.name = pkg.name)
    (arch : other.arch = pkg.arch) :
    hosts.packageSources env other = hosts.packageSources env pkg := by
  rw [packageSources, packageSources, name, arch]

theorem conflictOf_isSome_iff :
    (conflictOf env hosts.sections pkg).isSome ↔ SpansTiers (hosts.packageSources env pkg) := by
  rw [Option.isSome_iff_exists]
  constructor
  · rintro ⟨entries, has⟩
    exact (conflictOf_eq_some_iff.mp has).1
  · intro spans
    exact ⟨_, conflictOf_eq_some_iff.mpr ⟨spans, rfl⟩⟩

theorem conflictOf_leads {entries : List RepoSourceEntry}
    (conflict : conflictOf env hosts.sections pkg = some entries) :
    ∃ first, entries.head? = some first := by
  obtain ⟨⟨a, listed, -⟩, rfl⟩ := conflictOf_eq_some_iff.mp conflict
  have perm := List.perm_insertionSort RepoSourceEntry.before (repoCounts env hosts.sections pkg)
  have mem := perm.mem_iff.mpr (@counted env hosts pkg a.1 a.2 listed)
  obtain ⟨first, rest, shape⟩ := List.exists_cons_of_ne_nil (List.ne_nil_of_mem mem)
  exact ⟨first, by rw [shape, List.head?_cons]⟩

variable [Serialize PackageEntry] [Serialize RepoFile] [Serialize EnabledModuleStream]
  [Serialize VersionLockEntry]
variable {baselineHostIdx : Option Nat} {rpm : RpmSection}
  {conflicts : TextMap (List RepoSourceEntry)}

theorem repo_conflicts_count_hosts_iff
    (made : mergeRpmSections env hosts.sections hosts.hostnames.length hosts.hostnames
      baselineHostIdx = some (some (rpm, conflicts))) :
    hosts.ConflictsCountHosts env rpm conflicts ↔ hosts.ListsSourcesOnce env := by
  obtain ⟨rows, merged, packages, -, map_eq, -⟩ := mergeRpmSections_packages made
  have unique := @cutToLeaves_unique rows (leafLists hosts.sections) fun p hp q hq same =>
    merged_plain_unique (fun _ => rfl) merged hp hq same
  have names := fun name arch => @survives_iff _ env hosts rows merged name arch
  generalize cutToLeaves (leafLists hosts.sections) rows = cut at packages map_eq unique names
  have lookup : ∀ p ∈ cut,
      conflicts.lookup (nameArch p.name p.arch) = conflictOf env hosts.sections p := by
    intro p mem
    refine Option.ext fun entries => ?_
    rw [map_eq, lookup_repoConflicts unique]
    constructor
    · rintro ⟨q, there, same, has⟩
      rwa [unique q there p mem same] at has
    · exact fun has => ⟨p, mem, rfl, has⟩
  constructor
  · intro law pkg survives spans
    obtain ⟨p, mem, name, arch⟩ := (names _ _).mpr ⟨pkg, survives, rfl, rfl⟩
    have sources := @packageSources_congr env hosts _ _ name arch
    rw [← sources] at spans ⊢
    obtain ⟨source, reconciled⟩ := @reconcileSource_eq conflicts p
    have listed : reconcileSource conflicts p ∈ rpm.packagesAdded := by
      rw [packages]
      exact List.mem_map_of_mem mem
    have ranks := law.ranks _ listed
    rw [reconciled] at ranks
    have conflict := conflictOf_eq_some_iff.mpr ⟨spans, rfl⟩
    exact ranksHosts_iff.mp (ranks _ ((lookup p mem).trans conflict)).1
  · intro once
    constructor
    · intro kept there
      rw [packages] at there
      obtain ⟨p, mem, rfl⟩ := List.mem_map.mp there
      obtain ⟨source, reconciled⟩ := @reconcileSource_eq conflicts p
      have conflicting := @conflictOf_isSome_iff env hosts p
      rw [← lookup p mem] at conflicting
      rw [reconciled]
      exact conflicting
    · intro id entries has
      rw [map_eq, lookup_repoConflicts unique] at has
      obtain ⟨p, mem, same, -⟩ := has
      obtain ⟨source, reconciled⟩ := @reconcileSource_eq conflicts p
      refine ⟨reconcileSource conflicts p, packages ▸ List.mem_map_of_mem mem, ?_⟩
      rw [reconciled]
      exact same
    · intro kept there entries has
      rw [packages] at there
      obtain ⟨p, mem, rfl⟩ := List.mem_map.mp there
      obtain ⟨source, reconciled⟩ := @reconcileSource_eq conflicts p
      have found : conflicts.lookup (nameArch p.name p.arch) = some entries := by
        rw [reconciled] at has
        exact has
      have conflict := (lookup p mem).symm.trans found
      obtain ⟨spans, sorted⟩ := conflictOf_eq_some_iff.mp conflict
      obtain ⟨first, leads⟩ := conflictOf_leads conflict
      obtain ⟨pkg, survives, name, arch⟩ := (names _ _).mp ⟨p, mem, rfl, rfl⟩
      have sources := @packageSources_congr env hosts _ _ name arch
      refine ⟨?_, first, leads, ?_⟩
      · have ranks := ranksHosts_iff.mpr (sources ▸ once pkg survives (sources.symm ▸ spans))
        rw [sorted] at ranks
        rw [reconciled]
        exact ranks
      · rw [reconcileSource, found, Option.bind_some, leads]

end Main

section Kernels

@[reducible] def sourcedPackageJson : Serialize PackageEntry :=
  ⟨fun e => e.name ++ "-" ++ e.version ++ "@" ++ e.sourceRepo⟩

attribute [local instance] sourcedPackageJson repoFileJson moduleStreamJson versionLockJson

def kernel (version sourceRepo : String) : PackageEntry :=
  { name := "kernel", version, arch := "x86_64", sourceRepo }

def hostsOfKernels (db mq web : List PackageEntry) : HostSections where
  sections := [some { packagesAdded := db }, some { packagesAdded := mq },
    some { packagesAdded := web }]
  hostnames := ["db", "mq", "web"]
  distinct := by decide
  paired := rfl

/-- One kernel each: two hosts took it from a vendor, one from the distribution. -/
theorem kernels_count_hosts :
    ∃ rpm conflicts, mergeRpmSections sampleMerging
        (hostsOfKernels [kernel "5.14.1" "baseos"] [kernel "6.1" "ELRepo"]
          [kernel "6.1" "elrepo"]).sections 3 ["db", "mq", "web"] none =
        some (some (rpm, conflicts)) ∧
      (hostsOfKernels [kernel "5.14.1" "baseos"] [kernel "6.1" "ELRepo"]
        [kernel "6.1" "elrepo"]).ConflictsCountHosts sampleMerging rpm conflicts := by
  refine ⟨_, _, rfl, (repo_conflicts_count_hosts_iff rfl).mpr fun pkg _ _ => ?_⟩
  have once : ((hostsOfKernels [kernel "5.14.1" "baseos"] [kernel "6.1" "ELRepo"]
      [kernel "6.1" "elrepo"]).rows.map fun row =>
        (row.1, sampleMerging.lowercase row.2.sourceRepo)).Nodup := by decide
  exact once.sublist (List.filter_sublist.map _)

/-- A host with two kernels of the distribution counts twice. -/
theorem second_kernel_counts_twice :
    ∃ rpm conflicts, mergeRpmSections sampleMerging
        (hostsOfKernels [kernel "5.14.1" "baseos", kernel "5.14.2" "baseos"]
          [kernel "6.1" "elrepo"] [kernel "6.1" "elrepo"]).sections 3 ["db", "mq", "web"] none =
        some (some (rpm, conflicts)) ∧
      ¬ (hostsOfKernels [kernel "5.14.1" "baseos", kernel "5.14.2" "baseos"]
        [kernel "6.1" "elrepo"] [kernel "6.1" "elrepo"]).ConflictsCountHosts sampleMerging rpm
          conflicts := by
  refine ⟨_, _, rfl, fun law => ?_⟩
  have ranks := law.ranks
    { kernel "6.1" "baseos" with
      aggregate := some { count := 3, total := 3, hosts := ["db", "mq", "web"] } }
    (by decide) [⟨"baseos", 2⟩, ⟨"elrepo", 2⟩] (by decide)
  have counted := ranks.1.counts ⟨"baseos", 2⟩ List.mem_cons_self
  exact absurd counted (by decide)

end Kernels

end HostSections

end Inspectah
