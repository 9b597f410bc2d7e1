import Inspectah.Aggregate.MergePackages
import Inspectah.Refine.Reopen

/-!
What a session makes of the packages a merge includes. The merge includes a
package that is a leaf on every authoritative host even if a degraded host lacks
it.
-/
namespace Inspectah

open Grouping AggregateMergeable

section Hosts

variable {snapshots : List InspectionSnapshot}

theorem sortedHosts_perm : (sortedHosts snapshots).Perm
    (snapshots.map fun snap => (extractHostname snap, snap)) := List.perm_insertionSort _ _

theorem sortedHosts_distinct (distinct : (snapshots.map extractHostname).Nodup) :
    ((sortedHosts snapshots).map (·.1)).Nodup := by
  have names := (@sortedHosts_perm snapshots).map (·.1)
  rw [List.map_map] at names
  exact names.nodup_iff.mpr distinct

theorem sortedHosts_length : (sortedHosts snapshots).length = snapshots.length := by
  rw [sortedHosts_perm.length_eq, List.length_map]

def EveryHostLists (snapshots : List InspectionSnapshot) (k : String) : Prop :=
  ∀ snap ∈ snapshots, ∃ row ∈ rpmPackages snap, identityKey row = k

theorem mem_packageRows {hosts : List (String × InspectionSnapshot)} {k : String}
    {row : HostRow PackageEntry} : row ∈ packageRows (hosts.map (·.2.rpm)) k ↔
      ∃ host, hosts[row.1]? = some host ∧ row.2 ∈ rpmPackages host.2 ∧ identityKey row.2 = k := by
  obtain ⟨i, pkg⟩ := row
  rw [packageRows, mem_rowsOfKey, mem_collectItems]
  simp only [List.getElem?_map]
  constructor
  · rintro ⟨⟨rpm, there, mem⟩, same⟩
    obtain ⟨host, found, has⟩ := Option.map_eq_some_iff.mp there
    exact ⟨host, found, by simpa [rpmPackages, has] using mem, same⟩
  · rintro ⟨host, found, mem, same⟩
    cases has : host.2.rpm with
    | none => simp [rpmPackages, has] at mem
    | some rpm =>
      refine ⟨⟨rpm, by simp [found, has], ?_⟩, same⟩
      simpa [rpmPackages, has] using mem

theorem sortedHosts_isPartial (distinct : (snapshots.map extractHostname).Nodup) (k : String) :
    isPartial (some (prevalenceOf snapshots.length ((sortedHosts snapshots).map (·.1))
      (packageRows ((sortedHosts snapshots).map (·.2.rpm)) k))) = false ↔
      EveryHostLists snapshots k := by
  have named : ((sortedHosts snapshots).map (·.1)).length = snapshots.length := by
    rw [List.length_map, sortedHosts_length]
  have inRange : InRange ((sortedHosts snapshots).map (·.1))
      (packageRows ((sortedHosts snapshots).map (·.2.rpm)) k) := by
    intro row mem
    obtain ⟨host, found, _⟩ := mem_packageRows.mp mem
    rw [List.length_map]
    exact (List.getElem?_eq_some_iff.mp found).1
  have few := hostsOf_length_le inRange
  have full := hostsOf_length_eq_iff (sortedHosts_distinct distinct) inRange
  rw [named] at few full
  have whole : isPartial (some (prevalenceOf snapshots.length ((sortedHosts snapshots).map (·.1))
      (packageRows ((sortedHosts snapshots).map (·.2.rpm)) k))) = false ↔
      (hostsOf ((sortedHosts snapshots).map (·.1))
        (packageRows ((sortedHosts snapshots).map (·.2.rpm)) k)).length = snapshots.length := by
    simp only [isPartial, prevalenceOf, Option.any_some, decide_eq_false_iff_not]
    omega
  rw [whole, full]
  constructor
  · intro every snap mem
    have host : (extractHostname snap, snap) ∈ sortedHosts snapshots :=
      sortedHosts_perm.mem_iff.mpr (List.mem_map.mpr ⟨snap, mem, rfl⟩)
    obtain ⟨i, inside, at_i⟩ := List.getElem_of_mem host
    obtain ⟨row, there, rfl⟩ := every i (by rw [sortedHosts_length] at inside; exact inside)
    obtain ⟨found, is, listed, same⟩ := mem_packageRows.mp there
    rw [List.getElem?_eq_getElem inside, at_i] at is
    cases is
    exact ⟨row.2, listed, same⟩
  · intro every i inside
    rw [← sortedHosts_length] at inside
    have mem := sortedHosts_perm.mem_iff.mp (List.getElem_mem inside)
    obtain ⟨snap, known, same⟩ := List.mem_map.mp mem
    obtain ⟨row, listed, at_key⟩ := every snap known
    refine ⟨(i, row), mem_packageRows.mpr ⟨(sortedHosts snapshots)[i], ?_, ?_, at_key⟩, rfl⟩
    · exact List.getElem?_eq_getElem inside
    · rw [← same]
      exact listed

end Hosts

section Settle

variable {snap : InspectionSnapshot} {rpm : RpmSection} {ev : InstallerEvidence}

theorem installerTier_included_iff {name : String} {reason : TriageReason} {d : FindingKind}
    {tag : TriageTag} (judged : installerTier ev name reason = some (d, tag)) :
    d.isIncluded = true ↔ tag.primaryReason ≠ .packagePlatformPlumbing ∧
      tag.primaryReason ≠ .packageInstallerDefault := by
  unfold installerTier at judged
  repeat' split at judged
  all_goals cases judged
  all_goals simp [FindingKind.included, FindingKind.excluded, FindingKind.isIncluded, tagged]

def classified (snap : InspectionSnapshot) (rpm : RpmSection) (ev : InstallerEvidence)
    (entry : PackageEntry) : TriageTag :=
  (anacondaClassification ev (classifyPackageRow snap rpm entry)).triage

theorem classified_annotation (entry : PackageEntry) :
    (anacondaClassification ev (classifyPackageRow snap rpm entry)).entry.repolessAnnotation =
      entry.repolessAnnotation := by
  have row : (classifyPackageRow snap rpm entry).entry.repolessAnnotation =
      entry.repolessAnnotation := by
    unfold classifyPackageRow
    repeat' split
    all_goals rfl
  rw [anacondaClassification_eq]
  split <;> exact row

theorem settledDisposition_included_iff (noLeaves : leafSet rpm = none) {entry : PackageEntry}
    (fromRepo : entry.repolessAnnotation.isEmpty = true)
    (reviewed : (classified snap rpm ev entry).bucket ≠ .investigate)
    (notPlumbing : (classified snap rpm ev entry).primaryReason ≠ .packagePlatformPlumbing) :
    (settledDisposition snap rpm ev entry).isIncluded = true ↔
      isPartial entry.aggregate = false ∧
        (classified snap rpm ev entry).primaryReason ≠ .packageInstallerDefault := by
  have excluded : isPreExcluded entry = isPartial entry.aggregate := by
    simp [isPreExcluded, fromRepo]
  unfold settledDisposition
  rw [excluded]
  cases isPartial entry.aggregate with
  | true => simp
  | false =>
    unfold classified at reviewed notPlumbing ⊢
    rw [anacondaClassification_eq] at reviewed notPlumbing ⊢
    cases verdict : installerVerdict snap rpm ev entry with
    | none =>
      rw [verdict] at reviewed
      have other := @classifyPackageRow_unclassified snap rpm entry
      have default : (classifyPackageRow snap rpm entry).triage.primaryReason ≠
          .packageInstallerDefault := by
        intro same
        rw [same] at other
        cases other
      have included : (bucketDefault (leafSet rpm) (classifyPackageRow snap rpm entry).triage.bucket
          entry).isIncluded = true := by
        rw [noLeaves]
        cases bucket : (classifyPackageRow snap rpm entry).triage.bucket with
        | baseline => rfl
        | site => rfl
        | investigate => exact absurd bucket reviewed
      simp [included, default]
    | some tier =>
      obtain ⟨d, tag⟩ := tier
      rw [verdict] at notPlumbing
      have judged : installerTier ev entry.name
          (classifyPackageRow snap rpm entry).triage.primaryReason = some (d, tag) := by
        unfold installerVerdict at verdict
        split at verdict
        · exact verdict
        · cases verdict
      have decided := installerTier_included_iff judged
      simp only [Bool.false_eq_true, if_false, Option.map_some, Option.getD_some, true_and]
      rw [decided]
      exact and_iff_right notPlumbing

theorem settled_package (merged : InspectionSnapshot) (rpm : RpmSection) (has : merged.rpm = some rpm)
    (i : Nat) : (rpmPackages (normalizeSnapshot merged))[i]? =
      rpm.packagesAdded[i]?.map (settlePackage (clearAggregateLeaves merged) (clearLeaves merged rpm)
        (installerEvidence (clearAggregateLeaves merged))) := by
  have rows : (clearLeaves merged rpm).packagesAdded = rpm.packagesAdded := by
    unfold clearLeaves
    split <;> rfl
  rw [normalizeSnapshot_eq, rpmPackages, has]
  simp only [Option.map_some, Option.getD_some, settleRpm, List.getElem?_map, rows]

theorem classified_package (merged : InspectionSnapshot) (rpm : RpmSection)
    (has : merged.rpm = some rpm) (i : Nat) :
    (classifyPackages (clearAggregateLeaves merged))[i]? = rpm.packagesAdded[i]?.map fun entry =>
      anacondaClassification (installerEvidence (clearAggregateLeaves merged))
        (classifyPackageRow (clearAggregateLeaves merged) (clearLeaves merged rpm) entry) := by
  have rows : (clearLeaves merged rpm).packagesAdded = rpm.packagesAdded := by
    unfold clearLeaves
    split <;> rfl
  have cleared : (clearAggregateLeaves merged).rpm = some (clearLeaves merged rpm) := by
    rw [clearAggregateLeaves_eq, InspectionSnapshot.onRpm, has, Option.map_some]
  rw [classifyPackages, cleared]
  simp only [List.getElem?_map, rows]

end Settle

section Survival

variable [Serialize PackageEntry] [Serialize RepoFile] [Serialize EnabledModuleStream]
  [Serialize VersionLockEntry]

def isExempt (refined : Refined PackageEntry) : Bool :=
  refined.entry.locked || refined.triage.primaryReason == .packagePlatformPlumbing ||
    refined.triage.bucket == .investigate || !refined.entry.repolessAnnotation.isEmpty

def isDefaultTier (refined : Refined PackageEntry) : Bool :=
  refined.triage.primaryReason == .packageInstallerDefault

def inLeafIntersection (merged : InspectionSnapshot) (pkg : PackageEntry) : Bool :=
  (merged.rpm.bind (·.leafPackages)).any (·.contains (nameArch pkg.name pkg.arch))

def refinedAt (merged : InspectionSnapshot) (i : Nat) : Option (Refined PackageEntry) :=
  (classifyPackages (clearAggregateLeaves merged))[i]?

variable (env : MergeEnv) (renv : Env) (disk : Disk) {snapshots : List InspectionSnapshot}
  {baselineHostIdx : Option Nat} {merged : InspectionSnapshot} {i : Nat} {pkg : PackageEntry}

theorem merged_leaf_included_iff (distinct : (snapshots.map extractHostname).Nodup)
    (made : merged.rpm = (mergedRpm env snapshots baselineHostIdx).join.map (·.1))
    (aggregated : merged.aggregateMeta.isSome = true) (at_i : (rpmPackages merged)[i]? = some pkg)
    (leaf : inLeafIntersection merged pkg = true)
    (ordinary : (refinedAt merged i).any isExempt = false) :
    pkg.disposition = .included ∧
      ∃ settled, (rpmPackages (RefineSession.new renv disk merged).original)[i]? = some settled ∧
        (settled.disposition.isIncluded = true ↔
          EveryHostLists snapshots (identityKey pkg) ∧
            (refinedAt merged i).any isDefaultTier = false) := by
  cases whole : (mergedRpm env snapshots baselineHostIdx).join with
  | none =>
    rw [whole] at made
    simp [rpmPackages, made] at at_i
  | some result =>
    obtain ⟨rpm, conflicts⟩ := result
    rw [whole, Option.map_some] at made
    have rows : rpmPackages merged = rpm.packagesAdded := by simp [rpmPackages, made]
    rw [rows] at at_i
    have merging := merged_package (Option.join_eq_some_iff.mp whole) (List.mem_of_getElem? at_i)
    refine ⟨?_, _, by
      change (rpmPackages (normalizeSnapshot merged))[i]? = _
      rw [settled_package merged _ made, at_i, Option.map_some], ?_⟩
    · obtain ⟨leaves, known, contains⟩ := (Option.any_eq_true _ _).mp leaf
      rw [made] at known
      exact merging.2 leaves known (by simpa using contains)
    · have judged : refinedAt merged i = some (anacondaClassification
          (installerEvidence (clearAggregateLeaves merged)) (classifyPackageRow
            (clearAggregateLeaves merged) (clearLeaves merged rpm) pkg)) := by
        rw [refinedAt, classified_package merged _ made, at_i, Option.map_some]
      have noLeaves : leafSet (clearLeaves merged rpm) = none := by
        simp [leafSet, clearLeaves, aggregated]
      rw [judged] at ordinary ⊢
      simp only [Option.any_some, isExempt, classified_annotation, Bool.or_eq_false_iff,
        beq_eq_false_iff_ne, Bool.not_eq_false'] at ordinary
      obtain ⟨⟨⟨_, notPlumbing⟩, reviewed⟩, fromRepo⟩ := ordinary
      rw [settlePackage_eq]
      dsimp only
      rw [settledDisposition_included_iff noLeaves fromRepo reviewed notPlumbing, merging.1,
        sortedHosts_isPartial distinct]
      simp [isDefaultTier, classified]

/-- A leaf of every authoritative host that every host scanned is included when
    the merged snapshot is opened. -/
theorem merged_leaf_stays_included (distinct : (snapshots.map extractHostname).Nodup)
    (made : merged.rpm = (mergedRpm env snapshots baselineHostIdx).join.map (·.1))
    (aggregated : merged.aggregateMeta.isSome = true) (at_i : (rpmPackages merged)[i]? = some pkg)
    (leaf : inLeafIntersection merged pkg = true)
    (everywhere : EveryHostLists snapshots (identityKey pkg))
    (ordinary : (refinedAt merged i).any isExempt = false)
    (notDefault : (refinedAt merged i).any isDefaultTier = false) :
    pkg.disposition = .included ∧
      ∃ settled, (rpmPackages (RefineSession.new renv disk merged).original)[i]? = some settled ∧
        settled.disposition.isIncluded = true := by
  obtain ⟨forced, settled, opened, included⟩ :=
    merged_leaf_included_iff env renv disk distinct made aggregated at_i leaf ordinary
  exact ⟨forced, settled, opened, included.mpr ⟨everywhere, notDefault⟩⟩

end Survival

section Samples

def sampleBaseline : BaselineData := { imageDigest := "sha256:0", packages := ∅, extractedAt := "" }

def sampleHost (name : String) (rpm : RpmSection) : InspectionSnapshot :=
  { schemaVersion := SCHEMA_VERSION
    metadata := Finmap.singleton "hostname" (.str name)
    baseline := some sampleBaseline
    rpm := some rpm }

def htop : PackageEntry := { name := "htop", arch := "x86_64", sourceRepo := "epel" }

def lshw : PackageEntry := { name := "lshw", arch := "x86_64", sourceRepo := "anaconda" }

def authoritativeHost : InspectionSnapshot :=
  sampleHost "web" { packagesAdded := [htop], leafPackages := some ["htop.x86_64"] }

/-- A degraded host: it has no leaf data, and no `htop`. -/
def degradedHost : InspectionSnapshot := sampleHost "db" {}

def installedHost (name : String) : InspectionSnapshot :=
  { sampleHost name
      { packagesAdded := [lshw]
        leafPackages := some ["lshw.x86_64"]
        fileOwnership := [{ packageName := "chrony", paths := ["/etc/chrony.conf"] }] } with
    services := some {}
    config := some {} }

attribute [local instance] packageJson repoFileJson moduleStreamJson versionLockJson

def mergedSample (snapshots : List InspectionSnapshot) : InspectionSnapshot :=
  { schemaVersion := SCHEMA_VERSION
    baseline := some sampleBaseline
    rpm := (mergedRpm sampleMerging snapshots (some 0)).join.map (·.1)
    services := snapshots.head?.bind (·.services)
    config := snapshots.head?.bind (·.config)
    aggregateMeta := some { label := "aggregate", hostCount := snapshots.length } }

/-- A leaf of the one authoritative host that the degraded host has too. -/
theorem merged_leaf_stays_included_htop :
    let merged := mergedSample [authoritativeHost, sampleHost "db" { packagesAdded := [htop] }]
    ∃ settled, (rpmPackages (RefineSession.new sampleEnv sampleDisk merged).original)[0]? =
      some settled ∧ settled.disposition.isIncluded = true := by
  have at_0 : ∃ pkg, (rpmPackages (mergedSample [authoritativeHost, sampleHost "db"
      { packagesAdded := [htop] }]))[0]? = some pkg ∧
        inLeafIntersection (mergedSample [authoritativeHost, sampleHost "db" { packagesAdded := [htop] }]) pkg =
          true ∧ identityKey pkg = "htop.x86_64" :=
    ⟨{ htop with
        aggregate := some { count := 2, total := 2, hosts := ["db", "web"] } }, by decide⟩
  obtain ⟨pkg, at_0, leaf, key⟩ := at_0
  have everywhere : EveryHostLists [authoritativeHost, sampleHost "db" { packagesAdded := [htop] }]
      "htop.x86_64" := by
    unfold EveryHostLists
    decide
  exact (merged_leaf_stays_included sampleMerging sampleEnv sampleDisk (by decide) rfl rfl at_0 leaf
    (key ▸ everywhere) (by decide) (by decide)).2

/-- A leaf is left out for want of a degraded host, and one every host scanned as an installer
    default. -/
theorem opening_drops_merged_leaf :
    (let merged := mergedSample [authoritativeHost, degradedHost]
     (rpmPackages merged).map (fun p => (p.name, p.disposition, inLeafIntersection merged p)) =
         [("htop", .included, true)] ∧
       (refinedAt merged 0).map isExempt = some false ∧
       (rpmPackages (RefineSession.new sampleEnv sampleDisk merged).original).map (·.disposition) =
         [.excluded]) ∧
    (let merged := mergedSample [installedHost "web", installedHost "db"]
     (rpmPackages merged).map (fun p => (p.name, p.disposition, inLeafIntersection merged p)) =
         [("lshw", .included, true)] ∧
       (refinedAt merged 0).map isExempt = some false ∧
       (rpmPackages (RefineSession.new sampleEnv sampleDisk merged).original).map (·.disposition) =
         [.excluded]) := by
  decide

end Samples

end Inspectah
