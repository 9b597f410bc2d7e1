import Inspectah.Library.KeyedFold
import Inspectah.Refine.ReopenExport
import Inspectah.Refine.Roles
import Mathlib.Algebra.Ring.Int.Defs

/-!
The zones of an aggregate: a configuration path is in that of its most divergent version, a
drop-in or quadlet path in that of its counts taken together.
-/
namespace Inspectah

open FirstMatch

variable {α : Type}

def recorded (aggregate : α → Option AggregatePrevalence) (at_ : α → Bool) (rows : List α) :
    List AggregatePrevalence := (rows.filter at_).filterMap aggregate

def recordedAt (path : α → String) (aggregate : α → Option AggregatePrevalence) (rows : List α)
    (p : String) : List AggregatePrevalence := recorded aggregate (fun e => path e == p) rows

/-- One version is in its own zone; several put their path no higher than any of them. -/
structure PathsHonest (zones : Zones) (item : String → ItemId)
    (versions : String → List AggregatePrevalence) : Prop where
  single : ∀ p q, versions p = [q] → zones.lookup (item p) = some (classifyZone q)
  several : ∀ p, 2 ≤ (versions p).length → ∃ zone, zones.lookup (item p) = some zone ∧
    ∀ q ∈ versions p, zone.rank ≤ (classifyZone q).rank
  disagree : ∀ p, 2 ≤ (versions p).length → (∃ q ∈ versions p, q.count ≠ q.total) →
    zones.lookup (item p) ≠ some .consensus

structure ZonesHonest (snap : InspectionSnapshot) (zones : Zones) : Prop where
  configs : PathsHonest zones .config (recordedAt (·.path) (·.aggregate) snap.configFiles)
  dropIns : PathsHonest zones .dropIn (recordedAt (·.path) (·.aggregate) snap.dropIns)
  quadlets : PathsHonest zones .quadlet (recordedAt (·.path) (·.aggregate) snap.quadletUnits)
  packages : ∀ e ∈ rpmPackages snap, ∀ q, e.aggregate = some q →
    zones.lookup (.package e.name e.arch) = some (classifyZone q)

def ReportsHonestly (snap : InspectionSnapshot) : Prop :=
  ∃ ctx, (openSnapshot snap).refineMode = .aggregate ctx ∧ ZonesHonest snap ctx.zones

structure SumWithin (versions : List AggregatePrevalence) (total : Int) : Prop where
  all_hosts : (versions.map (·.count)).sum = total → ∀ q ∈ versions, q.count = q.total
  half_hosts : total ≤ (versions.map (·.count)).sum * 2 →
    ∀ q ∈ versions, q.count = q.total ∨ q.total ≤ q.count * 2

/-- The counts at a path, taken together and held to the first version's total, exceed none of
    its versions. -/
def SumsWithin (versions : String → List AggregatePrevalence) : Prop :=
  ∀ p first second rest, versions p = first :: second :: rest →
    SumWithin (first :: second :: rest) first.total

def PackagesAgree (packages : List PackageEntry) : Prop :=
  ∀ a ∈ packages, ∀ b ∈ packages, a.name = b.name → a.arch = b.arch →
    ∀ q r, a.aggregate = some q → b.aggregate = some r → classifyZone q = classifyZone r

theorem classifyZone_congr {p q : AggregatePrevalence} (count : p.count = q.count)
    (total : p.total = q.total) : classifyZone p = classifyZone q := by
  unfold classifyZone
  rw [count, total]

theorem classifyZone_consensus {p : AggregatePrevalence} :
    classifyZone p = .consensus ↔ p.count = p.total := by
  unfold classifyZone
  split
  · simp_all
  · split <;> simp_all

theorem one_le_rank {p : AggregatePrevalence} :
    1 ≤ (classifyZone p).rank ↔ p.count = p.total ∨ p.total ≤ p.count * 2 := by
  unfold classifyZone
  split
  · simp_all [PrevalenceZone.rank]
  · split <;> simp_all [PrevalenceZone.rank]

theorem two_le_rank {p : AggregatePrevalence} :
    2 ≤ (classifyZone p).rank ↔ p.count = p.total := by
  rw [← classifyZone_consensus]
  cases classifyZone p <;> simp [PrevalenceZone.rank]

theorem rank_le_two (z : PrevalenceZone) : z.rank ≤ 2 := by
  cases z <;> simp [PrevalenceZone.rank]

/-- One zone is no higher than another when it reaches each boundary only with it. -/
theorem rank_le_iff {p q : AggregatePrevalence} :
    (classifyZone p).rank ≤ (classifyZone q).rank ↔
      (p.count = p.total → q.count = q.total) ∧
      (p.count = p.total ∨ p.total ≤ p.count * 2 →
        q.count = q.total ∨ q.total ≤ q.count * 2) := by
  rw [← one_le_rank, ← one_le_rank, ← two_le_rank, ← two_le_rank]
  have top := rank_le_two (classifyZone p)
  omega

theorem not_consensus {zone : PrevalenceZone} {q : AggregatePrevalence}
    (below : zone.rank ≤ (classifyZone q).rank) (partly : q.count ≠ q.total) :
    zone ≠ .consensus := by
  rintro rfl
  exact partly (two_le_rank.mp below)

theorem PathsHonest.of_several {zones : Zones} {item : String → ItemId}
    {versions : String → List AggregatePrevalence}
    (single : ∀ p q, versions p = [q] → zones.lookup (item p) = some (classifyZone q))
    (several : ∀ p, 2 ≤ (versions p).length → ∃ zone, zones.lookup (item p) = some zone ∧
      ∀ q ∈ versions p, zone.rank ≤ (classifyZone q).rank) : PathsHonest zones item versions where
  single := single
  several := several
  disagree := by
    rintro p two ⟨q, mem, partly⟩ full
    obtain ⟨zone, found, below⟩ := several p two
    rw [full] at found
    exact not_consensus (below q mem) partly (Option.some.inj found).symm

/-- The zone of the versions seen so far, the most divergent one's. -/
def lowest (zone : Option PrevalenceZone) (q : AggregatePrevalence) : Option PrevalenceZone :=
  match zone with
  | none => some (classifyZone q)
  | some current =>
    some (if (classifyZone q).rank < current.rank then classifyZone q else current)

/-- The zone of the last version seen. -/
def latest (_ : Option PrevalenceZone) (q : AggregatePrevalence) : Option PrevalenceZone :=
  some (classifyZone q)

theorem foldl_lowest (versions : List AggregatePrevalence) (start : PrevalenceZone) :
    ∃ zone, versions.foldl lowest (some start) = some zone ∧ zone.rank ≤ start.rank ∧
      ∀ q ∈ versions, zone.rank ≤ (classifyZone q).rank := by
  induction versions generalizing start with
  | nil => exact ⟨start, rfl, Nat.le_refl _, by simp⟩
  | cons q rest ih =>
    obtain ⟨zone, folded, below, each⟩ :=
      ih (if (classifyZone q).rank < start.rank then classifyZone q else start)
    refine ⟨zone, folded, ?_, ?_⟩
    · split at below <;> omega
    · intro r mem
      cases mem with
      | head => split at below <;> omega
      | tail _ later => exact each r later

theorem foldl_latest (versions : List AggregatePrevalence) (start : Option PrevalenceZone)
    (some_version : versions ≠ []) :
    ∃ q ∈ versions, versions.foldl latest start = some (classifyZone q) := by
  refine ⟨versions.getLast some_version, List.getLast_mem some_version, ?_⟩
  conv_lhs => rw [← List.dropLast_append_getLast some_version]
  rw [List.foldl_concat]
  rfl

theorem foldl_recorded {see : Option PrevalenceZone → AggregatePrevalence → Option PrevalenceZone}
    (aggregate : α → Option AggregatePrevalence) (at_ : α → Bool) (rows : List α)
    (start : Option PrevalenceZone) :
    (rows.filter at_).foldl (fun t e => ((aggregate e).map (see t)).getD t) start =
      (recorded aggregate at_ rows).foldl see start := by
  rw [recorded, List.foldl_filterMap]
  congr 1
  funext t e
  cases aggregate e <;> rfl

section Lookup

variable (zones : Zones)

theorem configZone_other (e : ConfigFileEntry) {k : ItemId} (other : k ≠ .config e.path) :
    (configZone zones e).lookup k = zones.lookup k := by
  unfold configZone
  cases e.aggregate with
  | none => rfl
  | some q =>
    dsimp only
    split <;> exact AList.lookup_insert_ne other

theorem configZone_own (e : ConfigFileEntry) : (configZone zones e).lookup (.config e.path) =
    (e.aggregate.map (lowest (zones.lookup (.config e.path)))).getD
      (zones.lookup (.config e.path)) := by
  unfold configZone
  cases e.aggregate with
  | none => rfl
  | some q =>
    dsimp only
    cases found : zones.lookup (.config e.path) with
    | none => exact AList.lookup_insert _
    | some current => exact AList.lookup_insert _

theorem packageZone_other (e : PackageEntry) {k : ItemId} (other : k ≠ .package e.name e.arch) :
    (packageZone zones e).lookup k = zones.lookup k := by
  unfold packageZone
  cases e.aggregate with
  | none => rfl
  | some q => exact AList.lookup_insert_ne other

theorem packageZone_own (e : PackageEntry) : (packageZone zones e).lookup (.package e.name e.arch) =
    (e.aggregate.map (latest (zones.lookup (.package e.name e.arch)))).getD
      (zones.lookup (.package e.name e.arch)) := by
  unfold packageZone
  cases e.aggregate with
  | none => rfl
  | some q => exact AList.lookup_insert _

end Lookup

section Summed

variable (path : α → String) (aggregate : α → Option AggregatePrevalence) (rows : List α)
variable {item : String → ItemId} (zones : Zones)

theorem summedZone_eq (p : String) : summedZone path aggregate rows p =
    match recordedAt path aggregate rows p with
    | [] => none
    | first :: rest => some (classifyZone
        { count := ((first :: rest).map (·.count)).sum, total := first.total }) := by
  unfold summedZone recordedAt recorded
  cases (rows.filter fun e => path e == p).filterMap aggregate with
  | nil => rfl
  | cons first rest =>
    have sum : (first :: rest).foldl (fun (n : Int) a => n + a.count) 0 =
        ((first :: rest).map (·.count)).sum := by
      rw [List.sum_eq_foldl, List.foldl_map]
    dsimp only
    rw [sum]

theorem summedZones_other {k : ItemId} (other : ∀ p, k ≠ item p) :
    (summedZones item path aggregate rows zones).lookup k = zones.lookup k := by
  unfold summedZones
  refine KeyedFold.foldl_unobserved (fun z : Zones => z.lookup k) (fun z p => ?_) _ zones
  cases summedZone path aggregate rows p with
  | none => rfl
  | some zone => exact AList.lookup_insert_ne (other p)

/-- A path without a recorded version keeps what the map had for it. -/
theorem summedZones_own (apart : ∀ p q, item p = item q → p = q) (p : String) :
    (summedZones item path aggregate rows zones).lookup (item p) =
      (summedZone path aggregate rows p).or (zones.lookup (item p)) := by
  have hit : ∀ (z : Zones) q, (q == p) = true →
      (((summedZone path aggregate rows q).map (z.insert (item q))).getD z).lookup (item p) =
        (summedZone path aggregate rows p).or (z.lookup (item p)) := by
    intro z q here
    obtain rfl : q = p := by simpa using here
    cases summedZone path aggregate rows q with
    | none => rfl
    | some zone => exact AList.lookup_insert _
  have miss : ∀ (z : Zones) q, (q == p) = false →
      (((summedZone path aggregate rows q).map (z.insert (item q))).getD z).lookup (item p) =
        z.lookup (item p) := by
    intro z q away
    have ne : item p ≠ item q := fun same => by simp [apart _ _ same] at away
    cases summedZone path aggregate rows q with
    | none => rfl
    | some zone => exact AList.lookup_insert_ne ne
  have read := KeyedFold.foldl_observed (fun z : Zones => z.lookup (item p))
    (fun t _ => (summedZone path aggregate rows p).or t) (· == p) hit miss
    (rows.map path).dedup zones
  unfold summedZones
  refine read.trans ?_
  rw [List.filter_beq]
  by_cases listed : p ∈ (rows.map path).dedup
  · rw [List.count_eq_one_of_mem (List.nodup_dedup _) listed]
    rfl
  · have unrecorded : recordedAt path aggregate rows p = [] := by
      have none_there : (rows.filter fun e => path e == p) = [] := by
        rw [List.filter_eq_nil_iff]
        intro e mem here
        exact listed (List.mem_dedup.mpr (List.mem_map.mpr ⟨e, mem, by simpa using here⟩))
      rw [recordedAt, recorded, none_there, List.filterMap_nil]
    rw [List.count_eq_zero_of_not_mem listed, summedZone_eq, unrecorded]
    rfl

end Summed

section Built

variable (snap : InspectionSnapshot)

theorem configZones_read (rows : List ConfigFileEntry) (p : String) :
    (rows.foldl configZone ∅).lookup (.config p) =
      (recordedAt (·.path) (·.aggregate) rows p).foldl lowest none := by
  have hit : ∀ (z : Zones) (e : ConfigFileEntry), (e.path == p) = true →
      (configZone z e).lookup (.config p) =
        (e.aggregate.map (lowest (z.lookup (.config p)))).getD (z.lookup (.config p)) := by
    intro z e here
    obtain rfl : e.path = p := by simpa using here
    exact configZone_own z e
  have miss : ∀ (z : Zones) (e : ConfigFileEntry), (e.path == p) = false →
      (configZone z e).lookup (.config p) = z.lookup (.config p) := by
    intro z e away
    refine configZone_other z e fun same => ?_
    obtain rfl : p = e.path := by simpa using same
    simp at away
  exact (KeyedFold.foldl_observed (fun z : Zones => z.lookup (.config p))
    (fun t e => (e.aggregate.map (lowest t)).getD t) (fun e => e.path == p) hit miss rows ∅).trans
    (foldl_recorded (·.aggregate) _ rows _)

theorem packageZones_read (zones : Zones) (rows : List PackageEntry) (name arch : String) :
    (rows.foldl packageZone zones).lookup (.package name arch) =
      (recorded (·.aggregate) (fun e => e.name == name && e.arch == arch) rows).foldl latest
        (zones.lookup (.package name arch)) := by
  have hit : ∀ (z : Zones) (e : PackageEntry), (e.name == name && e.arch == arch) = true →
      (packageZone z e).lookup (.package name arch) =
        (e.aggregate.map (latest (z.lookup (.package name arch)))).getD
          (z.lookup (.package name arch)) := by
    intro z e here
    obtain ⟨rfl, rfl⟩ : e.name = name ∧ e.arch = arch := by simpa using here
    exact packageZone_own z e
  have miss : ∀ (z : Zones) (e : PackageEntry), (e.name == name && e.arch == arch) = false →
      (packageZone z e).lookup (.package name arch) = z.lookup (.package name arch) := by
    intro z e away
    refine packageZone_other z e fun same => ?_
    obtain ⟨rfl, rfl⟩ : name = e.name ∧ arch = e.arch := by simpa using same
    simp at away
  exact (KeyedFold.foldl_observed (fun z : Zones => z.lookup (.package name arch))
    (fun t e => (e.aggregate.map (latest t)).getD t) _ hit miss rows zones).trans
    (foldl_recorded (·.aggregate) _ rows _)

theorem configZones_other {k : ItemId} (other : ∀ p, k ≠ .config p) (rows : List ConfigFileEntry) :
    (rows.foldl configZone ∅).lookup k = none :=
  KeyedFold.foldl_unobserved (fun z : Zones => z.lookup k)
    (fun z e => configZone_other z e (other e.path)) rows ∅

theorem packageZones_other {k : ItemId} (other : ∀ name arch, k ≠ .package name arch)
    (rows : List PackageEntry) (zones : Zones) :
    (rows.foldl packageZone zones).lookup k = zones.lookup k :=
  KeyedFold.foldl_unobserved (fun z : Zones => z.lookup k)
    (fun z e => packageZone_other z e (other e.name e.arch)) rows zones

theorem buildZones_config (p : String) : (buildZones snap).lookup (.config p) =
    (recordedAt (·.path) (·.aggregate) snap.configFiles p).foldl lowest none := by
  unfold buildZones
  dsimp only
  rw [summedZones_other _ _ _ _ (fun _ h => by cases h),
    summedZones_other _ _ _ _ (fun _ h => by cases h),
    packageZones_other (fun _ _ h => by cases h), configZones_read]
  rfl

theorem buildZones_package (name arch : String) : (buildZones snap).lookup (.package name arch) =
    (recorded (·.aggregate) (fun e => e.name == name && e.arch == arch)
      (rpmPackages snap)).foldl latest none := by
  unfold buildZones
  dsimp only
  rw [summedZones_other _ _ _ _ (fun _ h => by cases h),
    summedZones_other _ _ _ _ (fun _ h => by cases h), packageZones_read,
    configZones_other (fun _ h => by cases h)]

theorem buildZones_dropIn (p : String) : (buildZones snap).lookup (.dropIn p) =
    summedZone (·.path) (·.aggregate) snap.dropIns p := by
  unfold buildZones
  dsimp only
  rw [summedZones_other _ _ _ _ (fun _ h => by cases h),
    summedZones_own _ _ _ _ (fun _ _ h => by cases h; rfl),
    packageZones_other (fun _ _ h => by cases h), configZones_other (fun _ h => by cases h),
    Option.or_none]
  rfl

theorem buildZones_quadlet (p : String) : (buildZones snap).lookup (.quadlet p) =
    summedZone (·.path) (·.aggregate) snap.quadletUnits p := by
  unfold buildZones
  dsimp only
  rw [summedZones_own _ _ _ _ (fun _ _ h => by cases h; rfl),
    summedZones_other _ _ _ _ (fun _ h => by cases h),
    packageZones_other (fun _ _ h => by cases h), configZones_other (fun _ h => by cases h),
    Option.or_none]
  rfl

end Built

theorem recorded_related {β : Type} {aggregate : α → Option AggregatePrevalence}
    {aggregate' : β → Option AggregatePrevalence} {at_ : α → Bool} {at' : β → Bool} {rows : List α}
    {rows' : List β}
    (same : List.Forall₂ (fun a b => at_ a = at' b ∧ aggregate a = aggregate' b) rows rows') :
    recorded aggregate at_ rows = recorded aggregate' at' rows' := by
  unfold recorded
  induction same with
  | nil => rfl
  | cons ab _ ih =>
    obtain ⟨here, counted⟩ := ab
    rw [List.filter_cons, List.filter_cons, here]
    split
    · rw [List.filterMap_cons, List.filterMap_cons, counted, ih]
    · exact ih

theorem normalizeConfig_aggregate (refined : Refined ConfigFileEntry) (entry : ConfigFileEntry) :
    (normalizeConfig refined entry).aggregate = entry.aggregate := by
  unfold normalizeConfig
  repeat' split
  all_goals rfl

section Opened

variable (snap : InspectionSnapshot)

theorem configs_opened (p : String) :
    recordedAt (·.path) (·.aggregate) (normalizeSnapshot snap).configFiles p =
      recordedAt (·.path) (·.aggregate) snap.configFiles p := by
  rw [configFiles_normalized]
  refine (recorded_related ((forall_overlay (fun a b : ConfigFileEntry =>
    b.path = a.path ∧ b.aggregate = a.aggregate) (fun _ => ⟨rfl, rfl⟩) normalizeConfig
    (fun refined e => ⟨(normalizeConfig_path refined e).1, normalizeConfig_aggregate refined e⟩)
    _ snap.configFiles).imp fun a b same => ?_)).symm
  exact ⟨congrArg (· == p) same.1.symm, same.2.symm⟩

theorem quadletUnits_opened : (normalizeSnapshot snap).quadletUnits = snap.quadletUnits := by
  rw [normalizeSnapshot_eq]
  rfl

theorem packages_opened : ∃ settle : PackageEntry → PackageEntry,
    rpmPackages (normalizeSnapshot snap) = (rpmPackages snap).map settle ∧
      ∀ e, (settle e).name = e.name ∧ (settle e).arch = e.arch ∧
        (settle e).aggregate = e.aggregate := by
  cases sec : snap.rpm with
  | none =>
    refine ⟨id, ?_, fun e => ⟨rfl, rfl, rfl⟩⟩
    rw [normalizeSnapshot_eq, rpmPackages, rpmPackages, sec]
    rfl
  | some rpm =>
    have packages : (clearLeaves snap rpm).packagesAdded = rpm.packagesAdded := by
      unfold clearLeaves
      split <;> rfl
    refine ⟨settlePackage (clearAggregateLeaves snap) (clearLeaves snap rpm)
      (installerEvidence (clearAggregateLeaves snap)), ?_, fun e => ?_⟩
    · rw [normalizeSnapshot_eq, rpmPackages, rpmPackages, sec]
      simp only [Option.map_some, Option.getD_some, settleRpm, packages]
    · rw [settlePackage_eq]
      exact ⟨rfl, rfl, rfl⟩

theorem packages_recorded (name arch : String) :
    recorded (·.aggregate) (fun e => e.name == name && e.arch == arch)
        (rpmPackages (normalizeSnapshot snap)) =
      recorded (·.aggregate) (fun e => e.name == name && e.arch == arch) (rpmPackages snap) := by
  obtain ⟨settle, opened, kept⟩ := packages_opened snap
  rw [opened]
  refine (recorded_related ((map_forall (fun a b : PackageEntry => b.name = a.name ∧
    b.arch = a.arch ∧ b.aggregate = a.aggregate) settle kept _).imp fun a b same => ?_)).symm
  exact ⟨by rw [same.1, same.2.1], same.2.2.symm⟩

end Opened

theorem mem_recorded {aggregate : α → Option AggregatePrevalence} {at_ : α → Bool} {rows : List α}
    {q : AggregatePrevalence} :
    q ∈ recorded aggregate at_ rows ↔ ∃ e ∈ rows, at_ e = true ∧ aggregate e = some q := by
  simp [recorded, and_assoc]

section Honest

variable {zones : Zones} {item : String → ItemId} {versions : String → List AggregatePrevalence}

theorem honest_of_lowest
    (found : ∀ p, zones.lookup (item p) = (versions p).foldl lowest none) :
    PathsHonest zones item versions := by
  apply PathsHonest.of_several
  · intro p q one
    rw [found, one]
    rfl
  · intro p two
    rw [found]
    cases all : versions p with
    | nil => simp [all] at two
    | cons first rest =>
      obtain ⟨zone, folded, below, each⟩ := foldl_lowest rest (classifyZone first)
      refine ⟨zone, folded, fun q mem => ?_⟩
      cases mem with
      | head => exact below
      | tail _ later => exact each q later

theorem honest_of_sums_iff {path : α → String} {aggregate : α → Option AggregatePrevalence}
    {rows : List α} (found : ∀ p, zones.lookup (item p) = summedZone path aggregate rows p) :
    PathsHonest zones item (recordedAt path aggregate rows) ↔
      SumsWithin (recordedAt path aggregate rows) := by
  have reads : ∀ p first rest, recordedAt path aggregate rows p = first :: rest →
      zones.lookup (item p) = some (classifyZone
        { count := ((first :: rest).map (·.count)).sum, total := first.total }) := by
    intro p first rest all
    rw [found, summedZone_eq, all]
  have within : ∀ first rest, (∀ q ∈ first :: rest,
      (classifyZone { count := ((first :: rest).map (·.count)).sum, total := first.total }).rank ≤
        (classifyZone q).rank) ↔ SumWithin (first :: rest) first.total := by
    intro first rest
    constructor
    · intro below
      refine ⟨fun all q mem => (rank_le_iff.mp (below q mem)).1 all, fun half q mem => ?_⟩
      exact (rank_le_iff.mp (below q mem)).2 (.inr half)
    · intro sum q mem
      refine rank_le_iff.mpr ⟨fun all => sum.all_hosts all q mem, ?_⟩
      rintro (all | half)
      · exact .inl (sum.all_hosts all q mem)
      · exact sum.half_hosts half q mem
  constructor
  · intro honest p first second rest all
    obtain ⟨zone, held, below⟩ := honest.several p (by simp [all])
    rw [reads p first (second :: rest) all, Option.some.injEq] at held
    subst held
    rw [all] at below
    exact (within first (second :: rest)).mp below
  · intro sums
    apply PathsHonest.of_several
    · intro p q one
      rw [reads p q [] one]
      exact congrArg some (classifyZone_congr (by simp) rfl)
    · intro p two
      match all : recordedAt path aggregate rows p with
      | [] => simp [all] at two
      | [one] => simp [all] at two
      | first :: second :: rest =>
        refine ⟨_, reads p first (second :: rest) all, ?_⟩
        exact (within first (second :: rest)).mpr (sums p first second rest all)

end Honest

theorem packages_agree_iff {zones : Zones} {packages : List PackageEntry}
    (found : ∀ name arch, zones.lookup (.package name arch) =
      (recorded (·.aggregate) (fun e => e.name == name && e.arch == arch) packages).foldl
        latest none) :
    (∀ e ∈ packages, ∀ q, e.aggregate = some q →
      zones.lookup (.package e.name e.arch) = some (classifyZone q)) ↔ PackagesAgree packages := by
  constructor
  · intro exact_zone a mem_a b mem_b name arch q r counted_a counted_b
    have zone_a := exact_zone a mem_a q counted_a
    have zone_b := exact_zone b mem_b r counted_b
    rw [name, arch, zone_b] at zone_a
    exact (Option.some.inj zone_a).symm
  · intro agree e mem q counted
    have here : q ∈ recorded (·.aggregate)
        (fun a : PackageEntry => a.name == e.name && a.arch == e.arch) packages :=
      mem_recorded.mpr ⟨e, mem, by simp, counted⟩
    obtain ⟨r, last, folded⟩ := foldl_latest _ none (List.ne_nil_of_mem here)
    obtain ⟨b, mem_b, same, counted_b⟩ := mem_recorded.mp last
    obtain ⟨name, arch⟩ : b.name = e.name ∧ b.arch = e.arch := by simpa using same
    rw [found, folded, agree b mem_b e mem name arch r q counted_b counted]

theorem zonesHonest_iff (snap : InspectionSnapshot) :
    ZonesHonest snap (buildZones (normalizeSnapshot snap)) ↔
      SumsWithin (recordedAt (·.path) (·.aggregate) snap.dropIns) ∧
      SumsWithin (recordedAt (·.path) (·.aggregate) snap.quadletUnits) ∧
      PackagesAgree (rpmPackages snap) := by
  have dropIns : ∀ p, (buildZones (normalizeSnapshot snap)).lookup (.dropIn p) =
      summedZone (·.path) (·.aggregate) snap.dropIns p := by
    intro p
    rw [buildZones_dropIn, dropIns_normalized]
  have quadlets : ∀ p, (buildZones (normalizeSnapshot snap)).lookup (.quadlet p) =
      summedZone (·.path) (·.aggregate) snap.quadletUnits p := by
    intro p
    rw [buildZones_quadlet, quadletUnits_opened]
  have packages : ∀ name arch, (buildZones (normalizeSnapshot snap)).lookup (.package name arch) =
      (recorded (·.aggregate) (fun e => e.name == name && e.arch == arch)
        (rpmPackages snap)).foldl latest none := by
    intro name arch
    rw [buildZones_package, packages_recorded]
  have configs : PathsHonest (buildZones (normalizeSnapshot snap)) .config
      (recordedAt (·.path) (·.aggregate) snap.configFiles) :=
    honest_of_lowest fun p => by rw [buildZones_config, configs_opened]
  constructor
  · intro honest
    exact ⟨(honest_of_sums_iff dropIns).mp honest.dropIns,
      (honest_of_sums_iff quadlets).mp honest.quadlets,
      (packages_agree_iff packages).mp honest.packages⟩
  · rintro ⟨dropInSums, quadletSums, agree⟩
    exact ⟨configs, (honest_of_sums_iff dropIns).mpr dropInSums,
      (honest_of_sums_iff quadlets).mpr quadletSums, (packages_agree_iff packages).mpr agree⟩

theorem aggregateMeta_normalized (snap : InspectionSnapshot) :
    (normalizeSnapshot snap).aggregateMeta = snap.aggregateMeta := by
  rw [normalizeSnapshot_eq]

theorem reportsHonestly_zones {snap : InspectionSnapshot} (merged : snap.aggregateMeta.isSome) :
    ReportsHonestly snap ↔ ZonesHonest snap (buildZones (normalizeSnapshot snap)) := by
  obtain ⟨info, known⟩ := Option.isSome_iff_exists.mp merged
  have mode : ∃ ctx : AggregateContext, (openSnapshot snap).refineMode = .aggregate ctx ∧
      ctx.zones = buildZones (normalizeSnapshot snap) := by
    unfold openSnapshot refineMode
    dsimp only
    rw [aggregateMeta_normalized, known]
    exact ⟨_, rfl, rfl⟩
  obtain ⟨ctx, reported, zones⟩ := mode
  unfold ReportsHonestly
  rw [reported]
  constructor
  · rintro ⟨other, same, honest⟩
    cases same
    exact zones ▸ honest
  · intro honest
    exact ⟨ctx, rfl, zones ▸ honest⟩

theorem reportsHonestly_iff (snap : InspectionSnapshot) (merged : snap.aggregateMeta.isSome) :
    ReportsHonestly snap ↔
      SumsWithin (recordedAt (·.path) (·.aggregate) snap.dropIns) ∧
      SumsWithin (recordedAt (·.path) (·.aggregate) snap.quadletUnits) ∧
      PackagesAgree (rpmPackages snap) := by
  rw [reportsHonestly_zones merged, zonesHonest_iff]

def unitOverride (content : String) (count : Int) : SystemdDropIn where
  unit := "httpd.service"
  path := "etc/systemd/system/httpd.service.d/override.conf"
  content := content
  aggregate := some { count := count, total := 3 }

def threeHosts (versions : List SystemdDropIn) : InspectionSnapshot where
  aggregateMeta := some { hostCount := 3 }
  services := some { dropIns := versions }

theorem reportsHonestly_single : ReportsHonestly (threeHosts [unitOverride "[Service]" 3]) := by
  refine (reportsHonestly_iff _ rfl).mpr ⟨?_, ?_, ?_⟩
  · intro p first second rest all
    have short := congrArg List.length all
    have few : (recordedAt (·.path) (·.aggregate)
        (threeHosts [unitOverride "[Service]" 3]).dropIns p).length ≤ 1 :=
      (List.length_filterMap_le _ _).trans (List.length_filter_le _ _)
    rw [List.length_cons, List.length_cons] at short
    omega
  · intro p first second rest all
    cases all
  · intro a mem
    cases mem

theorem split_hosts_consensus :
    ¬ (∀ snap : InspectionSnapshot, snap.aggregateMeta.isSome → ReportsHonestly snap) := by
  intro all
  have honest := (reportsHonestly_zones rfl).mp
    (all (threeHosts [unitOverride "Restart=always" 2, unitOverride "Restart=no" 1]) rfl)
  obtain ⟨within, -, -⟩ := (zonesHonest_iff _).mp honest
  have sum := within "etc/systemd/system/httpd.service.d/override.conf"
    { count := 2, total := 3 } { count := 1, total := 3 } [] (by decide +kernel)
  have full := sum.all_hosts (by decide) { count := 1, total := 3 } (by simp)
  exact absurd full (by decide)

end Inspectah
