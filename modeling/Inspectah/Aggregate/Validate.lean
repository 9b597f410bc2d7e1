import Inspectah.Aggregate.MergeRpm

/-!
What is checked before snapshots are merged. Each hash table of the checks iterates in an
order of its own; all but the one that counts a host's architectures are sorted before
anything is read off them.
-/
namespace Inspectah

open Grouping

variable (snap : InspectionSnapshot)

/-- What prevents a merge. -/
inductive AggregateValidationError where
  | tooFewSnapshots (count : Nat)
  | schemaVersionMismatch (versions : List Nat)
  | duplicateHostname (hostname : String)
  | architectureMismatch (architectures : List String)
  | emptySnapshot (hostname : String)
  | osMajorVersionMismatch (versions : List String)
  deriving DecidableEq

/-- What a merge proceeds with. -/
inductive AggregateWarning where
  | staleScanDates (spreadDescription : String)
  | baselineConflict (distribution : List (String × Nat)) (selected : String)
  | minorVersionSpread (versions : List String)
  | systemTypeMismatch (types : List String)
  deriving DecidableEq

structure AggregateValidationResult where
  errors : List AggregateValidationError
  warnings : List AggregateWarning

/-- The orders of a run's hash tables: one a check, and one a snapshot whose architectures are
    counted. -/
structure ValidationOrders where
  schemaVersions : HashOrder.Order
  hostnames : HashOrder.Order
  architectures : HashOrder.Order
  majorVersions : HashOrder.Order
  minorVersions : HashOrder.Order
  systemTypes : HashOrder.Order
  images : HashOrder.Order
  packages : Nat → HashOrder.Order

/-- `*counts.entry(name).or_insert(0) += 1` over some names. -/
def tally (names : List String) : List (String × Nat) :=
  (groupBy id names).map fun entry => (entry.1, entry.2.length)

/-- `max_by_key` of the count: of equally many, the last. -/
def maxByCount (counts : List (String × Nat)) : Option (String × Nat) :=
  counts.foldl (fun best e =>
    match best with
    | none => some e
    | some b => if b.2 ≤ e.2 then some e else some b) none

def severalOf {β : Type} [LinearOrder β] (order : HashOrder.Order) (values : List β) :
    Option (List β) :=
  let set := order.iter values.dedup
  if 1 < set.length then some (set.insertionSort (· ≤ ·)) else none

def extractMetaString (key : String) : Option String :=
  (snap.metadata.lookup key).bind Json.asStr

def isHardwareArch (arch : String) : Bool := !(arch.isEmpty || arch == "noarch")

def hardwareArchs : List String :=
  ((snap.rpm.map (·.packagesAdded)).getD []).map (·.arch) |>.filter isHardwareArch

def extractArchitecture (order : HashOrder.Order) (snap : InspectionSnapshot) : Option String :=
  (maxByCount (order.iter (tally (hardwareArchs snap)))).map (·.1)

def extractOsMajorVersion : Option String :=
  snap.osRelease.bind fun r =>
    if r.versionId.isEmpty then none
    else some (String.ofList (r.versionId.toList.takeWhile (· != '.')))

def extractOsVersion : Option String :=
  (snap.osRelease.map (·.versionId)).filter fun v => !v.isEmpty

/-- `format!("{:?}", system_type)`. -/
def SystemType.debug : SystemType → String
  | .unknown => "Unknown"
  | .packageMode => "PackageMode"
  | .rpmOstree => "RpmOstree"
  | .bootc => "Bootc"

def isEmptySnapshot : Bool :=
  snap.rpm.isNone && snap.config.isNone && snap.services.isNone && snap.network.isNone &&
    snap.storage.isNone && snap.scheduledTasks.isNone && snap.containers.isNone &&
    snap.nonRpmSoftware.isNone && snap.kernelBoot.isNone && snap.selinux.isNone &&
    snap.usersGroups.isNone && snap.osRelease.isNone

section Checks

variable (orders : ValidationOrders) (snapshots : List InspectionSnapshot)

def tooFew : List AggregateValidationError :=
  if snapshots.length < 2 then [.tooFewSnapshots snapshots.length] else []

def schemaVersions : List AggregateValidationError :=
  (severalOf orders.schemaVersions (snapshots.map (·.schemaVersion))).toList.map
    .schemaVersionMismatch

def duplicateHostnames : List AggregateValidationError :=
  (orders.hostnames.iter (tally (snapshots.map extractHostname))).filterMap fun e =>
    if 1 < e.2 then some (.duplicateHostname e.1) else none

def extractedArchitectures : List String :=
  snapshots.zipIdx.filterMap fun s => extractArchitecture (orders.packages s.2) s.1

def architectures : List AggregateValidationError :=
  (severalOf orders.architectures (extractedArchitectures orders snapshots)).toList.map
    .architectureMismatch

def majorVersions : List AggregateValidationError :=
  (severalOf orders.majorVersions (snapshots.filterMap extractOsMajorVersion)).toList.map
    .osMajorVersionMismatch

def emptySnapshots : List AggregateValidationError :=
  (snapshots.filter isEmptySnapshot).map fun snap => .emptySnapshot (extractHostname snap)

def minorVersions : List AggregateWarning :=
  (severalOf orders.minorVersions (snapshots.filterMap extractOsVersion)).toList.map
    .minorVersionSpread

def systemTypes : List AggregateWarning :=
  (severalOf orders.systemTypes (snapshots.map (·.systemType.debug))).toList.map
    .systemTypeMismatch

/-- More snapshots first; of equally many, the lesser image. -/
def imageBefore (a b : String × Nat) : Prop := b.2 < a.2 ∨ (a.2 = b.2 ∧ a.1 ≤ b.1)

instance : DecidableRel imageBefore := fun a b =>
  inferInstanceAs (Decidable (b.2 < a.2 ∨ (a.2 = b.2 ∧ a.1 ≤ b.1)))

def imageRefs : List String := snapshots.filterMap fun snap => snap.targetImage.map (·.imageRef)

def baselineConflicts : List AggregateWarning :=
  let counts := orders.images.iter (tally (imageRefs snapshots))
  if 1 < counts.length then
    let distribution := counts.insertionSort imageBefore
    (distribution.head?.map fun first => .baselineConflict distribution first.1).toList
  else []

def scanDates : List AggregateWarning :=
  let timestamps := snapshots.filterMap fun snap => extractMetaString snap "timestamp"
  if 2 ≤ timestamps.length then
    match timestamps.min?, timestamps.max? with
    | some min, some max =>
      if min ≠ max then
        [.staleScanDates ("Scan dates range from " ++ min ++ " to " ++ max)]
      else []
    | _, _ => []
  else []

def validateSnapshots : AggregateValidationResult where
  errors := tooFew snapshots ++ schemaVersions orders snapshots ++
    duplicateHostnames orders snapshots ++ architectures orders snapshots ++
    majorVersions orders snapshots ++ emptySnapshots snapshots
  warnings := minorVersions orders snapshots ++ systemTypes orders snapshots ++
    baselineConflicts orders snapshots ++ scanDates snapshots

end Checks

section Tables

theorem mem_tally {names : List String} {e : String × Nat} :
    e ∈ tally names ↔ e.1 ∈ names ∧ e.2 = names.count e.1 := by
  have length : ∀ name, (rowsAt id names name).length = names.count name := by
    intro name
    rw [rowsAt, List.count_eq_countP, List.countP_eq_length_filter]
    congr 1
  rw [tally, List.mem_map]
  constructor
  · rintro ⟨entry, mem, rfl⟩
    obtain ⟨⟨name, listed, same⟩, rows⟩ := mem_groupBy.mp mem
    refine ⟨same ▸ listed, ?_⟩
    rw [rows, length]
  · rintro ⟨listed, count⟩
    refine ⟨(e.1, rowsAt id names e.1), mem_groupBy.mpr ⟨⟨e.1, listed, rfl⟩, rfl⟩, ?_⟩
    rw [length, ← count]

theorem tallied {names : List String} {name : String} (listed : name ∈ names) :
    (name, names.count name) ∈ tally names := mem_tally.mpr ⟨listed, rfl⟩

theorem tally_once (names : List String) : ((tally names).map Prod.fst).Nodup := by
  rw [tally, List.map_map]
  exact (groupBy_isTable names).nodup

theorem tally_perm {names names' : List String} (perm : names.Perm names') :
    (tally names).Perm (tally names') := by
  refine (List.perm_ext_iff_of_nodup (tally_once names).of_map (tally_once names').of_map).mpr ?_
  intro e
  rw [mem_tally, mem_tally, perm.mem_iff, perm.count_eq]

variable {β : Type} [LinearOrder β]

theorem sort_set (order : HashOrder.Order) (values : List β) :
    (order.iter values.dedup).insertionSort (· ≤ ·) = distinctSorted values := by
  have set : (order.iter values.dedup).Nodup := HashOrder.iter_nodup order (List.nodup_dedup _)
  have perm : ((order.iter values.dedup).insertionSort (· ≤ ·)).Perm (distinctSorted values) := by
    refine (List.perm_ext_iff_of_nodup ?_ (distinctSorted_nodup _)).mpr fun b => ?_
    · exact (List.perm_insertionSort _ _).nodup_iff.mpr set
    · rw [List.mem_insertionSort, HashOrder.mem_iter, List.mem_dedup, mem_distinctSorted]
  refine perm.eq_of_pairwise (fun a b _ _ => le_antisymm) (pairwise_sortBy id _) ?_
  exact (distinctSorted_sorted values).imp le_of_lt

/-- A sorted set depends on its members only. -/
theorem severalOf_congr {order order' : HashOrder.Order} {values values' : List β}
    (same : ∀ b, b ∈ values ↔ b ∈ values') : severalOf order values = severalOf order' values' := by
  have length : ∀ (o : HashOrder.Order) (vs : List β),
      (o.iter vs.dedup).length = (distinctSorted vs).length := by
    intro o vs
    rw [← sort_set o vs, List.length_insertionSort]
  unfold severalOf
  dsimp only
  rw [sort_set, sort_set, length, length, distinctSorted_congr same]

theorem severalOf_eq_some_iff {order : HashOrder.Order} {values found : List β} :
    severalOf order values = some found ↔
      1 < (distinctSorted values).length ∧ distinctSorted values = found := by
  have length : (order.iter values.dedup).length = (distinctSorted values).length := by
    rw [← sort_set order values, List.length_insertionSort]
  unfold severalOf
  dsimp only
  rw [sort_set, length]
  split
  · rename_i several
    rw [Option.some_inj, and_iff_right several]
  · rename_i few
    constructor
    · intro none_there
      cases none_there
    · rintro ⟨several, -⟩
      exact absurd several few

end Tables

section Greatest

theorem maxByCount_concat (counts : List (String × Nat)) (e : String × Nat) :
    maxByCount (counts ++ [e]) =
      match maxByCount counts with
      | none => some e
      | some b => if b.2 ≤ e.2 then some e else some b := by
  rw [maxByCount, List.foldl_concat]
  rfl

theorem maxByCount_spec (counts : List (String × Nat)) :
    (maxByCount counts = none ↔ counts = []) ∧
      ∀ e, maxByCount counts = some e → e ∈ counts ∧ ∀ o ∈ counts, o.2 ≤ e.2 := by
  induction counts using List.reverseRecOn with
  | nil => exact ⟨⟨fun _ => rfl, fun _ => rfl⟩, fun e found => by cases found⟩
  | append_singleton init last ih =>
    obtain ⟨empty, greatest⟩ := ih
    rw [maxByCount_concat]
    cases found : maxByCount init with
    | none =>
      rw [empty.mp found]
      refine ⟨by simp, fun e here => ?_⟩
      cases here
      simp
    | some b =>
      obtain ⟨mem, most⟩ := greatest b found
      dsimp only
      split
      · rename_i le
        refine ⟨by simp, fun e here => ?_⟩
        cases here
        refine ⟨by simp, fun o there => ?_⟩
        rcases List.mem_append.mp there with there | there
        · exact (most o there).trans le
        · rw [List.mem_singleton.mp there]
      · rename_i more
        refine ⟨by simp, fun e here => ?_⟩
        cases here
        refine ⟨List.mem_append_left _ mem, fun o there => ?_⟩
        rcases List.mem_append.mp there with there | there
        · exact most o there
        · rw [List.mem_singleton.mp there]
          omega

theorem maxByCount_last {init : List (String × Nat)} {e : String × Nat}
    (most : ∀ o ∈ init, o.2 ≤ e.2) : maxByCount (init ++ [e]) = some e := by
  rw [maxByCount_concat]
  cases found : maxByCount init with
  | none => rfl
  | some b =>
    obtain ⟨mem, -⟩ := (maxByCount_spec init).2 b found
    exact if_pos (most b mem)

end Greatest

end Inspectah
