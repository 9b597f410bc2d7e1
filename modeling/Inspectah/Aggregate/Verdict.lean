import Inspectah.Aggregate.MergeExact
import Inspectah.Aggregate.Validate

/-!
The verdict on some snapshots before a merge, in whatever order they and hash tables come. A
host tied between two architectures takes either.
-/
namespace Inspectah

open Grouping

structure SameVerdict (a b : AggregateValidationResult) : Prop where
  errors : ∀ e, e ∈ a.errors ↔ e ∈ b.errors
  warnings : ∀ w, w ∈ a.warnings ↔ w ∈ b.warnings

/-- Neither the order of the snapshots nor that of a hash table changes the verdict. -/
def VerdictFixed (snapshots : List InspectionSnapshot) : Prop :=
  ∀ shuffled, shuffled.Perm snapshots → ∀ orders orders',
    SameVerdict (validateSnapshots orders snapshots) (validateSnapshots orders' shuffled)

/-- No architecture occurs more often among the host's packages. -/
def IsDominant (snap : InspectionSnapshot) (arch : String) : Prop :=
  arch ∈ hardwareArchs snap ∧
    ∀ other, (hardwareArchs snap).count other ≤ (hardwareArchs snap).count arch

def IsSoleArch (snap : InspectionSnapshot) (arch : String) : Prop :=
  ∀ other, IsDominant snap other ↔ other = arch

def AtMostOneHardwareHost (snapshots : List InspectionSnapshot) : Prop :=
  ∀ (i j : Nat) (a b : InspectionSnapshot), snapshots[i]? = some a → snapshots[j]? = some b →
    hardwareArchs a ≠ [] → hardwareArchs b ≠ [] → i = j

def TiesAreSettled (snapshots : List InspectionSnapshot) : Prop :=
  AtMostOneHardwareHost snapshots ∨
    ∀ snap ∈ snapshots, ∀ arch, IsDominant snap arch → ∃ other ∈ snapshots, IsSoleArch other arch

section Sorted

variable {snapshots shuffled : List InspectionSnapshot} {orders orders' : ValidationOrders}

theorem tooFew_perm (perm : shuffled.Perm snapshots) : tooFew snapshots = tooFew shuffled := by
  rw [tooFew, tooFew, perm.length_eq]

theorem schemaVersions_perm (perm : shuffled.Perm snapshots) :
    schemaVersions orders snapshots = schemaVersions orders' shuffled := by
  have same := fun v => ((perm.map (·.schemaVersion)).mem_iff (a := v)).symm
  rw [schemaVersions, schemaVersions, severalOf_congr same]

theorem majorVersions_perm (perm : shuffled.Perm snapshots) :
    majorVersions orders snapshots = majorVersions orders' shuffled := by
  have same := fun v => ((perm.filterMap extractOsMajorVersion).mem_iff (a := v)).symm
  rw [majorVersions, majorVersions, severalOf_congr same]

theorem minorVersions_perm (perm : shuffled.Perm snapshots) :
    minorVersions orders snapshots = minorVersions orders' shuffled := by
  have same := fun v => ((perm.filterMap extractOsVersion).mem_iff (a := v)).symm
  rw [minorVersions, minorVersions, severalOf_congr same]

theorem systemTypes_perm (perm : shuffled.Perm snapshots) :
    systemTypes orders snapshots = systemTypes orders' shuffled := by
  have same := fun t => ((perm.map (·.systemType.debug)).mem_iff (a := t)).symm
  rw [systemTypes, systemTypes, severalOf_congr same]

theorem mem_duplicateHostnames {e : AggregateValidationError} :
    e ∈ duplicateHostnames orders snapshots ↔
      ∃ name, 1 < (snapshots.map extractHostname).count name ∧ e = .duplicateHostname name := by
  rw [duplicateHostnames, List.mem_filterMap]
  constructor
  · rintro ⟨⟨name, count⟩, mem, found⟩
    obtain ⟨-, counted⟩ := mem_tally.mp ((HashOrder.mem_iter _).mp mem)
    dsimp only at counted found
    split at found
    · rename_i several
      cases found
      exact ⟨name, counted ▸ several, rfl⟩
    · cases found
  · rintro ⟨name, several, rfl⟩
    have listed : name ∈ snapshots.map extractHostname := List.count_pos_iff.mp (by omega)
    refine ⟨(name, (snapshots.map extractHostname).count name), ?_, if_pos several⟩
    exact (HashOrder.mem_iter _).mpr (tallied listed)

theorem duplicateHostnames_perm (perm : shuffled.Perm snapshots) (e : AggregateValidationError) :
    e ∈ duplicateHostnames orders snapshots ↔ e ∈ duplicateHostnames orders' shuffled := by
  rw [mem_duplicateHostnames, mem_duplicateHostnames]
  simp only [(perm.map extractHostname).count_eq]

theorem emptySnapshots_perm (perm : shuffled.Perm snapshots) (e : AggregateValidationError) :
    e ∈ emptySnapshots snapshots ↔ e ∈ emptySnapshots shuffled :=
  ((perm.filter isEmptySnapshot).map _).mem_iff.symm

theorem imageBefore_trans {a b c : String × Nat} (hab : imageBefore a b) (hbc : imageBefore b c) :
    imageBefore a c := by
  rcases hab with less | ⟨same, le⟩
  · rcases hbc with less' | ⟨same', -⟩
    · exact .inl (less'.trans less)
    · exact .inl (same' ▸ less)
  · rcases hbc with less' | ⟨same', le'⟩
    · exact .inl (same ▸ less')
    · exact .inr ⟨same.trans same', le.trans le'⟩

theorem imageBefore_total (a b : String × Nat) : imageBefore a b ∨ imageBefore b a := by
  rcases Nat.lt_trichotomy a.2 b.2 with less | same | more
  · exact .inr (.inl less)
  · rcases le_total a.1 b.1 with le | ge
    · exact .inl (.inr ⟨same, le⟩)
    · exact .inr (.inr ⟨same.symm, ge⟩)
  · exact .inl (.inl more)

theorem imageBefore_antisymm {a b : String × Nat} (hab : imageBefore a b) (hba : imageBefore b a) :
    a = b := by
  rcases hab with less | ⟨same, le⟩
  · rcases hba with less' | ⟨same', -⟩ <;> omega
  · rcases hba with less' | ⟨-, le'⟩
    · omega
    · exact Prod.ext (le_antisymm le le') same

theorem sortImages_perm {counts counts' : List (String × Nat)} (perm : counts.Perm counts') :
    counts.insertionSort imageBefore = counts'.insertionSort imageBefore := by
  have : Std.Total imageBefore := ⟨imageBefore_total⟩
  have : IsTrans (String × Nat) imageBefore := ⟨fun _ _ _ => imageBefore_trans⟩
  have sorted : (counts.insertionSort imageBefore).Perm (counts'.insertionSort imageBefore) :=
    (List.perm_insertionSort _ _).trans (perm.trans (List.perm_insertionSort _ _).symm)
  exact sorted.eq_of_pairwise (fun a b _ _ => imageBefore_antisymm)
    (List.pairwise_insertionSort _ _) (List.pairwise_insertionSort _ _)

theorem baselineConflicts_perm (perm : shuffled.Perm snapshots) :
    baselineConflicts orders snapshots = baselineConflicts orders' shuffled := by
  have counted : (orders.images.iter (tally (imageRefs snapshots))).Perm
      (orders'.images.iter (tally (imageRefs shuffled))) :=
    (orders.images.rearranges _).trans
      ((tally_perm (perm.filterMap _).symm).trans (orders'.images.rearranges _).symm)
  unfold baselineConflicts
  dsimp only
  rw [counted.length_eq, sortImages_perm counted]

theorem scanDates_perm (perm : shuffled.Perm snapshots) :
    scanDates snapshots = scanDates shuffled := by
  have times := perm.filterMap fun snap => extractMetaString snap "timestamp"
  have least : ∀ {l l' : List String}, l.Perm l' → l.min? = l'.min? := by
    intro l l' perm
    refine Option.ext fun t => ?_
    rw [List.min?_eq_some_iff, List.min?_eq_some_iff, perm.mem_iff]
    simp only [perm.mem_iff]
  have greatest : ∀ {l l' : List String}, l.Perm l' → l.max? = l'.max? := by
    intro l l' perm
    refine Option.ext fun t => ?_
    rw [List.max?_eq_some_iff, List.max?_eq_some_iff, perm.mem_iff]
    simp only [perm.mem_iff]
  unfold scanDates
  dsimp only
  rw [times.length_eq, least times, greatest times]

end Sorted

section Architecture

variable {snap : InspectionSnapshot} {arch : String} {order : HashOrder.Order}

theorem extractArchitecture_isDominant (found : extractArchitecture order snap = some arch) :
    IsDominant snap arch := by
  obtain ⟨e, greatest, rfl⟩ := Option.map_eq_some_iff.mp found
  obtain ⟨mem, most⟩ := (maxByCount_spec _).2 e greatest
  obtain ⟨listed, count⟩ := mem_tally.mp ((HashOrder.mem_iter _).mp mem)
  refine ⟨listed, fun other => ?_⟩
  by_cases present : other ∈ hardwareArchs snap
  · have rival := (HashOrder.mem_iter order).mpr (tallied present)
    exact count ▸ most _ rival
  · rw [List.count_eq_zero_of_not_mem present]
    exact Nat.zero_le _

theorem exists_extractArchitecture (present : hardwareArchs snap ≠ []) :
    ∃ arch, extractArchitecture order snap = some arch := by
  rw [← Option.isSome_iff_exists, extractArchitecture, Option.isSome_map,
    ← Option.ne_none_iff_isSome, Ne, (maxByCount_spec _).1]
  obtain ⟨a, mem⟩ := List.exists_mem_of_ne_nil _ present
  exact List.ne_nil_of_mem ((HashOrder.mem_iter order).mpr (tallied mem))

theorem exists_order_extracting (dominant : IsDominant snap arch) :
    ∃ order, extractArchitecture order snap = some arch := by
  have listed := tallied dominant.1
  obtain ⟨order, init, at_end⟩ := HashOrder.exists_order_last listed
  have perm := order.rearranges (tally (hardwareArchs snap))
  refine ⟨order, ?_⟩
  rw [extractArchitecture, at_end, maxByCount_last]
  · rfl
  · intro o mem
    have counted := perm.mem_iff.mp (at_end ▸ List.mem_append_left _ mem)
    rw [(mem_tally.mp counted).2]
    exact dominant.2 o.1

theorem mem_extractedArchitectures {orders : ValidationOrders}
    {snapshots : List InspectionSnapshot} : arch ∈ extractedArchitectures orders snapshots ↔
      ∃ i snap, snapshots[i]? = some snap ∧
        extractArchitecture (orders.packages i) snap = some arch := by
  rw [extractedArchitectures, List.mem_filterMap]
  constructor
  · rintro ⟨⟨snap, i⟩, mem, found⟩
    exact ⟨i, snap, List.mem_zipIdx_iff_getElem?.mp mem, found⟩
  · rintro ⟨i, snap, there, found⟩
    exact ⟨(snap, i), List.mem_zipIdx_iff_getElem?.mpr there, found⟩

theorem mem_architectureMismatch {orders : ValidationOrders}
    {snapshots : List InspectionSnapshot} {archs : List String} :
    .architectureMismatch archs ∈ (validateSnapshots orders snapshots).errors ↔
      1 < (distinctSorted (extractedArchitectures orders snapshots)).length ∧
        distinctSorted (extractedArchitectures orders snapshots) = archs := by
  have here : .architectureMismatch archs ∈ (validateSnapshots orders snapshots).errors ↔
      .architectureMismatch archs ∈ architectures orders snapshots := by
    have others : .architectureMismatch archs ∉ tooFew snapshots := by
      unfold tooFew
      split <;> simp
    simp [validateSnapshots, schemaVersions, majorVersions, emptySnapshots,
      mem_duplicateHostnames, others]
  rw [here, architectures, ← @severalOf_eq_some_iff _ _ orders.architectures]
  simp

end Architecture

section Fixed

variable {snapshots shuffled : List InspectionSnapshot} {orders orders' : ValidationOrders}

theorem length_distinctSorted_le_one {values : List String}
    (alike : ∀ a ∈ values, ∀ b ∈ values, a = b) : ¬ 1 < (distinctSorted values).length := by
  intro several
  obtain ⟨a, b, rest, shape⟩ := exists_first_two several
  have once := distinctSorted_nodup values
  have ha : a ∈ distinctSorted values := shape ▸ List.mem_cons_self
  have hb : b ∈ distinctSorted values := shape ▸ List.mem_cons_of_mem _ List.mem_cons_self
  rw [shape, List.nodup_cons, List.mem_cons, not_or] at once
  exact once.1.1 (alike a (mem_distinctSorted.mp ha) b (mem_distinctSorted.mp hb))

theorem architectures_of_one (one : AtMostOneHardwareHost snapshots) :
    architectures orders snapshots = [] := by
  have alike : ∀ a ∈ extractedArchitectures orders snapshots,
      ∀ b ∈ extractedArchitectures orders snapshots, a = b := by
    intro a ha b hb
    obtain ⟨i, snap, at_i, found⟩ := mem_extractedArchitectures.mp ha
    obtain ⟨j, snap', at_j, found'⟩ := mem_extractedArchitectures.mp hb
    have present := List.ne_nil_of_mem (extractArchitecture_isDominant found).1
    have present' := List.ne_nil_of_mem (extractArchitecture_isDominant found').1
    obtain rfl := one i j snap snap' at_i at_j present present'
    rw [at_i] at at_j
    cases at_j
    rw [found] at found'
    exact Option.some.inj found'
  rw [architectures]
  cases found : severalOf orders.architectures (extractedArchitectures orders snapshots) with
  | none => rfl
  | some archs =>
    exact absurd (severalOf_eq_some_iff.mp found).1 (length_distinctSorted_le_one alike)

theorem atMostOneHardwareHost_iff : AtMostOneHardwareHost snapshots ↔
    snapshots.Pairwise fun a b => hardwareArchs a = [] ∨ hardwareArchs b = [] := by
  rw [List.pairwise_iff_getElem]
  constructor
  · intro one i j at_i at_j before
    by_contra both
    rw [not_or] at both
    have same := one i j _ _ (List.getElem?_eq_getElem at_i) (List.getElem?_eq_getElem at_j)
      both.1 both.2
    omega
  · intro each i j a b found_i found_j present_a present_b
    obtain ⟨at_i, rfl⟩ := List.getElem?_eq_some_iff.mp found_i
    obtain ⟨at_j, rfl⟩ := List.getElem?_eq_some_iff.mp found_j
    rcases Nat.lt_trichotomy i j with before | same | after
    · rcases each i j at_i at_j before with empty | empty
      · exact absurd empty present_a
      · exact absurd empty present_b
    · exact same
    · rcases each j i at_j at_i after with empty | empty
      · exact absurd empty present_b
      · exact absurd empty present_a

theorem atMostOneHardwareHost_perm (perm : shuffled.Perm snapshots)
    (one : AtMostOneHardwareHost snapshots) : AtMostOneHardwareHost shuffled := by
  rw [atMostOneHardwareHost_iff] at one ⊢
  exact (perm.pairwise_iff fun apart => apart.symm).mpr one

theorem mem_extractedArchitectures_of_settled
    (settled : ∀ snap ∈ snapshots, ∀ arch, IsDominant snap arch →
      ∃ other ∈ snapshots, IsSoleArch other arch) (arch : String) :
    arch ∈ extractedArchitectures orders snapshots ↔ ∃ snap ∈ snapshots, IsDominant snap arch := by
  rw [mem_extractedArchitectures]
  constructor
  · rintro ⟨i, snap, there, found⟩
    exact ⟨snap, List.mem_of_getElem? there, extractArchitecture_isDominant found⟩
  · rintro ⟨snap, mem, dominant⟩
    obtain ⟨other, there, sole⟩ := settled snap mem arch dominant
    obtain ⟨i, inside, rfl⟩ := List.getElem_of_mem there
    have present := List.ne_nil_of_mem ((sole arch).mpr rfl).1
    obtain ⟨taken, found⟩ := @exists_extractArchitecture snapshots[i] (orders.packages i) present
    obtain rfl := (sole taken).mp (extractArchitecture_isDominant found)
    exact ⟨i, _, List.getElem?_eq_getElem inside, found⟩

theorem architectures_of_settled (perm : shuffled.Perm snapshots)
    (settled : TiesAreSettled snapshots) :
    architectures orders snapshots = architectures orders' shuffled := by
  rcases settled with one | each
  · rw [architectures_of_one one, architectures_of_one (atMostOneHardwareHost_perm perm one)]
  · have each' : ∀ snap ∈ shuffled, ∀ arch, IsDominant snap arch →
        ∃ other ∈ shuffled, IsSoleArch other arch := by
      intro snap mem arch dominant
      obtain ⟨other, there, sole⟩ := each snap (perm.mem_iff.mp mem) arch dominant
      exact ⟨other, perm.mem_iff.mpr there, sole⟩
    have same : ∀ arch, arch ∈ extractedArchitectures orders snapshots ↔
        arch ∈ extractedArchitectures orders' shuffled := by
      intro arch
      rw [mem_extractedArchitectures_of_settled each, mem_extractedArchitectures_of_settled each']
      simp only [perm.mem_iff]
    rw [architectures, architectures, severalOf_congr same]

theorem verdictFixed_of_settled (settled : TiesAreSettled snapshots) : VerdictFixed snapshots := by
  intro shuffled perm orders orders'
  constructor
  · intro e
    simp only [validateSnapshots, List.mem_append]
    rw [tooFew_perm perm, schemaVersions_perm perm, duplicateHostnames_perm perm,
      architectures_of_settled perm settled, majorVersions_perm perm, emptySnapshots_perm perm]
  · intro w
    simp only [validateSnapshots]
    rw [minorVersions_perm perm, systemTypes_perm perm, baselineConflicts_perm perm,
      scanDates_perm perm]

theorem exists_orders_avoiding {arch : String}
    (tied : ∀ other ∈ snapshots, ¬ IsSoleArch other arch) :
    ∃ orders, arch ∉ extractedArchitectures orders snapshots := by
  have each : ∀ i : Nat, ∃ order, ∀ snap, snapshots[i]? = some snap →
      extractArchitecture order snap ≠ some arch := by
    intro i
    cases there : snapshots[i]? with
    | none => exact ⟨.insertion, fun snap found => by cases found⟩
    | some snap =>
      by_cases dominant : IsDominant snap arch
      · have several := tied snap (List.mem_of_getElem? there)
        unfold IsSoleArch at several
        push Not at several
        obtain ⟨other, ⟨rival, differ⟩ | ⟨lesser, same⟩⟩ := several
        · obtain ⟨order, found⟩ := exists_order_extracting rival
          refine ⟨order, fun snap' is taken => differ ?_⟩
          cases is
          rw [found] at taken
          exact Option.some.inj taken
        · exact absurd (same ▸ dominant) lesser
      · refine ⟨.insertion, fun snap' is taken => dominant ?_⟩
        cases is
        exact extractArchitecture_isDominant taken
  choose packages avoids using each
  refine ⟨⟨.insertion, .insertion, .insertion, .insertion, .insertion, .insertion, .insertion,
    packages⟩, fun mem => ?_⟩
  obtain ⟨i, snap, there, taken⟩ := mem_extractedArchitectures.mp mem
  exact avoids i snap there taken

theorem settled_of_verdictFixed (fixed : VerdictFixed snapshots) : TiesAreSettled snapshots := by
  by_contra unsettled
  rw [TiesAreSettled, not_or] at unsettled
  obtain ⟨several, loose⟩ := unsettled
  unfold AtMostOneHardwareHost at several
  push Not at several loose
  obtain ⟨snap, mem, arch, dominant, tied⟩ := loose
  obtain ⟨p, inside, rfl⟩ := List.getElem_of_mem mem
  have at_p := List.getElem?_eq_getElem inside
  obtain ⟨k, other, apart, at_k, present⟩ : ∃ k other, k ≠ p ∧ snapshots[k]? = some other ∧
      hardwareArchs other ≠ [] := by
    obtain ⟨i, j, a, b, at_i, at_j, present_a, present_b, differ⟩ := several
    by_cases is : i = p
    · exact ⟨j, b, fun same => differ (is.trans same.symm), at_j, present_b⟩
    · exact ⟨i, a, is, at_i, present_a⟩
  obtain ⟨orders, avoided⟩ := exists_orders_avoiding tied
  obtain ⟨order, taken⟩ := exists_order_extracting dominant
  let turned : ValidationOrders :=
    { orders with packages := Function.update orders.packages p order }
  have at_tie : arch ∈ extractedArchitectures turned snapshots :=
    mem_extractedArchitectures.mpr ⟨p, _, at_p, by simpa [turned] using taken⟩
  obtain ⟨rival, found⟩ := @exists_extractArchitecture other (orders.packages k) present
  have beside : rival ∈ extractedArchitectures turned snapshots :=
    mem_extractedArchitectures.mpr ⟨k, _, at_k, by simpa [turned, apart] using found⟩
  have without : rival ∈ extractedArchitectures orders snapshots :=
    mem_extractedArchitectures.mpr ⟨k, _, at_k, found⟩
  have differ : arch ≠ rival := fun same => avoided (same ▸ without)
  have two : 1 < (distinctSorted (extractedArchitectures turned snapshots)).length := by
    by_contra few
    exact differ (HashOrder.eq_of_length_le_one (by omega) (mem_distinctSorted.mpr at_tie)
      (mem_distinctSorted.mpr beside))
  have reported := ((fixed snapshots (List.Perm.refl _) orders turned).errors _).mpr
    (mem_architectureMismatch.mpr ⟨two, rfl⟩)
  obtain ⟨-, same⟩ := mem_architectureMismatch.mp reported
  exact avoided (mem_distinctSorted.mp (same ▸ mem_distinctSorted.mpr at_tie))

/-- The verdict is a function of the snapshots exactly when every tie is settled. -/
theorem verdict_fixed_iff (snapshots : List InspectionSnapshot) :
    VerdictFixed snapshots ↔ TiesAreSettled snapshots :=
  ⟨settled_of_verdictFixed, verdictFixed_of_settled⟩

end Fixed

section Tie

def hostOfArchs (name : String) (archs : List String) : InspectionSnapshot :=
  { metadata := (∅ : TextMap Json).insert "hostname" (.str name)
    rpm := some { packagesAdded := archs.map fun arch => { name := "glibc", arch } } }

/-- A host with two architectures alike: the order of its table decides whether the merge is
    refused. -/
theorem tie_moves_verdict :
    ¬ VerdictFixed [hostOfArchs "db" ["x86_64", "i686"], hostOfArchs "web" ["x86_64"]] := by
  intro fixed
  have same := (fixed _ (List.Perm.refl _)
    ⟨.insertion, .insertion, .insertion, .insertion, .insertion, .insertion, .insertion,
      fun _ => .insertion⟩
    ⟨.insertion, .insertion, .insertion, .insertion, .insertion, .insertion, .insertion,
      fun _ => .reversed⟩).errors (.architectureMismatch ["i686", "x86_64"])
  exact absurd (same.mp (by decide)) (by decide)

end Tie

end Inspectah
