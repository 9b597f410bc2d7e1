import Inspectah.Aggregate.MergeRpm

/-!
What the merge engine makes of one identity. A row it returns is one of the
input rows with the prevalence of its group stamped on it; a row some host
lacks is left excluded.
-/
namespace Inspectah

open Grouping AggregateMergeable

variable (p : AggregatePrevalence) (val : Bool)

section Rows

variable {α : Type} [FindingRow α] [AggregateMergeable α]

@[simp] theorem identityKey_setInclude (a : α) :
    identityKey (setInclude val a) = identityKey a := by simp [setInclude]

@[simp] theorem aggregate_setInclude (a : α) :
    aggregate (setInclude val a) = aggregate a := by simp [setInclude]

@[simp] theorem contentVariantKey_setInclude (a : α) :
    contentVariantKey (setInclude val a) = contentVariantKey a := by simp [setInclude]

@[simp] theorem variantSelection_setInclude (a : α) :
    variantSelection (setInclude val a) = variantSelection a := by simp [setInclude]

omit [AggregateMergeable α] in
@[simp] theorem disposition_setInclude (a : α) :
    FindingRow.disposition (setInclude val a) = (FindingRow.disposition a).withInclude val := by
  simp [setInclude]

theorem narrowNonUniversal_eq (a : α) :
    narrowNonUniversal a = if isDominated a then setInclude false a else a := rfl

@[simp] theorem identityKey_narrowNonUniversal (a : α) :
    identityKey (narrowNonUniversal a) = identityKey a := by
  rw [narrowNonUniversal_eq]
  split <;> simp

@[simp] theorem aggregate_narrowNonUniversal (a : α) :
    aggregate (narrowNonUniversal a) = aggregate a := by
  rw [narrowNonUniversal_eq]
  split <;> simp

@[simp] theorem contentVariantKey_narrowNonUniversal (a : α) :
    contentVariantKey (narrowNonUniversal a) = contentVariantKey a := by
  rw [narrowNonUniversal_eq]
  split <;> simp

@[simp] theorem variantSelection_narrowNonUniversal (a : α) :
    variantSelection (narrowNonUniversal a) = variantSelection a := by
  rw [narrowNonUniversal_eq]
  split <;> simp

theorem narrowNonUniversal_again (a : α) :
    narrowNonUniversal (narrowNonUniversal a) = narrowNonUniversal a := by
  have still : isDominated (narrowNonUniversal a) = isDominated a := by simp [isDominated]
  rw [narrowNonUniversal_eq (narrowNonUniversal a), still]
  by_cases dominated : isDominated a = true
  · have twice : ∀ d : FindingKind, (d.withInclude false).withInclude false = d.withInclude false := by
      intro d
      cases d <;> rfl
    simp [narrowNonUniversal_eq, dominated, setInclude, twice]
  · rw [if_neg dominated]

@[simp] theorem identityKey_stampPrevalence (a : α) :
    identityKey (stampPrevalence p a) = identityKey a := by simp [stampPrevalence]

@[simp] theorem aggregate_stampPrevalence (a : α) :
    aggregate (stampPrevalence p a) = some p := by simp [stampPrevalence]

@[simp] theorem contentVariantKey_stampPrevalence (a : α) :
    contentVariantKey (stampPrevalence p a) = contentVariantKey a := by simp [stampPrevalence]

@[simp] theorem variantSelection_stampPrevalence (a : α) :
    variantSelection (stampPrevalence p a) = variantSelection a := by simp [stampPrevalence]

@[simp] theorem disposition_stampPrevalence (a : α) :
    FindingRow.disposition (stampPrevalence p a) = (FindingRow.disposition a).withInclude true := by
  simp [stampPrevalence]

end Rows

section Hosts

variable {α : Type}

theorem mem_hostsOf {hostnames : List String} {rows : List (HostRow α)} {host : String} :
    host ∈ hostsOf hostnames rows ↔ ∃ row ∈ rows, hostnames.getD row.1 "" = host := by
  rw [hostsOf, mem_distinctSorted, List.mem_map]

theorem hostsOf_congr (hostnames : List String) {rows rows' : List (HostRow α)}
    (same : ∀ row, row ∈ rows ↔ row ∈ rows') : hostsOf hostnames rows = hostsOf hostnames rows' := by
  apply distinctSorted_congr
  intro host
  rw [List.mem_map, List.mem_map]
  exact exists_congr fun row => and_congr_left fun _ => same row

theorem prevalenceOf_congr (totalHosts : Nat) (hostnames : List String)
    {rows rows' : List (HostRow α)} (same : ∀ row, row ∈ rows ↔ row ∈ rows') :
    prevalenceOf totalHosts hostnames rows = prevalenceOf totalHosts hostnames rows' := by
  rw [prevalenceOf, prevalenceOf, hostsOf_congr hostnames same]

def InRange (hostnames : List String) (rows : List (HostRow α)) : Prop :=
  ∀ row ∈ rows, row.1 < hostnames.length

variable {hostnames : List String} {rows : List (HostRow α)}

theorem hostname_at {i : Nat} (inside : i < hostnames.length) :
    hostnames.getD i "" = hostnames[i] := by
  simp [inside]

theorem hostsOf_subset (inRange : InRange hostnames rows) :
    hostsOf hostnames rows ⊆ hostnames := by
  intro host mem
  obtain ⟨row, there, rfl⟩ := mem_hostsOf.mp mem
  rw [hostname_at (inRange row there)]
  exact List.getElem_mem _

theorem hostsOf_length_le (inRange : InRange hostnames rows) :
    (hostsOf hostnames rows).length ≤ hostnames.length := by
  have once : (hostsOf hostnames rows).Nodup := distinctSorted_nodup _
  exact (once.subperm (hostsOf_subset inRange)).length_le

theorem hostsOf_length_eq_iff (distinct : hostnames.Nodup) (inRange : InRange hostnames rows) :
    (hostsOf hostnames rows).length = hostnames.length ↔
      ∀ i < hostnames.length, ∃ row ∈ rows, row.1 = i := by
  have once : (hostsOf hostnames rows).Nodup := distinctSorted_nodup _
  constructor
  · intro full i inside
    have all := (once.subperm (hostsOf_subset inRange)).perm_of_length_le (le_of_eq full.symm)
    have host : hostnames[i] ∈ hostsOf hostnames rows :=
      all.mem_iff.mpr (List.getElem_mem inside)
    obtain ⟨row, there, named⟩ := mem_hostsOf.mp host
    rw [hostname_at (inRange row there)] at named
    exact ⟨row, there, (List.Nodup.getElem_inj_iff distinct).mp named⟩
  · intro every
    refine le_antisymm (hostsOf_length_le inRange) ?_
    have covered : hostnames ⊆ hostsOf hostnames rows := by
      intro host mem
      obtain ⟨i, inside, rfl⟩ := List.getElem_of_mem mem
      obtain ⟨row, there, rfl⟩ := every i inside
      exact mem_hostsOf.mpr ⟨row, there, hostname_at inside⟩
    exact (distinct.subperm covered).length_le

end Hosts

section Representative

variable {α : Type} [FindingRow α] [AggregateMergeable α] [Serialize α]

theorem countPayload_ne_nil (payload : String) (pos : Nat) (counts : List PayloadCount) :
    countPayload payload pos counts ≠ [] := by
  cases counts with
  | nil => simp [countPayload]
  | cons c rest =>
    unfold countPayload
    split <;> simp

theorem countPayload_first {payload : String} {pos bound : Nat} (inside : pos < bound)
    {counts : List PayloadCount} (known : ∀ c ∈ counts, c.first < bound) :
    ∀ c ∈ countPayload payload pos counts, c.first < bound := by
  induction counts with
  | nil =>
    intro c mem
    rw [List.mem_singleton.mp mem]
    exact inside
  | cons d rest ih =>
    have head := known d List.mem_cons_self
    have tail := fun c mem => known c (List.mem_cons_of_mem d mem)
    unfold countPayload
    split
    · intro c mem
      rcases List.mem_cons.mp mem with rfl | later
      · exact head
      · exact tail c later
    · intro c mem
      rcases List.mem_cons.mp mem with rfl | later
      · exact head
      · exact ih tail c later

theorem foldl_countPayload (rows : List (α × Nat)) {bound : Nat}
    (inside : ∀ row ∈ rows, row.2 < bound) {counts : List PayloadCount}
    (known : ∀ c ∈ counts, c.first < bound) :
    ∀ c ∈ rows.foldl (fun counts row => countPayload (payloadOf row.1) row.2 counts) counts,
      c.first < bound := by
  induction rows generalizing counts with
  | nil => exact known
  | cons row rest ih =>
    rw [List.foldl_cons]
    apply ih fun r mem => inside r (List.mem_cons_of_mem row mem)
    exact countPayload_first (inside row List.mem_cons_self) known

theorem foldl_countPayload_ne_nil (rows : List (α × Nat)) {counts : List PayloadCount}
    (some_counted : counts ≠ [] ∨ rows ≠ []) :
    rows.foldl (fun counts row => countPayload (payloadOf row.1) row.2 counts) counts ≠ [] := by
  induction rows generalizing counts with
  | nil =>
    rcases some_counted with counted | none_left
    · exact counted
    · exact absurd rfl none_left
  | cons row rest ih =>
    rw [List.foldl_cons]
    exact ih (.inl (countPayload_ne_nil _ _ _))

theorem mostPrevalentPayload_mem {rows : List α} (occupied : rows ≠ []) :
    ∃ a ∈ rows, mostPrevalentPayload rows = some a := by
  have counted : payloadCounts rows ≠ [] := by
    apply foldl_countPayload_ne_nil
    right
    intro none_left
    have := congrArg List.length none_left
    rw [List.length_zipIdx, List.length_nil] at this
    exact occupied (List.eq_nil_of_length_eq_zero this)
  have inside : ∀ c ∈ payloadCounts rows, c.first < rows.length := by
    apply foldl_countPayload
    · intro row mem
      have := (List.mem_zipIdx mem).2.1
      omega
    · intro c mem
      cases mem
  cases sorted : (payloadCounts rows).insertionSort PayloadCount.before with
  | nil =>
    have := List.length_insertionSort PayloadCount.before (payloadCounts rows)
    rw [sorted, List.length_nil] at this
    exact absurd (List.eq_nil_of_length_eq_zero this.symm) counted
  | cons c rest =>
    have mem : c ∈ payloadCounts rows := by
      rw [← List.mem_insertionSort PayloadCount.before, sorted]
      exact List.mem_cons_self
    refine ⟨rows.get ⟨c.first, inside c mem⟩, List.get_mem _ _, ?_⟩
    rw [mostPrevalentPayload, sorted, List.head?_cons, Option.bind_some]
    exact List.getElem?_eq_getElem (inside c mem)

end Representative

section Engine

variable {α : Type} [FindingRow α] [AggregateMergeable α] [Serialize α]
variable {order : HashOrder.Order} {totalHosts : Nat} {hostnames : List String}

def rowsOfKey (items : List (HostRow α)) (k : String) : List (HostRow α) :=
  rowsAt (fun row => identityKey row.2) items k

omit [Serialize α] in
theorem mem_rowsOfKey {items : List (HostRow α)} {k : String} {row : HostRow α} :
    row ∈ rowsOfKey items k ↔ row ∈ items ∧ identityKey row.2 = k := mem_rowsAt

def inHostOrder (group : List (HostRow α)) : List (HostRow α) :=
  group.insertionSort fun a b => a.1 ≤ b.1

omit [FindingRow α] [AggregateMergeable α] [Serialize α] in
theorem mem_inHostOrder {group : List (HostRow α)} {row : HostRow α} :
    row ∈ inHostOrder group ↔ row ∈ group := List.mem_insertionSort _

omit [FindingRow α] [AggregateMergeable α] [Serialize α] in
theorem inHostOrder_leads {group : List (HostRow α)} (occupied : group ≠ []) :
    ∃ first ∈ group, (inHostOrder group).head? = some first := by
  cases ordered : inHostOrder group with
  | nil =>
    have same := List.length_insertionSort (fun a b : HostRow α => a.1 ≤ b.1) group
    rw [← inHostOrder, ordered] at same
    exact absurd (List.eq_nil_of_length_eq_zero same.symm) occupied
  | cons first rest =>
    have mem : first ∈ inHostOrder group := ordered ▸ List.mem_cons_self
    exact ⟨first, mem_inHostOrder.mp mem, rfl⟩

theorem mem_mergeItems {items : List (HostRow α)} {merged : List α}
    (made : mergeItems order items totalHosts hostnames = some merged) {m : α} :
    m ∈ merged ↔ ∃ row ∈ items, ∃ results,
      mergeGroup order totalHosts hostnames (rowsOfKey items (identityKey row.2)) = some results ∧
        ∃ r ∈ results, narrowNonUniversal r = m := by
  obtain ⟨parts, each, rfl⟩ := Option.map_eq_some_iff.mp made
  rw [mapM_eq_some_iff, List.forall₂_iff_get] at each
  obtain ⟨same_length, each⟩ := each
  rw [List.mem_insertionSort, List.mem_map]
  constructor
  · rintro ⟨r, there, rfl⟩
    obtain ⟨results, part, inside⟩ := List.mem_flatten.mp there
    obtain ⟨i, bound, rfl⟩ := List.getElem_of_mem part
    have group := List.getElem_mem (l := order.iter (groupBy (fun row : HostRow α =>
      identityKey row.2) items)) (by omega : i < _)
    rw [HashOrder.mem_iter] at group
    obtain ⟨⟨row, known, at_key⟩, rows⟩ := mem_groupBy.mp group
    have result := each i (by omega) bound
    simp only [List.get_eq_getElem] at result
    rw [rows, ← at_key] at result
    exact ⟨row, known, _, result, r, inside, rfl⟩
  · rintro ⟨row, known, results, result, r, inside, rfl⟩
    have group : (identityKey row.2, rowsOfKey items (identityKey row.2)) ∈
        order.iter (groupBy (fun row : HostRow α => identityKey row.2) items) := by
      rw [HashOrder.mem_iter, mem_groupBy]
      exact ⟨⟨row, known, rfl⟩, rfl⟩
    obtain ⟨i, bound, at_i⟩ := List.getElem_of_mem group
    have part := each i bound (by omega)
    simp only [List.get_eq_getElem, at_i] at part
    rw [result] at part
    refine ⟨r, List.mem_flatten.mpr ⟨results, ?_, inside⟩, rfl⟩
    rw [Option.some.inj part]
    exact List.getElem_mem _

theorem mergeGroup_plain {group : List (HostRow α)} {first : HostRow α}
    (leads : (inHostOrder group).head? = some first) (plain : contentVariantKey first.2 = none) :
    ∃ row ∈ group, mergeGroup order totalHosts hostnames group =
      some [stampPrevalence (prevalenceOf totalHosts hostnames group) row.2] := by
  have occupied : (inHostOrder group).map Prod.snd ≠ [] := by
    intro none_there
    rw [List.map_eq_nil_iff] at none_there
    rw [none_there] at leads
    cases leads
  obtain ⟨a, mem, chosen⟩ := mostPrevalentPayload_mem occupied
  obtain ⟨row, there, rfl⟩ := List.mem_map.mp mem
  have hosts : prevalenceOf totalHosts hostnames (inHostOrder group) =
      prevalenceOf totalHosts hostnames group :=
    prevalenceOf_congr totalHosts hostnames fun _ => mem_inHostOrder
  refine ⟨row, mem_inHostOrder.mp there, ?_⟩
  unfold mergeGroup
  rw [inHostOrder] at leads chosen hosts
  simp [leads, plain, chosen, hosts]

end Engine

end Inspectah
