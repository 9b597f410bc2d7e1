import Inspectah.Aggregate.MergeLaws

/-!
What the merge engine keeps and what it invents. It is exact unless rows of one identity are
keyed differently, or a lone content's row already has a role.
-/
namespace Inspectah

open Grouping AggregateMergeable

section Spec

variable {α : Type} [FindingRow α] [AggregateMergeable α]

def entryKey (a : α) : String × Option String := (identityKey a, contentVariantKey a)

def rowsOfEntry (items : List (HostRow α)) (k : String × Option String) : List (HostRow α) :=
  rowsAt (fun row => entryKey row.2) items k

def Several (items : List (HostRow α)) (k : String) : Prop :=
  ∃ row ∈ items, ∃ other ∈ items, identityKey row.2 = k ∧ identityKey other.2 = k ∧
    contentVariantKey row.2 ≠ contentVariantKey other.2

/-- More hosts carry the first entry than the second, or as many and its hash is less. -/
def Outranks (hostnames : List String) (items : List (HostRow α)) (a b : α) : Prop :=
  (hostsOf hostnames (rowsOfEntry items (entryKey b))).length <
      (hostsOf hostnames (rowsOfEntry items (entryKey a))).length ∨
    ((hostsOf hostnames (rowsOfEntry items (entryKey a))).length =
        (hostsOf hostnames (rowsOfEntry items (entryKey b))).length ∧
      (contentVariantKey a).getD "" < (contentVariantKey b).getD "")

structure ExactPrevalence (totalHosts : Nat) (hostnames : List String) (items : List (HostRow α))
    (m : α) (p : AggregatePrevalence) : Prop where
  hosts : p.hosts = hostsOf hostnames (rowsOfEntry items (entryKey m))
  count : p.count = p.hosts.length
  total : p.total = totalHosts
  bounded : p.count ≤ p.total
  union : Several items (identityKey m) →
    p.aggregateHosts = some (hostsOf hostnames (rowsOfKey items (identityKey m)))
  included : ∀ b, FindingRow.disposition m = .actionable b → (b = true ↔ p.count = p.total)

/-- The merge loses nothing and invents nothing. -/
structure ExactMerge (totalHosts : Nat) (hostnames : List String) (items : List (HostRow α))
    (merged : List α) : Prop where
  sorted : merged.Pairwise fun a b => identityKey a ≤ identityKey b
  distinct : (merged.map entryKey).Nodup
  entries : ∀ k, k ∈ merged.map entryKey ↔ ∃ row ∈ items, entryKey row.2 = k
  prevalence : ∀ m ∈ merged, ∃ p, aggregate m = some p ∧
    ExactPrevalence totalHosts hostnames items m p
  roles : ∀ k, Several items k → ∃ w ∈ merged, identityKey w = k ∧
    ∀ m ∈ merged, identityKey m = k →
      (entryKey m ≠ entryKey w → Outranks hostnames items w m) ∧
      ∀ role, variantSelection m = some role →
        role = if entryKey m = entryKey w then .selected else .alternative
  only : ∀ m ∈ merged, contentVariantKey m ≠ none → ¬ Several items (identityKey m) →
    ∀ role, variantSelection m = some role → role = .only

def KeyedAlike (items : List (HostRow α)) : Prop :=
  ∀ row ∈ items, ∀ other ∈ items, identityKey row.2 = identityKey other.2 →
    (contentVariantKey row.2).isSome = (contentVariantKey other.2).isSome

def LoneIsOnly (items : List (HostRow α)) : Prop :=
  ∀ k, ¬ Several items k → ∀ first, (inHostOrder (rowsOfKey items k)).head? = some first →
    contentVariantKey first.2 ≠ none → ∀ role, variantSelection first.2 = some role → role = .only

def mergedEntry (totalHosts : Nat) (hostnames : List String) (items : List (HostRow α))
    (role : Option VariantSelection) (union : Option (List String)) (source : HostRow α) : α :=
  narrowNonUniversal (role.elim id setVariantSelection
    (stampPrevalence
      { prevalenceOf totalHosts hostnames (rowsOfEntry items (entryKey source.2)) with
        aggregateCount := union.map fun hosts => hosts.length
        aggregateHosts := union }
      source.2))

variable {totalHosts : Nat} {hostnames : List String} {items : List (HostRow α)}
  {role : Option VariantSelection} {union : Option (List String)} {source : HostRow α}

theorem mem_rowsOfEntry {k : String × Option String} {row : HostRow α} :
    row ∈ rowsOfEntry items k ↔ row ∈ items ∧ entryKey row.2 = k := mem_rowsAt

@[simp] theorem identityKey_mergedEntry :
    identityKey (mergedEntry totalHosts hostnames items role union source) =
      identityKey source.2 := by
  cases role <;> simp [mergedEntry]

@[simp] theorem contentVariantKey_mergedEntry :
    contentVariantKey (mergedEntry totalHosts hostnames items role union source) =
      contentVariantKey source.2 := by
  cases role <;> simp [mergedEntry]

@[simp] theorem entryKey_mergedEntry :
    entryKey (mergedEntry totalHosts hostnames items role union source) = entryKey source.2 := by
  simp [entryKey]

theorem aggregate_mergedEntry :
    aggregate (mergedEntry totalHosts hostnames items role union source) =
      some { prevalenceOf totalHosts hostnames (rowsOfEntry items (entryKey source.2)) with
        aggregateCount := union.map fun hosts => hosts.length
        aggregateHosts := union } := by
  cases role <;> simp [mergedEntry]

theorem variantSelection_mergedEntry :
    variantSelection (mergedEntry totalHosts hostnames items role union source) =
      (variantSelection source.2).map role.getD := by
  cases role <;> cases selection : variantSelection source.2 <;> simp [mergedEntry, selection]

theorem disposition_mergedEntry :
    FindingRow.disposition (mergedEntry totalHosts hostnames items role union source) =
      (FindingRow.disposition source.2).withInclude (decide (totalHosts ≤
        (hostsOf hostnames (rowsOfEntry items (entryKey source.2))).length)) := by
  have twice : ∀ d : FindingKind, (d.withInclude true).withInclude false = d.withInclude false := by
    intro d
    cases d <;> rfl
  have dominated : isDominated (role.elim id setVariantSelection (stampPrevalence
      { prevalenceOf totalHosts hostnames (rowsOfEntry items (entryKey source.2)) with
        aggregateCount := union.map fun hosts => hosts.length
        aggregateHosts := union } source.2)) = decide
      ((hostsOf hostnames (rowsOfEntry items (entryKey source.2))).length < totalHosts) := by
    cases role <;> simp [isDominated, prevalenceOf]
  unfold mergedEntry
  rw [narrowNonUniversal_eq, dominated]
  by_cases few : (hostsOf hostnames (rowsOfEntry items (entryKey source.2))).length < totalHosts
  · cases role <;> simp [few, not_le.mpr few, twice]
  · cases role <;> simp [few, not_lt.mp few]

theorem exactPrevalence_mergedEntry (inRange : InRange hostnames items)
    (covers : hostnames.length ≤ totalHosts)
    (joined : Several items (identityKey source.2) →
      union = some (hostsOf hostnames (rowsOfKey items (identityKey source.2)))) :
    ∃ p, aggregate (mergedEntry totalHosts hostnames items role union source) = some p ∧
      ExactPrevalence totalHosts hostnames items
        (mergedEntry totalHosts hostnames items role union source) p := by
  have few : (hostsOf hostnames (rowsOfEntry items (entryKey source.2))).length ≤ hostnames.length :=
    hostsOf_length_le fun row mem => inRange row (mem_rowsOfEntry.mp mem).1
  refine ⟨_, aggregate_mergedEntry, ?_⟩
  constructor
  · rw [entryKey_mergedEntry]
    rfl
  · rfl
  · rfl
  · simp only [prevalenceOf]
    omega
  · rw [identityKey_mergedEntry]
    exact joined
  · intro b decided
    rw [disposition_mergedEntry] at decided
    cases kind : FindingRow.disposition source.2 with
    | actionable incl =>
      rw [kind] at decided
      cases decided
      simp only [prevalenceOf, decide_eq_true_iff]
      omega
    | advisory t r =>
      rw [kind] at decided
      cases decided
    | inventory =>
      rw [kind] at decided
      cases decided

theorem exists_first_two {β : Type} {l : List β} (two : 2 ≤ l.length) :
    ∃ a b rest, l = a :: b :: rest := by
  cases l with
  | nil => simp at two
  | cons a rest =>
    cases rest with
    | nil => simp at two
    | cons b rest => exact ⟨a, b, rest, rfl⟩

theorem eq_singleton_of_mem {β : Type} {l : List β} {a : β} (few : ¬ 2 ≤ l.length) (mem : a ∈ l) :
    l = [a] := by
  cases l with
  | nil => cases mem
  | cons b rest =>
    cases rest with
    | nil => rw [List.mem_singleton.mp mem]
    | cons c rest => simp at few

variable {k : String}

/-- The subgroups of one identity: each content once, with its rows. -/
structure IsVariantTable (items : List (HostRow α)) (k : String)
    (table : List (String × List (HostRow α))) : Prop where
  nodup : (table.map Prod.fst).Nodup
  rows : ∀ e ∈ table, ∀ row, row ∈ e.2 ↔ row ∈ rowsOfEntry items (k, some e.1)
  covers : ∀ h, h ∈ table.map Prod.fst ↔ ∃ row ∈ items, entryKey row.2 = (k, some h)

theorem mem_variantRows (keyed : ∀ row ∈ rowsOfKey items k, (contentVariantKey row.2).isSome = true)
    {h : String} {row : HostRow α} :
    row ∈ rowsAt variantKeyOf (inHostOrder (rowsOfKey items k)) h ↔
      row ∈ rowsOfEntry items (k, some h) := by
  rw [mem_rowsAt, mem_inHostOrder, mem_rowsOfEntry, variantKeyOf, entryKey, Prod.mk.injEq]
  constructor
  · rintro ⟨mem, same⟩
    obtain ⟨v, has⟩ := Option.isSome_iff_exists.mp (keyed row mem)
    rw [has, Option.getD_some] at same
    exact ⟨(mem_rowsOfKey.mp mem).1, (mem_rowsOfKey.mp mem).2, same ▸ has⟩
  · rintro ⟨mem, at_k, has⟩
    exact ⟨mem_rowsOfKey.mpr ⟨mem, at_k⟩, by rw [has, Option.getD_some]⟩

theorem variantTable (order : HashOrder.Order)
    (keyed : ∀ row ∈ rowsOfKey items k, (contentVariantKey row.2).isSome = true) :
    IsVariantTable items k
      (order.iter (groupBy variantKeyOf (inHostOrder (rowsOfKey items k)))) := by
  have perm := order.rearranges (groupBy variantKeyOf (inHostOrder (rowsOfKey items k)))
  have is : IsTable variantKeyOf (inHostOrder (rowsOfKey items k)) _ := groupBy_isTable _
  constructor
  · exact (perm.map Prod.fst).nodup_iff.mpr is.nodup
  · intro e mem row
    rw [is.group e (perm.mem_iff.mp mem), mem_variantRows keyed]
  · intro h
    rw [(perm.map Prod.fst).mem_iff, is.covers]
    constructor
    · rintro ⟨row, mem, same⟩
      have there := (mem_variantRows keyed).mp (mem_rowsAt.mpr ⟨mem, same⟩)
      exact ⟨row, mem_rowsOfEntry.mp there⟩
    · rintro ⟨row, there⟩
      exact ⟨row, mem_rowsAt.mp ((mem_variantRows keyed).mpr (mem_rowsOfEntry.mpr there))⟩

variable {table : List (String × List (HostRow α))}

theorem IsVariantTable.leads (is : IsVariantTable items k table) {e : String × List (HostRow α)}
    (mem : e ∈ table) :
    ∃ first, e.2.head? = some first ∧ first ∈ items ∧ entryKey first.2 = (k, some e.1) := by
  obtain ⟨row, there, at_key⟩ := (is.covers e.1).mp (List.mem_map_of_mem mem)
  have inside := (is.rows e mem row).mpr (mem_rowsOfEntry.mpr ⟨there, at_key⟩)
  cases rows : e.2 with
  | nil =>
    rw [rows] at inside
    cases inside
  | cons first rest =>
    have member : first ∈ e.2 := rows ▸ List.mem_cons_self
    exact ⟨first, rfl, mem_rowsOfEntry.mp ((is.rows e mem first).mp member)⟩

theorem IsVariantTable.several_iff (is : IsVariantTable items k table)
    (keyed : ∀ row ∈ rowsOfKey items k, (contentVariantKey row.2).isSome = true) :
    Several items k ↔ 2 ≤ table.length := by
  constructor
  · rintro ⟨row, mem, other, mem', at_k, at_k', apart⟩
    obtain ⟨v, has⟩ := Option.isSome_iff_exists.mp (keyed row (mem_rowsOfKey.mpr ⟨mem, at_k⟩))
    obtain ⟨v', has'⟩ := Option.isSome_iff_exists.mp (keyed other (mem_rowsOfKey.mpr ⟨mem', at_k'⟩))
    have first := (is.covers v).mpr ⟨row, mem, by rw [entryKey, at_k, has]⟩
    have second := (is.covers v').mpr ⟨other, mem', by rw [entryKey, at_k', has']⟩
    by_contra few
    have one : (table.map Prod.fst).length ≤ 1 := by
      rw [List.length_map]
      omega
    have same := HashOrder.eq_of_length_le_one one first second
    exact apart (by rw [has, has', same])
  · intro two
    obtain ⟨a, b, rest, rfl⟩ := exists_first_two two
    obtain ⟨row, _, mem, at_key⟩ := is.leads List.mem_cons_self
    obtain ⟨other, _, mem', at_key'⟩ := is.leads (List.mem_cons_of_mem a List.mem_cons_self)
    rw [entryKey, Prod.mk.injEq] at at_key at_key'
    refine ⟨row, mem, other, mem', at_key.1, at_key'.1, ?_⟩
    rw [at_key.2, at_key'.2]
    intro same
    have apart := (List.nodup_cons.mp is.nodup).1
    exact apart (Option.some.inj same ▸ List.mem_cons_self)

theorem IsVariantTable.prevalence (is : IsVariantTable items k table)
    {e : String × List (HostRow α)} (mem : e ∈ table) :
    prevalenceOf totalHosts hostnames e.2 =
      prevalenceOf totalHosts hostnames (rowsOfEntry items (k, some e.1)) :=
  prevalenceOf_congr _ _ (is.rows e mem)

theorem IsVariantTable.allHosts (is : IsVariantTable items k table)
    (keyed : ∀ row ∈ rowsOfKey items k, (contentVariantKey row.2).isSome = true)
    {table' : List (String × List (HostRow α))} (perm : table'.Perm table) :
    hostsOf hostnames (table'.flatMap Prod.snd) = hostsOf hostnames (rowsOfKey items k) := by
  apply hostsOf_congr
  intro row
  rw [List.mem_flatMap]
  constructor
  · rintro ⟨e, mem, there⟩
    obtain ⟨known, at_key⟩ := mem_rowsOfEntry.mp ((is.rows e (perm.mem_iff.mp mem) row).mp there)
    exact mem_rowsOfKey.mpr ⟨known, congrArg Prod.fst at_key⟩
  · intro there
    obtain ⟨v, has⟩ := Option.isSome_iff_exists.mp (keyed row there)
    obtain ⟨known, at_k⟩ := mem_rowsOfKey.mp there
    have at_key : entryKey row.2 = (k, some v) := by rw [entryKey, at_k, has]
    obtain ⟨e, mem, rfl⟩ := List.mem_map.mp ((is.covers v).mpr ⟨row, known, at_key⟩)
    exact ⟨e, perm.mem_iff.mpr mem, (is.rows e mem row).mpr (mem_rowsOfEntry.mpr ⟨known, at_key⟩)⟩

theorem IsVariantTable.hostCount (is : IsVariantTable items k table) (distinct : hostnames.Nodup)
    (inRange : InRange hostnames items) {e : String × List (HostRow α)} (mem : e ∈ table) :
    hostCount e.2 = (hostsOf hostnames (rowsOfEntry items (k, some e.1))).length := by
  rw [← hostsOf_congr hostnames (is.rows e mem), hostsOf, Inspectah.hostCount]
  have named : e.2.map (fun row => hostnames.getD row.1 "") =
      (e.2.map Prod.fst).map fun i => hostnames.getD i "" := by
    rw [List.map_map]
    rfl
  rw [named]
  refine (length_distinctSorted_map ?_).symm
  intro i hi j hj same
  have bound : ∀ i ∈ e.2.map Prod.fst, i < hostnames.length := by
    intro i hi
    obtain ⟨row, there, rfl⟩ := List.mem_map.mp hi
    exact inRange row (mem_rowsOfEntry.mp ((is.rows e mem row).mp there)).1
  rw [hostname_at (bound i hi), hostname_at (bound j hj)] at same
  exact (List.Nodup.getElem_inj_iff distinct).mp same

/-- The entries one identity's group becomes, once narrowed. -/
structure GroupEntries (totalHosts : Nat) (hostnames : List String) (items : List (HostRow α))
    (k : String) (entries : List α) : Prop where
  distinct : (entries.map contentVariantKey).Nodup
  covers : ∀ v, v ∈ entries.map contentVariantKey ↔ ∃ row ∈ items, entryKey row.2 = (k, v)
  entry : ∀ m ∈ entries, ∃ source ∈ items, identityKey source.2 = k ∧ ∃ role union,
    m = mergedEntry totalHosts hostnames items role union source ∧
      (Several items k → union = some (hostsOf hostnames (rowsOfKey items k)))
  ranked : Several items k → ∃ w ∈ entries, ∀ m ∈ entries,
    (entryKey m ≠ entryKey w → Outranks hostnames items w m) ∧
      ∀ role, variantSelection m = some role →
        role = if entryKey m = entryKey w then .selected else .alternative
  lone : ¬ Several items k → ∀ first, (inHostOrder (rowsOfKey items k)).head? = some first →
    contentVariantKey first.2 ≠ none → ∀ m ∈ entries, variantSelection m = variantSelection first.2

theorem groupEntries_singleton {source : HostRow α} (mem : source ∈ items)
    (alone : ¬ Several items (identityKey source.2))
    (leads : ∀ first, (inHostOrder (rowsOfKey items (identityKey source.2))).head? = some first →
      contentVariantKey first.2 ≠ none → variantSelection source.2 = variantSelection first.2) :
    GroupEntries totalHosts hostnames items (identityKey source.2)
      [mergedEntry totalHosts hostnames items none none source] := by
  constructor
  · exact List.nodup_singleton _
  · intro v
    rw [List.map_singleton, List.mem_singleton, contentVariantKey_mergedEntry]
    constructor
    · rintro rfl
      exact ⟨source, mem, rfl⟩
    · rintro ⟨row, there, at_key⟩
      rw [entryKey, Prod.mk.injEq] at at_key
      by_contra apart
      exact alone ⟨row, there, source, mem, at_key.1, rfl, fun same => apart (at_key.2 ▸ same)⟩
  · intro m inside
    rw [List.mem_singleton.mp inside]
    exact ⟨source, mem, rfl, none, none, rfl, fun several => absurd several alone⟩
  · exact fun several => absurd several alone
  · intro _ first is keyed m inside
    rw [List.mem_singleton.mp inside, variantSelection_mergedEntry, leads first is keyed]
    cases variantSelection first.2 <;> rfl

instance : Std.Total (@ranksBefore α) where
  total a b := by
    unfold ranksBefore
    rcases lt_trichotomy (hostCount a.2) (hostCount b.2) with less | same | more
    · exact .inr (.inl less)
    · rcases le_total a.1 b.1 with first | second
      · exact .inl (.inr ⟨same, first⟩)
      · exact .inr (.inr ⟨same.symm, second⟩)
    · exact .inl (.inl more)

instance : IsTrans _ (@ranksBefore α) where
  trans a b c ab bc := by
    unfold ranksBefore at ab bc ⊢
    rcases ab with ab | ⟨ab, first⟩ <;> rcases bc with bc | ⟨bc, second⟩
    · exact .inl (bc.trans ab)
    · exact .inl (bc ▸ ab)
    · exact .inl (ab ▸ bc)
    · exact .inr ⟨ab.trans bc, first.trans second⟩

section Several

variable {ranked : List (String × List (HostRow α))}

theorem filterMap_variantRow (is : IsVariantTable items k ranked) (others : List String) :
    ∀ m, m ∈ (ranked.zipIdx.filterMap (variantRow totalHosts hostnames others)).map
        narrowNonUniversal ↔
      ∃ i e first, ranked[i]? = some e ∧ e.2.head? = some first ∧
        m = mergedEntry totalHosts hostnames items (some (variantRole i)) (some others) first := by
  have entry : ∀ e ∈ ranked, ∀ i first, e.2.head? = some first →
      narrowNonUniversal (setVariantSelection (variantRole i) (stampPrevalence
        { prevalenceOf totalHosts hostnames e.2 with
          aggregateCount := some (others.length : Int)
          aggregateHosts := some others } first.2)) =
      mergedEntry totalHosts hostnames items (some (variantRole i)) (some others) first := by
    intro e mem i first leads
    obtain ⟨source, is_first, _, at_key⟩ := is.leads mem
    cases leads.symm.trans is_first
    rw [mergedEntry, at_key, ← is.prevalence mem]
    rfl
  intro m
  rw [List.mem_map]
  constructor
  · rintro ⟨r, there, rfl⟩
    obtain ⟨⟨e, i⟩, at_i, made⟩ := List.mem_filterMap.mp there
    obtain ⟨first, leads, rfl⟩ := Option.map_eq_some_iff.mp made
    have found := List.mem_zipIdx_iff_getElem?.mp at_i
    exact ⟨i, e, first, found, leads, entry e (List.mem_of_getElem? found) i first leads⟩
  · rintro ⟨i, e, first, found, leads, rfl⟩
    refine ⟨_, List.mem_filterMap.mpr ⟨(e, i), List.mem_zipIdx_iff_getElem?.mpr found, ?_⟩,
      entry e (List.mem_of_getElem? found) i first leads⟩
    rw [variantRow, leads, Option.map_some]

theorem keys_variantRows (is : IsVariantTable items k ranked) (others : List String) :
    ((ranked.zipIdx.filterMap (variantRow totalHosts hostnames others)).map
        narrowNonUniversal).map contentVariantKey = (ranked.map Prod.fst).map some := by
  have each : ∀ x ∈ ranked.zipIdx, (variantRow totalHosts hostnames others x).map
      (contentVariantKey ∘ narrowNonUniversal) = some (some x.1.1) := by
    rintro ⟨e, i⟩ mem
    have found := List.mem_of_getElem? (List.mem_zipIdx_iff_getElem?.mp mem)
    obtain ⟨first, leads, _, at_key⟩ := is.leads found
    have key : contentVariantKey first.2 = some e.1 := congrArg Prod.snd at_key
    simp [variantRow, leads, key]
  rw [List.map_map, List.map_filterMap, List.filterMap_congr each]
  have firsts := List.zipIdx_map_fst 0 ranked
  rw [List.filterMap_eq_map']
  conv_rhs => rw [← firsts]
  rw [List.map_map, List.map_map]
  rfl

theorem mergeSubgroups_several (two : 2 ≤ table.length) :
    (mergeSubgroups totalHosts hostnames table).map narrowNonUniversal =
      ((table.insertionSort ranksBefore).zipIdx.filterMap (variantRow totalHosts hostnames
        (hostsOf hostnames (table.flatMap Prod.snd)))).map narrowNonUniversal := by
  have several : mergeSubgroups totalHosts hostnames table =
      ((table.insertionSort ranksBefore).zipIdx.filterMap (variantRow totalHosts hostnames
        (hostsOf hostnames (table.flatMap Prod.snd)))).map narrowNonUniversal := by
    obtain ⟨a, b, rest, rfl⟩ := exists_first_two two
    rfl
  rw [several, List.map_map]
  apply List.map_congr_left
  intro r _
  exact narrowNonUniversal_again r

theorem IsVariantTable.sorted (is : IsVariantTable items k table) :
    IsVariantTable items k (table.insertionSort ranksBefore) := by
  have perm := List.perm_insertionSort ranksBefore table
  refine ⟨(perm.map Prod.fst).nodup_iff.mpr is.nodup, ?_, ?_⟩
  · exact fun e mem => is.rows e (perm.mem_iff.mp mem)
  · exact fun h => (perm.map Prod.fst).mem_iff.trans (is.covers h)

theorem groupEntries_several (distinct : hostnames.Nodup) (inRange : InRange hostnames items)
    (keyed : ∀ row ∈ rowsOfKey items k, (contentVariantKey row.2).isSome = true)
    (is : IsVariantTable items k table) (several : Several items k) :
    GroupEntries totalHosts hostnames items k
      ((mergeSubgroups totalHosts hostnames table).map narrowNonUniversal) := by
  have two := (is.several_iff keyed).mp several
  have ranking := is.sorted
  have order : (table.insertionSort ranksBefore).Pairwise ranksBefore :=
    List.pairwise_insertionSort _ _
  have all : hostsOf hostnames (table.flatMap Prod.snd) = hostsOf hostnames (rowsOfKey items k) :=
    is.allHosts keyed (List.Perm.refl table)
  rw [mergeSubgroups_several two, all]
  have long : 2 ≤ (table.insertionSort ranksBefore).length := by
    rw [List.length_insertionSort]
    exact two
  generalize table.insertionSort ranksBefore = ranked at ranking order long
  have member := @filterMap_variantRow _ _ _ totalHosts hostnames _ _ _ ranking
    (hostsOf hostnames (rowsOfKey items k))
  have keys := @keys_variantRows _ _ _ totalHosts hostnames _ _ _ ranking
    (hostsOf hostnames (rowsOfKey items k))
  constructor
  · rw [keys]
    exact ranking.nodup.map (Option.some_injective _)
  · intro v
    rw [keys, List.mem_map]
    constructor
    · rintro ⟨h, there, rfl⟩
      exact (ranking.covers h).mp there
    · rintro ⟨row, there, at_key⟩
      have here := mem_rowsOfKey.mpr ⟨there, congrArg Prod.fst at_key⟩
      obtain ⟨h, has⟩ := Option.isSome_iff_exists.mp (keyed row here)
      have same : v = some h := (congrArg Prod.snd at_key).symm.trans has
      exact ⟨h, (ranking.covers h).mpr ⟨row, there, same ▸ at_key⟩, same.symm⟩
  · intro m mem
    obtain ⟨i, e, first, found, leads, rfl⟩ := (member m).mp mem
    obtain ⟨source, is_first, there, at_key⟩ := ranking.leads (List.mem_of_getElem? found)
    cases leads.symm.trans is_first
    exact ⟨first, there, congrArg Prod.fst at_key, _, _, rfl, fun _ => rfl⟩
  · intro _
    obtain ⟨e₀, rest, rfl⟩ := List.exists_cons_of_length_pos (Nat.lt_of_lt_of_le Nat.two_pos long)
    obtain ⟨first₀, leads₀, _, at_key₀⟩ := ranking.leads List.mem_cons_self
    refine ⟨_, (member _).mpr ⟨0, e₀, first₀, rfl, leads₀, rfl⟩, ?_⟩
    intro m mem
    obtain ⟨i, e, first, found, leads, rfl⟩ := (member m).mp mem
    have here := List.mem_of_getElem? found
    obtain ⟨source, is_first, _, at_key⟩ := ranking.leads here
    cases leads.symm.trans is_first
    simp only [entryKey_mergedEntry, at_key, at_key₀]
    cases i with
    | zero =>
      cases found
      refine ⟨fun apart => absurd rfl apart, ?_⟩
      intro role is_role
      rw [variantSelection_mergedEntry] at is_role
      obtain ⟨_, _, rfl⟩ := Option.map_eq_some_iff.mp is_role
      simp [variantRole]
    | succ i =>
      have later : e ∈ rest := List.mem_of_getElem? found
      have apart : e.1 ≠ e₀.1 := by
        intro same
        exact (List.nodup_cons.mp ranking.nodup).1 (same ▸ List.mem_map_of_mem later)
      constructor
      · intro _
        have before := (List.pairwise_cons.mp order).1 e later
        have key : contentVariantKey first.2 = some e.1 := congrArg Prod.snd at_key
        have key₀ : contentVariantKey first₀.2 = some e₀.1 := congrArg Prod.snd at_key₀
        unfold Outranks
        simp only [entryKey_mergedEntry, contentVariantKey_mergedEntry, at_key, at_key₀,
          ← ranking.hostCount distinct inRange here,
          ← ranking.hostCount distinct inRange List.mem_cons_self, key, key₀, Option.getD_some]
        rcases before with fewer | ⟨same, less⟩
        · exact .inl fewer
        · have strictly : e₀.1 < e.1 := lt_of_le_of_ne less (Ne.symm apart)
          exact .inr ⟨same, strictly⟩
      · intro role is_role
        rw [variantSelection_mergedEntry] at is_role
        obtain ⟨_, _, rfl⟩ := Option.map_eq_some_iff.mp is_role
        simp [variantRole, apart]
  · exact fun alone => absurd several alone

end Several

theorem lone_leads (order : HashOrder.Order)
    (keyed : ∀ row ∈ rowsOfKey items k, (contentVariantKey row.2).isSome = true)
    (alone : ¬ Several items k) {first : HostRow α}
    (leads : (inHostOrder (rowsOfKey items k)).head? = some first) :
    ∃ h rows, order.iter (groupBy variantKeyOf (inHostOrder (rowsOfKey items k))) = [(h, rows)] ∧
      rows.head? = some first := by
  have few := (not_congr ((variantTable order keyed).several_iff keyed)).mp alone
  obtain ⟨rest, ordered⟩ := List.head?_eq_some_iff.mp leads
  have mem : (variantKeyOf first, rowsAt variantKeyOf (inHostOrder (rowsOfKey items k))
      (variantKeyOf first)) ∈ groupBy variantKeyOf (inHostOrder (rowsOfKey items k)) :=
    mem_groupBy.mpr ⟨⟨first, ordered ▸ List.mem_cons_self, rfl⟩, rfl⟩
  have lone := eq_singleton_of_mem few ((HashOrder.mem_iter order).mpr mem)
  refine ⟨_, _, lone, ?_⟩
  rw [ordered, rowsAt, List.filter_cons_of_pos (by simp)]
  rfl

variable [Serialize α] {order : HashOrder.Order}

theorem mergeGroup_entries (distinct : hostnames.Nodup) (inRange : InRange hostnames items)
    (alike : KeyedAlike items) {row : HostRow α} (mem : row ∈ items) :
    ∃ results, mergeGroup order totalHosts hostnames (rowsOfKey items (identityKey row.2)) =
        some results ∧
      GroupEntries totalHosts hostnames items (identityKey row.2)
        (results.map narrowNonUniversal) := by
  have occupied : rowsOfKey items (identityKey row.2) ≠ [] :=
    List.ne_nil_of_mem (mem_rowsOfKey.mpr ⟨mem, rfl⟩)
  obtain ⟨first, there, leads⟩ := inHostOrder_leads occupied
  obtain ⟨known, at_k⟩ := mem_rowsOfKey.mp there
  have same : ∀ other ∈ rowsOfKey items (identityKey row.2),
      (contentVariantKey other.2).isSome = (contentVariantKey first.2).isSome := by
    intro other inside
    obtain ⟨known', at_k'⟩ := mem_rowsOfKey.mp inside
    exact alike other known' first known (at_k'.trans at_k.symm)
  cases plain : contentVariantKey first.2 with
  | none =>
    have unkeyed : ∀ other ∈ rowsOfKey items (identityKey row.2),
        contentVariantKey other.2 = none := by
      intro other inside
      have alike := same other inside
      rw [plain] at alike
      simpa using alike
    obtain ⟨source, inside, made⟩ := @mergeGroup_plain _ _ _ _ order totalHosts hostnames _ _ leads plain
    obtain ⟨known', at_k'⟩ := mem_rowsOfKey.mp inside
    have rows : prevalenceOf totalHosts hostnames (rowsOfKey items (identityKey row.2)) =
        prevalenceOf totalHosts hostnames (rowsOfEntry items (entryKey source.2)) := by
      apply prevalenceOf_congr
      intro other
      rw [mem_rowsOfKey, mem_rowsOfEntry, entryKey, entryKey, Prod.mk.injEq, at_k',
        unkeyed source inside]
      constructor
      · exact fun ⟨k, a⟩ => ⟨k, a, unkeyed other (mem_rowsOfKey.mpr ⟨k, a⟩)⟩
      · exact fun ⟨k, a, _⟩ => ⟨k, a⟩
    have alone : ¬ Several items (identityKey row.2) := by
      rintro ⟨a, ha, b, hb, ka, kb, apart⟩
      rw [unkeyed a (mem_rowsOfKey.mpr ⟨ha, ka⟩), unkeyed b (mem_rowsOfKey.mpr ⟨hb, kb⟩)] at apart
      exact apart rfl
    refine ⟨_, made, ?_⟩
    rw [List.map_singleton, rows]
    rw [← at_k'] at alone leads ⊢
    refine groupEntries_singleton known' alone ?_
    intro first' leads' keyed
    cases leads.symm.trans leads'
    exact absurd plain keyed
  | some h =>
    have keyed : ∀ other ∈ rowsOfKey items (identityKey row.2),
        (contentVariantKey other.2).isSome = true := by
      intro other inside
      rw [same other inside, plain]
      rfl
    have made : mergeGroup order totalHosts hostnames (rowsOfKey items (identityKey row.2)) =
        some (mergeSubgroups totalHosts hostnames (order.iter (groupBy variantKeyOf
          (inHostOrder (rowsOfKey items (identityKey row.2)))))) := by
      have panics : (inHostOrder (rowsOfKey items (identityKey row.2))).any
          (fun row => (contentVariantKey row.2).isNone) = false := by
        rw [List.any_eq_false]
        intro other inside
        simp [Option.isNone_eq_false_iff.mpr (keyed other (mem_inHostOrder.mp inside))]
      unfold mergeGroup
      rw [inHostOrder] at leads panics
      simp [leads, plain, mergeWithVariants, panics, inHostOrder]
    refine ⟨_, made, ?_⟩
    by_cases several : Several items (identityKey row.2)
    · exact groupEntries_several distinct inRange keyed (variantTable order keyed) several
    · obtain ⟨v, rows, lone, first_leads⟩ := lone_leads order keyed several leads
      have is := variantTable order keyed
      rw [lone] at is ⊢
      obtain ⟨first', leads', _, at_key⟩ := is.leads List.mem_cons_self
      cases first_leads.symm.trans leads'
      have entry : (mergeSubgroups totalHosts hostnames [(v, rows)]).map narrowNonUniversal =
          [mergedEntry totalHosts hostnames items none none first] := by
        have prevalence : prevalenceOf totalHosts hostnames rows = _ := is.prevalence List.mem_cons_self
        rw [mergeSubgroups, first_leads, prevalence, ← at_key]
        rfl
      rw [entry, ← at_k]
      rw [← at_k] at several leads
      refine groupEntries_singleton known several ?_
      intro other others _
      cases leads.symm.trans others
      rfl

def entriesOf (order : HashOrder.Order) (totalHosts : Nat) (hostnames : List String)
    (items : List (HostRow α)) (k : String) : List α :=
  ((mergeGroup order totalHosts hostnames (rowsOfKey items k)).getD []).map narrowNonUniversal

/-- The groups a merge goes through. -/
def groupsOf (order : HashOrder.Order) (items : List (HostRow α)) :
    List (String × List (HostRow α)) :=
  order.iter (groupBy (fun row => identityKey row.2) items)

omit [Serialize α] in
theorem mem_groupsOf {e : String × List (HostRow α)} : e ∈ groupsOf order items ↔
    (∃ row ∈ items, identityKey row.2 = e.1) ∧ e.2 = rowsOfKey items e.1 := by
  rw [groupsOf, HashOrder.mem_iter, mem_groupBy]
  rfl

omit [Serialize α] in
theorem groupsOf_nodup : ((groupsOf order items).map Prod.fst).Nodup :=
  ((order.rearranges _).map Prod.fst).nodup_iff.mpr (groupBy_isTable items).nodup

theorem mergeItems_eq (each : ∀ row ∈ items, ∃ results, mergeGroup order totalHosts hostnames
    (rowsOfKey items (identityKey row.2)) = some results) :
    mergeItems order items totalHosts hostnames = some
      (((groupsOf order items).flatMap fun e =>
        entriesOf order totalHosts hostnames items e.1).insertionSort fun a b =>
          identityKey a ≤ identityKey b) := by
  have parts : (groupsOf order items).mapM
      (fun group => mergeGroup order totalHosts hostnames group.2) = some
      ((groupsOf order items).map fun e =>
        (mergeGroup order totalHosts hostnames (rowsOfKey items e.1)).getD []) := by
    rw [mapM_eq_some_iff, List.forall₂_map_right_iff, List.forall₂_same]
    intro e mem
    obtain ⟨⟨row, known, at_k⟩, rows⟩ := mem_groupsOf.mp mem
    obtain ⟨results, made⟩ := each row known
    rw [rows, ← at_k, made, Option.getD_some]
  unfold mergeItems
  rw [← groupsOf]
  dsimp only
  rw [parts, Option.map_some, ← List.flatMap_def, List.map_flatMap]
  rfl

section Whole

variable (distinct : hostnames.Nodup) (inRange : InRange hostnames items) (alike : KeyedAlike items)

include distinct inRange alike

theorem entriesOf_entries {row : HostRow α} (mem : row ∈ items) :
    GroupEntries totalHosts hostnames items (identityKey row.2)
      (entriesOf order totalHosts hostnames items (identityKey row.2)) := by
  obtain ⟨results, made, entries⟩ :=
    @mergeGroup_entries _ _ _ totalHosts hostnames items _ order distinct inRange alike row mem
  rw [entriesOf, made, Option.getD_some]
  exact entries

theorem entriesOf_identity {row : HostRow α} (mem : row ∈ items) {m : α}
    (inside : m ∈ entriesOf order totalHosts hostnames items (identityKey row.2)) :
    identityKey m = identityKey row.2 := by
  obtain ⟨source, _, at_k, _, _, is, _⟩ :=
    (entriesOf_entries distinct inRange alike mem).entry m inside
  rw [is, identityKey_mergedEntry, at_k]

theorem merged_of_alike :
    ∃ merged, mergeItems order items totalHosts hostnames = some merged ∧
      (merged.Pairwise fun a b => identityKey a ≤ identityKey b) ∧
      (merged.map entryKey).Nodup ∧
      (∀ m ∈ merged, ∃ row ∈ items, identityKey row.2 = identityKey m) ∧
      ∀ row ∈ items, ∀ m, (m ∈ merged ∧ identityKey m = identityKey row.2) ↔
        m ∈ entriesOf order totalHosts hostnames items (identityKey row.2) := by
  have each : ∀ row ∈ items, ∃ results, mergeGroup order totalHosts hostnames
      (rowsOfKey items (identityKey row.2)) = some results := by
    intro row mem
    obtain ⟨results, made, _⟩ :=
      @mergeGroup_entries _ _ _ totalHosts hostnames items _ order distinct inRange alike row mem
    exact ⟨results, made⟩
  have member : ∀ m, m ∈ (groupsOf order items).flatMap
      (fun e => entriesOf order totalHosts hostnames items e.1) ↔
      ∃ row ∈ items, m ∈ entriesOf order totalHosts hostnames items (identityKey row.2) := by
    intro m
    rw [List.mem_flatMap]
    constructor
    · rintro ⟨e, mem, inside⟩
      obtain ⟨⟨row, known, at_k⟩, _⟩ := mem_groupsOf.mp mem
      exact ⟨row, known, at_k ▸ inside⟩
    · rintro ⟨row, known, inside⟩
      exact ⟨(identityKey row.2, rowsOfKey items (identityKey row.2)),
        mem_groupsOf.mpr ⟨⟨row, known, rfl⟩, rfl⟩, inside⟩
  refine ⟨_, mergeItems_eq each, ?_, ?_, ?_, ?_⟩
  · exact Grouping.pairwise_sortBy identityKey _
  · have perm := (List.perm_insertionSort (fun a b : α => identityKey a ≤ identityKey b)
      ((groupsOf order items).flatMap fun e =>
        entriesOf order totalHosts hostnames items e.1)).map entryKey
    rw [perm.nodup_iff, List.map_flatMap, List.nodup_flatMap]
    constructor
    · intro e mem
      obtain ⟨⟨row, known, at_k⟩, _⟩ := mem_groupsOf.mp mem
      have keys := (@entriesOf_entries _ _ _ totalHosts hostnames items _ order distinct inRange
        alike row known).distinct
      rw [at_k] at keys
      apply List.Nodup.of_map Prod.snd
      rw [List.map_map]
      exact keys
    · have apart : (groupsOf order items).Pairwise fun a b => a.1 ≠ b.1 :=
        List.pairwise_map.mp groupsOf_nodup
      refine apart.imp_of_mem ?_
      intro a b ha hb ne
      obtain ⟨⟨row, known, at_a⟩, _⟩ := mem_groupsOf.mp ha
      obtain ⟨⟨other, known', at_b⟩, _⟩ := mem_groupsOf.mp hb
      rw [Function.onFun, List.disjoint_left]
      intro k in_a in_b
      obtain ⟨m, of_a, rfl⟩ := List.mem_map.mp in_a
      obtain ⟨m', of_b, same⟩ := List.mem_map.mp in_b
      rw [← at_a] at of_a ne
      rw [← at_b] at of_b ne
      apply ne
      rw [← entriesOf_identity distinct inRange alike known of_a,
        ← entriesOf_identity distinct inRange alike known' of_b]
      exact (congrArg Prod.fst same).symm
  · intro m inside
    rw [List.mem_insertionSort, member] at inside
    obtain ⟨row, known, inside⟩ := inside
    exact ⟨row, known, (entriesOf_identity distinct inRange alike known inside).symm⟩
  · intro row known m
    rw [List.mem_insertionSort, member]
    constructor
    · rintro ⟨⟨other, known', inside⟩, at_k⟩
      rw [← at_k, entriesOf_identity distinct inRange alike known' inside]
      exact inside
    · intro inside
      exact ⟨⟨row, known, inside⟩, entriesOf_identity distinct inRange alike known inside⟩

end Whole

theorem mergeGroup_of_merged {merged : List α}
    (made : mergeItems order items totalHosts hostnames = some merged) {row : HostRow α}
    (mem : row ∈ items) : ∃ results,
      mergeGroup order totalHosts hostnames (rowsOfKey items (identityKey row.2)) = some results := by
  obtain ⟨parts, each, _⟩ := Option.map_eq_some_iff.mp made
  rw [mapM_eq_some_iff] at each
  have group : (identityKey row.2, rowsOfKey items (identityKey row.2)) ∈ groupsOf order items :=
    mem_groupsOf.mpr ⟨⟨row, mem, rfl⟩, rfl⟩
  obtain ⟨i, bound, at_i⟩ := List.getElem_of_mem group
  have part := (List.forall₂_iff_get.mp each).2 i bound
    ((List.forall₂_iff_get.mp each).1 ▸ bound)
  have here : (order.iter (groupBy (fun row : HostRow α => identityKey row.2) items)).get ⟨i, bound⟩ =
      (identityKey row.2, rowsOfKey items (identityKey row.2)) := at_i
  rw [here] at part
  exact ⟨_, part⟩

omit [Serialize α] in
theorem identityKey_mergeSubgroups {r : α} (mem : r ∈ mergeSubgroups totalHosts hostnames table) :
    ∃ e ∈ table, ∃ row ∈ e.2, identityKey r = identityKey row.2 := by
  have head : ∀ {rows : List (HostRow α)} {first}, rows.head? = some first → first ∈ rows :=
    fun leads => List.mem_of_head? leads
  unfold mergeSubgroups at mem
  split at mem
  · rename_i h rows
    obtain ⟨first, leads, rfl⟩ := Option.map_eq_some_iff.mp (Option.mem_toList.mp mem)
    exact ⟨(h, rows), List.mem_singleton.mpr rfl, first, head leads, by simp⟩
  · obtain ⟨x, there, rfl⟩ := List.mem_map.mp mem
    obtain ⟨⟨e, i⟩, ranked, variant⟩ := List.mem_filterMap.mp there
    obtain ⟨first, leads, rfl⟩ := Option.map_eq_some_iff.mp variant
    have inside := List.mem_of_getElem? (List.mem_zipIdx_iff_getElem?.mp ranked)
    exact ⟨e, (List.mem_insertionSort _).mp inside, first, head leads, by simp⟩

theorem identityKey_mergeGroup {results : List α}
    (made : mergeGroup order totalHosts hostnames (rowsOfKey items k) = some results) {r : α}
    (mem : r ∈ results) : identityKey r = k := by
  unfold mergeGroup at made
  rw [← inHostOrder] at made
  dsimp only at made
  cases leads : (inHostOrder (rowsOfKey items k)).head? with
  | none =>
    rw [leads] at made
    cases made
    cases mem
  | some first =>
    rw [leads] at made
    dsimp only at made
    have occupied : rowsOfKey items k ≠ [] :=
      List.ne_nil_of_mem (mem_inHostOrder.mp (List.mem_of_head? leads))
    cases plain : contentVariantKey first.2 with
    | none =>
      obtain ⟨source, inside, made'⟩ :=
        @mergeGroup_plain _ _ _ _ order totalHosts hostnames _ _ leads plain
      unfold mergeGroup at made'
      rw [← inHostOrder] at made'
      dsimp only at made'
      rw [leads] at made'
      cases made.symm.trans made'
      rw [List.mem_singleton.mp mem, identityKey_stampPrevalence]
      exact (mem_rowsOfKey.mp inside).2
    | some h =>
      rw [plain, Option.isSome_some, if_pos rfl, mergeWithVariants] at made
      split at made
      · cases made
      · cases made
        obtain ⟨e, group, row, inside, same⟩ := identityKey_mergeSubgroups mem
        rw [HashOrder.mem_iter] at group
        rw [(mem_groupBy.mp group).2, mem_rowsAt, mem_inHostOrder] at inside
        rw [same]
        exact (mem_rowsOfKey.mp inside.1).2

theorem keyedAlike_of_exact {merged : List α}
    (made : mergeItems order items totalHosts hostnames = some merged)
    (exact_ : ExactMerge totalHosts hostnames items merged) : KeyedAlike items := by
  -- Were one row keyed and the other not, the group would have at most one entry.
  have clash : ∀ row ∈ items, ∀ other ∈ items, identityKey row.2 = identityKey other.2 →
      (contentVariantKey row.2).isSome = true → contentVariantKey other.2 ≠ none := by
    intro row mem other mem' same keyed unkeyed
    have occupied : rowsOfKey items (identityKey row.2) ≠ [] :=
      List.ne_nil_of_mem (mem_rowsOfKey.mpr ⟨mem, rfl⟩)
    obtain ⟨first, there, leads⟩ := inHostOrder_leads occupied
    obtain ⟨results, result⟩ := mergeGroup_of_merged made mem
    cases plain : contentVariantKey first.2 with
    | none =>
      obtain ⟨source, inside, plainly⟩ :=
        @mergeGroup_plain _ _ _ _ order totalHosts hostnames _ _ leads plain
      have lone : ∀ entry ∈ items, identityKey entry.2 = identityKey row.2 →
          contentVariantKey entry.2 = contentVariantKey source.2 := by
        intro entry known at_k
        obtain ⟨m, merged_m, at_key⟩ := List.mem_map.mp ((exact_.entries _).mpr ⟨entry, known, rfl⟩)
        obtain ⟨origin, known', results', result', r, of_r, rfl⟩ := (mem_mergeItems made).mp merged_m
        rw [entryKey, entryKey, Prod.mk.injEq, identityKey_narrowNonUniversal,
          contentVariantKey_narrowNonUniversal] at at_key
        have origin_k : identityKey origin.2 = identityKey row.2 := by
          rw [← identityKey_mergeGroup result' of_r, at_key.1, at_k]
        rw [origin_k, plainly] at result'
        cases result'
        rw [List.mem_singleton.mp of_r, contentVariantKey_stampPrevalence] at at_key
        exact at_key.2.symm
      rw [lone row mem rfl, ← lone other mem' same.symm, unkeyed] at keyed
      cases keyed
    | some h =>
      have panics : (inHostOrder (rowsOfKey items (identityKey row.2))).any
          (fun row => (contentVariantKey row.2).isNone) = true := by
        rw [List.any_eq_true]
        refine ⟨other, mem_inHostOrder.mpr (mem_rowsOfKey.mpr ⟨mem', same.symm⟩), ?_⟩
        rw [unkeyed]
        rfl
      unfold mergeGroup at result
      rw [← inHostOrder] at result
      simp [leads, plain, mergeWithVariants, panics] at result
  intro row mem other mem' same
  cases keyed : contentVariantKey row.2 with
  | none =>
    cases keyed' : contentVariantKey other.2 with
    | none => rfl
    | some h => exact absurd keyed (clash other mem' row mem same.symm (by rw [keyed']; rfl))
  | some h =>
    have := clash row mem other mem' same (by rw [keyed]; rfl)
    rw [Option.isSome_some, Option.isSome_iff_ne_none.mpr this]

theorem merge_exact_iff (distinct : hostnames.Nodup) (inRange : InRange hostnames items)
    (covers : hostnames.length ≤ totalHosts) :
    (∃ merged, mergeItems order items totalHosts hostnames = some merged ∧
      ExactMerge totalHosts hostnames items merged) ↔ KeyedAlike items ∧ LoneIsOnly items := by
  constructor
  · rintro ⟨merged, made, exact_⟩
    have alike := keyedAlike_of_exact made exact_
    refine ⟨alike, ?_⟩
    intro k alone first leads keyed role is_role
    obtain ⟨known, at_k⟩ := mem_rowsOfKey.mp (mem_inHostOrder.mp (List.mem_of_head? leads))
    subst at_k
    obtain ⟨merged', made', _, _, _, found⟩ := @merged_of_alike _ _ _ totalHosts hostnames items _
      order distinct inRange alike
    cases made.symm.trans made'
    have entries := @entriesOf_entries _ _ _ totalHosts hostnames items _ order distinct inRange
      alike first known
    obtain ⟨m, inside, key⟩ := List.mem_map.mp ((entries.covers _).mpr ⟨first, known, rfl⟩)
    obtain ⟨merged_m, same⟩ := (found first known m).mpr inside
    have selection := entries.lone alone first leads keyed m inside
    refine exact_.only m merged_m ?_ ?_ role (selection.trans is_role)
    · rw [key]
      exact keyed
    · rw [same]
      exact alone
  · rintro ⟨alike, lone⟩
    obtain ⟨merged, made, sorted, once, known, found⟩ := @merged_of_alike _ _ _ totalHosts hostnames
      items _ order distinct inRange alike
    have entries := fun row mem => @entriesOf_entries _ _ _ totalHosts hostnames items _ order
      distinct inRange alike row mem
    refine ⟨merged, made, sorted, once, ?_, ?_, ?_, ?_⟩
    · rintro ⟨i, v⟩
      rw [List.mem_map]
      constructor
      · rintro ⟨m, inside, same⟩
        rw [entryKey, Prod.mk.injEq] at same
        obtain ⟨row, mem, at_k⟩ := known m inside
        have here := (found row mem m).mp ⟨inside, at_k.symm⟩
        obtain ⟨other, mem', key⟩ := ((entries row mem).covers v).mp
          (same.2 ▸ List.mem_map_of_mem here)
        exact ⟨other, mem', by rw [key, at_k, same.1]⟩
      · rintro ⟨row, mem, same⟩
        rw [entryKey, Prod.mk.injEq] at same
        obtain ⟨m, here, key⟩ := List.mem_map.mp (((entries row mem).covers v).mpr
          ⟨row, mem, by rw [entryKey, same.2]⟩)
        obtain ⟨inside, at_k⟩ := (found row mem m).mpr here
        exact ⟨m, inside, by rw [entryKey, at_k, key, same.1]⟩
    · intro m inside
      obtain ⟨row, mem, at_k⟩ := known m inside
      obtain ⟨source, _, at_source, role, union, rfl, joined⟩ :=
        (entries row mem).entry m ((found row mem m).mp ⟨inside, at_k.symm⟩)
      apply exactPrevalence_mergedEntry inRange covers
      rw [at_source]
      exact joined
    · intro k several
      obtain ⟨row, mem, _, _, at_k, _, _⟩ := id several
      subst at_k
      obtain ⟨w, inside, best⟩ := (entries row mem).ranked several
      obtain ⟨merged_w, same⟩ := (found row mem w).mpr inside
      refine ⟨w, merged_w, same, ?_⟩
      intro m merged_m at_k
      exact best m ((found row mem m).mp ⟨merged_m, at_k⟩)
    · intro m merged_m keyed alone role is_role
      obtain ⟨row, mem, at_k⟩ := known m merged_m
      have here := (found row mem m).mp ⟨merged_m, at_k.symm⟩
      rw [← at_k] at alone
      have occupied : rowsOfKey items (identityKey row.2) ≠ [] :=
        List.ne_nil_of_mem (mem_rowsOfKey.mpr ⟨mem, rfl⟩)
      obtain ⟨first, there, leads⟩ := inHostOrder_leads occupied
      obtain ⟨known_first, first_k⟩ := mem_rowsOfKey.mp there
      obtain ⟨source, mem', key⟩ := ((entries row mem).covers _).mp (List.mem_map_of_mem here)
      rw [entryKey, Prod.mk.injEq] at key
      have first_keyed : contentVariantKey first.2 ≠ none := by
        rw [← Option.isSome_iff_ne_none, alike first known_first source mem' (first_k.trans key.1.symm),
          key.2, Option.isSome_iff_ne_none]
        exact keyed
      rw [(entries row mem).lone alone first leads first_keyed m here] at is_role
      exact lone _ alone first leads first_keyed role is_role

end Spec

section UnmanagedFiles

/-- The hash is empty where the scan could not read the file. -/
instance : AggregateMergeable UnmanagedFile where
  identityKey f := f.path
  aggregate := (·.aggregate)
  setAggregate p f := { f with aggregate := p }
  contentVariantKey f := if f.contentHash.isEmpty then none else some f.contentHash
  variantSelection f := some f.variantSelection
  setVariantSelection v f := { f with variantSelection := v }

@[reducible] def unmanagedJson : Serialize UnmanagedFile := ⟨fun f => f.path ++ f.contentHash⟩

attribute [local instance] unmanagedJson

def hashedFile (hash : String) : UnmanagedFile := { path := "/opt/app/data", contentHash := hash }

/-- Two hosts, two contents, of which the second host has one more. -/
theorem merge_exact_two_contents :
    ∃ merged, mergeItems .insertion
        [(0, hashedFile "a1"), (1, hashedFile "b2"), (2, hashedFile "b2")] 3 ["db", "mq", "web"] =
      some merged ∧ ExactMerge 3 ["db", "mq", "web"]
        [(0, hashedFile "a1"), (1, hashedFile "b2"), (2, hashedFile "b2")] merged := by
  refine (merge_exact_iff (by decide) ?_ (by decide)).mpr ⟨?_, ?_⟩
  · unfold InRange
    decide
  · unfold KeyedAlike
    decide
  · intro k _ first leads _ role is_role
    have only : ∀ row ∈ [((0 : Nat), hashedFile "a1"), (1, hashedFile "b2"), (2, hashedFile "b2")],
        variantSelection row.2 = some .only := by decide
    rw [only first (mem_rowsOfKey.mp (mem_inHostOrder.mp (List.mem_of_head? leads))).1] at is_role
    exact (Option.some.inj is_role).symm

/-- A file one host could not read: the merge panics, or drops a content. -/
theorem merge_drops_unread_content :
    mergeItems .insertion [(0, hashedFile "a1"), (1, hashedFile "")] 2 ["db", "web"] = none ∧
    (mergeItems .insertion [(0, hashedFile ""), (1, hashedFile "b2")] 2 ["db", "web"]).map
      (·.map entryKey) = some [("/opt/app/data", none)] ∧
    (mergeItems .insertion [(0, { hashedFile "a1" with variantSelection := .alternative })] 1
      ["db"]).map (·.map (·.variantSelection)) = some [.alternative] := by
  decide

end UnmanagedFiles

end Inspectah
