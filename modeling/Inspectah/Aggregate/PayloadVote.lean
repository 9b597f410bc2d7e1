import Inspectah.Aggregate.MergeExact
import Inspectah.Aggregate.MergeRpm

/-!
When merging gives a result at all, and which row stands for a group without variants: rows
vote with their payloads, and hosts would vote once each.
-/
namespace Inspectah

open Grouping AggregateMergeable

section Engine

variable {α : Type} [FindingRow α] [AggregateMergeable α]

def LeadsKeyed (items : List (HostRow α)) : Prop :=
  ∀ row ∈ items, ∀ first, (inHostOrder (rowsOfKey items (identityKey row.2))).head? = some first →
    (contentVariantKey first.2).isSome → (contentVariantKey row.2).isSome

variable [Serialize α]
variable {order : HashOrder.Order} {totalHosts : Nat} {hostnames : List String}
variable {items : List (HostRow α)}

theorem mergeGroup_isSome_iff {group : List (HostRow α)} {first : HostRow α}
    (leads : (inHostOrder group).head? = some first) :
    (mergeGroup order totalHosts hostnames group).isSome ↔
      ((contentVariantKey first.2).isSome → ∀ row ∈ group, (contentVariantKey row.2).isSome) := by
  unfold mergeGroup
  rw [← inHostOrder]
  dsimp only
  rw [leads]
  dsimp only
  cases keyed : (contentVariantKey first.2).isSome with
  | false => simp
  | true =>
    rw [if_pos rfl, mergeWithVariants]
    constructor
    · intro made _ row mem
      by_contra bare
      have panics : (inHostOrder group).any (fun row => (contentVariantKey row.2).isNone) = true := by
        refine List.any_eq_true.mpr ⟨row, mem_inHostOrder.mpr mem, ?_⟩
        simpa using bare
      rw [if_pos panics] at made
      cases made
    · intro all
      have safe : ¬(inHostOrder group).any (fun row => (contentVariantKey row.2).isNone) = true := by
        rw [List.any_eq_true]
        rintro ⟨row, mem, bare⟩
        have has := all rfl row (mem_inHostOrder.mp mem)
        rw [Option.isNone_iff_eq_none.mp bare] at has
        cases has
      rw [if_neg safe]
      rfl

/-- Merging panics exactly where a group's first row has a variant key another lacks. -/
theorem mergeItems_isSome_iff :
    (mergeItems order items totalHosts hostnames).isSome ↔ LeadsKeyed items := by
  rw [mergeItems, Option.isSome_map, isSome_mapM]
  constructor
  · intro made row mem first leads keyed
    have group : (identityKey row.2, rowsOfKey items (identityKey row.2)) ∈
        order.iter (groupBy (fun row : HostRow α => identityKey row.2) items) := by
      rw [HashOrder.mem_iter, mem_groupBy]
      exact ⟨⟨row, mem, rfl⟩, rfl⟩
    exact (mergeGroup_isSome_iff leads).mp (made _ group) keyed row (mem_rowsOfKey.mpr ⟨mem, rfl⟩)
  · rintro keyed ⟨k, group⟩ mem
    rw [HashOrder.mem_iter, mem_groupBy] at mem
    obtain ⟨⟨row, known, rfl⟩, rows⟩ := mem
    obtain rfl : group = rowsOfKey items (identityKey row.2) := rows
    obtain ⟨first, -, leads⟩ :=
      inHostOrder_leads (List.ne_nil_of_mem (mem_rowsOfKey.mpr ⟨known, rfl⟩))
    refine (mergeGroup_isSome_iff leads).mpr fun has other there => ?_
    obtain ⟨known_other, same⟩ := mem_rowsOfKey.mp there
    exact keyed other known_other first (same ▸ leads) has

theorem mergeItems_of_plain (plain : ∀ a : α, contentVariantKey a = none) :
    ∃ merged, mergeItems order items totalHosts hostnames = some merged := by
  rw [← Option.isSome_iff_exists, mergeItems_isSome_iff]
  intro row _ first _ keyed
  rw [plain] at keyed
  cases keyed

end Engine

section UnmanagedFiles

theorem unmanaged_merge_total_iff [Serialize UnmanagedFile] (order : HashOrder.Order)
    (items : List (HostRow UnmanagedFile)) (totalHosts : Nat) (hostnames : List String) :
    mergeItems order items totalHosts hostnames ≠ none ↔
      ∀ row ∈ items, ∀ first, (inHostOrder (rowsOfKey items row.2.path)).head? = some first →
        first.2.contentHash ≠ "" → row.2.contentHash ≠ "" := by
  have keyed : ∀ f : UnmanagedFile, (contentVariantKey f).isSome ↔ f.contentHash ≠ "" := by
    intro f
    rw [contentVariantKey, instAggregateMergeableUnmanagedFile]
    dsimp only
    by_cases empty : f.contentHash = ""
    · simp [empty]
    · simp [empty]
  rw [← Option.isSome_iff_ne_none, mergeItems_isSome_iff]
  simp only [LeadsKeyed, keyed]
  rfl

attribute [local instance] unmanagedJson

/-- The first host hashed the file and the second could not read it. -/
theorem unread_file_panics :
    ¬ mergeItems .insertion [(0, hashedFile "a1"), (1, hashedFile "")] 2 ["db", "web"] ≠ none := by
  rw [not_not]
  decide

end UnmanagedFiles

end Inspectah

namespace Inspectah

open Grouping AggregateMergeable

section Vote

variable {α : Type} [FindingRow α] [AggregateMergeable α] [Serialize α]

theorem payloadCounts_concat (rows : List α) (a : α) :
    payloadCounts (rows ++ [a]) = countPayload (payloadOf a) rows.length (payloadCounts rows) := by
  rw [payloadCounts, List.zipIdx_append, List.foldl_append]
  simp [payloadCounts]

theorem mem_countPayload {payload : String} {pos : Nat} {counts : List PayloadCount}
    (once : (counts.map (·.payload)).Nodup) {c : PayloadCount} :
    c ∈ countPayload payload pos counts ↔
      (c ∈ counts ∧ c.payload ≠ payload) ∨
      (∃ d ∈ counts, d.payload = payload ∧ c = { d with count := d.count + 1 }) ∨
      (payload ∉ counts.map (·.payload) ∧ c = ⟨payload, 1, pos⟩) := by
  induction counts with
  | nil => simp [countPayload]
  | cons d rest ih =>
    rw [List.map_cons, List.nodup_cons] at once
    by_cases here : d.payload = payload
    · rw [countPayload, if_pos here, List.mem_cons]
      have others : ∀ e ∈ rest, e.payload ≠ payload := fun e mem same =>
        once.1 (by rw [here, ← same]; exact List.mem_map_of_mem mem)
      constructor
      · rintro (rfl | mem)
        · exact .inr (.inl ⟨d, List.mem_cons_self, here, rfl⟩)
        · exact .inl ⟨List.mem_cons_of_mem _ mem, others c mem⟩
      · rintro (⟨mem, other⟩ | ⟨e, mem, same, rfl⟩ | ⟨absent, -⟩)
        · rcases List.mem_cons.mp mem with rfl | mem
          · exact absurd here other
          · exact .inr mem
        · rcases List.mem_cons.mp mem with rfl | mem
          · exact .inl rfl
          · exact absurd same (others e mem)
        · exact absurd (by rw [List.map_cons, here]; exact List.mem_cons_self) absent
    · rw [countPayload, if_neg here, List.mem_cons, ih once.2]
      simp only [List.mem_cons, List.map_cons, not_or]
      constructor
      · rintro (rfl | ⟨mem, other⟩ | ⟨e, mem, same, rfl⟩ | ⟨absent, rfl⟩)
        · exact .inl ⟨.inl rfl, here⟩
        · exact .inl ⟨.inr mem, other⟩
        · exact .inr (.inl ⟨e, .inr mem, same, rfl⟩)
        · exact .inr (.inr ⟨⟨fun same => here same.symm, absent⟩, rfl⟩)
      · rintro (⟨rfl | mem, other⟩ | ⟨e, rfl | mem, same, rfl⟩ | ⟨⟨-, absent⟩, rfl⟩)
        · exact .inl rfl
        · exact .inr (.inl ⟨mem, other⟩)
        · exact absurd same here
        · exact .inr (.inr (.inl ⟨e, mem, same, rfl⟩))
        · exact .inr (.inr (.inr ⟨absent, rfl⟩))

structure IsTally (payloads : List String) (counts : List PayloadCount) : Prop where
  once : (counts.map (·.payload)).Nodup
  mem : ∀ c, c ∈ counts ↔
    c.payload ∈ payloads ∧ c.count = payloads.count c.payload ∧ c.first = payloads.idxOf c.payload

theorem payloads_countPayload (payload : String) (pos : Nat) (counts : List PayloadCount) :
    (countPayload payload pos counts).map (·.payload) =
      if payload ∈ counts.map (·.payload) then counts.map (·.payload)
      else counts.map (·.payload) ++ [payload] := by
  induction counts with
  | nil => rfl
  | cons d rest ih =>
    by_cases here : d.payload = payload
    · rw [countPayload, if_pos here, List.map_cons, List.map_cons,
        if_pos (List.mem_cons.mpr (.inl here.symm))]
    · rw [countPayload, if_neg here, List.map_cons, ih, List.map_cons]
      by_cases known : payload ∈ rest.map (·.payload)
      · rw [if_pos known, if_pos (List.mem_cons_of_mem _ known)]
      · rw [if_neg known, if_neg, List.cons_append]
        rw [List.mem_cons, not_or]
        exact ⟨fun same => here same.symm, known⟩

theorem IsTally.payloads {payloads : List String} {counts : List PayloadCount}
    (tally : IsTally payloads counts) {p : String} :
    p ∈ counts.map (·.payload) ↔ p ∈ payloads := by
  rw [List.mem_map]
  constructor
  · rintro ⟨c, mem, rfl⟩
    exact ((tally.mem c).mp mem).1
  · intro listed
    exact ⟨⟨p, payloads.count p, payloads.idxOf p⟩, (tally.mem _).mpr ⟨listed, rfl, rfl⟩, rfl⟩

theorem IsTally.vote {payloads : List String} {counts : List PayloadCount}
    (tally : IsTally payloads counts) (p : String) :
    IsTally (payloads ++ [p]) (countPayload p payloads.length counts) where
  once := by
    rw [payloads_countPayload]
    split
    · exact tally.once
    · rename_i fresh
      rw [List.nodup_append]
      refine ⟨tally.once, List.nodup_singleton _, fun q mem r last same => ?_⟩
      rw [List.mem_singleton.mp last] at same
      exact fresh (same ▸ mem)
  mem := by
    intro c
    rw [mem_countPayload tally.once, tally.payloads, List.count_append, List.mem_append,
      List.mem_singleton, List.idxOf_append]
    by_cases own : c.payload = p
    · subst own
      rw [List.count_singleton_self]
      by_cases known : c.payload ∈ payloads
      · rw [if_pos known]
        constructor
        · rintro (⟨-, other⟩ | ⟨d, mem, same, rfl⟩ | ⟨fresh, -⟩)
          · exact absurd rfl other
          · obtain ⟨listed, count, first⟩ := (tally.mem d).mp mem
            exact ⟨.inl listed, by rw [count], first⟩
          · exact absurd known fresh
        · rintro ⟨-, count, first⟩
          refine .inr (.inl ⟨⟨c.payload, payloads.count c.payload, c.first⟩, ?_, rfl, ?_⟩)
          · exact (tally.mem _).mpr ⟨known, rfl, first⟩
          · rw [← count]
      · rw [if_neg known, List.idxOf_cons_self, Nat.zero_add,
          List.count_eq_zero_of_not_mem known, Nat.zero_add]
        constructor
        · rintro (⟨-, other⟩ | ⟨d, mem, same, rfl⟩ | ⟨-, fresh⟩)
          · exact absurd rfl other
          · exact absurd (tally.payloads.mp (List.mem_map_of_mem mem)) (same ▸ known)
          · rw [fresh]
            exact ⟨.inr rfl, rfl, rfl⟩
        · rintro ⟨-, count, first⟩
          exact .inr (.inr ⟨known, by rw [← first, ← count]⟩)
    · have apart : ([p].count c.payload) = 0 := List.count_eq_zero_of_not_mem (by simpa using own)
      rw [apart, Nat.add_zero]
      constructor
      · rintro (⟨mem, -⟩ | ⟨d, mem, same, rfl⟩ | ⟨-, fresh⟩)
        · obtain ⟨listed, count, first⟩ := (tally.mem c).mp mem
          rw [if_pos listed]
          exact ⟨.inl listed, count, first⟩
        · exact absurd same own
        · exact absurd (congrArg PayloadCount.payload fresh) own
      · rintro ⟨listed, count, first⟩
        have listed := listed.resolve_right own
        rw [if_pos listed] at first
        exact .inl ⟨(tally.mem c).mpr ⟨listed, count, first⟩, own⟩

theorem payloadCounts_isTally (rows : List α) :
    IsTally (rows.map payloadOf) (payloadCounts rows) := by
  induction rows using List.reverseRecOn with
  | nil => exact ⟨List.nodup_nil, fun c => by simp [payloadCounts]⟩
  | append_singleton rows a ih =>
    rw [payloadCounts_concat, List.map_append]
    have voted := ih.vote (payloadOf a)
    rwa [List.length_map] at voted

/-- The payload with the most rows, the one seen first among equals. -/
structure IsTopListed (payloads : List String) (p : String) : Prop where
  listed : p ∈ payloads
  top : ∀ q ∈ payloads, payloads.count q < payloads.count p ∨
    payloads.count q = payloads.count p ∧ payloads.idxOf p ≤ payloads.idxOf q

theorem IsTopListed.unique {payloads : List String} {p q : String} (hp : IsTopListed payloads p)
    (hq : IsTopListed payloads q) : p = q := by
  refine (List.idxOf_inj hp.listed).mp ?_
  rcases hp.top q hq.listed with fewer | ⟨-, before⟩
  · rcases hq.top p hp.listed with fewer' | ⟨same, -⟩ <;> omega
  · rcases hq.top p hp.listed with fewer' | ⟨same, after⟩
    · rcases hp.top q hq.listed with fewer | ⟨same, -⟩ <;> omega
    · omega

theorem before_total (a b : PayloadCount) : a.before b ∨ b.before a := by
  unfold PayloadCount.before
  omega

theorem before_trans {a b c : PayloadCount} (hab : a.before b) (hbc : b.before c) : a.before c := by
  unfold PayloadCount.before at *
  omega

theorem mostPrevalentPayload_isTopListed {rows : List α} (occupied : rows ≠ []) :
    ∃ a ∈ rows, mostPrevalentPayload rows = some a ∧ IsTopListed (rows.map payloadOf) (payloadOf a) := by
  have tally := payloadCounts_isTally rows
  obtain ⟨a, mem, chosen⟩ := mostPrevalentPayload_mem occupied
  refine ⟨a, mem, chosen, ?_⟩
  unfold mostPrevalentPayload at chosen
  obtain ⟨c, leads, at_first⟩ := Option.bind_eq_some_iff.mp chosen
  have sorted : ((payloadCounts rows).insertionSort PayloadCount.before).Pairwise PayloadCount.before := by
    have : Std.Total PayloadCount.before := ⟨before_total⟩
    have : IsTrans PayloadCount PayloadCount.before := ⟨fun _ _ _ => before_trans⟩
    exact List.pairwise_insertionSort _ _
  have counted : c ∈ payloadCounts rows := (List.mem_insertionSort _).mp (List.mem_of_head? leads)
  obtain ⟨listed, count, first⟩ := (tally.mem c).mp counted
  have payload : payloadOf a = c.payload := by
    have inside : (rows.map payloadOf).idxOf c.payload < (rows.map payloadOf).length :=
      List.idxOf_lt_length_iff.mpr listed
    have there := List.getElem_idxOf inside
    rw [← Option.some_inj, ← List.getElem?_eq_getElem inside, List.getElem?_map, ← first,
      at_first] at there
    exact Option.some.inj there
  rw [payload]
  refine ⟨listed, fun q other => ?_⟩
  have rival := (tally.mem ⟨q, (rows.map payloadOf).count q, (rows.map payloadOf).idxOf q⟩).mpr
    ⟨other, rfl, rfl⟩
  have before : c = ⟨q, (rows.map payloadOf).count q, (rows.map payloadOf).idxOf q⟩ ∨
      c.before ⟨q, (rows.map payloadOf).count q, (rows.map payloadOf).idxOf q⟩ := by
    rw [← List.mem_insertionSort PayloadCount.before] at rival
    cases ordered : (payloadCounts rows).insertionSort PayloadCount.before with
    | nil =>
      rw [ordered] at leads
      cases leads
    | cons head rest =>
      rw [ordered] at leads rival sorted
      cases Option.some.inj leads
      rcases List.mem_cons.mp rival with same | later
      · exact .inl same.symm
      · exact .inr ((List.pairwise_cons.mp sorted).1 _ later)
  rcases before with same | before
  · rw [same]
    exact .inr ⟨rfl, le_refl _⟩
  · rw [← count, ← first]
    exact before.imp id fun tie => ⟨tie.1.symm, tie.2⟩

def payloadHosts (group : List (HostRow α)) (p : String) : Nat :=
  hostCount (group.filter fun row => payloadOf row.2 = p)

def IsNoLater (group : List (HostRow α)) (p q : String) : Prop :=
  ∀ row ∈ group, payloadOf row.2 = q → ∃ other ∈ group, payloadOf other.2 = p ∧ other.1 ≤ row.1

structure IsMajority (group : List (HostRow α)) (p : String) : Prop where
  held : ∃ row ∈ group, payloadOf row.2 = p
  most : ∀ row ∈ group, payloadHosts group (payloadOf row.2) < payloadHosts group p ∨
    payloadHosts group (payloadOf row.2) = payloadHosts group p ∧
      IsNoLater group p (payloadOf row.2)

def representative (group : List (HostRow α)) : Option α :=
  mostPrevalentPayload ((inHostOrder group).map Prod.snd)

def hasNoVariants (group : List (HostRow α)) : Prop := ∀ row ∈ group, contentVariantKey row.2 = none

def orderedPayloads (group : List (HostRow α)) : List String :=
  ((inHostOrder group).map Prod.snd).map payloadOf

def MajorityRepresents (totalHosts : Nat) (hostnames : List String) (items : List (HostRow α))
    (merged : List α) : Prop :=
  ∀ row ∈ items, hasNoVariants (rowsOfKey items (identityKey row.2)) →
    ∃ a, representative (rowsOfKey items (identityKey row.2)) = some a ∧
      narrowNonUniversal (stampPrevalence (prevalenceOf totalHosts hostnames
        (rowsOfKey items (identityKey row.2))) a) ∈ merged ∧
      IsMajority (rowsOfKey items (identityKey row.2)) (payloadOf a)

def VotesFollowHosts (items : List (HostRow α)) : Prop :=
  ∀ row ∈ items, hasNoVariants (rowsOfKey items (identityKey row.2)) →
    ∀ p, IsTopListed (orderedPayloads (rowsOfKey items (identityKey row.2))) p →
      IsMajority (rowsOfKey items (identityKey row.2)) p

variable {order : HashOrder.Order} {totalHosts : Nat} {hostnames : List String}
variable {items : List (HostRow α)} {merged : List α}

theorem mergeGroup_representative (order : HashOrder.Order) (totalHosts : Nat)
    (hostnames : List String) {group : List (HostRow α)} (occupied : group ≠ [])
    (plain : hasNoVariants group) :
    ∃ row ∈ group, representative group = some row.2 ∧
      mergeGroup order totalHosts hostnames group =
        some [stampPrevalence (prevalenceOf totalHosts hostnames group) row.2] ∧
      IsTopListed (orderedPayloads group) (payloadOf row.2) := by
  obtain ⟨first, member, leads⟩ := inHostOrder_leads occupied
  have ordered : (inHostOrder group).map Prod.snd ≠ [] := by
    intro nothing
    rw [List.map_eq_nil_iff.mp nothing] at leads
    cases leads
  obtain ⟨a, mem, chosen, top⟩ := mostPrevalentPayload_isTopListed ordered
  obtain ⟨row, there, rfl⟩ := List.mem_map.mp mem
  have hosts : prevalenceOf totalHosts hostnames (inHostOrder group) =
      prevalenceOf totalHosts hostnames group :=
    prevalenceOf_congr totalHosts hostnames fun _ => mem_inHostOrder
  refine ⟨row, mem_inHostOrder.mp there, chosen, ?_, top⟩
  unfold mergeGroup
  rw [← inHostOrder]
  simp [leads, plain first member, chosen, hosts]

theorem representative_merged (made : mergeItems order items totalHosts hostnames = some merged)
    {row : HostRow α} (mem : row ∈ items)
    (plain : hasNoVariants (rowsOfKey items (identityKey row.2))) :
    ∃ a, representative (rowsOfKey items (identityKey row.2)) = some a ∧
      narrowNonUniversal (stampPrevalence (prevalenceOf totalHosts hostnames
        (rowsOfKey items (identityKey row.2))) a) ∈ merged ∧
      IsTopListed (orderedPayloads (rowsOfKey items (identityKey row.2))) (payloadOf a) := by
  have occupied : rowsOfKey items (identityKey row.2) ≠ [] :=
    List.ne_nil_of_mem (mem_rowsOfKey.mpr ⟨mem, rfl⟩)
  obtain ⟨chosen, -, stands, result, top⟩ :=
    mergeGroup_representative order totalHosts hostnames occupied plain
  exact ⟨chosen.2, stands,
    (mem_mergeItems made).mpr ⟨row, mem, _, result, _, List.mem_singleton_self _, rfl⟩, top⟩

theorem mem_merged_plain (plain : ∀ a : α, contentVariantKey a = none)
    (made : mergeItems order items totalHosts hostnames = some merged) {m : α} :
    m ∈ merged ↔ ∃ row ∈ items, ∃ a,
      representative (rowsOfKey items (identityKey row.2)) = some a ∧
        identityKey a = identityKey row.2 ∧
        m = narrowNonUniversal (stampPrevalence (prevalenceOf totalHosts hostnames
          (rowsOfKey items (identityKey row.2))) a) := by
  rw [mem_mergeItems made]
  refine exists_congr fun row => and_congr_right fun mem => ?_
  have occupied : rowsOfKey items (identityKey row.2) ≠ [] :=
    List.ne_nil_of_mem (mem_rowsOfKey.mpr ⟨mem, rfl⟩)
  obtain ⟨chosen, member, stands, result, -⟩ :=
    mergeGroup_representative order totalHosts hostnames occupied fun other _ => plain other.2
  constructor
  · rintro ⟨results, result', r, inside, rfl⟩
    rw [result] at result'
    cases result'
    rw [List.mem_singleton.mp inside]
    exact ⟨chosen.2, stands, (mem_rowsOfKey.mp member).2, rfl⟩
  · rintro ⟨a, stands', -, rfl⟩
    rw [stands] at stands'
    cases stands'
    exact ⟨_, result, _, List.mem_singleton_self _, rfl⟩

theorem merged_plain_unique (plain : ∀ a : α, contentVariantKey a = none)
    (made : mergeItems order items totalHosts hostnames = some merged) {m n : α} (hm : m ∈ merged)
    (hn : n ∈ merged) (same : identityKey m = identityKey n) : m = n := by
  obtain ⟨row, -, a, stands, at_key, rfl⟩ := (mem_merged_plain plain made).mp hm
  obtain ⟨row', -, b, stands', at_key', rfl⟩ := (mem_merged_plain plain made).mp hn
  rw [identityKey_narrowNonUniversal, identityKey_narrowNonUniversal, identityKey_stampPrevalence,
    identityKey_stampPrevalence, at_key, at_key'] at same
  rw [← same, stands] at stands'
  cases stands'
  rw [same]

/-- The representative is the majority's exactly when the payload with the most rows is. -/
theorem payload_majority_iff (made : mergeItems order items totalHosts hostnames = some merged) :
    MajorityRepresents totalHosts hostnames items merged ↔ VotesFollowHosts items := by
  constructor
  · intro represents row mem plain p top
    obtain ⟨a, chosen, -, majority⟩ := represents row mem plain
    obtain ⟨b, chosen', -, top'⟩ := representative_merged made mem plain
    rw [chosen] at chosen'
    cases chosen'
    rwa [top.unique top']
  · intro follow row mem plain
    obtain ⟨a, chosen, inside, top⟩ := representative_merged made mem plain
    exact ⟨a, chosen, inside, follow row mem plain _ top⟩

omit [FindingRow α] [AggregateMergeable α] [Serialize α] in
theorem hostCount_of_once {rows : List (HostRow α)} (once : (rows.map Prod.fst).Nodup) :
    hostCount rows = rows.length := by
  rw [hostCount, length_distinctSorted, List.toFinset_card_of_nodup once, List.length_map]

theorem count_orderedPayloads (group : List (HostRow α)) (p : String) :
    (orderedPayloads group).count p = (group.filter fun row => payloadOf row.2 = p).length := by
  have same := (List.perm_insertionSort (fun a b : HostRow α => a.1 ≤ b.1) group).filter
    fun row => payloadOf row.2 = p
  rw [← same.length_eq, orderedPayloads, List.map_map, List.count_eq_countP, List.countP_map,
    List.countP_eq_length_filter]
  congr 2

theorem isNoLater_of_idxOf_le {group : List (HostRow α)} {p q : String}
    (listed : p ∈ orderedPayloads group)
    (before : (orderedPayloads group).idxOf p ≤ (orderedPayloads group).idxOf q) :
    IsNoLater group p q := by
  intro row mem payload
  have length : (orderedPayloads group).length = (inHostOrder group).length := by
    simp [orderedPayloads]
  have payload_at : ∀ i (inside : i < (inHostOrder group).length)
      (listed_at : i < (orderedPayloads group).length),
      (orderedPayloads group)[i] = payloadOf (inHostOrder group)[i].2 := by
    intro i inside listed_at
    simp [orderedPayloads]
  obtain ⟨j, inside, there⟩ := List.getElem_of_mem (mem_inHostOrder.mpr mem)
  have first : (orderedPayloads group).idxOf p < (inHostOrder group).length :=
    length ▸ List.idxOf_lt_length_iff.mpr listed
  have reached : (orderedPayloads group).idxOf q ≤ j := by
    by_contra later
    have other := List.not_of_lt_findIdx (Nat.lt_of_not_le later)
    rw [payload_at j inside (length ▸ inside), there, payload] at other
    simp at other
  have sorted : (inHostOrder group).Pairwise fun a b => a.1 ≤ b.1 :=
    pairwise_sortBy (fun row : HostRow α => row.1) group
  refine ⟨(inHostOrder group)[(orderedPayloads group).idxOf p], ?_, ?_, ?_⟩
  · exact mem_inHostOrder.mp (List.getElem_mem _)
  · rw [← payload_at _ first (List.idxOf_lt_length_iff.mpr listed)]
    exact List.getElem_idxOf _
  · rcases Nat.lt_or_eq_of_le (before.trans reached) with earlier | same
    · have := List.pairwise_iff_getElem.mp sorted _ _ first inside earlier
      rwa [there] at this
    · simp [same, there]

theorem votesFollowHosts_of_once
    (once : ∀ row ∈ items, hasNoVariants (rowsOfKey items (identityKey row.2)) →
      ((rowsOfKey items (identityKey row.2)).map Prod.fst).Nodup) :
    VotesFollowHosts items := by
  intro row mem plain p top
  have each := once row mem plain
  generalize rowsOfKey items (identityKey row.2) = group at each top
  have hosts : ∀ q, payloadHosts group q = (orderedPayloads group).count q := by
    intro q
    rw [count_orderedPayloads, payloadHosts, hostCount_of_once]
    exact each.sublist (List.filter_sublist.map Prod.fst)
  have listed : ∀ q, q ∈ orderedPayloads group ↔ ∃ row ∈ group, payloadOf row.2 = q := by
    intro q
    simp [orderedPayloads, mem_inHostOrder]
  refine ⟨(listed p).mp top.listed, fun other inside => ?_⟩
  rw [hosts, hosts]
  refine (top.top _ ((listed _).mpr ⟨other, inside, rfl⟩)).imp id fun tie => ⟨tie.1, ?_⟩
  exact isNoLater_of_idxOf_le top.listed tie.2

end Vote

section GpgKeys

attribute [local instance] repoFileJson

def gpgKey (content : String) : RepoFile := { path := "/etc/pki/rpm-gpg/vendor", content }

/-- Two hosts that list the key once vote once each. -/
theorem listed_once_majority :
    ∃ merged, mergeItems .insertion [(0, gpgKey "old"), (1, gpgKey "new")] 2 ["db", "web"] =
        some merged ∧
      MajorityRepresents 2 ["db", "web"] [(0, gpgKey "old"), (1, gpgKey "new")] merged := by
  refine ⟨_, rfl, (@payload_majority_iff _ _ _ _ .insertion _ _ _ _ rfl).mpr ?_⟩
  refine votesFollowHosts_of_once fun row _ _ => ?_
  have once : ([(0, gpgKey "old"), (1, gpgKey "new")].map Prod.fst).Nodup := by decide
  exact once.sublist (List.filter_sublist.map Prod.fst)

/-- Three repo files of one host reference an old key: it outvotes the new key of two
    other hosts. -/
theorem repeated_key_outvotes :
    ∃ merged, mergeItems .insertion
        [(0, gpgKey "old"), (0, gpgKey "old"), (0, gpgKey "old"), (1, gpgKey "new"),
          (2, gpgKey "new")] 3 ["db", "mq", "web"] = some merged ∧
      ¬ MajorityRepresents 3 ["db", "mq", "web"]
        [(0, gpgKey "old"), (0, gpgKey "old"), (0, gpgKey "old"), (1, gpgKey "new"),
          (2, gpgKey "new")] merged := by
  refine ⟨_, rfl, fun represents => ?_⟩
  obtain ⟨a, chosen, -, majority⟩ := represents (1, gpgKey "new") (by simp) (by
    intro _ _
    rfl)
  have old : a = gpgKey "old" := Option.some.inj (chosen.symm.trans (by decide))
  subst old
  rcases majority.most (1, gpgKey "new") (by decide) with fewer | ⟨same, -⟩
  · exact absurd fewer (by decide)
  · exact absurd same (by decide)

end GpgKeys

end Inspectah
