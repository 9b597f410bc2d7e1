import Inspectah.Render.FcontextEntries

/-!
Which entries of the equivalence list a rule asks for: the first that holds it, or that of
`/var/srv` for a label under `/srv`.
-/
namespace Inspectah

variable {entries : List Equivalence}

def asks (entries : List Equivalence) (rule : FcontextRule) : Option Nat :=
  if rule.isIncluded then
    match ReplayRule.of rule with
    | none => entryOf entries fun row => row == rule
    | some replay =>
      if (collision entries rule).isNone then
        (varSymlinkTarget replay.spec).bind fun target =>
          entryOf entries fun row => subjectOf row == some target
      else none
  else none

/-- The first row about `/srv` maps it onto `/var/srv`, before the first row about `/var/srv`,
    which is the added one. -/
def Overlooked (rules : List FcontextRule) : Prop :=
  (∃ reversed, equivalencePair reversed = some SRV_REVERSED ∧
    (includedEquivalences rules).find? (about reversed) = some reversed ∧
    (includedEquivalences rules).findIdx (about reversed) <
      (includedEquivalences rules).findIdx (about srvEquivalence)) ∧
  (includedEquivalences rules).find? (about srvEquivalence) = some srvEquivalence ∧
  ∀ r ∈ includedEquivalences rules, subjectOf r = some "/var/srv" →
    equivalencePair r = equivalencePair srvEquivalence

theorem entryOf_eq_some {wanted : FcontextRule → Bool} {idx : Nat}
    (h : entryOf entries wanted = some idx) :
    ∃ e, entries[idx]? = some e ∧ (∃ row ∈ e.rowsOf, wanted row = true) ∧
      ∀ j < idx, ∀ f, entries[j]? = some f → ∀ row ∈ f.rowsOf, wanted row = false := by
  obtain ⟨bound, hit, before⟩ := List.findIdx?_eq_some_iff_getElem.mp h
  refine ⟨entries[idx], List.getElem?_eq_getElem bound, List.any_eq_true.mp hit, ?_⟩
  intro j earlier f found row mem
  obtain ⟨bound_j, rfl⟩ := List.getElem?_eq_some_iff.mp found
  have missed := before j earlier
  rw [Bool.not_eq_true, List.any_eq_false] at missed
  exact Bool.eq_false_iff.mpr (missed row mem)

theorem exists_entryOf {wanted : FcontextRule → Bool} {e : Equivalence}
    (mem : e ∈ entries) {row : FcontextRule} (held : row ∈ e.rowsOf) (hit : wanted row = true) :
    ∃ idx, entryOf entries wanted = some idx := by
  have found : (entryOf entries wanted).isSome := by
    rw [entryOf, List.findIdx?_isSome, List.any_eq_true]
    exact ⟨e, mem, List.any_eq_true.mpr ⟨row, held, hit⟩⟩
  exact Option.isSome_iff_exists.mp found

theorem index_of_subject (subjects : entries.Pairwise fun a b => subjectOf a.rule ≠ subjectOf b.rule) {i j : Nat}
    {a b : Equivalence} (ha : entries[i]? = some a) (hb : entries[j]? = some b)
    (same : subjectOf a.rule = subjectOf b.rule) : i = j := by
  obtain ⟨bi, rfl⟩ := List.getElem?_eq_some_iff.mp ha
  obtain ⟨bj, rfl⟩ := List.getElem?_eq_some_iff.mp hb
  obtain lt | eq | gt := Nat.lt_trichotomy i j
  · exact absurd same (List.pairwise_iff_getElem.mp subjects i j bi bj lt)
  · exact eq
  · exact absurd same.symm (List.pairwise_iff_getElem.mp subjects j i bj bi gt)

theorem includedEquivalence_asks {rules : List FcontextRule} {rule : FcontextRule}
    (h : rule ∈ includedEquivalences rules) (entries : List Equivalence) :
    rule ∈ rules ∧ asks entries rule = entryOf entries fun row => row == rule := by
  simp only [includedEquivalences, List.mem_filter] at h
  refine ⟨h.1.1, ?_⟩
  unfold asks
  rw [if_pos h.1.2]
  cases rule with
  | equivalence => rfl
  | label => simp [subjectOf, equivalencePair] at h
  | unlabel => simp [subjectOf, equivalencePair] at h
  | unparsed => simp [subjectOf, equivalencePair] at h

section

variable {rules : List FcontextRule}

theorem added_nil_of_reversed {change : Equivalence → Equivalence} {added : List Equivalence}
    (carries : Carried rules change added) (h : ∃ f ∈ selinuxEquivalences rules,
      equivalencePair f.rule = some SRV_REVERSED) : added = [] := by
  obtain none | ⟨one, unseen⟩ := carries.added_once
  · exact none
  · obtain ⟨f, hf, pair⟩ := h
    obtain ⟨c, hc, -, rule⟩ | ⟨rfl, -⟩ := mem_listed carries hf
    · rw [rule] at pair
      exact absurd pair (unseen _ (List.mem_map_of_mem hc)).2
    · exact absurd (show equivalencePair srvEquivalence = some SRV_REVERSED from pair) (by decide)

/-- With a reversed row the entries stand in the order their paths came up. -/
theorem order_of_reversed (h : ∃ f ∈ selinuxEquivalences rules,
      equivalencePair f.rule = some SRV_REVERSED) :
    ((selinuxEquivalences rules).map (·.rule)).Pairwise fun a b =>
      (includedEquivalences rules).findIdx (about a) <
        (includedEquivalences rules).findIdx (about b) := by
  obtain ⟨change, added, carries⟩ := carried rules
  have nothing := added_nil_of_reversed carries h
  have same : (selinuxEquivalences rules).map (·.rule) =
      ((rules.filter (·.isIncluded)).foldl collectEquivalence []).map (·.rule) := by
    rw [carries.whole, nothing, List.append_nil, settledEquivalences, List.map_map, List.map_map,
      List.map_map]
    refine List.map_congr_left fun c _ => ?_
    simp [carries.change_rule]
  rw [same]
  exact (gathered rules).order

theorem asked_of_row (list : Listed rules entries) {idx : Nat}
    {e : Equivalence} (he : entries[idx]? = some e) {row : FcontextRule}
    (collected : row ∈ includedEquivalences rules) (held : row ∈ e.rowsOf)
    (own : subjectOf row = subjectOf e.rule) :
    (∃ rule ∈ rules, asks entries rule = some idx) ∨
    row = srvEquivalence ∧ ∃ j < idx, ∃ a, entries[j]? = some a ∧
      equivalencePair a.rule = some SRV_REVERSED := by
  obtain ⟨j, first⟩ : ∃ j, entryOf entries (fun r => r == row) = some j :=
    exists_entryOf (List.mem_of_getElem? he) held (by simp)
  obtain ⟨a, ha, ⟨other, other_held, hit⟩, before⟩ := entryOf_eq_some first
  obtain rfl := beq_iff_eq.mp hit
  obtain ⟨in_rules, asked⟩ := includedEquivalence_asks collected entries
  obtain same | ⟨srv, reversed⟩ := list.held a (List.mem_of_getElem? ha) other other_held
  · obtain rfl := index_of_subject list.subjects he ha (own.symm.trans same)
    exact .inl ⟨other, in_rules, by rw [asked, first]⟩
  · refine .inr ⟨srv, j, ?_, a, ha, reversed⟩
    obtain lt | eq | gt := Nat.lt_trichotomy j idx
    · exact lt
    · subst eq
      obtain rfl := Option.some.inj (ha.symm.trans he)
      rw [subjectOf_of_pair reversed, srv] at own
      exact absurd own (by decide)
    · have missed := before idx gt e he other held
      simp at missed

theorem asked_of_collected (found : ¬ Overlooked rules) {idx : Nat} {e : Equivalence}
    (he : (selinuxEquivalences rules)[idx]? = some e)
    (collected : e.rule ∈ includedEquivalences rules) :
    ∃ rule ∈ rules, asks (selinuxEquivalences rules) rule = some idx := by
  have list := listed rules
  have mem := List.mem_of_getElem? he
  obtain asked | ⟨srv, j, earlier, a, ha, reversed⟩ :=
    asked_of_row list he collected (list.own e mem) rfl
  · exact asked
  -- The first holder is the entry of `/srv`, and this one is the entry of `/var/srv`.
  obtain ⟨change, added, carries⟩ := carried rules
  have base := gathered rules
  have mem_a := List.mem_of_getElem? ha
  have order : (includedEquivalences rules).findIdx (about a.rule) <
      (includedEquivalences rules).findIdx (about srvEquivalence) := by
    obtain ⟨bound_j, rfl⟩ := List.getElem?_eq_some_iff.mp ha
    obtain ⟨bound, rfl⟩ := List.getElem?_eq_some_iff.mp he
    rw [← srv]
    have pairs := List.pairwise_map.mp (order_of_reversed ⟨_, mem_a, reversed⟩)
    exact List.pairwise_iff_getElem.mp pairs j idx bound_j bound earlier
  have nothing := added_nil_of_reversed carries ⟨a, mem_a, reversed⟩
  have named : ∀ f ∈ selinuxEquivalences rules, ∃ c ∈
      (rules.filter (·.isIncluded)).foldl collectEquivalence [],
        f = settleEmission (change (settleEmission c)) ∧ f.rule = c.rule := by
    intro f hf
    obtain collected | ⟨-, one⟩ := mem_listed carries hf
    · exact collected
    · rw [nothing] at one
      cases one
  obtain ⟨c, hc, same, rule⟩ := named e mem
  obtain ⟨ca, hca, -, rule_a⟩ := named a mem_a
  have srv_c : c.rule = srvEquivalence := rule.symm.trans srv
  obtain ⟨-, agree⟩ | ⟨held, origin, row, in_held, apart⟩ := base.verdict c hc
  · exfalso
    refine found ⟨⟨a.rule, reversed, ?_, order⟩, ?_, ?_⟩
    · rw [rule_a]
      exact base.first ca hca
    · rw [← srv_c]
      exact base.first c hc
    · rw [srv_c] at agree
      exact agree
  · have in_rows : row ∈ c.rowsOf := by
      rw [Equivalence.rowsOf, origin]
      exact in_held
    obtain ⟨collected_row, own⟩ := base.held c hc row in_rows
    have in_e : row ∈ e.rowsOf := by
      rw [same, rowsOf_settleEmission]
      obtain kept | ⟨kept, -⟩ := carries.changed (settleEmission c)
      · rw [kept]
        exact in_rows
      · rw [kept]
        exact rowsOf_mono_absorb in_rows
    obtain asked | ⟨other, -⟩ := asked_of_row list he collected_row in_e (own.trans (by rw [rule]))
    · exact asked
    · rw [other, srv_c] at apart
      exact absurd rfl apart

theorem collision_eq_none_iff {rule : FcontextRule} :
    collision entries rule = none ↔ isRenderable rule = true ∧
      ∀ replay, ReplayRule.of rule = some replay → ∀ e ∈ entries, e.notEmitted = none →
        ∀ pair, equivalencePair e.rule = some pair → beginsWithToplevel replay.spec pair.1 = false := by
  unfold collision
  cases renderable : isRenderable rule with
  | false => simp
  | true =>
    simp only [Bool.not_true, Bool.false_eq_true, if_false, true_and, Option.bind_eq_none_iff,
      Option.map_eq_none_iff, List.findSome?_eq_none_iff, List.mem_filter, Option.isNone_iff_eq_none,
      Option.filter_eq_none_iff, and_imp, Bool.not_eq_true]

/-- A path under `/srv` is not one under `/var/srv`. -/
theorem beginsWith_srv {spec : String} (h : beginsWithToplevel spec "/srv" = true) :
    beginsWithToplevel spec "/var/srv" = false := by
  have starts : ∀ {toplevel}, beginsWithToplevel spec toplevel = true →
      toplevel.toList <+: spec.toList := by
    intro toplevel begins
    rw [← Text.startsWith_iff]
    by_contra other
    simp [beginsWithToplevel, Text.afterPrefix, other] at begins
  rw [Bool.eq_false_iff]
  intro again
  obtain one | other := List.prefix_or_prefix_of_prefix (starts h) (starts again)
  · exact absurd one (by decide)
  · exact absurd other (by decide)

theorem asked_of_emitting (found : ¬ Overlooked rules) {idx : Nat} {e : Equivalence}
    (he : (selinuxEquivalences rules)[idx]? = some e) (emits : e.notEmitted = none) :
    ∃ rule ∈ rules, asks (selinuxEquivalences rules) rule = some idx := by
  have list := listed rules
  have mem := List.mem_of_getElem? he
  obtain collected | ⟨same, none_reversed⟩ := list.source e mem
  · exact asked_of_collected found he collected
  obtain ⟨change, added, carries⟩ := carried rules
  -- some rule that needs the added row has no collision with the rest of the list
  have needed : (srvTriggers rules).any
      (fun r => (collision (settledEquivalences rules) r).isNone) = true := by
    have cause := notEmitted_of_settleEmission (same ▸ emits)
    by_contra unneeded
    simp [srvAdded, unneeded] at cause
  obtain ⟨r, trigger, free⟩ := List.any_eq_true.mp needed
  obtain ⟨in_rules, triggers⟩ := List.mem_filter.mp trigger
  unfold triggersSynthesis at triggers
  split at triggers
  next replay replayed =>
    simp only [Bool.and_eq_true] at triggers
    obtain ⟨⟨included, renderable⟩, under⟩ := triggers
    obtain ⟨-, apart⟩ := collision_eq_none_iff.mp (Option.isNone_iff_eq_none.mp free)
    have alone : collision (selinuxEquivalences rules) r = none := by
      refine collision_eq_none_iff.mpr ⟨renderable, fun other again f hf emitted pair paired => ?_⟩
      obtain ⟨c, hc, rfl, rule⟩ | ⟨rfl, -⟩ := mem_listed carries hf
      · have settled : (settleEmission c).notEmitted = none := by
          have changed := notEmitted_of_settleEmission emitted
          obtain kept | ⟨kept, -⟩ := carries.changed (settleEmission c)
          · rwa [kept] at changed
          · rwa [kept, absorb_notEmitted] at changed
        exact apart other again _ (List.mem_map_of_mem hc) settled pair (by rw [← paired, rule]; rfl)
      · obtain rfl : ("/var/srv", "/srv") = pair := Option.some.inj paired
        obtain rfl := Option.some.inj (replayed.symm.trans again)
        exact beginsWith_srv under
    have target : varSymlinkTarget replay.spec = some "/var/srv" := by
      simp [varSymlinkTarget, VAR_SYMLINKED_TOPLEVELS, under]
    have named : subjectOf e.rule = some "/var/srv" := by rw [same]; rfl
    obtain ⟨j, first⟩ : ∃ j, entryOf (selinuxEquivalences rules)
        (fun row => subjectOf row == some "/var/srv") = some j :=
      exists_entryOf mem (list.own e mem) (by simp [named])
    obtain ⟨a, ha, ⟨row, held, hit⟩, -⟩ := entryOf_eq_some first
    have own : subjectOf row = subjectOf a.rule := by
      obtain own | ⟨-, reversed⟩ := list.held a (List.mem_of_getElem? ha) row held
      · exact own
      · exact absurd reversed (none_reversed a (List.mem_of_getElem? ha))
    obtain rfl := index_of_subject list.subjects he ha
      (named.trans ((beq_iff_eq.mp hit).symm.trans own))
    refine ⟨r, in_rules, ?_⟩
    unfold asks
    rw [if_pos included, replayed]
    simp only [alone, Option.isNone_none, if_true, target, Option.bind_some, first]
  · cases triggers

theorem mem_absorb_self {r : FcontextRule} {e : Equivalence}
    (apart : equivalencePair e.rule ≠ equivalencePair r) : r ∈ (absorb r e).rowsOf := by
  unfold absorb
  split
  next held origin =>
    split
    next known =>
      rw [Equivalence.rowsOf, origin]
      simpa using known
    · simp [Equivalence.rowsOf]
  · split
    next same =>
      obtain rfl | pair := same
      · exact absurd rfl apart
      · exact absurd pair apart
    · simp [Equivalence.rowsOf]

theorem Gathered.entry_of_first {rows : List FcontextRule} {entries : List Equivalence}
    (h : Gathered rows entries) {r : FcontextRule} (first : rows.find? (about r) = some r) :
    ∃ c ∈ entries, c.rule = r := by
  obtain ⟨c, hc, same⟩ := h.complete r (List.mem_of_find?_eq_some first)
  have tests : about c.rule = about r := by
    funext x
    simp [about, same]
  have own := h.first c hc
  rw [tests, first] at own
  exact ⟨c, hc, (Option.some.inj own).symm⟩

/-- The reversed row keeps the entry of `/var/srv` from being asked for. -/
theorem unasked_of_overlooked (h : Overlooked rules) :
    ∃ idx e, (selinuxEquivalences rules)[idx]? = some e ∧ e.notEmitted = none ∧
      ∀ rule, asks (selinuxEquivalences rules) rule ≠ some idx := by
  obtain ⟨⟨reversed, pair, first, order⟩, first_srv, agree⟩ := h
  have base := gathered rules
  obtain ⟨a, ha, rule_a⟩ := base.entry_of_first first
  obtain ⟨b, hb, rule_b⟩ := base.entry_of_first first_srv
  have pair_a : equivalencePair a.rule = some SRV_REVERSED := by rw [rule_a, pair]
  have whole := selinuxEquivalences_eq rules
  rw [synthesize_reversed ⟨settleEmission a, List.mem_map_of_mem ha, pair_a⟩,
    settledEquivalences, List.map_map, List.map_map] at whole
  obtain ⟨i, bound_i, at_i⟩ := List.mem_iff_getElem.mp ha
  obtain ⟨j, bound_j, at_j⟩ := List.mem_iff_getElem.mp hb
  have earlier : i < j := by
    have sorted := List.pairwise_iff_getElem.mp (List.pairwise_map.mp base.order)
    obtain lt | eq | gt := Nat.lt_trichotomy i j
    · exact lt
    · subst eq
      rw [← at_j, at_i, rule_a] at rule_b
      rw [rule_b] at pair
      exact absurd pair (by decide)
    · have other := sorted j i bound_j bound_i gt
      rw [at_i, at_j, rule_a, rule_b] at other
      omega
  have entry_i : (selinuxEquivalences rules)[i]? =
      some (settleEmission (absorb srvEquivalence (settleEmission a))) := by
    rw [whole, List.getElem?_map, List.getElem?_eq_getElem bound_i, at_i]
    simp [pair_a]
  have entry_j : (selinuxEquivalences rules)[j]? = some (settleEmission (settleEmission b)) := by
    have apart : equivalencePair b.rule ≠ some SRV_REVERSED := by rw [rule_b]; decide
    rw [whole, List.getElem?_map, List.getElem?_eq_getElem bound_j, at_j]
    simp [apart]
  have undisputed : b.origin = .collected := by
    obtain ⟨origin, -⟩ | ⟨held, origin, row, in_held, apart⟩ := base.verdict b hb
    · exact origin
    · have in_rows : row ∈ b.rowsOf := by
        rw [Equivalence.rowsOf, origin]
        exact in_held
      obtain ⟨collected, own⟩ := base.held b hb row in_rows
      rw [rule_b] at own apart
      exact absurd (agree row collected own) apart
  have only : ∀ row ∈ (settleEmission (settleEmission b)).rowsOf, row = srvEquivalence := by
    intro row mem
    rw [rowsOf_settleEmission, rowsOf_settleEmission, Equivalence.rowsOf, undisputed] at mem
    rw [← rule_b]
    exact List.mem_singleton.mp mem
  have unasked : ∀ wanted, entryOf (selinuxEquivalences rules) wanted ≠ some j := by
    intro wanted asked
    obtain ⟨e, he, ⟨row, held, hit⟩, before⟩ := entryOf_eq_some asked
    obtain rfl := Option.some.inj (entry_j.symm.trans he)
    obtain rfl := only row held
    have in_a : srvEquivalence ∈
        (settleEmission (absorb srvEquivalence (settleEmission a))).rowsOf := by
      refine mem_absorb_self ?_
      rw [settleEmission_rule, pair_a]
      decide
    rw [before i earlier _ entry_i _ in_a] at hit
    cases hit
  refine ⟨j, _, entry_j, ?_, fun rule asked => ?_⟩
  · have renderable : isRenderable b.rule = true := by rw [rule_b]; decide
    simp [settleEmission, undisputed, renderable, base.pending b hb]
  · unfold asks at asked
    split at asked
    · split at asked
      · exact unasked _ asked
      · split at asked
        · obtain ⟨target, -, named⟩ := Option.bind_eq_some_iff.mp asked
          exact unasked _ named
        · cases asked
    · cases asked

end

end Inspectah
