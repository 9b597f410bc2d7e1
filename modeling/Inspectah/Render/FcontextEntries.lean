import Inspectah.Library.FirstMatch
import Inspectah.Render.Fcontext

/-!
The equivalence list. Rows about one path share an entry, in conflict where they disagree; a
row from `/srv` onto `/var/srv` conflicts with the added one.
-/
namespace Inspectah

/-- The included rows that map one path to another. -/
def includedEquivalences (rules : List FcontextRule) : List FcontextRule :=
  (rules.filter (·.isIncluded)).filter fun r => (subjectOf r).isSome

def about (rule r : FcontextRule) : Bool := subjectOf r == subjectOf rule

theorem about_iff {rule r : FcontextRule} : about rule r = true ↔ subjectOf r = subjectOf rule := by
  simp [about]

/-- An entry disputes its path exactly when two of its rows differ. -/
def Verdict (rows : List FcontextRule) (e : Equivalence) : Prop :=
  (e.origin = .collected ∧
    ∀ r ∈ rows, subjectOf r = subjectOf e.rule → equivalencePair r = equivalencePair e.rule) ∨
  (∃ held, e.origin = .conflict held ∧ ∃ r ∈ held, equivalencePair r ≠ equivalencePair e.rule)

structure Gathered (rows : List FcontextRule) (entries : List Equivalence) : Prop where
  /-- An entry is named by the first row about its path. -/
  first : ∀ e ∈ entries, rows.find? (about e.rule) = some e.rule
  complete : ∀ r ∈ rows, ∃ e ∈ entries, subjectOf e.rule = subjectOf r
  own : ∀ e ∈ entries, e.rule ∈ e.rowsOf
  held : ∀ e ∈ entries, ∀ r ∈ e.rowsOf, r ∈ rows ∧ subjectOf r = subjectOf e.rule
  verdict : ∀ e ∈ entries, Verdict rows e
  /-- The entries stand in the order their paths came up. -/
  order : (entries.map (·.rule)).Pairwise fun a b =>
    rows.findIdx (about a) < rows.findIdx (about b)
  pending : ∀ e ∈ entries, e.notEmitted = none

@[simp] theorem absorb_rule (r : FcontextRule) (e : Equivalence) : (absorb r e).rule = e.rule := by
  unfold absorb
  split <;> split <;> rfl

@[simp] theorem absorb_notEmitted (r : FcontextRule) (e : Equivalence) :
    (absorb r e).notEmitted = e.notEmitted := by
  unfold absorb
  split <;> split <;> rfl

theorem mem_rowsOf_absorb {r x : FcontextRule} {e : Equivalence} (own : e.rule ∈ e.rowsOf)
    (h : x ∈ (absorb r e).rowsOf) : x ∈ e.rowsOf ∨ x = r := by
  unfold absorb at h
  split at h
  next held origin =>
    split at h
    · exact .inl h
    · simp only [Equivalence.rowsOf, List.mem_append, List.mem_singleton] at h
      rw [Equivalence.rowsOf, origin]
      exact h
  · split at h
    · exact .inl h
    · simp only [Equivalence.rowsOf, List.mem_cons, List.not_mem_nil, or_false] at h
      obtain rfl | rfl := h
      · exact .inl own
      · exact .inr rfl

theorem rowsOf_mono_absorb {r x : FcontextRule} {e : Equivalence} (hx : x ∈ e.rowsOf) :
    x ∈ (absorb r e).rowsOf := by
  unfold absorb
  split
  next held origin =>
    split
    · exact hx
    · rw [Equivalence.rowsOf, origin] at hx
      exact List.mem_append_left _ hx
  next single =>
    have only : x = e.rule := by
      rw [Equivalence.rowsOf] at hx
      split at hx
      next held origin => exact absurd origin (single held)
      · exact List.mem_singleton.mp hx
    split
    · exact hx
    · rw [only]
      exact List.mem_cons_self ..

section

variable {rows : List FcontextRule} {entries : List Equivalence} {r : FcontextRule}

theorem Gathered.subjects (h : Gathered rows entries) :
    (entries.map (·.rule)).Pairwise fun a b => subjectOf a ≠ subjectOf b := by
  refine h.order.imp fun {a b} earlier same => ?_
  have tests : about a = about b := by
    funext x
    simp [about, same]
  rw [tests] at earlier
  exact lt_irrefl _ earlier

theorem collectEquivalence_known (h : Gathered rows entries) {e : Equivalence} (mem : e ∈ entries)
    (equivalence : (subjectOf r).isSome) (same : subjectOf e.rule = subjectOf r) :
    collectEquivalence entries r =
      entries.map fun e => if subjectOf e.rule = subjectOf r then absorb r e else e := by
  obtain ⟨subject, named⟩ := Option.isSome_iff_exists.mp equivalence
  unfold collectEquivalence
  rw [named]
  cases found : entries.findIdx? fun e => subjectOf e.rule == some subject with
  | none =>
    have other := List.findIdx?_eq_none_iff.mp found e mem
    simp [same, named] at other
  | some idx =>
    have once : entries.Pairwise fun a b =>
        (subjectOf a.rule == some subject) = true → (subjectOf b.rule == some subject) = false := by
      refine (List.pairwise_map.mp h.subjects).imp fun {a b} apart hit => ?_
      rw [beq_iff_eq] at hit
      rw [beq_eq_false_iff_ne, ← hit]
      exact Ne.symm apart
    simp only [found]
    rw [FirstMatch.modify_findIdx found once, FirstMatch.updateWhere]
    simp

theorem collectEquivalence_new (equivalence : (subjectOf r).isSome)
    (none : ∀ e ∈ entries, subjectOf e.rule ≠ subjectOf r) :
    collectEquivalence entries r = entries ++ [⟨r, .collected, Option.none⟩] := by
  obtain ⟨subject, named⟩ := Option.isSome_iff_exists.mp equivalence
  have absent : entries.findIdx? (fun e => subjectOf e.rule == some subject) = Option.none := by
    rw [List.findIdx?_eq_none_iff]
    intro e mem
    rw [beq_eq_false_iff_ne, ← named]
    exact none e mem
  unfold collectEquivalence
  rw [named]
  simp only [absent]

theorem findIdx_snoc {p : FcontextRule → Bool} (mem : ∃ x ∈ rows, p x = true) :
    (rows ++ [r]).findIdx p = rows.findIdx p := by
  rw [List.findIdx_append, if_pos (List.findIdx_lt_length.mpr mem)]

theorem Gathered.mem_first (h : Gathered rows entries) {e : Equivalence} (mem : e ∈ entries) :
    e.rule ∈ rows := List.mem_of_find?_eq_some (h.first e mem)

theorem Gathered.order_snoc (h : Gathered rows entries) :
    (entries.map (·.rule)).Pairwise fun a b =>
      (rows ++ [r]).findIdx (about a) < (rows ++ [r]).findIdx (about b) := by
  refine h.order.imp_of_mem fun {a b} ha hb earlier => ?_
  obtain ⟨e, he, rfl⟩ := List.mem_map.mp ha
  obtain ⟨f, hf, rfl⟩ := List.mem_map.mp hb
  rw [findIdx_snoc ⟨e.rule, h.mem_first he, by simp [about]⟩,
    findIdx_snoc ⟨f.rule, h.mem_first hf, by simp [about]⟩]
  exact earlier

theorem Gathered.first_snoc (h : Gathered rows entries) {e : Equivalence} (mem : e ∈ entries) :
    (rows ++ [r]).find? (about e.rule) = some e.rule := by
  rw [List.find?_append, h.first e mem]
  rfl

theorem verdict_absorb {e : Equivalence} (h : Verdict rows e) : Verdict (rows ++ [r]) (absorb r e) := by
  obtain ⟨origin, agree⟩ | ⟨held, origin, x, hx, apart⟩ := h
  · unfold absorb
    rw [origin]
    simp only
    split
    next same =>
      refine .inl ⟨origin, fun x hx about_x => ?_⟩
      obtain old | new := List.mem_append.mp hx
      · exact agree x old about_x
      · obtain rfl := List.mem_singleton.mp new
        obtain rfl | pair := same
        · rfl
        · exact pair.symm
    next apart =>
      rw [not_or] at apart
      exact .inr ⟨_, rfl, r, by simp, Ne.symm apart.2⟩
  · unfold absorb
    rw [origin]
    simp only
    split
    · exact .inr ⟨held, origin, x, hx, apart⟩
    · exact .inr ⟨_, rfl, x, List.mem_append_left _ hx, apart⟩

theorem Gathered.snoc_known (h : Gathered rows entries) {known : Equivalence}
    (mem : known ∈ entries) (equivalence : (subjectOf r).isSome)
    (same : subjectOf known.rule = subjectOf r) :
    Gathered (rows ++ [r]) (collectEquivalence entries r) := by
  rw [collectEquivalence_known h mem equivalence same]
  have rules : (entries.map fun e => if subjectOf e.rule = subjectOf r then absorb r e else e).map
      (·.rule) = entries.map (·.rule) := by
    rw [List.map_map]
    refine List.map_congr_left fun e _ => ?_
    simp only [Function.comp_apply]
    split <;> simp
  have each : ∀ f ∈ entries.map fun e => if subjectOf e.rule = subjectOf r then absorb r e else e,
      ∃ e ∈ entries, f.rule = e.rule ∧
        (f = e ∧ subjectOf e.rule ≠ subjectOf r ∨ f = absorb r e ∧ subjectOf e.rule = subjectOf r) := by
    intro f hf
    obtain ⟨e, he, rfl⟩ := List.mem_map.mp hf
    by_cases hit : subjectOf e.rule = subjectOf r
    · exact ⟨e, he, by simp [hit], .inr ⟨by simp [hit], hit⟩⟩
    · exact ⟨e, he, by simp [hit], .inl ⟨by simp [hit], hit⟩⟩
  constructor
  case order => rw [rules]; exact h.order_snoc
  case first =>
    intro f hf
    obtain ⟨e, he, rule, -⟩ := each f hf
    rw [rule]
    exact h.first_snoc he
  case complete =>
    intro x hx
    have listed : ∃ e ∈ entries, subjectOf e.rule = subjectOf x := by
      obtain old | new := List.mem_append.mp hx
      · exact h.complete x old
      · obtain rfl := List.mem_singleton.mp new
        exact ⟨known, mem, same⟩
    obtain ⟨e, he, subject⟩ := listed
    refine ⟨_, List.mem_map.mpr ⟨e, he, rfl⟩, ?_⟩
    split <;> simp [subject]
  case own =>
    intro f hf
    obtain ⟨e, he, rule, ⟨rfl, -⟩ | ⟨rfl, -⟩⟩ := each f hf
    · exact h.own f he
    · rw [absorb_rule]
      exact rowsOf_mono_absorb (h.own e he)
  case held =>
    intro f hf x hx
    obtain ⟨e, he, rule, ⟨rfl, -⟩ | ⟨rfl, subject⟩⟩ := each f hf
    · obtain ⟨listed, own⟩ := h.held f he x hx
      exact ⟨List.mem_append_left _ listed, own⟩
    · rw [absorb_rule]
      obtain old | rfl := mem_rowsOf_absorb (h.own e he) hx
      · obtain ⟨listed, own⟩ := h.held e he x old
        exact ⟨List.mem_append_left _ listed, own⟩
      · exact ⟨by simp, subject.symm⟩
  case verdict =>
    intro f hf
    obtain ⟨e, he, rule, ⟨rfl, apart⟩ | ⟨rfl, subject⟩⟩ := each f hf
    · obtain ⟨origin, agree⟩ | conflict := h.verdict f he
      · refine .inl ⟨origin, fun x hx about_x => ?_⟩
        obtain old | new := List.mem_append.mp hx
        · exact agree x old about_x
        · obtain rfl := List.mem_singleton.mp new
          exact absurd about_x.symm apart
      · exact .inr conflict
    · exact verdict_absorb (h.verdict e he)
  case pending =>
    intro f hf
    obtain ⟨e, he, rule, ⟨rfl, -⟩ | ⟨rfl, -⟩⟩ := each f hf
    · exact h.pending f he
    · rw [absorb_notEmitted]
      exact h.pending e he

theorem Gathered.snoc_new (h : Gathered rows entries) (equivalence : (subjectOf r).isSome)
    (none : ∀ e ∈ entries, subjectOf e.rule ≠ subjectOf r) :
    Gathered (rows ++ [r]) (collectEquivalence entries r) := by
  rw [collectEquivalence_new equivalence none]
  have unseen : ∀ x ∈ rows, subjectOf x ≠ subjectOf r := by
    intro x hx same
    obtain ⟨e, he, subject⟩ := h.complete x hx
    exact none e he (subject.trans same)
  have each : ∀ f ∈ entries ++ [(⟨r, .collected, Option.none⟩ : Equivalence)],
      f ∈ entries ∨ f = ⟨r, .collected, Option.none⟩ := by
    intro f hf
    simpa using hf
  have here : (rows ++ [r]).findIdx (about r) = rows.length := by
    have missed : ¬ rows.findIdx (about r) < rows.length := by
      rw [List.findIdx_lt_length]
      rintro ⟨x, hx, same⟩
      exact unseen x hx (about_iff.mp same)
    rw [List.findIdx_append, if_neg missed]
    simp [about]
  constructor
  case order =>
    rw [List.map_append, List.pairwise_append]
    refine ⟨h.order_snoc, by simp, fun a ha b hb => ?_⟩
    obtain ⟨e, he, rfl⟩ := List.mem_map.mp ha
    have last : b = r := by simpa using hb
    have seen : ∃ x ∈ rows, about e.rule x = true := ⟨e.rule, h.mem_first he, by simp [about]⟩
    rw [last, here, findIdx_snoc seen]
    exact List.findIdx_lt_length.mpr seen
  case first =>
    intro f hf
    obtain old | rfl := each f hf
    · exact h.first_snoc old
    · have absent : rows.find? (about r) = Option.none := by
        rw [List.find?_eq_none]
        exact fun x hx same => unseen x hx (about_iff.mp same)
      rw [List.find?_append, absent]
      simp [about]
  case complete =>
    intro x hx
    obtain old | new := List.mem_append.mp hx
    · obtain ⟨e, he, subject⟩ := h.complete x old
      exact ⟨e, List.mem_append_left _ he, subject⟩
    · obtain rfl := List.mem_singleton.mp new
      exact ⟨_, List.mem_append_right _ (List.mem_singleton_self _), rfl⟩
  case own =>
    intro f hf
    obtain old | rfl := each f hf
    · exact h.own f old
    · exact List.mem_singleton_self _
  case held =>
    intro f hf x hx
    obtain old | rfl := each f hf
    · obtain ⟨listed, own⟩ := h.held f old x hx
      exact ⟨List.mem_append_left _ listed, own⟩
    · obtain rfl : x = r := by simpa [Equivalence.rowsOf] using hx
      simp
  case verdict =>
    intro f hf
    obtain old | rfl := each f hf
    · obtain ⟨origin, agree⟩ | conflict := h.verdict f old
      · refine .inl ⟨origin, fun x hx about_x => ?_⟩
        obtain old_row | new := List.mem_append.mp hx
        · exact agree x old_row about_x
        · obtain rfl := List.mem_singleton.mp new
          exact absurd about_x.symm (none f old)
      · exact .inr conflict
    · refine .inl ⟨rfl, fun x hx about_x => ?_⟩
      obtain old_row | new := List.mem_append.mp hx
      · exact absurd about_x (unseen x old_row)
      · obtain rfl := List.mem_singleton.mp new
        rfl
  case pending =>
    intro f hf
    obtain old | rfl := each f hf
    · exact h.pending f old
    · rfl

theorem Gathered.snoc (h : Gathered rows entries) (equivalence : (subjectOf r).isSome) :
    Gathered (rows ++ [r]) (collectEquivalence entries r) := by
  by_cases known : ∃ e ∈ entries, subjectOf e.rule = subjectOf r
  · obtain ⟨e, mem, same⟩ := known
    exact h.snoc_known mem equivalence same
  · exact h.snoc_new equivalence fun e mem same => known ⟨e, mem, same⟩

end

theorem gathered_nil : Gathered [] [] := by
  constructor <;> simp

theorem gathered_equivalences {rows : List FcontextRule} (equivalences : ∀ r ∈ rows, (subjectOf r).isSome) :
    Gathered rows (rows.foldl collectEquivalence []) := by
  induction rows using List.reverseRecOn with
  | nil => exact gathered_nil
  | append_singleton before r ih =>
    rw [List.foldl_concat]
    refine (ih fun x hx => equivalences x (List.mem_append_left _ hx)).snoc ?_
    exact equivalences r (by simp)

theorem foldl_collectEquivalence (rows : List FcontextRule) (entries : List Equivalence) :
    rows.foldl collectEquivalence entries =
      (rows.filter fun r => (subjectOf r).isSome).foldl collectEquivalence entries := by
  induction rows generalizing entries with
  | nil => rfl
  | cons r rest ih =>
    by_cases equivalence : (subjectOf r).isSome
    · rw [List.filter_cons, if_pos equivalence, List.foldl_cons, List.foldl_cons, ih]
    · have same : collectEquivalence entries r = entries := by
        unfold collectEquivalence
        rw [Option.not_isSome_iff_eq_none.mp equivalence]
      rw [List.filter_cons, if_neg equivalence, List.foldl_cons, same, ih]

theorem gathered (rules : List FcontextRule) :
    Gathered (includedEquivalences rules)
      ((rules.filter (·.isIncluded)).foldl collectEquivalence []) := by
  rw [foldl_collectEquivalence]
  exact gathered_equivalences fun r hr => (List.mem_filter.mp hr).2

@[simp] theorem settleEmission_rule (e : Equivalence) : (settleEmission e).rule = e.rule := rfl

@[simp] theorem settleEmission_origin (e : Equivalence) : (settleEmission e).origin = e.origin := rfl

@[simp] theorem rowsOf_settleEmission (e : Equivalence) : (settleEmission e).rowsOf = e.rowsOf := rfl

theorem notEmitted_of_settleEmission {e : Equivalence} (h : (settleEmission e).notEmitted = none) :
    e.notEmitted = none := by
  unfold settleEmission at h
  simp only at h
  split at h
  · cases h
  · split at h
    · exact h
    · cases h

def settledEquivalences (rules : List FcontextRule) : List Equivalence :=
  ((rules.filter (·.isIncluded)).foldl collectEquivalence []).map settleEmission

/-- The row the renderer adds for `/srv`, and the pair that says the reverse. -/
def srvEquivalence : FcontextRule := .equivalence "/var/srv" "/srv" .included none

def SRV_REVERSED : String × String := ("/srv", "/var/srv")

theorem selinuxEquivalences_eq (rules : List FcontextRule) :
    selinuxEquivalences rules =
      (synthesizeEquivalence rules (settledEquivalences rules) SRV_REVERSED).map settleEmission := rfl

theorem mem_settled {rules : List FcontextRule} {e : Equivalence} (h : e ∈ settledEquivalences rules) :
    ∃ c ∈ (rules.filter (·.isIncluded)).foldl collectEquivalence [], e = settleEmission c := by
  obtain ⟨c, hc, rfl⟩ := List.mem_map.mp h
  exact ⟨c, hc, rfl⟩

theorem settled_subjects (rules : List FcontextRule) :
    (settledEquivalences rules).Pairwise fun a b => subjectOf a.rule ≠ subjectOf b.rule := by
  have apart := (gathered rules).subjects
  rw [List.pairwise_map] at apart
  exact List.pairwise_map.mpr apart

theorem settled_complete {rules : List FcontextRule} {r : FcontextRule}
    (h : r ∈ includedEquivalences rules) :
    ∃ e ∈ settledEquivalences rules, subjectOf e.rule = subjectOf r := by
  obtain ⟨e, he, same⟩ := (gathered rules).complete r h
  exact ⟨settleEmission e, List.mem_map_of_mem he, same⟩

theorem subjectOf_of_pair {rule : FcontextRule} {pair : String × String}
    (h : equivalencePair rule = some pair) : subjectOf rule = some pair.1 := by
  simp [subjectOf, h]

/-- A change at the first entry that passes a test on its path is one of all such entries. -/
theorem modify_settled {rules : List FcontextRule} {p : Equivalence → Bool} {idx : Nat}
    {path : String} (found : (settledEquivalences rules).findIdx? p = some idx)
    (own : ∀ e, p e = true → subjectOf e.rule = some path) (r : FcontextRule) :
    (settledEquivalences rules).modify idx (absorb r) =
      (settledEquivalences rules).map fun e => if p e then absorb r e else e := by
  refine FirstMatch.modify_findIdx found ((settled_subjects rules).imp fun {a b} apart hit => ?_)
  rw [Bool.eq_false_iff]
  intro again
  exact apart ((own a hit).trans (own b again).symm)

section

variable {rules : List FcontextRule}

theorem synthesize_reversed (h : ∃ a ∈ settledEquivalences rules,
      equivalencePair a.rule = some SRV_REVERSED) :
    synthesizeEquivalence rules (settledEquivalences rules) SRV_REVERSED =
      (settledEquivalences rules).map fun e =>
        if equivalencePair e.rule == some SRV_REVERSED then absorb srvEquivalence e else e := by
  obtain ⟨a, ha, pair⟩ := h
  unfold synthesizeEquivalence
  cases found : (settledEquivalences rules).findIdx?
      fun e => equivalencePair e.rule == some SRV_REVERSED with
  | none =>
    have other := List.findIdx?_eq_none_iff.mp found a ha
    simp [pair] at other
  | some idx =>
    rw [← @modify_settled rules _ idx "/srv" found
      fun e hit => subjectOf_of_pair (beq_iff_eq.mp hit)]
    simp only [SRV_REVERSED] at found ⊢
    rw [found]
    rfl

/-- The rules that need the row, and why it is left out when each of them is refused. -/
def srvTriggers (rules : List FcontextRule) : List FcontextRule :=
  rules.filter (triggersSynthesis "/srv")

def srvAdded (rules : List FcontextRule) : Equivalence :=
  ⟨srvEquivalence, .synthesized (symlinkFact "/srv" "/var/srv"),
    if (srvTriggers rules).any fun r => (collision (settledEquivalences rules) r).isNone then none
    else some (unneededCause "/srv" "/var/srv")⟩

theorem synthesize_cases (h : ¬ ∃ a ∈ settledEquivalences rules,
      equivalencePair a.rule = some SRV_REVERSED) :
    (∃ change : Equivalence → Equivalence,
      synthesizeEquivalence rules (settledEquivalences rules) SRV_REVERSED =
        (settledEquivalences rules).map change ∧
      ∀ e, change e = e ∨
        change e = absorb srvEquivalence e ∧ subjectOf e.rule = some "/var/srv") ∨
    (synthesizeEquivalence rules (settledEquivalences rules) SRV_REVERSED =
        settledEquivalences rules ++ [srvAdded rules] ∧
      ∀ e ∈ settledEquivalences rules, subjectOf e.rule ≠ some "/var/srv") := by
  have absent : (settledEquivalences rules).findIdx?
      (fun e => equivalencePair e.rule == some SRV_REVERSED) = none := by
    rw [List.findIdx?_eq_none_iff]
    intro e he
    rw [beq_eq_false_iff_ne]
    exact fun pair => h ⟨e, he, pair⟩
  unfold synthesizeEquivalence
  simp only [SRV_REVERSED] at absent ⊢
  rw [absent]
  by_cases unneeded : (rules.filter (triggersSynthesis "/srv")).isEmpty = true
  · simp only [unneeded, if_true]
    exact .inl ⟨id, by rw [List.map_id], fun e => .inl rfl⟩
  · simp only [unneeded, if_false, Bool.false_eq_true]
    cases found : (settledEquivalences rules).findIdx? fun e => subjectOf e.rule == some "/var/srv" with
    | some idx =>
      refine .inl ⟨fun e => if subjectOf e.rule == some "/var/srv" then absorb srvEquivalence e else e,
        ?_, fun e => ?_⟩
      · exact modify_settled found (fun e hit => beq_iff_eq.mp hit) srvEquivalence
      · by_cases hit : subjectOf e.rule = some "/var/srv" <;> simp [hit]
    | none =>
      refine .inr ⟨rfl, fun e he => ?_⟩
      simpa using List.findIdx?_eq_none_iff.mp found e he

/-- Each settled entry stays or takes up the renderer's row, and at most that row is added. -/
structure Carried (rules : List FcontextRule) (change : Equivalence → Equivalence)
    (added : List Equivalence) : Prop where
  whole : selinuxEquivalences rules =
    ((settledEquivalences rules).map change ++ added).map settleEmission
  changed : ∀ e, change e = e ∨ change e = absorb srvEquivalence e ∧
    (equivalencePair e.rule = some SRV_REVERSED ∨ subjectOf e.rule = some "/var/srv")
  added_once : added = [] ∨ added = [srvAdded rules] ∧
    ∀ e ∈ settledEquivalences rules, subjectOf e.rule ≠ some "/var/srv" ∧
      equivalencePair e.rule ≠ some SRV_REVERSED

theorem carried (rules : List FcontextRule) : ∃ change added, Carried rules change added := by
  by_cases reversed : ∃ a ∈ settledEquivalences rules, equivalencePair a.rule = some SRV_REVERSED
  · refine ⟨fun e => if equivalencePair e.rule == some SRV_REVERSED then absorb srvEquivalence e
      else e, [], ⟨?_, fun e => ?_, .inl rfl⟩⟩
    · rw [selinuxEquivalences_eq, synthesize_reversed reversed, List.append_nil]
    · by_cases hit : equivalencePair e.rule = some SRV_REVERSED <;> simp [hit]
  · obtain ⟨change, whole, changed⟩ | ⟨whole, unseen⟩ := synthesize_cases reversed
    · refine ⟨change, [], ⟨?_, fun e => ?_, .inl rfl⟩⟩
      · rw [selinuxEquivalences_eq, whole, List.append_nil]
      · exact (changed e).imp_right fun h => ⟨h.1, .inr h.2⟩
    · refine ⟨id, [srvAdded rules], ⟨?_, fun e => .inl rfl, .inr ⟨rfl, fun e he => ⟨unseen e he, ?_⟩⟩⟩⟩
      · rw [selinuxEquivalences_eq, whole, List.map_id]
      · exact fun pair => reversed ⟨e, he, pair⟩

theorem Carried.change_rule {change : Equivalence → Equivalence} {added : List Equivalence}
    (h : Carried rules change added) (e : Equivalence) : (change e).rule = e.rule := by
  obtain same | ⟨same, -⟩ := h.changed e <;> simp [same]

structure Listed (rules : List FcontextRule) (entries : List Equivalence) : Prop where
  subjects : entries.Pairwise fun a b => subjectOf a.rule ≠ subjectOf b.rule
  equivalence : ∀ e ∈ entries, (subjectOf e.rule).isSome
  complete : ∀ r ∈ includedEquivalences rules, ∃ e ∈ entries, subjectOf e.rule = subjectOf r
  own : ∀ e ∈ entries, e.rule ∈ e.rowsOf
  held : ∀ e ∈ entries, ∀ r ∈ e.rowsOf, subjectOf r = subjectOf e.rule ∨
    r = srvEquivalence ∧ equivalencePair e.rule = some SRV_REVERSED
  source : ∀ e ∈ entries, e.rule ∈ includedEquivalences rules ∨ e = settleEmission (srvAdded rules) ∧
    ∀ f ∈ entries, equivalencePair f.rule ≠ some SRV_REVERSED

theorem mem_listed {change : Equivalence → Equivalence} {added : List Equivalence}
    (h : Carried rules change added) {e : Equivalence} (mem : e ∈ selinuxEquivalences rules) :
    (∃ c ∈ (rules.filter (·.isIncluded)).foldl collectEquivalence [],
      e = settleEmission (change (settleEmission c)) ∧ e.rule = c.rule) ∨
    e = settleEmission (srvAdded rules) ∧ added = [srvAdded rules] := by
  rw [h.whole, List.map_append, List.mem_append] at mem
  obtain mem | mem := mem
  · obtain ⟨f, hf, rfl⟩ := List.mem_map.mp mem
    obtain ⟨k, hk, rfl⟩ := List.mem_map.mp hf
    obtain ⟨c, hc, rfl⟩ := mem_settled hk
    exact .inl ⟨c, hc, rfl, by rw [settleEmission_rule, h.change_rule, settleEmission_rule]⟩
  · obtain none | ⟨one, -⟩ := h.added_once
    · rw [none] at mem
      cases mem
    · rw [one] at mem
      exact .inr ⟨by simpa using mem, one⟩

theorem listed (rules : List FcontextRule) : Listed rules (selinuxEquivalences rules) := by
  obtain ⟨change, added, h⟩ := carried rules
  have base := gathered rules
  have synthesized : srvEquivalence ∈ (settleEmission (srvAdded rules)).rowsOf :=
    List.mem_singleton_self _
  constructor
  case subjects =>
    rw [h.whole, List.pairwise_map, List.pairwise_append, List.pairwise_map]
    simp only [settleEmission_rule, h.change_rule]
    refine ⟨settled_subjects rules, ?_, ?_⟩
    · obtain none | ⟨one, -⟩ := h.added_once
      · simp [none]
      · simp [one]
    · intro a ha b hb
      obtain ⟨k, hk, rfl⟩ := List.mem_map.mp ha
      obtain none | ⟨one, unseen⟩ := h.added_once
      · rw [none] at hb
        cases hb
      · rw [one, List.mem_singleton] at hb
        rw [h.change_rule, hb]
        exact (unseen k hk).1
  case equivalence =>
    intro e he
    obtain ⟨c, hc, -, rule⟩ | ⟨rfl, -⟩ := mem_listed h he
    · rw [rule]
      exact (List.mem_filter.mp (base.mem_first hc)).2
    · rfl
  case complete =>
    intro r hr
    obtain ⟨k, hk, same⟩ := settled_complete hr
    refine ⟨settleEmission (change k), ?_, by rw [settleEmission_rule, h.change_rule, same]⟩
    rw [h.whole]
    exact List.mem_map_of_mem (List.mem_append_left _ (List.mem_map_of_mem hk))
  case own =>
    intro e he
    obtain ⟨c, hc, rfl, rule⟩ | ⟨rfl, -⟩ := mem_listed h he
    · rw [rule, rowsOf_settleEmission]
      obtain same | ⟨same, -⟩ := h.changed (settleEmission c)
      · rw [same]
        exact base.own c hc
      · rw [same]
        exact rowsOf_mono_absorb (base.own c hc)
    · exact synthesized
  case held =>
    intro e he r hr
    obtain ⟨c, hc, rfl, rule⟩ | ⟨rfl, -⟩ := mem_listed h he
    · rw [rowsOf_settleEmission] at hr
      obtain same | ⟨same, subject⟩ := h.changed (settleEmission c)
      · rw [same] at hr
        rw [rule]
        exact .inl (base.held c hc r hr).2
      · rw [same] at hr
        rw [rule]
        have own : (settleEmission c).rule ∈ (settleEmission c).rowsOf := base.own c hc
        obtain old | rfl := mem_rowsOf_absorb own hr
        · exact .inl (base.held c hc r old).2
        · obtain reversed | target := subject
          · exact .inr ⟨rfl, reversed⟩
          · exact .inl target.symm
    · obtain rfl : r = srvEquivalence := by simpa [Equivalence.rowsOf, srvAdded] using hr
      exact .inl rfl
  case source =>
    intro e he
    obtain ⟨c, hc, rfl, rule⟩ | ⟨same, one⟩ := mem_listed h he
    · rw [rule]
      exact .inl (base.mem_first hc)
    · refine .inr ⟨same, fun f hf pair => ?_⟩
      obtain none | ⟨-, unseen⟩ := h.added_once
      · rw [none] at one
        cases one
      · obtain ⟨c, hc, -, rule⟩ | ⟨rfl, -⟩ := mem_listed h hf
        · rw [rule] at pair
          exact (unseen _ (List.mem_map_of_mem hc)).2 pair
        · exact absurd (show equivalencePair srvEquivalence = some SRV_REVERSED from pair)
            (by decide)

end

end Inspectah
