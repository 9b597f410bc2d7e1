import Inspectah.Refine.Materialize

/-!
What materializing does to a section: rows are appended for versions and go with discarded
ones; of the others only selections move.
-/
namespace Inspectah

open FirstMatch

theorem standingOf_congr {α : Type} [LockableRow α] {R : α → α → Prop} (p q : α → Bool)
    (agree : ∀ a b, R a b → p a = q b) (alike : ∀ a b, R a b → standing a = standing b)
    {rows rows' : List α} (rel : List.Forall₂ R rows rows') :
    standingOf p rows = standingOf q rows' := by
  have found := find_related R p q agree rel
  unfold standingOf
  generalize rows.find? p = x at found ⊢
  generalize rows'.find? q = y at found ⊢
  cases found with
  | none => rfl
  | some ab => rw [Option.map_some, Option.map_some, alike _ _ ab]

section Select

variable {α : Type} {rule : SelectRule α} {state : VariantProjectionState} {R : α → α → Prop}

/-- Whatever a section's selection does to a row stays within the relation. -/
structure SelectRule.Within (rule : SelectRule α) (R : α → α → Prop) : Prop where
  refl : ∀ a, R a a
  sole : ∀ a b, R a b → R a (rule.sole b)
  chosen : ∀ a b, R a b → R a (rule.chosen b)
  other : ∀ a b, R a b → R a (rule.other b)

theorem choose_within (within : rule.Within R) (target : ContentHash) {a b : α} (rel : R a b) :
    R a (rule.choose target b) := by
  unfold SelectRule.choose
  split
  · exact rel
  · split
    · exact within.chosen a b rel
    · exact within.other a b rel

theorem selectAtPath_within (within : rule.Within R) (path : String) {rows rows' : List α}
    (rel : List.Forall₂ R rows rows') : List.Forall₂ R rows (selectAtPath rule state rows' path) := by
  unfold selectAtPath
  split
  · exact rel
  · exact forall_updateWhere R _ _ (fun a b ab _ => within.sole a b ab) rel
  · split
    · exact rel
    · exact forall_updateWhere R _ _ (fun a b ab _ => choose_within within _ ab) rel

variable (state) in
theorem selectVariants_within (within : rule.Within R) (order : HashOrder.Order) (rows : List α) :
    List.Forall₂ R rows (selectVariants rule state order rows) := by
  unfold selectVariants
  generalize order.iter state.affectedPaths = paths
  have run : ∀ cur, List.Forall₂ R rows cur →
      List.Forall₂ R rows (paths.foldl (selectAtPath rule state) cur) := by
    induction paths with
    | nil => exact fun cur rel => rel
    | cons path paths ih => exact fun cur rel => ih _ (selectAtPath_within within path rel)
  exact run rows (List.forall₂_same.mpr fun a _ => within.refl a)

end Select

def Reselected {α : Type} [VariantRow α] (a b : α) : Prop := ∃ s, b = VariantRow.select s a

theorem Reselected.refl {α : Type} [VariantRow α] (a : α) : Reselected a a :=
  ⟨VariantRow.selection a, (VariantRow.select_selection a).symm⟩

theorem Reselected.select {α : Type} [VariantRow α] {a b : α} (ab : Reselected a b)
    (s : VariantSelection) : Reselected a (VariantRow.select s b) := by
  obtain ⟨t, rfl⟩ := ab
  exact ⟨s, VariantRow.select_select s t a⟩

section Content

variable (h : Hashing) (state : VariantProjectionState) {α : Type} [VariantRow α]

theorem contentRule_within : (contentRule (α := α) h).Within Reselected where
  refl := Reselected.refl
  sole _ _ ab := ab.select .only
  chosen _ _ ab := ab.select .selected
  other _ _ ab := ab.select .alternative

@[simp] theorem rowHash_decide (d : FindingKind) (a : α) :
    rowHash h (FindingRow.decide d a) = rowHash h a := by
  simp [rowHash]

@[simp] theorem rowHash_select (s : VariantSelection) (a : α) :
    rowHash h (VariantRow.select s a) = rowHash h a := by
  simp [rowHash]

@[simp] theorem rowHash_userVariant (c : String) (a : α) :
    rowHash h (VariantRow.userVariant c a) = h.ofContent c := by
  simp [rowHash]

def isRowDiscarded (a : α) : Bool := state.isDiscarded (VariantRow.path a) (rowHash h a)

theorem isDiscarded_iff {path : String} {hash : ContentHash} :
    state.isDiscarded path hash = true ↔
      ∃ e ∈ state.discarded.entries, e.1 = path ∧ hash ∈ e.2 := by
  unfold VariantProjectionState.isDiscarded
  constructor
  · intro hit
    cases found : state.discarded.lookup path with
    | none => simp [found] at hit
    | some hashes =>
      rw [found] at hit
      exact ⟨⟨path, hashes⟩, AList.mem_lookup_iff.mp found, rfl, by simpa using hit⟩
  · rintro ⟨⟨key, hashes⟩, mem, rfl, hit⟩
    have found : state.discarded.lookup key = some hashes := AList.mem_lookup_iff.mpr mem
    simpa [found] using hit

omit [VariantRow α] in
theorem foldl_filter_eq {β : Type} (keep : β → α → Bool) (entries : List β) (rows : List α) :
    entries.foldl (fun rows e => rows.filter (keep e)) rows =
      rows.filter fun a => entries.all fun e => keep e a := by
  induction entries generalizing rows with
  | nil => simp
  | cons e entries ih => rw [List.foldl_cons, ih, List.filter_filter]; simp [Bool.and_comm]

theorem dropDiscarded_eq (rows : List α) :
    dropDiscarded h state rows = rows.filter fun a => !isRowDiscarded h state a := by
  unfold dropDiscarded dropDiscardedAt
  rw [foldl_filter_eq]
  congr 1
  funext a
  rw [Bool.eq_iff_iff, Bool.not_eq_true', ← Bool.not_eq_true, isRowDiscarded, isDiscarded_iff,
    List.all_eq_true]
  constructor
  · rintro all ⟨e, mem, key, hit⟩
    have keep := all e ((HashOrder.mem_iter h.order).mpr mem)
    simp [key, hit] at keep
  · intro none e mem
    by_cases key : e.1 = VariantRow.path a
    · have : rowHash h a ∉ e.2 := fun hit =>
        none ⟨e, (HashOrder.mem_iter h.order).mp mem, key, hit⟩
      simp [this]
    · simp [Ne.symm key]

/-- The first row at a path with the content of a version no row there has. -/
structure IsAdded (rows : List α) (a : α) : Prop where
  source : ∃ path variants, state.userVariants.lookup path = some variants ∧
    ∃ v ∈ variants.entries, state.isDiscarded path v.1 = false ∧
      (∀ b ∈ rows, VariantRow.path b = path → rowHash h b ≠ v.1) ∧
      ∃ template, rows.find? (fun e => VariantRow.path e == path) = some template ∧
        a = VariantRow.userVariant v.2 template

/-- The rows with the operator's own appended. -/
def Grown (rows current : List α) : Prop :=
  ∃ added, current = rows ++ added ∧ ∀ a ∈ added, IsAdded h state rows a

variable {h state}

theorem Grown.find_eq {rows current : List α} (grown : Grown h state rows current) (path : String) :
    current.find? (fun e => VariantRow.path e == path) =
      rows.find? (fun e => VariantRow.path e == path) := by
  obtain ⟨added, rfl, old⟩ := grown
  rw [List.find?_append]
  cases found : rows.find? (fun e => VariantRow.path e == path) with
  | some row => rfl
  | none =>
    rw [Option.none_or, List.find?_eq_none]
    intro a mem hit
    obtain ⟨path', _, _, _, _, _, _, template, here, rfl⟩ := (old a mem).source
    have at_path : VariantRow.path template = path' := by simpa using List.find?_some here
    rw [VariantRow.path_userVariant, at_path, beq_iff_eq] at hit
    rw [hit, found] at here
    cases here

theorem prefix_addUserVariant (path : String) (template : α) (rows : List α)
    (v : Sigma fun _ : ContentHash => String) :
    rows <+: addUserVariant h state path template rows v := by
  unfold addUserVariant
  split
  · exact List.prefix_refl rows
  · split
    · exact List.prefix_refl rows
    · exact List.prefix_append rows _

theorem addUserVariant_grown {rows current : List α} (grown : Grown h state rows current)
    {path : String} {template : α} {variants : UserVariants}
    (here : state.userVariants.lookup path = some variants)
    (found : rows.find? (fun e => VariantRow.path e == path) = some template)
    {v : Sigma fun _ : ContentHash => String} (mem : v ∈ variants.entries) :
    Grown h state rows (addUserVariant h state path template current v) := by
  unfold addUserVariant
  split
  · exact grown
  · rename_i live
    split
    · exact grown
    · rename_i absent
      obtain ⟨added, rfl, old⟩ := grown
      refine ⟨added ++ [VariantRow.userVariant v.2 template], List.append_assoc .., ?_⟩
      intro a ha
      rcases List.mem_append.mp ha with ha | ha
      · exact old a ha
      · rw [List.mem_singleton.mp ha]
        refine ⟨path, variants, here, v, mem, by simpa using live, ?_, template, found, rfl⟩
        intro b known here_too same
        refine absent (List.any_eq_true.mpr ⟨b, List.mem_append_left added known, ?_⟩)
        simp [here_too, same]

theorem addUserVariantsAt_grown {rows current : List α} (grown : Grown h state rows current)
    {entry : Sigma fun _ : String => UserVariants} (mem : entry ∈ state.userVariants.entries) :
    Grown h state rows (addUserVariantsAt h state current entry) := by
  unfold addUserVariantsAt
  rw [grown.find_eq]
  cases found : rows.find? (fun e => VariantRow.path e == entry.1) with
  | none => exact grown
  | some template =>
    have here : state.userVariants.lookup entry.1 = some entry.2 := AList.mem_lookup_iff.mpr mem
    have within : ∀ v ∈ h.order.iter entry.2.entries, v ∈ entry.2.entries :=
      fun v hv => (HashOrder.mem_iter h.order).mp hv
    show Grown h state rows ((h.order.iter entry.2.entries).foldl _ current)
    generalize h.order.iter entry.2.entries = vs at within
    induction vs generalizing current with
    | nil => exact grown
    | cons v vs ih =>
      have step : Grown h state rows (addUserVariant h state entry.1 template current v) :=
        addUserVariant_grown grown here found (within v List.mem_cons_self)
      exact ih step fun w hw => within w (List.mem_cons_of_mem v hw)

variable (h state) in
theorem addUserVariants_grown (rows : List α) : Grown h state rows (addUserVariants h state rows) := by
  have within : ∀ e ∈ h.order.iter state.userVariants.entries, e ∈ state.userVariants.entries :=
    fun e he => (HashOrder.mem_iter h.order).mp he
  unfold addUserVariants
  generalize h.order.iter state.userVariants.entries = entries at within
  have run : ∀ current, Grown h state rows current →
      Grown h state rows (entries.foldl (addUserVariantsAt h state) current) := by
    induction entries with
    | nil => exact fun current grown => grown
    | cons e entries ih =>
      intro current grown
      exact ih (fun f hf => within f (List.mem_cons_of_mem e hf)) _
        (addUserVariantsAt_grown grown (within e List.mem_cons_self))
  exact run rows ⟨[], by simp, by simp⟩

def HasVersion (h : Hashing) (path : String) (hash : ContentHash) (rows : List α) : Prop :=
  ∃ a ∈ rows, VariantRow.path a = path ∧ rowHash h a = hash

theorem HasVersion.prefix {path : String} {hash : ContentHash} {rows rows' : List α}
    (has : HasVersion h path hash rows) (grows : rows <+: rows') :
    HasVersion h path hash rows' := by
  obtain ⟨a, mem, same⟩ := has
  exact ⟨a, grows.subset mem, same⟩

theorem addUserVariant_has {path : String} {template : α} (at_path : VariantRow.path template = path)
    (rows : List α) {v : Sigma fun _ : ContentHash => String} (hashed : v.1 = h.ofContent v.2)
    (live : state.isDiscarded path v.1 = false) :
    HasVersion h path v.1 (addUserVariant h state path template rows v) := by
  unfold addUserVariant
  rw [live, if_neg Bool.false_ne_true]
  split
  · rename_i present
    obtain ⟨a, mem, same⟩ := List.any_eq_true.mp present
    rw [Bool.and_eq_true, beq_iff_eq, beq_iff_eq] at same
    exact ⟨a, mem, same⟩
  · exact ⟨VariantRow.userVariant v.2 template, by simp, by simp [at_path], by simp [hashed]⟩

theorem prefix_addUserVariantsAt (rows : List α) (entry : Sigma fun _ : String => UserVariants) :
    rows <+: addUserVariantsAt h state rows entry := by
  unfold addUserVariantsAt
  split
  · exact List.prefix_refl rows
  · exact prefix_foldl (prefix_addUserVariant entry.1 _) rows _

theorem addUserVariantsAt_has {rows : List α} {entry : Sigma fun _ : String => UserVariants}
    (known : (rows.find? fun e => VariantRow.path e == entry.1).isSome)
    {v : Sigma fun _ : ContentHash => String} (mem : v ∈ entry.2.entries)
    (hashed : v.1 = h.ofContent v.2) (live : state.isDiscarded entry.1 v.1 = false) :
    HasVersion h entry.1 v.1 (addUserVariantsAt h state rows entry) := by
  obtain ⟨template, found⟩ := Option.isSome_iff_exists.mp known
  have at_path : VariantRow.path template = entry.1 := by simpa using List.find?_some found
  unfold addUserVariantsAt
  rw [found]
  exact foldl_establishes (prefix_addUserVariant entry.1 template) (fun _ _ => HasVersion.prefix)
    ((HashOrder.mem_iter h.order).mpr mem) fun r _ => addUserVariant_has at_path r hashed live

theorem addUserVariants_has {rows : List α} {path : String} {variants : UserVariants}
    (here : state.userVariants.lookup path = some variants)
    (known : (rows.find? fun e => VariantRow.path e == path).isSome)
    {v : Sigma fun _ : ContentHash => String} (mem : v ∈ variants.entries)
    (hashed : v.1 = h.ofContent v.2) (live : state.isDiscarded path v.1 = false) :
    HasVersion h path v.1 (addUserVariants h state rows) := by
  have entry : (⟨path, variants⟩ : Sigma fun _ : String => UserVariants) ∈
      h.order.iter state.userVariants.entries :=
    (HashOrder.mem_iter h.order).mpr (AList.mem_lookup_iff.mp here)
  refine foldl_establishes prefix_addUserVariantsAt (fun _ _ => HasVersion.prefix) entry
    fun r grows => addUserVariantsAt_has ?_ mem hashed live
  obtain ⟨added, rfl⟩ := grows
  rw [List.find?_append, Option.isSome_or, known, Bool.true_or]

variable (h state)

def WellHashed : Prop :=
  ∀ path variants, state.userVariants.lookup path = some variants →
    ∀ v ∈ variants.entries, v.1 = h.ofContent v.2

def hasLiveVariant (path : String) : Bool :=
  ((state.userVariants.lookup path).getD ∅).entries.any fun v => !state.isDiscarded path v.1

def atPath (path : String) (a : α) : Bool := VariantRow.path a == path

def survivesAt (path : String) (a : α) : Bool := atPath path a && !isRowDiscarded h state a

variable {h state}

theorem hasLiveVariant_iff {path : String} : hasLiveVariant state path = true ↔
    ∃ variants, state.userVariants.lookup path = some variants ∧
      ∃ v ∈ variants.entries, state.isDiscarded path v.1 = false := by
  unfold hasLiveVariant
  cases found : state.userVariants.lookup path with
  | none => simp
  | some variants => simp

theorem standingOf_reselected {path : String} {rows rows' : List α}
    (rel : List.Forall₂ Reselected rows rows') :
    standingOf (atPath path) rows' = standingOf (atPath path) rows := by
  symm
  refine standingOf_congr _ _ (fun a b ⟨s, ab⟩ => ?_) (fun a b ⟨s, ab⟩ => ?_) rel
  · rw [ab]
    simp [atPath]
  · rw [ab]
    simp [standing]

theorem IsAdded.at {rows : List α} {a : α} (added : IsAdded h state rows a) {path : String}
    (here : atPath path a = true) : hasLiveVariant state path = true ∧
      standingOf (atPath path) rows = some (standing a) := by
  obtain ⟨path', variants, known, v, mem, live, _, template, found, rfl⟩ := added.source
  have at_path : VariantRow.path template = path' := by simpa using List.find?_some found
  obtain rfl : path' = path := by simpa [atPath, at_path] using here
  refine ⟨hasLiveVariant_iff.mpr ⟨variants, known, v, mem, live⟩, ?_⟩
  have found' : rows.find? (atPath path') = some template := found
  simp [standingOf, found', standing]

theorem standingOf_materializeRows (hashed : WellHashed h state) (path : String)
    (rows : List α) : standingOf (atPath path) (materializeRows h state rows) =
      match rows.find? (survivesAt h state path) with
      | some row => some (standing row)
      | none => if hasLiveVariant state path then standingOf (atPath path) rows else none := by
  have reselect : standingOf (atPath path) (materializeRows h state rows) =
      standingOf (atPath path) (dropDiscarded h state (addUserVariants h state rows)) :=
    standingOf_reselected (selectVariants_within state (contentRule_within h) h.order _)
  have left : standingOf (atPath path) (dropDiscarded h state (addUserVariants h state rows)) =
      ((addUserVariants h state rows).find? (survivesAt h state path)).map standing := by
    rw [dropDiscarded_eq, standingOf, List.find?_filter]
    congr 2
    funext a
    simp [survivesAt, Bool.and_comm]
  rw [reselect, left]
  obtain ⟨added, grown, old⟩ := addUserVariants_grown h state rows
  rw [grown, List.find?_append]
  cases host : rows.find? (survivesAt h state path) with
  | some row => rfl
  | none =>
    rw [Option.none_or]
    cases first : added.find? (survivesAt h state path) with
    | some a =>
      have survives := List.find?_some first
      have here : atPath path a = true := by
        rw [survivesAt, Bool.and_eq_true] at survives
        exact survives.1
      obtain ⟨live, same⟩ := (old a (List.mem_of_find?_eq_some first)).at here
      rw [if_pos live, same, Option.map_some]
    | none =>
      -- Nothing at the path is left: then no live version had a row to copy.
      symm
      rw [Option.map_none, ite_eq_right_iff]
      intro live
      obtain ⟨variants, known, v, mem, alive⟩ := hasLiveVariant_iff.mp live
      rw [standingOf, Option.map_eq_none_iff, ← Option.not_isSome_iff_eq_none]
      intro present
      obtain ⟨a, ha, at_path, hash⟩ := addUserVariants_has known present mem
        (hashed path variants known v mem) alive
      have survives : survivesAt h state path a = true := by
        simp [survivesAt, atPath, isRowDiscarded, at_path, hash, alive]
      rw [grown] at ha
      rcases List.mem_append.mp ha with ha | ha
      · exact List.find?_eq_none.mp host a ha survives
      · exact List.find?_eq_none.mp first a ha survives

@[simp] theorem materializeRows_nil : materializeRows h state ([] : List α) = [] := by
  obtain ⟨added, grown, old⟩ := addUserVariants_grown h state ([] : List α)
  have empty : added = [] := by
    apply List.eq_nil_iff_forall_not_mem.mpr
    intro a mem
    obtain ⟨_, _, _, _, _, _, _, _, found, _⟩ := (old a mem).source
    cases found
  have selected := selectVariants_within state (contentRule_within (α := α) h) h.order []
  rw [materializeRows, grown, empty, dropDiscarded_eq]
  exact List.forall₂_nil_left_iff.mp selected

variable (h state)

/-- The first row at the path is left, or its decision passes to a version of the operator's. -/
def reachesRow (path : String) (rows : List α) : Bool :=
  match rows.find? (atPath path) with
  | none => false
  | some first => !isRowDiscarded h state first ||
      ((rows.find? (survivesAt h state path)).isNone && hasLiveVariant state path)

variable {h state}

theorem find_survivesAt_of_first {path : String} {rows : List α} {first : α}
    (found : rows.find? (atPath path) = some first) (left : isRowDiscarded h state first = false) :
    rows.find? (survivesAt h state path) = some first := by
  induction rows with
  | nil => cases found
  | cons a rows ih =>
    by_cases here : atPath path a = true
    · have same : a = first := by simpa [here] using found
      subst same
      simp [survivesAt, here, left]
    · rw [Bool.not_eq_true] at here
      have later : rows.find? (atPath path) = some first := by
        simpa [here] using found
      simpa [survivesAt, here] using ih later

theorem reachesRow_congr {R : α → α → Prop} (path : String)
    (same : ∀ a b, R a b → VariantRow.path a = VariantRow.path b ∧
      VariantRow.content a = VariantRow.content b) {rows rows' : List α}
    (rel : List.Forall₂ R rows rows') :
    reachesRow h state path rows = reachesRow h state path rows' := by
  have at_agree : ∀ a b, R a b → atPath path a = atPath path b := fun a b ab => by
    simp [atPath, (same a b ab).1]
  have gone_agree : ∀ a b, R a b → isRowDiscarded h state a = isRowDiscarded h state b :=
    fun a b ab => by simp [isRowDiscarded, rowHash, (same a b ab).1, (same a b ab).2]
  have first := find_related R (atPath path) (atPath path) at_agree rel
  have left := find_related R (survivesAt h state path) (survivesAt h state path)
    (fun a b ab => by simp [survivesAt, at_agree a b ab, gone_agree a b ab]) rel
  unfold reachesRow
  generalize rows.find? (atPath path) = x at first ⊢
  generalize rows'.find? (atPath path) = y at first ⊢
  generalize rows.find? (survivesAt h state path) = u at left ⊢
  generalize rows'.find? (survivesAt h state path) = v at left ⊢
  cases first with
  | none => rfl
  | some ab =>
    have alone : u.isNone = v.isNone := by cases left <;> rfl
    simp [gone_agree _ _ ab, alone]

theorem standingOf_reached (hashed : WellHashed h state) {path : String} {rows : List α}
    (reached : reachesRow h state path rows = true) :
    standingOf (atPath path) (materializeRows h state rows) = standingOf (atPath path) rows := by
  unfold reachesRow at reached
  rw [standingOf_materializeRows hashed]
  cases found : rows.find? (atPath path) with
  | none => rw [found] at reached; cases reached
  | some first =>
    rw [found] at reached
    cases gone : isRowDiscarded h state first with
    | false =>
      rw [find_survivesAt_of_first found gone, standingOf, found]
      rfl
    | true =>
      simp only [gone, Bool.not_true, Bool.false_or, Bool.and_eq_true, Option.isNone_iff_eq_none]
        at reached
      rw [reached.1]
      exact if_pos reached.2

theorem standingOf_missed (hashed : WellHashed h state) {path : String} {rows : List α}
    (missed : reachesRow h state path rows = false) (f : α → FindingKind) :
    standingOf (atPath path) (materializeRows h state
        (updateFirst (atPath path) (fun a => FindingRow.decide (f a) a) rows)) =
      standingOf (atPath path) (materializeRows h state rows) := by
  cases found : rows.find? (atPath path) with
  | none => rw [updateFirst_absent _ _ _ found]
  | some first =>
    unfold reachesRow at missed
    rw [found] at missed
    obtain ⟨gone, rest⟩ := Bool.or_eq_false_iff.mp missed
    rw [Bool.not_eq_false'] at gone
    have unseen : (updateFirst (atPath path) (fun a => FindingRow.decide (f a) a) rows).find?
        (survivesAt h state path) = rows.find? (survivesAt h state path) := by
      apply find_updateFirst_unseen
      intro a hit
      obtain rfl : first = a := Option.some.inj (found.symm.trans hit)
      have gone' : isRowDiscarded h state (FindingRow.decide (f first) first) = true := by
        simpa [isRowDiscarded] using gone
      simp [survivesAt, gone, gone']
    rw [standingOf_materializeRows hashed, standingOf_materializeRows hashed, unseen]
    cases left : rows.find? (survivesAt h state path) with
    | some row => rfl
    | none =>
      have none_live : hasLiveVariant state path = false := by simpa [left] using rest
      simp [none_live]

end Content

section Hashed

variable {h : Hashing} {snap : InspectionSnapshot}

theorem WellHashed.insert {state : VariantProjectionState} (hashed : WellHashed h state)
    {path : String} {variants : UserVariants}
    (fresh : ∀ v ∈ variants.entries, v.1 = h.ofContent v.2) {discarded : KeyedMap (List ContentHash)}
    {selected : KeyedMap ContentHash} :
    WellHashed h ⟨state.userVariants.insert path variants, discarded, selected⟩ := by
  intro path' variants' known
  by_cases same : path' = path
  · subst same
    rw [AList.lookup_insert] at known
    cases known
    exact fresh
  · rw [AList.lookup_insert_ne same] at known
    exact hashed path' variants' known

theorem WellHashed.mem {state : VariantProjectionState} (hashed : WellHashed h state)
    (path : String) : ∀ v ∈ ((state.userVariants.lookup path).getD ∅).entries,
      v.1 = h.ofContent v.2 := by
  cases known : state.userVariants.lookup path with
  | none => simp
  | some variants => exact hashed path variants known

theorem applyEdit_wellHashed {state : VariantProjectionState} (hashed : WellHashed h state)
    (item : ItemId) (content : String) : WellHashed h (applyEdit h snap state item content) := by
  unfold applyEdit
  split
  · exact hashed
  · rename_i path _
    dsimp only
    split
    · exact hashed
    · apply hashed.insert
      intro v mem
      rw [AList.entries_insert, List.mem_cons] at mem
      rcases mem with rfl | mem
      · rfl
      · exact hashed.mem path v ((List.kerase_sublist _ _).subset mem)

theorem applyDiscard_wellHashed {state : VariantProjectionState} (hashed : WellHashed h state)
    (item : ItemId) (variant : ContentHash) : WellHashed h (applyDiscard state item variant) := by
  unfold applyDiscard
  split
  · exact hashed
  · rename_i path _
    cases known : state.userVariants.lookup path with
    | none => exact hashed
    | some variants =>
      apply hashed.insert
      exact fun v mem => hashed path variants known v ((List.kerase_sublist _ _).subset mem)

theorem accumulateVariant_wellHashed {state : VariantProjectionState} (hashed : WellHashed h state)
    (op : RefinementOp) : WellHashed h (accumulateVariant h snap state op) := by
  cases op with
  | selectVariant item target =>
    show WellHashed h (applySelect state item target)
    unfold applySelect
    split <;> exact hashed
  | editVariant item content basedOn => exact applyEdit_wellHashed hashed item content
  | discardVariant item variant => exact applyDiscard_wellHashed hashed item variant
  | _ => exact hashed

theorem buildVariantState_wellHashed (ops : List RefinementOp) :
    WellHashed h (buildVariantState h snap ops) := by
  have run : ∀ state, WellHashed h state →
      WellHashed h (ops.foldl (accumulateVariant h snap) state) := by
    induction ops with
    | nil => exact fun state hashed => hashed
    | cons op ops ih => exact fun state hashed => ih _ (accumulateVariant_wellHashed hashed op)
  apply run
  intro path variants known
  cases known

end Hashed

end Inspectah
