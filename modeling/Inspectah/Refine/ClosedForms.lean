import Inspectah.Library.KeyedFold
import Inspectah.Refine.VariantLaws

/-!
Materialization in closed form: the rows kept, a row for each live version, and every row
marked by the rows at its path and the selection.
-/
namespace Inspectah

open FirstMatch KeyedFold

section Marks

variable {α : Type} (rule : SelectRule α) (state : VariantProjectionState)

/-- What selection makes of one of `n` eligible rows at a path. -/
def SelectRule.mark (selected : Option ContentHash) (n : Nat) (a : α) : α :=
  if n = 1 then rule.sole a
  else
    match selected with
    | none => a
    | some target => rule.choose target a

def SelectRule.settle (rows : List α) (a : α) : α :=
  if rule.eligible a && state.affectedPaths.contains (rule.path a) then
    rule.mark (state.selected.lookup (rule.path a)) (rows.countP (rule.isAt (rule.path a))) a
  else a

/-- Marks leave a row at its path and eligible. -/
structure SelectRule.Lawful (rule : SelectRule α) : Prop where
  sole : ∀ path a, rule.isAt path (rule.sole a) = rule.isAt path a
  chosen : ∀ path a, rule.isAt path (rule.chosen a) = rule.isAt path a
  other : ∀ path a, rule.isAt path (rule.other a) = rule.isAt path a

variable {rule state}

theorem SelectRule.Lawful.choose (lawful : rule.Lawful) (target : ContentHash) (path : String)
    (a : α) : rule.isAt path (rule.choose target a) = rule.isAt path a := by
  unfold SelectRule.choose
  split
  · rfl
  · split
    · exact lawful.chosen path a
    · exact lawful.other path a

theorem SelectRule.Lawful.mark (lawful : rule.Lawful) (selected : Option ContentHash) (n : Nat)
    (path : String) (a : α) : rule.isAt path (rule.mark selected n a) = rule.isAt path a := by
  unfold SelectRule.mark
  split
  · exact lawful.sole path a
  · split
    · rfl
    · exact lawful.choose _ path a

theorem path_of_isAt {path : String} {a : α} (here : rule.isAt path a = true) :
    rule.path a = path := by
  rw [SelectRule.isAt, Bool.and_eq_true, beq_iff_eq] at here
  exact here.1

theorem selectAtPath_eq (rows : List α) (path : String) :
    selectAtPath rule state rows path =
      markAt rule.isAt (fun path n => rule.mark (state.selected.lookup path) n) rows path := by
  rw [markAt, List.countP_eq_length_filter]
  unfold selectAtPath
  split
  · rename_i empty
    symm
    rw [updateWhere, List.map_congr_left (g := id), List.map_id]
    intro a mem
    have away : ¬ rule.isAt path a = true := List.filter_eq_nil_iff.mp empty a mem
    simp [away]
  · rename_i single
    simp [single, SelectRule.mark, updateWhere]
  · rename_i zero one
    have several : (rows.filter (rule.isAt path)).length ≠ 1 := fun len => by
      obtain ⟨a, single⟩ := List.length_eq_one_iff.mp len
      exact one a single
    cases selected : state.selected.lookup path with
    | none => simp [updateWhere, SelectRule.mark, several]
    | some target => simp [updateWhere, SelectRule.mark, several]

theorem selectVariants_eq (lawful : rule.Lawful) (order : HashOrder.Order) (rows : List α) :
    selectVariants rule state order rows = rows.map (rule.settle state rows) := by
  have once : (order.iter state.affectedPaths).Nodup :=
    HashOrder.iter_nodup order (List.nodup_dedup _)
  have fold : selectVariants rule state order rows = (order.iter state.affectedPaths).foldl
      (markAt rule.isAt fun path n => rule.mark (state.selected.lookup path) n) rows := by
    unfold selectVariants
    congr 1
    funext rows path
    exact selectAtPath_eq rows path
  rw [fold, foldl_markAt (fun path n a q => lawful.mark _ n q a)
    (fun p q a hp hq => (path_of_isAt hp).symm.trans (path_of_isAt hq)) once]
  apply List.map_congr_left
  intro a _
  unfold marked SelectRule.settle
  split
  · rename_i away
    rw [List.find?_eq_none] at away
    rw [if_neg]
    intro there
    rw [Bool.and_eq_true, List.contains_iff_mem] at there
    refine away _ ((HashOrder.mem_iter order).mpr there.2) ?_
    simp [SelectRule.isAt, there.1]
  · rename_i path found
    have here : rule.isAt path a = true := by simpa using List.find?_some found
    have mem := (HashOrder.mem_iter order).mp (List.mem_of_find?_eq_some found)
    rw [SelectRule.isAt, Bool.and_eq_true, beq_iff_eq] at here
    obtain ⟨rfl, eligible⟩ := here
    rw [if_pos (by simp [eligible, mem])]

end Marks

theorem contentRule_lawful (h : Hashing) {α : Type} [VariantRow α] :
    (contentRule (α := α) h).Lawful where
  sole path a := by simp [contentRule, SelectRule.isAt]
  chosen path a := by simp [contentRule, SelectRule.isAt]
  other path a := by simp [contentRule, SelectRule.isAt]

theorem composeRule_lawful (h : Hashing) : (composeRule h).Lawful where
  sole _ _ := rfl
  chosen _ _ := rfl
  other _ _ := rfl

theorem languageEnvRule_lawful (h : Hashing) : (languageEnvRule h).Lawful where
  sole _ _ := rfl
  chosen _ _ := rfl
  other _ _ := rfl

theorem unmanagedRule_lawful : unmanagedRule.Lawful where
  sole _ _ := rfl
  chosen _ _ := rfl
  other _ _ := rfl

structure EachContent (P : {α : Type} → [VariantRow α] → List α → Prop)
    (snap : InspectionSnapshot) : Prop where
  configFiles : P snap.configFiles
  dropIns : P snap.dropIns
  quadletUnits : P snap.quadletUnits

section Rows

variable (h : Hashing) (state : VariantProjectionState) {α : Type} [VariantRow α]

def isVersion (path : String) (hash : ContentHash) (a : α) : Bool :=
  VariantRow.path a == path && rowHash h a == hash

def isFresh (rows : List α) (path : String) (v : Sigma fun _ : ContentHash => String) : Bool :=
  !state.isDiscarded path v.1 && !rows.any (isVersion h path v.1)

def gainedAt (rows : List α) (entry : Sigma fun _ : String => UserVariants) : List α :=
  match rows.find? (atPath entry.1) with
  | none => []
  | some template => ((h.order.iter entry.2.entries).filter (isFresh h state rows entry.1)).map
      fun v => VariantRow.userVariant v.2 template

def gained (rows : List α) : List α :=
  (h.order.iter state.userVariants.entries).flatMap (gainedAt h state rows)

/-- The scanned rows whose version is left. -/
def keptRows (rows : List α) : List α := rows.filter fun a => !isRowDiscarded h state a

/-- The rows of a section before their selection is derived. -/
def shownRows (rows : List α) : List α := keptRows h state rows ++ gained h state rows

variable {h state}

variable (h state) in
theorem settle_reselected (rows : List α) (a : α) :
    Reselected a ((contentRule h).settle state rows a) := by
  have within := contentRule_within (α := α) h
  unfold SelectRule.settle SelectRule.mark
  split
  · split
    · exact within.sole a a (Reselected.refl a)
    · split
      · exact Reselected.refl a
      · exact choose_within within _ (Reselected.refl a)
  · exact Reselected.refl a

def versionOf (h : Hashing) (a : α) : String × ContentHash := (VariantRow.path a, rowHash h a)

@[simp] theorem versionOf_select (s : VariantSelection) (a : α) :
    versionOf h (VariantRow.select s a) = versionOf h a := by
  simp [versionOf]

@[simp] theorem versionOf_settle (rows : List α) (a : α) :
    versionOf h ((contentRule h).settle state rows a) = versionOf h a := by
  obtain ⟨s, same⟩ := settle_reselected h state rows a
  rw [same, versionOf_select]

@[simp] theorem versionOf_clampLocked (a : α) : versionOf h (clampLocked a) = versionOf h a := by
  unfold clampLocked
  split
  · simp [versionOf]
  · rfl

theorem iter_entries_nodupKeys {V : Type} {β : Type} [DecidableEq V] (order : HashOrder.Order)
    (m : AList fun _ : V => β) : (order.iter m.entries).NodupKeys :=
  (List.perm_nodupKeys (order.rearranges m.entries)).mpr m.nodupKeys

theorem atPath_of_gainedAt {rows : List α} {entry : Sigma fun _ : String => UserVariants} {a : α}
    (mem : a ∈ gainedAt h state rows entry) : VariantRow.path a = entry.1 := by
  unfold gainedAt at mem
  split at mem
  · cases mem
  · rename_i template found
    obtain ⟨v, _, rfl⟩ := List.mem_map.mp mem
    have at_path : VariantRow.path template = entry.1 := by
      simpa [atPath] using List.find?_some found
    simp [at_path]

theorem foldl_addUserVariant {path : String} {template : α} {vs : List (Sigma fun _ : ContentHash => String)}
    (nodup : vs.NodupKeys) (hashed : ∀ v ∈ vs, v.1 = h.ofContent v.2) (rows : List α) :
    vs.foldl (addUserVariant h state path template) rows =
      rows ++ (vs.filter (isFresh h state rows path)).map
        fun v => VariantRow.userVariant v.2 template := by
  let piece (rows : List α) (v : Sigma fun _ : ContentHash => String) : List α :=
    if isFresh h state rows path v then [VariantRow.userVariant v.2 template] else []
  have step : addUserVariant h state path template = fun rows v => rows ++ piece rows v := by
    funext rows v
    unfold addUserVariant
    change _ = rows ++ if isFresh h state rows path v then _ else _
    unfold isFresh
    by_cases gone : state.isDiscarded path v.1 = true
    · simp [gone]
    · by_cases present : rows.any (isVersion h path v.1) = true
      · have present' := present
        unfold isVersion at present'
        rw [if_neg gone, if_pos present', present]
        simp
      · have absent := present
        unfold isVersion at absent
        rw [if_neg gone, if_neg absent]
        simp only [Bool.not_eq_true] at gone present
        simp [gone, present]
  have reads : ∀ (r r' : List α) v,
      r.filter (isVersion h path v.1) = r'.filter (isVersion h path v.1) →
      piece r v = piece r' v := by
    intro r r' v same
    have fresh : isFresh h state r path v = isFresh h state r' path v := by
      rw [isFresh, isFresh, any_congr_filter same]
    simp only [piece]
    rw [fresh]
  have apart : vs.Pairwise fun v w => ∀ r, ∀ a ∈ piece r v, isVersion h path w.1 a = false := by
    refine List.Pairwise.imp_of_mem ?_ (List.nodupKeys_iff_pairwise.mp nodup)
    intro v w mem _ ne r a ha
    simp only [piece] at ha
    split at ha
    · rw [List.mem_singleton.mp ha]
      simp [isVersion, ← hashed v mem, ne]
    · cases ha
  rw [step, foldl_pieces reads apart, flatMap_keep]

theorem gainedAt_congr {rows rows' : List α} {entry : Sigma fun _ : String => UserVariants}
    (same : rows.filter (atPath entry.1) = rows'.filter (atPath entry.1)) :
    gainedAt h state rows entry = gainedAt h state rows' entry := by
  have first : rows.find? (atPath entry.1) = rows'.find? (atPath entry.1) := by
    rw [← List.head?_filter, same, List.head?_filter]
  have fresh : isFresh h state rows entry.1 = isFresh h state rows' entry.1 := by
    funext v
    have version : ∀ r : List α, r.filter (isVersion h entry.1 v.1) =
        (r.filter (atPath entry.1)).filter (isVersion h entry.1 v.1) := by
      intro r
      rw [List.filter_filter]
      apply List.filter_congr
      intro a _
      cases here : VariantRow.path a == entry.1 <;> simp [isVersion, atPath, here]
    have any := any_congr_filter ((version rows).trans (same ▸ (version rows').symm))
    simp only [isFresh, any]
  simp only [gainedAt, first, fresh]

theorem addUserVariants_eq (hashed : WellHashed h state) (rows : List α) :
    addUserVariants h state rows = rows ++ gained h state rows := by
  have nodup := iter_entries_nodupKeys h.order state.userVariants
  have known : ∀ e ∈ h.order.iter state.userVariants.entries, ∀ v ∈ e.2.entries,
      v.1 = h.ofContent v.2 := fun e mem v hv =>
    hashed e.1 e.2 (AList.mem_lookup_iff.mpr ((HashOrder.mem_iter h.order).mp mem)) v hv
  unfold addUserVariants gained
  generalize h.order.iter state.userVariants.entries = es at nodup known
  have step : ∀ rows : List α, es.foldl (addUserVariantsAt h state) rows =
      es.foldl (fun rows e => rows ++ gainedAt h state rows e) rows := by
    intro rows
    apply List.foldl_ext
    intro rows e mem
    unfold addUserVariantsAt gainedAt
    cases found : rows.find? (atPath e.1) with
    | none =>
      have found' := found
      unfold atPath at found'
      rw [found', List.append_nil]
    | some template =>
      have found' := found
      unfold atPath at found'
      rw [found']
      exact foldl_addUserVariant (iter_entries_nodupKeys h.order e.2)
        (fun v hv => known e mem v ((HashOrder.mem_iter h.order).mp hv)) rows
  let at_ (e : Sigma fun _ : String => UserVariants) : α → Bool := atPath e.1
  have reads : ∀ r r' e, r.filter (at_ e) = r'.filter (at_ e) →
      gainedAt h state r e = gainedAt h state r' e := fun _ _ _ => gainedAt_congr
  rw [step, foldl_pieces reads]
  refine List.Pairwise.imp ?_ (List.nodupKeys_iff_pairwise.mp nodup)
  intro e e' ne r a mem
  change (VariantRow.path a == e'.1) = false
  rw [atPath_of_gainedAt mem]
  simp [ne]

theorem filter_gained (rows : List α) (path : String) :
    (gained h state rows).filter (atPath path) =
      match state.userVariants.lookup path with
      | none => []
      | some variants => gainedAt h state rows ⟨path, variants⟩ := by
  have nodup := iter_entries_nodupKeys h.order state.userVariants
  rw [gained, filter_flatMap_entries nodup (k := path)]
  · have same : (h.order.iter state.userVariants.entries).dlookup path =
        state.userVariants.lookup path := List.perm_dlookup path nodup (h.order.rearranges _)
    rw [same]
    cases state.userVariants.lookup path <;> rfl
  · intro e _ a mem
    rw [atPath, atPath_of_gainedAt mem, beq_iff_eq]

theorem gained_live (hashed : WellHashed h state) {rows : List α} {a : α}
    (mem : a ∈ gained h state rows) : isRowDiscarded h state a = false := by
  obtain ⟨e, he, ha⟩ := List.mem_flatMap.mp mem
  have at_path := atPath_of_gainedAt ha
  unfold gainedAt at ha
  split at ha
  · cases ha
  · obtain ⟨v, hv, rfl⟩ := List.mem_map.mp ha
    obtain ⟨known, fresh⟩ := List.mem_filter.mp hv
    have own : v.1 = h.ofContent v.2 :=
      hashed e.1 e.2 (AList.mem_lookup_iff.mpr ((HashOrder.mem_iter h.order).mp he)) v
        ((HashOrder.mem_iter h.order).mp known)
    rw [isFresh, Bool.and_eq_true, Bool.not_eq_true'] at fresh
    rw [isRowDiscarded, at_path, rowHash_userVariant, ← own]
    exact fresh.1

theorem dropDiscarded_shown (hashed : WellHashed h state) (rows : List α) :
    dropDiscarded h state (addUserVariants h state rows) = shownRows h state rows := by
  rw [dropDiscarded_eq, addUserVariants_eq hashed, List.filter_append, shownRows, keptRows]
  congr 1
  rw [List.filter_eq_self]
  intro a mem
  rw [gained_live hashed mem, Bool.not_false]

theorem materializeRows_eq (hashed : WellHashed h state) (rows : List α) :
    materializeRows h state rows = (shownRows h state rows).map
      ((contentRule h).settle state (shownRows h state rows)) := by
  rw [materializeRows, dropDiscarded_shown hashed, selectVariants_eq (contentRule_lawful h)]

variable (h state) in
def shownAt (rows : List α) (path : String) : List α :=
  rows.filter (survivesAt h state path) ++
    match state.userVariants.lookup path with
    | none => []
    | some variants => gainedAt h state rows ⟨path, variants⟩

theorem filter_shownRows (rows : List α) (path : String) :
    (shownRows h state rows).filter (atPath path) = shownAt h state rows path := by
  rw [shownRows, List.filter_append, filter_gained, keptRows, List.filter_filter]
  rfl

variable (h state) in
/-- What becomes of the rows shown at a path. -/
def settleAt (path : String) (n : Nat) (a : α) : α :=
  if path ∈ state.affectedPaths then
    (contentRule h).mark (state.selected.lookup path) n a
  else a

theorem path_of_shownAt {rows : List α} {path : String} {a : α}
    (mem : a ∈ shownAt h state rows path) : VariantRow.path a = path := by
  rw [← filter_shownRows] at mem
  simpa [atPath] using (List.mem_filter.mp mem).2

theorem materializeRows_at (hashed : WellHashed h state) (rows : List α) (path : String) :
    (materializeRows h state rows).filter (atPath path) =
      (shownAt h state rows path).map
        (settleAt h state path (shownAt h state rows path).length) := by
  have keeps : (atPath path ∘ (contentRule h).settle state (shownRows h state rows)) =
      atPath (α := α) path := by
    funext a
    have same : versionOf h ((contentRule h).settle state (shownRows h state rows) a) =
        versionOf h a := versionOf_settle (shownRows h state rows) a
    have path_same := congrArg Prod.fst same
    simp only [versionOf] at path_same
    rw [Function.comp_apply, atPath, atPath, path_same]
  rw [materializeRows_eq hashed, List.filter_map, keeps, filter_shownRows]
  apply List.map_congr_left
  intro a mem
  have at_path := path_of_shownAt mem
  have here : (contentRule (α := α) h).isAt path = atPath path := by
    funext b
    simp [SelectRule.isAt, contentRule, atPath]
  have rule : (contentRule (α := α) h).path a = path := at_path
  unfold SelectRule.settle settleAt
  rw [rule, here, List.countP_eq_length_filter, filter_shownRows]
  simp [contentRule]

theorem shownAt_unaffected {path : String} (away : path ∉ state.affectedPaths) (rows : List α) :
    shownAt h state rows path = rows.filter (atPath path) := by
  rw [VariantProjectionState.affectedPaths, List.mem_dedup, List.mem_append, List.mem_append,
    not_or, not_or] at away
  have user : state.userVariants.lookup path = none := AList.lookup_eq_none.mpr away.1.1
  have discarded : state.discarded.lookup path = none := AList.lookup_eq_none.mpr away.1.2
  rw [shownAt, user, List.append_nil]
  apply List.filter_congr
  intro a _
  cases here : atPath path a with
  | false => simp [survivesAt, here]
  | true =>
    have at_path : VariantRow.path a = path := by simpa [atPath] using here
    rw [survivesAt, here, isRowDiscarded, VariantProjectionState.isDiscarded, at_path, discarded]
    rfl

end Rows

end Inspectah
