import Inspectah.Refine.Frame
import Inspectah.Refine.Changes

/-!
What pending changes can tell: a session that is not dirty has the inclusions, repositories
and selections it was opened with.
-/
namespace Inspectah

open FirstMatch

section Compare

variable {α : Type} [FindingRow α]

def SameInclusion (orig proj : List α) : Prop :=
  ∀ rows ∈ List.zip orig proj,
    (FindingRow.disposition rows.1).isIncluded = (FindingRow.disposition rows.2).isIncluded

theorem inclusionChange_eq_some {orig proj : α} {now : Bool} :
    inclusionChange orig proj = some now ↔
      (FindingRow.disposition orig).isIncluded ≠ (FindingRow.disposition proj).isIncluded ∧
        (FindingRow.disposition proj).isIncluded = now := by
  unfold inclusionChange
  dsimp only
  split <;> simp_all

theorem changedRows_nil_iff (id : α → ItemId) (orig proj : List α) :
    (changedRows id true orig proj = [] ∧ changedRows id false orig proj = []) ↔
      SameInclusion orig proj := by
  have unchanged : ∀ now, changedRows id now orig proj = [] ↔
      ∀ rows ∈ List.zip orig proj, inclusionChange rows.1 rows.2 ≠ some now := by
    intro now
    simp [changedRows, List.filterMap_eq_nil_iff]
  rw [unchanged, unchanged]
  constructor
  · rintro ⟨included, excluded⟩ rows mem
    by_contra differ
    cases now : (FindingRow.disposition rows.2).isIncluded with
    | true => exact included rows mem (inclusionChange_eq_some.mpr ⟨differ, now⟩)
    | false => exact excluded rows mem (inclusionChange_eq_some.mpr ⟨differ, now⟩)
  · intro same
    exact ⟨fun rows mem changed => (inclusionChange_eq_some.mp changed).1 (same rows mem),
      fun rows mem changed => (inclusionChange_eq_some.mp changed).1 (same rows mem)⟩

end Compare

/-- Nothing that pending changes look at differs from the opened snapshot. -/
structure NoChange (h : Hashing) (c : SessionCore) : Prop where
  packages : SameInclusion (rpmPackages c.original) (rpmPackages (c.projected h))
  configs : SameInclusion c.original.configFiles (c.projected h).configFiles
  repos : excludedSectionsAt c.activeOps = []
  variants : variantsChanged h c.original (c.projected h) = 0
  views : c.history.active.any TimelineEntry.isView = false

theorem packageChanges_isEmpty (orig proj : InspectionSnapshot) :
    (packageChanges orig proj).isEmpty = true ↔
      SameInclusion (rpmPackages orig) (rpmPackages proj) := by
  unfold packageChanges rpmPackages
  cases orig.rpm with
  | none => simp [SectionChangeSummary.isEmpty, SameInclusion]
  | some o =>
    cases proj.rpm with
    | none => simp [SectionChangeSummary.isEmpty, SameInclusion]
    | some p =>
      simp only [SectionChangeSummary.isEmpty, Bool.and_eq_true, List.isEmpty_iff]
      exact changedRows_nil_iff _ _ _

theorem configChanges_isEmpty (orig proj : InspectionSnapshot) :
    (configChanges orig proj).isEmpty = true ↔
      SameInclusion orig.configFiles proj.configFiles := by
  unfold configChanges InspectionSnapshot.configFiles
  cases orig.config with
  | none => simp [SectionChangeSummary.isEmpty, SameInclusion]
  | some o =>
    cases proj.config with
    | none => simp [SectionChangeSummary.isEmpty, SameInclusion]
    | some p =>
      simp only [SectionChangeSummary.isEmpty, Bool.and_eq_true, List.isEmpty_iff]
      exact changedRows_nil_iff _ _ _

theorem repoChanges_isEmpty (h : Hashing) (c : SessionCore) :
    (c.repoChanges h).isEmpty = true ↔ excludedSectionsAt c.activeOps = [] := by
  unfold SessionCore.repoChanges SectionChangeSummary.isEmpty
  rw [Bool.and_eq_true, List.isEmpty_iff, List.isEmpty_iff, List.map_eq_nil_iff]
  constructor
  · rintro ⟨_, empty⟩
    exact List.perm_nil.mp (empty ▸ (h.order.rearranges (excludedSectionsAt c.activeOps)).symm)
  · intro empty
    rw [empty]
    exact ⟨rfl, HashOrder.iter_nil h.order⟩

def ChangesSummary.IsQuiet (s : ChangesSummary) : Prop :=
  s.sections = [] ∧ s.variantsChanged = 0 ∧ s.isDirty = false

theorem isQuiet_iff (h : Hashing) (c : SessionCore) :
    (c.pendingChanges h).IsQuiet ↔ NoChange h c := by
  have packages := packageChanges_isEmpty c.original (c.projected h)
  have configs := configChanges_isEmpty c.original (c.projected h)
  have repos := repoChanges_isEmpty h c
  unfold SessionCore.pendingChanges ChangesSummary.IsQuiet
  dsimp only
  constructor
  · rintro ⟨none, variants, quiet⟩
    simp only [List.filter_eq_nil_iff, List.mem_cons, List.not_mem_nil, or_false, forall_eq_or_imp,
      forall_eq, Bool.not_eq_true', Bool.not_eq_false] at none
    rw [variants] at quiet
    simp only [Bool.or_eq_false_iff] at quiet
    exact ⟨packages.mp none.1, configs.mp none.2.1, repos.mp none.2.2, variants, quiet.2⟩
  · intro same
    simp [packages.mpr same.packages, configs.mpr same.configs, repos.mpr same.repos,
      same.variants, same.views]

theorem isDirty_eq_false_iff (h : Hashing) (c : SessionCore) :
    c.isDirty h = false ↔ NoChange h c := by
  rw [← isQuiet_iff]
  refine ⟨fun clean => ?_, fun quiet => quiet.2.2⟩
  have all := clean
  unfold SessionCore.isDirty SessionCore.pendingChanges at all
  simp only [Bool.or_eq_false_iff, decide_eq_false_iff_not, Nat.not_lt, Nat.le_zero] at all
  refine ⟨?_, all.1.2, clean⟩
  have none := all.1.1
  rw [List.any_filter, List.any_eq_false] at none
  apply List.filter_eq_nil_iff.mpr
  intro section_ mem kept
  exact none section_ mem (by rw [kept]; rfl)

section Marks

variable {α : Type} {rule : SelectRule α} {state : VariantProjectionState}

/-- A rule that writes a selection into every row at an affected path. -/
structure SelectRule.Marks (rule : SelectRule α) (mark : VariantSelection → α → α)
    (key : α → ContentHash) : Prop where
  eligible : ∀ a, rule.eligible a = true
  hash : ∀ a, rule.hash a = some (key a)
  sole : ∀ a, rule.sole a = mark .only a
  chosen : ∀ a, rule.chosen a = mark .selected a
  other : ∀ a, rule.other a = mark .alternative a
  path_mark : ∀ s a, rule.path (mark s a) = rule.path a
  key_mark : ∀ s a, key (mark s a) = key a
  mark_mark : ∀ s t a, mark s (mark t a) = mark s a

variable {mark : VariantSelection → α → α} {key : α → ContentHash}

/-- Mark a row as its path and version say, if they say anything. -/
def remark (rule : SelectRule α) (mark : VariantSelection → α → α) (key : α → ContentHash)
    (verdict : String → ContentHash → Option VariantSelection) (a : α) : α :=
  match verdict (rule.path a) (key a) with
  | none => a
  | some s => mark s a

theorem remark_eq (rule : SelectRule α) (mark : VariantSelection → α → α) (key : α → ContentHash)
    (verdict : String → ContentHash → Option VariantSelection) (a : α) :
    remark rule mark key verdict a =
      match verdict (rule.path a) (key a) with
      | none => a
      | some s => mark s a := rfl

theorem map_remark_none (rule : SelectRule α) (mark : VariantSelection → α → α)
    (key : α → ContentHash) (rows : List α) :
    rows.map (remark rule mark key fun _ _ => none) = rows := List.map_id' rows

variable (marks : rule.Marks mark key)
include marks

theorem path_remark (verdict : String → ContentHash → Option VariantSelection) (a : α) :
    rule.path (remark rule mark key verdict a) = rule.path a := by
  unfold remark
  split
  · rfl
  · exact marks.path_mark _ a

theorem key_remark (verdict : String → ContentHash → Option VariantSelection) (a : α) :
    key (remark rule mark key verdict a) = key a := by
  unfold remark
  split
  · rfl
  · exact marks.key_mark _ a

theorem remark_remark (later earlier : String → ContentHash → Option VariantSelection) (a : α) :
    remark rule mark key later (remark rule mark key earlier a) =
      remark rule mark key (fun p k => (later p k).or (earlier p k)) a := by
  have path := path_remark marks earlier a
  have hash := key_remark marks earlier a
  rw [remark_eq rule mark key later, path, hash,
    remark_eq rule mark key fun p k => (later p k).or (earlier p k)]
  cases later (rule.path a) (key a) with
  | none => rfl
  | some s =>
    dsimp only [Option.some_or]
    unfold remark
    split
    · rfl
    · exact marks.mark_mark s _ a

theorem selectAtPath_remarks (rows : List α) (path : String) :
    ∃ verdict, selectAtPath rule state rows path = rows.map (remark rule mark key verdict) := by
  have isAt : ∀ a, rule.isAt path a = (rule.path a == path) := by
    intro a
    rw [SelectRule.isAt, marks.eligible, Bool.and_true]
  unfold selectAtPath
  split
  · exact ⟨_, (map_remark_none rule mark key rows).symm⟩
  · refine ⟨fun p _ => if p = path then some .only else none, List.map_congr_left fun a _ => ?_⟩
    unfold remark
    rw [isAt, marks.sole]
    by_cases here : rule.path a = path <;> simp [here]
  · split
    · exact ⟨_, (map_remark_none rule mark key rows).symm⟩
    · rename_i target _
      refine ⟨fun p k => if p = path then
        some (if k = target then .selected else .alternative) else none,
        List.map_congr_left fun a _ => ?_⟩
      unfold remark SelectRule.choose
      rw [isAt, marks.hash, marks.chosen, marks.other]
      by_cases here : rule.path a = path
      · by_cases hit : key a = target <;> simp [here, hit]
      · simp [here]

variable (state) in
theorem selectVariants_remarks (order : HashOrder.Order) (rows : List α) :
    ∃ verdict, selectVariants rule state order rows = rows.map (remark rule mark key verdict) := by
  unfold selectVariants
  generalize order.iter state.affectedPaths = paths
  induction paths generalizing rows with
  | nil => exact ⟨_, (map_remark_none rule mark key rows).symm⟩
  | cons path paths ih =>
    obtain ⟨first, marked⟩ := @selectAtPath_remarks α rule state mark key marks rows path
    obtain ⟨later, rest⟩ := ih (selectAtPath rule state rows path)
    refine ⟨fun p k => (later p k).or (first p k), ?_⟩
    rw [List.foldl_cons, rest, marked, List.map_map]
    exact List.map_congr_left fun a _ => remark_remark marks later first a

omit marks in
theorem sameKey_remark (marks : rule.Marks mark key)
    (verdict : String → ContentHash → Option VariantSelection) (a e : α) :
    (rule.path (remark rule mark key verdict e) == rule.path a &&
      key (remark rule mark key verdict e) == key a) = (rule.path e == rule.path a && key e == key a) := by
  rw [path_remark marks, key_remark marks]

theorem remark_kept {verdict : String → ContentHash → Option VariantSelection} {rows : List α}
    (selection : α → VariantSelection) (selection_mark : ∀ s a, selection (mark s a) = s)
    (mark_selection : ∀ a, mark (selection a) a = a)
    (kept : ∀ a ∈ rows, ∃ m, (rows.map (remark rule mark key verdict)).find?
        (fun e => rule.path e == rule.path a && key e == key a) = some m ∧
      selection m = selection a) : rows.map (remark rule mark key verdict) = rows := by
  have fixed : ∀ a ∈ rows, remark rule mark key verdict a = a := by
    intro a mem
    obtain ⟨m, found, same⟩ := kept a mem
    rw [List.find?_map] at found
    obtain ⟨b, first, rfl⟩ := Option.map_eq_some_iff.mp found
    have hit := List.find?_some first
    rw [Function.comp_apply, sameKey_remark marks, Bool.and_eq_true, beq_iff_eq, beq_iff_eq] at hit
    unfold remark at same ⊢
    rw [hit.1, hit.2] at same
    split
    · rfl
    · rename_i s said
      rw [said] at same
      rw [← selection_mark s b, same, mark_selection]
  exact (List.map_congr_left fixed).trans (List.map_id' rows)

end Marks

section Content

variable (h : Hashing) {state : VariantProjectionState} {α : Type} [VariantRow α]

theorem contentRule_marks : (contentRule (α := α) h).Marks VariantRow.select (rowHash h) where
  eligible _ := rfl
  hash _ := rfl
  sole _ := rfl
  chosen _ := rfl
  other _ := rfl
  path_mark s a := VariantRow.path_select s a
  key_mark s a := rowHash_select h s a
  mark_mark s t a := VariantRow.select_select s t a

theorem changedVariants_eq_zero_iff (orig proj : List α) : changedVariants h orig proj = 0 ↔
    (∀ a ∈ orig, ∃ m, proj.find? (sameVariant h a) = some m ∧
      VariantRow.selection m = VariantRow.selection a) ∧
    ∀ m ∈ proj, (∃ a ∈ orig, sameVariant h m a = true) ∨ VariantRow.selection m = .only := by
  unfold changedVariants
  rw [Nat.add_eq_zero_iff, List.countP_eq_zero, List.countP_eq_zero]
  refine and_congr (forall₂_congr fun a _ => ?_) (forall₂_congr fun m _ => ?_)
  · unfold selectionChanged
    cases proj.find? (sameVariant h a) with
    | none => simp
    | some m => simp
  · unfold isNewVariant
    cases known : orig.any (sameVariant h m) with
    | true => simp [List.any_eq_true.mp known]
    | false =>
      have absent : ¬ ∃ a ∈ orig, sameVariant h m a = true := by
        simpa using List.any_eq_false.mp known
      simp [absent]

theorem sameVariant_iff {a b : α} : sameVariant h a b = true ↔
    VariantRow.path b = VariantRow.path a ∧ rowHash h b = rowHash h a := by
  simp [sameVariant]

/-- The same version, and not selected as the only one at `path` unless it was. -/
def NotSole (h : Hashing) (path : String) (a b : α) : Prop :=
  VariantRow.path b = VariantRow.path a ∧ rowHash h b = rowHash h a ∧
    (VariantRow.path a = path → VariantRow.selection a ≠ .only → VariantRow.selection b ≠ .only)

theorem NotSole.select {path : String} {a b : α} (ab : NotSole h path a b) {s : VariantSelection}
    (allowed : VariantRow.path a = path → s ≠ .only) : NotSole h path a (VariantRow.select s b) :=
  ⟨by rw [VariantRow.path_select, ab.1], by rw [rowHash_select, ab.2.1],
    fun at_path _ => by rw [VariantRow.selection_select]; exact allowed at_path⟩

theorem filter_at_length {path : String} {rows rows' : List α}
    (rel : List.Forall₂ (NotSole h path) rows rows') :
    (rows'.filter ((contentRule h).isAt path)).length =
      (rows.filter ((contentRule h).isAt path)).length := by
  induction rel with
  | nil => rfl
  | cons head tail ih =>
    rename_i a b as bs
    have alike : (contentRule h).isAt path b = (contentRule h).isAt path a := by
      simp [SelectRule.isAt, contentRule, head.1]
    rw [List.filter_cons, List.filter_cons, alike]
    split <;> simp [ih]

variable {h} in
theorem selectAtPath_notSole {path : String} {rows rows' : List α}
    (many : 2 ≤ (rows.filter ((contentRule h).isAt path)).length)
    (rel : List.Forall₂ (NotSole h path) rows rows') (q : String) :
    List.Forall₂ (NotSole h path) rows (selectAtPath (contentRule h) state rows' q) := by
  unfold selectAtPath
  split
  · exact rel
  · rename_i sole
    -- Two rows stand at `path`, so a sole row stands at another one.
    have other : q ≠ path := by
      rintro rfl
      rw [← filter_at_length h rel, sole, List.length_singleton] at many
      exact absurd many (by decide)
    refine forall_updateWhere _ _ _ (fun a b ab here => ab.select h fun at_path => ?_) rel
    have at_q : VariantRow.path b = q := by simpa [SelectRule.isAt, contentRule] using here
    exact absurd (at_q.symm.trans (ab.1.trans at_path)) other
  · split
    · exact rel
    · refine forall_updateWhere _ _ _ (fun a b ab _ => ?_) rel
      unfold SelectRule.choose
      dsimp only [contentRule]
      split
      · exact ab.select h fun _ => by decide
      · exact ab.select h fun _ => by decide

variable {h} (state) in
theorem selectVariants_notSole {path : String} {rows : List α}
    (many : 2 ≤ (rows.filter ((contentRule h).isAt path)).length) (order : HashOrder.Order) :
    List.Forall₂ (NotSole h path) rows (selectVariants (contentRule h) state order rows) := by
  unfold selectVariants
  generalize order.iter state.affectedPaths = paths
  have run : ∀ cur, List.Forall₂ (NotSole h path) rows cur →
      List.Forall₂ (NotSole h path) rows (paths.foldl (selectAtPath (contentRule h) state) cur) := by
    induction paths with
    | nil => exact fun cur rel => rel
    | cons q paths ih => exact fun cur rel => ih _ (selectAtPath_notSole many rel q)
  exact run rows (List.forall₂_same.mpr fun a _ => ⟨rfl, rfl, fun _ sel => sel⟩)

theorem IsAdded.fresh (hashed : WellHashed h state) {rows : List α} {a : α}
    (added : IsAdded h state rows a) :
    (∀ b ∈ rows, ¬ (VariantRow.path b = VariantRow.path a ∧ rowHash h b = rowHash h a)) ∧
      (∃ b ∈ rows, VariantRow.path b = VariantRow.path a) ∧
      VariantRow.selection a = .alternative := by
  obtain ⟨path, variants, here, v, mem, _, new, template, found, rfl⟩ := added.source
  have at_path : VariantRow.path template = path := by simpa using List.find?_some found
  have version : v.1 = h.ofContent v.2 := hashed path variants here v mem
  refine ⟨fun b known same => new b known ?_ ?_, ?_, ?_⟩
  · rw [same.1, VariantRow.path_userVariant, at_path]
  · rw [same.2, rowHash_userVariant, version]
  · exact ⟨template, List.mem_of_find?_eq_some found, (VariantRow.path_userVariant _ _).symm⟩
  · exact VariantRow.selection_userVariant _ _

theorem materializeRows_quiet (hashed : WellHashed h state) {rows : List α}
    (quiet : changedVariants h rows (materializeRows h state rows) = 0) :
    materializeRows h state rows = rows := by
  obtain ⟨kept, known⟩ := (changedVariants_eq_zero_iff h rows _).mp quiet
  obtain ⟨added, grown, old⟩ := addUserVariants_grown h state rows
  unfold materializeRows at kept known ⊢
  rw [grown, dropDiscarded_eq] at kept known ⊢
  -- No scanned version is dropped: each is still found in the projection.
  have scanned : rows.filter (fun a => !isRowDiscarded h state a) = rows := by
    apply List.filter_eq_self.mpr
    intro a mem
    obtain ⟨m, found, _⟩ := kept a mem
    obtain ⟨path, hash⟩ := (sameVariant_iff h).mp (List.find?_some found)
    have within := selectVariants_within state (contentRule_within (α := α) h) h.order
      ((rows ++ added).filter fun a => !isRowDiscarded h state a)
    obtain ⟨d, left, s, rfl⟩ := mem_related within (List.mem_of_find?_eq_some found)
    have live := (List.mem_filter.mp left).2
    rw [VariantRow.path_select] at path
    rw [rowHash_select] at hash
    rwa [isRowDiscarded, path, hash] at live
  -- No version is added: it would be neither scanned nor alone at its path.
  have none : added.filter (fun a => !isRowDiscarded h state a) = [] := by
    apply List.filter_eq_nil_iff.mpr
    intro a mem live
    obtain ⟨fresh, ⟨b, here, beside⟩, selection⟩ := (old a mem).fresh h hashed
    have left : a ∈ (rows ++ added).filter fun a => !isRowDiscarded h state a :=
      List.mem_filter.mpr ⟨List.mem_append_right rows mem, live⟩
    have many : 2 ≤ (((rows ++ added).filter fun a => !isRowDiscarded h state a).filter
        ((contentRule h).isAt (VariantRow.path a))).length := by
      rw [List.filter_append, scanned, List.filter_append, List.length_append]
      have scanned_here : 0 < (rows.filter ((contentRule h).isAt (VariantRow.path a))).length :=
        List.length_pos_of_mem
          (List.mem_filter.mpr ⟨here, by simp [SelectRule.isAt, contentRule, beside]⟩)
      have added_here : 0 < ((added.filter fun a => !isRowDiscarded h state a).filter
          ((contentRule h).isAt (VariantRow.path a))).length :=
        List.length_pos_of_mem
          (List.mem_filter.mpr ⟨List.mem_filter.mpr ⟨mem, live⟩,
            by simp [SelectRule.isAt, contentRule]⟩)
      omega
    obtain ⟨m, shown, path, hash, notSole⟩ :=
      related_mem (selectVariants_notSole state many h.order) left
    rcases known m shown with ⟨c, scanned_c, same⟩ | sole
    · obtain ⟨path', hash'⟩ := (sameVariant_iff h).mp same
      exact fresh c scanned_c ⟨path'.trans path, hash'.trans hash⟩
    · exact notSole rfl (by rw [selection]; decide) sole
  rw [List.filter_append, scanned, none, List.append_nil] at kept ⊢
  obtain ⟨verdict, marked⟩ := selectVariants_remarks state (contentRule_marks (α := α) h) h.order rows
  rw [marked] at kept ⊢
  exact remark_kept (contentRule_marks h) VariantRow.selection VariantRow.selection_select
    VariantRow.select_selection kept

end Content

end Inspectah
