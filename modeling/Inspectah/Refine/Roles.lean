import Inspectah.Refine.Moves
import Inspectah.Refine.Reopen
import Inspectah.Refine.ShownVersions

/-!
Variant roles. At each path one version is marked `only`, or several `alternative` and one
`selected`. Materialization derives the marks from the selected version alone.
-/
namespace Inspectah

open FirstMatch Runs

section Definitions

variable {α : Type} [VariantRow α]

def isSelected (a : α) : Bool := VariantRow.selection a == .selected

structure WellRoled (rows : List α) : Prop where
  distinct : (rows.map VariantRow.content).Nodup
  sole : rows.length = 1 → ∀ a ∈ rows, VariantRow.selection a = .only
  several : 2 ≤ rows.length →
    rows.countP isSelected = 1 ∧ ∀ a ∈ rows, VariantRow.selection a ≠ .only

def PathsWellRoled (rows : List α) : Prop := ∀ path, WellRoled (rows.filter (atPath path))

def RolesWellFormed : InspectionSnapshot → Prop := EachContent PathsWellRoled

/-- Of several rows, exactly one has the version. -/
def PicksOne (h : Hashing) (target : ContentHash) (rows : List α) : Prop :=
  2 ≤ rows.length → rows.countP (hasHash h target) = 1

/-- Of several rows, the scan marked one as selected and none as the only one. -/
def RecordedRoles (rows : List α) : Prop :=
  2 ≤ rows.length → rows.countP isSelected = 1 ∧ ∀ a ∈ rows, VariantRow.selection a ≠ .only

instance (h : Hashing) (target : ContentHash) (rows : List α) : Decidable (PicksOne h target rows) :=
  inferInstanceAs (Decidable (_ → _))

instance (rows : List α) : Decidable (RecordedRoles rows) :=
  inferInstanceAs (Decidable (_ → _ ∧ _))

/-- What an operation at the path asks of a section's scanned rows. -/
def FitsRolesAt (h : Hashing) (original : InspectionSnapshot) (state : VariantProjectionState)
    (rows : List α) (path : String) : RefinementOp → Prop
  | .selectVariant _ target => PicksOne h target (shownAt h state rows path)
  | .editVariant item content _ =>
    if converges h original state item path (h.ofContent content) then
      PicksOne h (h.ofContent content) (shownAt h state rows path)
    else rows.countP (isVersion h path (h.ofContent content)) ≤ 1
  | .discardVariant _ variant =>
    state.selected.lookup path = some variant ∨ state.selected.lookup path = none →
      RecordedRoles ((shownAt h state rows path).filter fun a => !hasHash h variant a)
  | _ => True

instance (h : Hashing) (original : InspectionSnapshot) (state : VariantProjectionState)
    (rows : List α) (path : String) (op : RefinementOp) :
    Decidable (FitsRolesAt h original state rows path op) :=
  match op with
  | .selectVariant _ _ => inferInstanceAs (Decidable (PicksOne ..))
  | .editVariant item content _ => inferInstanceAs (Decidable
      (if converges h original state item path (h.ofContent content) then
        PicksOne h (h.ofContent content) (shownAt h state rows path)
      else rows.countP (isVersion h path (h.ofContent content)) ≤ 1))
  | .discardVariant _ _ => inferInstanceAs (Decidable (_ ∨ _ → RecordedRoles _))
  | .setInclude .. => isTrue trivial
  | .userStrategy .. => isTrue trivial
  | .userPassword _ => isTrue trivial
  | .setPackagePin .. => isTrue trivial
  | .setBulkPackagePin .. => isTrue trivial

def FitsRoles (h : Hashing) (original : InspectionSnapshot) (state : VariantProjectionState)
    (op : RefinementOp) (rows : List α) : Prop :=
  ∀ path ∈ op.variantPath, FitsRolesAt h original state rows path op

instance (h : Hashing) (original : InspectionSnapshot) (state : VariantProjectionState)
    (op : RefinementOp) (rows : List α) : Decidable (FitsRoles h original state op rows) :=
  inferInstanceAs (Decidable (∀ path ∈ op.variantPath, FitsRolesAt h original state rows path op))

/-- The operation leaves a role for every version that each section shows. -/
def KeepsRoles (h : Hashing) (s : RefineSession) (op : RefinementOp) : Prop :=
  EachContent (FitsRoles h s.original (variantState h s.toSessionCore) op) s.original

def SelectionFits (h : Hashing) (state : VariantProjectionState) (rows : List α) : Prop :=
  ∀ path,
    match state.selected.lookup path with
    | some target => PicksOne h target (shownAt h state rows path)
    | none => RecordedRoles (shownAt h state rows path)

end Definitions

section Rows

variable {h : Hashing} {original : InspectionSnapshot} {state : VariantProjectionState}
variable {α : Type} [VariantRow α] {rows rows' : List α} {path : String}

theorem WellRoled.recorded (roled : WellRoled rows) : RecordedRoles rows := roled.several

theorem WellRoled.related (roled : WellRoled rows) (rel : List.Forall₂ SameFile rows rows') :
    WellRoled rows' := by
  have len := rel.length_eq
  have contents : rows'.map VariantRow.content = rows.map VariantRow.content :=
    map_related (rel.imp fun _ _ ab => ab.content)
  have selected : rows'.countP isSelected = rows.countP isSelected :=
    (countP_related SameFile _ _ (fun a b ab => by rw [isSelected, isSelected, ab.selection]) rel).symm
  refine ⟨contents ▸ roled.distinct, fun one b mem => ?_, fun many => ⟨?_, fun b mem => ?_⟩⟩
  · obtain ⟨a, ha, ab⟩ := mem_related rel mem
    rw [ab.selection]
    exact roled.sole (len ▸ one) a ha
  · rw [selected]
    exact (roled.several (len ▸ many)).1
  · obtain ⟨a, ha, ab⟩ := mem_related rel mem
    rw [ab.selection]
    exact (roled.several (len ▸ many)).2 a ha

theorem wellRoled_nil : WellRoled ([] : List α) :=
  ⟨List.nodup_nil, fun one => absurd one Nat.zero_ne_one, fun many => absurd many (by simp)⟩

/-- Distinct scanned versions stay distinct beside what the section gains. -/
theorem shownAt_distinct (hashed : WellHashed h state)
    (distinct : ((rows.filter (atPath path)).map VariantRow.content).Nodup) :
    ((shownAt h state rows path).map VariantRow.content).Nodup := by
  have survivors : (rows.filter (survivesAt h state path)).Sublist (rows.filter (atPath path)) := by
    have sub : rows.filter (survivesAt h state path) =
        (rows.filter (atPath path)).filter fun a => !isRowDiscarded h state a := by
      rw [List.filter_filter]
      apply List.filter_congr
      intro a _
      rw [survivesAt, Bool.and_comm]
    rw [sub]
    exact List.filter_sublist
  rw [shownAt, List.map_append, List.nodup_append]
  refine ⟨distinct.sublist (survivors.map _), ?_, ?_⟩
  · cases known : state.userVariants.lookup path with
    | none => exact List.nodup_nil
    | some variants =>
      dsimp only
      unfold gainedAt
      split
      · exact List.nodup_nil
      · rename_i template _
        rw [List.map_map]
        have keys := List.nodupKeys_iff_pairwise.mp (iter_entries_nodupKeys h.order variants)
        refine List.pairwise_map.mpr (List.Pairwise.imp_of_mem ?_ (keys.filter _))
        intro v w hv hw apart same
        have own := hashed path variants known v
          ((HashOrder.mem_iter h.order).mp (List.mem_of_mem_filter hv))
        have own' := hashed path variants known w
          ((HashOrder.mem_iter h.order).mp (List.mem_of_mem_filter hw))
        simp only [Function.comp_apply, VariantRow.content_userVariant] at same
        exact apart (by rw [own, own', same])
  · intro c hc c' hc' same
    obtain ⟨a, ha, rfl⟩ := List.mem_map.mp hc
    obtain ⟨b, hb, rfl⟩ := List.mem_map.mp hc'
    obtain ⟨mem, survives⟩ := List.mem_filter.mp ha
    rw [survivesAt, Bool.and_eq_true] at survives
    cases known : state.userVariants.lookup path with
    | none =>
      rw [known] at hb
      cases hb
    | some variants =>
      rw [known] at hb
      dsimp only at hb
      unfold gainedAt at hb
      split at hb
      · cases hb
      · obtain ⟨v, hv, rfl⟩ := List.mem_map.mp hb
        obtain ⟨stored, fresh⟩ := List.mem_filter.mp hv
        have own := hashed path variants known v ((HashOrder.mem_iter h.order).mp stored)
        rw [isFresh, Bool.and_eq_true, Bool.not_eq_true', Bool.not_eq_true', List.any_eq_false]
          at fresh
        rw [VariantRow.content_userVariant] at same
        refine fresh.2 a mem ?_
        rw [isVersion, Bool.and_eq_true, beq_iff_eq, beq_iff_eq, own, rowHash, same]
        exact ⟨beq_iff_eq.mp survives.1, rfl⟩

theorem settleAt_sameFile {a b : α} (ab : SameFile a b) (n : Nat) :
    SameFile (settleAt h state path n a) (settleAt h state path n b) := by
  unfold settleAt SelectRule.mark SelectRule.choose contentRule
  dsimp only
  rw [ab.rowHash]
  split
  · split
    · exact ⟨by simp [ab.path], by simp [ab.content], by simp⟩
    · split
      · exact ab
      · split
        · exact ⟨by simp [ab.path], by simp [ab.content], by simp⟩
        · exact ⟨by simp [ab.path], by simp [ab.content], by simp⟩
  · exact ab

theorem chosen_wellRoled {target : ContentHash}
    (distinct : (rows.map VariantRow.content).Nodup) (many : 2 ≤ rows.length)
    (picks : PicksOne h target rows) :
    WellRoled (rows.map ((contentRule h).choose target)) := by
  have selection : ∀ a : α, VariantRow.selection ((contentRule h).choose target a) =
      if hasHash h target a then .selected else .alternative := by
    intro a
    unfold SelectRule.choose contentRule hasHash
    by_cases same : rowHash h a = target <;> simp [same]
  refine ⟨?_, fun one => ?_, fun _ => ⟨?_, ?_⟩⟩
  · have contents : (rows.map ((contentRule h).choose target)).map VariantRow.content =
        rows.map VariantRow.content := by
      rw [List.map_map]
      apply List.map_congr_left
      intro a _
      unfold Function.comp SelectRule.choose contentRule
      dsimp only
      split <;> simp
    rwa [contents]
  · rw [List.length_map] at one
    omega
  · rw [List.countP_map, ← picks many]
    apply List.countP_congr
    intro a _
    rw [Function.comp_apply, isSelected, selection]
    cases hasHash h target a <;> decide
  · intro b mem
    obtain ⟨a, _, rfl⟩ := List.mem_map.mp mem
    rw [selection]
    split <;> nofun

theorem settled_wellRoled (hashed : WellHashed h state) (fits : SelectionFits h state rows)
    (start : WellRoled (rows.filter (atPath path))) :
    WellRoled ((shownAt h state rows path).map
      (settleAt h state path (shownAt h state rows path).length)) := by
  have distinct := shownAt_distinct hashed start.distinct
  have fits := fits path
  by_cases affected : path ∈ state.affectedPaths
  · have settle : ∀ n, settleAt (α := α) h state path n =
        (contentRule h).mark (state.selected.lookup path) n := fun n => by
      funext a
      rw [settleAt, if_pos affected]
    rw [settle]
    generalize shownAt h state rows path = shown at distinct fits
    by_cases one : shown.length = 1
    · obtain ⟨a, rfl⟩ := List.length_eq_one_iff.mp one
      have sole : [a].map ((contentRule h).mark (state.selected.lookup path) [a].length) =
          [VariantRow.select .only a] := rfl
      rw [sole]
      refine ⟨List.nodup_singleton _, fun _ b mem => ?_, fun many => ?_⟩
      · rw [List.mem_singleton.mp mem, VariantRow.selection_select]
      · rw [List.length_singleton] at many
        omega
    · cases chosen : state.selected.lookup path with
      | none =>
        rw [chosen] at fits
        have kept : (contentRule (α := α) h).mark none shown.length = id := by
          funext a
          rw [SelectRule.mark, if_neg one]
          rfl
        rw [kept, List.map_id]
        exact ⟨distinct, fun len => absurd len one, fits⟩
      | some target =>
        rw [chosen] at fits
        have marks : (contentRule (α := α) h).mark (some target) shown.length =
            (contentRule h).choose target := by
          funext a
          rw [SelectRule.mark, if_neg one]
        rw [marks]
        by_cases many : 2 ≤ shown.length
        · exact chosen_wellRoled distinct many fits
        · have empty : shown = [] := List.length_eq_zero_iff.mp (by omega)
          rw [empty]
          exact wellRoled_nil
  · rw [shownAt_unaffected affected]
    have keep : ∀ n, settleAt (α := α) h state path n = id := fun n => by
      funext a
      rw [settleAt, if_neg affected]
      rfl
    rw [keep, List.map_id]
    exact start

theorem PicksOne.of_perm {target : ContentHash} (perm : rows.Perm rows')
    (picks : PicksOne h target rows) : PicksOne h target rows' := by
  intro many
  rw [← perm.countP_eq]
  exact picks (perm.length_eq ▸ many)

theorem RecordedRoles.of_perm (perm : rows.Perm rows') (roles : RecordedRoles rows) :
    RecordedRoles rows' := by
  intro many
  obtain ⟨one, none_only⟩ := roles (perm.length_eq ▸ many)
  exact ⟨perm.countP_eq _ ▸ one, fun a mem => none_only a (perm.mem_iff.mpr mem)⟩

theorem PicksOne.discard {target variant : ContentHash} (apart : target ≠ variant)
    (picks : PicksOne h target rows) :
    PicksOne h target (rows.filter fun a => !hasHash h variant a) := by
  intro many
  have more : 2 ≤ rows.length := Nat.le_trans many (List.length_filter_le _ _)
  rw [List.countP_filter, ← picks more]
  apply List.countP_congr
  intro a _
  by_cases same : rowHash h a = target
  · have away : (target == variant) = false := beq_eq_false_iff_ne.mpr apart
    simp [hasHash, same, away]
  · simp [hasHash, same]

theorem SelectionFits.accumulate (hashed : WellHashed h state) {op : RefinementOp}
    (fits : FitsRoles h original state op rows) (selections : SelectionFits h state rows) :
    SelectionFits h (accumulateVariant h original state op) rows := by
  intro path
  by_cases at_ : op.variantPath = some path
  · have fits := fits path at_
    have before := selections path
    cases op with
    | selectVariant item target =>
      rw [accumulateVariant, selected_select at_, shownAt_select]
      exact fits
    | editVariant item content basedOn =>
      rw [FitsRolesAt] at fits
      rw [accumulateVariant, selected_edit at_]
      dsimp only
      split at fits
      · rename_i there
        rw [shownAt_edit_converges at_ there]
        exact fits
      · rename_i new
        rw [Bool.not_eq_true] at new
        intro many
        by_cases known : ∃ a ∈ rows, VariantRow.path a = path
        · rw [countP_shownAt_creates at_ hashed new known]
          omega
        · have unknown : ∀ a ∈ rows, VariantRow.path a ≠ path := fun a mem here =>
            known ⟨a, mem, here⟩
          rw [shownAt_unknown unknown, List.length_nil] at many
          omega
    | discardVariant item variant =>
      have left := (shownAt_discard at_ hashed variant rows).symm
      rw [accumulateVariant, selected_discard at_]
      split
      · rename_i target chosen
        split at chosen
        · cases chosen
        · rename_i kept
          rw [chosen] at before
          refine PicksOne.of_perm left (PicksOne.discard (fun same => ?_) before)
          exact kept (by rw [chosen, same])
      · rename_i chosen
        refine RecordedRoles.of_perm left (fits ?_)
        split at chosen
        · rename_i selected
          exact .inl selected
        · exact .inr chosen
    | _ => cases at_
  · have agree : AgreeAt path (accumulateVariant h original state op) state :=
      agreeAt_accumulate at_
    rw [agree.selected, shownAt_agree agree]
    exact selections path

theorem selectionFits_empty (roled : PathsWellRoled rows) : SelectionFits h {} rows := by
  intro path
  have shown : shownAt h {} rows path = rows.filter (atPath path) :=
    shownAt_unaffected (by rw [mem_affectedPaths]; nofun) rows
  change RecordedRoles _
  rw [shown]
  exact (roled path).recorded

theorem finished_wellRoled (hashed : WellHashed h state) (roled : PathsWellRoled rows)
    (fits : SelectionFits h state rows) (frame : List.Forall₂ Redecided rows rows') :
    PathsWellRoled ((materializeRows h state rows').map clampLocked) := by
  intro path
  have same : List.Forall₂ SameFile rows rows' := frame.imp fun _ _ ab => ab.sameFile
  have settled := settled_wellRoled hashed fits (roled path)
  have shown : List.Forall₂ SameFile (shownAt h state rows path) (shownAt h state rows' path) :=
    shownAt_related same path
  have clamped : (atPath path ∘ clampLocked) = atPath (α := α) path := by
    funext a
    rw [Function.comp_apply, ← (clampLocked_sameFile a).atPath]
  rw [List.filter_map, clamped, materializeRows_at hashed, ← shown.length_eq]
  refine settled.related ?_
  rw [List.map_map, List.forall₂_map_left_iff, List.forall₂_map_right_iff]
  refine shown.imp fun a b ab => ?_
  exact (settleAt_sameFile ab _).trans (clampLocked_sameFile _)

end Rows

section Session

variable {h : Hashing}

theorem PathsWellRoled.related {α : Type} [VariantRow α] {rows rows' : List α}
    (roled : PathsWellRoled rows) (same : List.Forall₂ SameFile rows rows') :
    PathsWellRoled rows' := fun path =>
  (roled path).related (forall₂_filter (fun _ _ ab => ab.atPath path) same)

theorem normalizeConfig_sameFile (refined : Refined ConfigFileEntry) (entry : ConfigFileEntry) :
    SameFile entry (normalizeConfig refined entry) := by
  unfold normalizeConfig
  repeat' split
  all_goals exact ⟨rfl, rfl, rfl⟩

theorem dropIns_normalized (snap : InspectionSnapshot) :
    (normalizeSnapshot snap).dropIns = snap.dropIns := by
  rw [normalizeSnapshot_eq]
  unfold InspectionSnapshot.dropIns
  cases snap.services <;> rfl

theorem rolesWellFormed_normalized {snap : InspectionSnapshot} (roled : RolesWellFormed snap) :
    RolesWellFormed (normalizeSnapshot snap) := by
  refine ⟨?_, ?_, ?_⟩
  · refine PathsWellRoled.related roled.configFiles ?_
    rw [normalizeSnapshot_eq]
    unfold InspectionSnapshot.configFiles
    dsimp only
    cases snap.config with
    | none => exact .nil
    | some c =>
      exact forall_overlay SameFile (fun _ => ⟨rfl, rfl, rfl⟩) normalizeConfig
        normalizeConfig_sameFile (configReports (unresolvedHints snap) c.files) c.files
  · rw [dropIns_normalized]
    exact roled.dropIns
  · rw [normalizeSnapshot_eq]
    exact roled.quadletUnits

def SelectionsFit (h : Hashing) (original : InspectionSnapshot) (ops : List RefinementOp) : Prop :=
  EachContent (SelectionFits h (buildVariantState h original ops)) original

theorem rolesWellFormed_projected {original : InspectionSnapshot} {index : RepoIndex}
    (roled : RolesWellFormed original) {active : List TimelineEntry}
    (fits : SelectionsFit h original (timelineOps active)) : RolesWellFormed (projectSnapshot h original index active) := by
  have hashed : WellHashed h (buildVariantState h original (timelineOps active)) :=
    buildVariantState_wellHashed _
  have frame := @replay_frame original index (timelineOps active)
  unfold projectSnapshot
  constructor
  · rw [configFiles_finishProjection]
    exact finished_wellRoled hashed roled.configFiles fits.configFiles frame.configFiles
  · rw [dropIns_finishProjection]
    exact finished_wellRoled hashed roled.dropIns fits.dropIns frame.dropIns
  · rw [quadletUnits_finishProjection]
    exact finished_wellRoled hashed roled.quadletUnits fits.quadletUnits frame.quadletUnits

end Session

/-- Operations that leave a role for every version keep the projection's roles well formed. -/
theorem roles_stay_well_formed (env : Env) (disk : Disk) (snap : InspectionSnapshot)
    (roled : RolesWellFormed snap) (moves : List Moved)
    (fits : Along (play env) (Fits env (KeepsRoles env.toHashing)) (RefineSession.new env disk snap)
      moves) :
    ∀ s ∈ visited (play env) (RefineSession.new env disk snap) moves,
      RolesWellFormed (s.projected env.toHashing) := by
  have opened := rolesWellFormed_normalized roled
  have start : SelectionsFit env.toHashing (normalizeSnapshot snap) [] := ⟨selectionFits_empty opened.configFiles,
    selectionFits_empty opened.dropIns, selectionFits_empty opened.quadletUnits⟩
  have run := run_prefixes (fun s op every _ _ keeps => ?_) (everyPrefix_new start env disk snap) fits
  · intro s mem
    have every := run s mem
    rw [SessionCore.projected, every.original]
    exact rolesWellFormed_projected opened every.active
  · have same : s.original = normalizeSnapshot snap := every.original
    have before := every.active
    have hashed : WellHashed env.toHashing
        (buildVariantState env.toHashing (normalizeSnapshot snap) s.activeOps) :=
      buildVariantState_wellHashed _
    unfold KeepsRoles variantState at keeps
    rw [same] at keeps
    unfold SelectionsFit
    rw [buildVariantState_append]
    exact ⟨before.configFiles.accumulate hashed keeps.configFiles,
      before.dropIns.accumulate hashed keeps.dropIns,
      before.quadletUnits.accumulate hashed keeps.quadletUnits⟩

theorem soleFile_wellRoled : RolesWellFormed soleFile := by
  refine ⟨fun path => ?_, fun path => wellRoled_nil, fun path => wellRoled_nil⟩
  rw [show soleFile.configFiles = [{ path := "/etc/a.conf", content := "a" }] from rfl]
  by_cases here : atPath path ({ path := "/etc/a.conf", content := "a" } : ConfigFileEntry)
  · rw [List.filter_cons_of_pos here]
    refine ⟨List.nodup_singleton _, fun _ a mem => ?_, fun many => ?_⟩
    · rw [List.mem_singleton.mp mem]
      rfl
    · exact absurd many (by simp)
  · rw [List.filter_cons_of_neg here]
    exact wellRoled_nil

/-- Rewriting a file once and taking the rewrite back leaves its roles right. -/
theorem roles_stay_well_formed_one_rewrite :
    RolesWellFormed ((play letterEnv (discardA "b") (play letterEnv (rewriteA "b")
      (RefineSession.new letterEnv sampleDisk soleFile))).projected letterHashing) := by
  refine roles_stay_well_formed letterEnv sampleDisk soleFile soleFile_wellRoled
    [rewriteA "b", discardA "b"] ⟨?_, ?_, trivial⟩ _
    (List.mem_cons_of_mem _ (List.mem_cons_of_mem _ List.mem_cons_self))
  · intro op same _
    cases same
    exact ⟨by decide, by decide, by decide⟩
  · intro op same _
    cases same
    exact ⟨by decide, by decide, by decide⟩

/-- After the second of two rewrites is discarded nothing is selected. -/
theorem discarded_rewrite_selects_none :
    RolesWellFormed soleFile ∧
      Along (play letterEnv) (Accepted letterEnv) (RefineSession.new letterEnv sampleDisk soleFile)
        [rewriteA "b", rewriteA "c", discardA "c"] ∧
      ∃ s ∈ visited (play letterEnv) (RefineSession.new letterEnv sampleDisk soleFile)
        [rewriteA "b", rewriteA "c", discardA "c"], ¬ RolesWellFormed (s.projected letterHashing) := by
  refine ⟨soleFile_wellRoled, ⟨rfl, rfl, rfl, trivial⟩, _,
    List.mem_cons_of_mem _ (List.mem_cons_of_mem _ (List.mem_cons_of_mem _ List.mem_cons_self)), ?_⟩
  intro roled
  have several := (roled.configFiles "/etc/a.conf").several
  revert several
  decide

end Inspectah
