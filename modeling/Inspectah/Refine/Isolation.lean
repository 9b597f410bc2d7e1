import Inspectah.Refine.CleanSession
import Inspectah.Refine.Moves
import Inspectah.Refine.ShownVersions

/-!
How far a variant operation reaches. The variant state is keyed by path alone, so an operation
reaches every section with rows there.
-/
namespace Inspectah

open FirstMatch KeyedFold Runs

inductive VariantKind where
  | config
  | dropIn
  | quadlet
  | compose
  | languageEnv
  | unmanagedFile
  deriving DecidableEq

def kindOf : ItemId → Option VariantKind
  | .config _ => some .config
  | .dropIn _ => some .dropIn
  | .quadlet _ => some .quadlet
  | .compose _ => some .compose
  | .languageEnv .. => some .languageEnv
  | .unmanagedFile _ => some .unmanagedFile
  | _ => none

def RefinementOp.variantKind : RefinementOp → Option VariantKind
  | .selectVariant item _ => kindOf item
  | .editVariant item _ _ => kindOf item
  | .discardVariant item _ => kindOf item
  | _ => none

def withoutVariants (snap : InspectionSnapshot) : InspectionSnapshot :=
  { snap with
    config := snap.config.map fun c => { c with files := [] }
    services := snap.services.map fun s => { s with dropIns := [] }
    containers := snap.containers.map fun c => { c with quadletUnits := [], composeFiles := [] }
    nonRpmSoftware := snap.nonRpmSoftware.map fun n => { n with items := [] }
    unmanagedFiles := snap.unmanagedFiles.map fun u => { u with items := [] } }

def isOtherItem (kind : VariantKind) (e : NonRpmItem) : Bool :=
  kind != .languageEnv || !isLanguageEnv e

structure KeptElsewhere (kind : VariantKind) (a b : InspectionSnapshot) : Prop where
  configFiles : kind ≠ .config → a.configFiles.Perm b.configFiles
  dropIns : kind ≠ .dropIn → a.dropIns.Perm b.dropIns
  quadletUnits : kind ≠ .quadlet → a.quadletUnits.Perm b.quadletUnits
  composeFiles : kind ≠ .compose → composeFiles a = composeFiles b
  items : (nonRpmItems a).filter (isOtherItem kind) = (nonRpmItems b).filter (isOtherItem kind)
  unmanagedFiles : kind ≠ .unmanagedFile → unmanagedItems a = unmanagedItems b
  rest : withoutVariants a = withoutVariants b

section Conditions

variable (h : Hashing) (original : InspectionSnapshot) (state : VariantProjectionState)

def selectedAfter (path : String) : RefinementOp → Option ContentHash
  | .selectVariant _ target => some target
  | .editVariant _ content _ => some (h.ofContent content)
  | .discardVariant _ variant =>
    if state.selected.lookup path = some variant then none else state.selected.lookup path
  | _ => state.selected.lookup path

/-- The mark a row at the path has now, as one of `n`. -/
def SelectRule.standing {α : Type} (rule : SelectRule α) (path : String) (n : Nat) (a : α) : α :=
  if path ∈ state.affectedPaths then rule.mark (state.selected.lookup path) n a else a

def MarksStand {α : Type} (rule : SelectRule α) (path : String) (selected : Option ContentHash)
    (tested : α → Bool) (rows : List α) : Prop :=
  ∀ a ∈ rows, rule.isAt path a = true → tested a = true →
    rule.mark selected (rows.countP (rule.isAt path)) a =
      rule.standing state path (rows.countP (rule.isAt path)) a

def RowsStand (path : String) (op : RefinementOp) {α : Type} [VariantRow α] (rows : List α) :
    Prop :=
  let marks := MarksStand state (contentRule h) path (selectedAfter h state path op)
    (fun _ => true) (shownAt h state rows path)
  match op with
  | .selectVariant .. => marks
  | .editVariant item content _ =>
    if converges h original state item path (h.ofContent content) then marks
    else (∀ a ∈ rows, VariantRow.path a ≠ path) ∨
      (∃ a ∈ shownAt h state rows path, rowHash h a = h.ofContent content) ∧ marks
  | .discardVariant .. => ∀ a ∈ rows, VariantRow.path a ≠ path
  | _ => True

/-- Every section of another kind shows the same after the operation. -/
structure OthersStand (kind : VariantKind) (path : String) (op : RefinementOp)
    (replayed : InspectionSnapshot) : Prop where
  configFiles : kind ≠ .config → RowsStand h original state path op replayed.configFiles
  dropIns : kind ≠ .dropIn → RowsStand h original state path op replayed.dropIns
  quadletUnits : kind ≠ .quadlet → RowsStand h original state path op replayed.quadletUnits
  composeFiles : kind ≠ .compose → MarksStand state (composeRule h) path
    (selectedAfter h state path op) (fun _ => true) (composeFiles replayed)
  items : MarksStand state (languageEnvRule h) path (selectedAfter h state path op)
    (fun e => isOtherItem kind e && !e.locked) (nonRpmItems replayed)
  unmanagedFiles : kind ≠ .unmanagedFile → MarksStand state unmanagedRule path
    (selectedAfter h state path op) (fun _ => true) (unmanagedItems replayed)

def NoneHas (path : String) (hash : ContentHash) {α : Type} [VariantRow α] (rows : List α) : Prop :=
  ∀ a ∈ rows, isVersion h path hash a = false

def SparesHost : RefinementOp → Prop
  | .discardVariant item variant =>
    ∀ path, itemPath item = some path → EachContent (NoneHas h path variant) original
  | _ => True

end Conditions

structure StaysInside (h : Hashing) (s : RefineSession) (op : RefinementOp) : Prop where
  others : ∀ kind path, op.variantKind = some kind → op.variantPath = some path →
    OthersStand h s.original (variantState h s.toSessionCore) kind path op
      (replay s.original s.repoIndex s.activeOps)
  spares : SparesHost h s.original op

def ShowsAll {α : Type} [VariantRow α] (rows shown : List α) : Prop :=
  List.Forall₂ (fun a b => VariantRow.path b = VariantRow.path a ∧
    VariantRow.content b = VariantRow.content a) rows (shown.take rows.length)

/-- Every scanned entry of the six kinds is there, up to marks, decisions and pins. -/
structure HostEntriesShown (a b : InspectionSnapshot) : Prop where
  configFiles : ShowsAll a.configFiles b.configFiles
  dropIns : ShowsAll a.dropIns b.dropIns
  quadletUnits : ShowsAll a.quadletUnits b.quadletUnits
  composeFiles : (composeFiles b).map (fun e => (e.path, e.images, e.rawContent)) =
    (composeFiles a).map fun e => (e.path, e.images, e.rawContent)
  items : (nonRpmItems b).map (fun e => (e.path, e.name, e.method, e.version, e.content)) =
    (nonRpmItems a).map fun e => (e.path, e.name, e.method, e.version, e.content)
  unmanagedFiles : (unmanagedItems b).map (fun e => (e.path, e.contentHash)) =
    (unmanagedItems a).map fun e => (e.path, e.contentHash)

section Rows

variable {h : Hashing} {original : InspectionSnapshot} {state : VariantProjectionState}
variable {path : String} {op : RefinementOp} {α : Type} [VariantRow α] {rows rows' : List α}

theorem perm_of_paths
    (same : ∀ path, (rows.filter (atPath path)).Perm (rows'.filter (atPath path))) :
    rows.Perm rows' := by
  classical
  rw [List.perm_iff_count]
  intro a
  have here : atPath (VariantRow.path a) a = true := by simp [atPath]
  rw [← List.count_filter (l := rows) here, ← List.count_filter (l := rows') here]
  exact (same (VariantRow.path a)).count_eq a

theorem selected_accumulate (at_ : op.variantPath = some path) :
    (accumulateVariant h original state op).selected.lookup path =
      selectedAfter h state path op := by
  cases op with
  | selectVariant item target => exact selected_select at_ target
  | editVariant item content basedOn => exact selected_edit at_ content
  | discardVariant item variant => exact selected_discard at_ variant
  | _ => cases at_

theorem materializeRows_at_agree {a b : VariantProjectionState} (hashed : WellHashed h a)
    (hashed' : WellHashed h b) (agree : AgreeAt path a b) :
    (materializeRows h a rows).filter (atPath path) =
      (materializeRows h b rows).filter (atPath path) := by
  rw [materializeRows_at hashed, materializeRows_at hashed', shownAt_agree agree]
  apply List.map_congr_left
  intro row _
  unfold settleAt
  by_cases affected : path ∈ a.affectedPaths
  · rw [if_pos affected, if_pos (agree.affected.mp affected), agree.selected]
  · rw [if_neg affected, if_neg fun there => affected (agree.affected.mpr there)]

theorem countP_isAt_shown : (shownAt h state rows path).countP ((contentRule h).isAt path) =
    (shownAt h state rows path).length := by
  rw [List.countP_eq_length]
  intro a mem
  simp [SelectRule.isAt, contentRule, path_of_shownAt mem]

theorem materializeRows_at_stand (hashed : WellHashed h state) (at_ : op.variantPath = some path)
    (shown : (shownAt h (accumulateVariant h original state op) rows path).Perm
      (shownAt h state rows path))
    (stand : MarksStand state (contentRule h) path (selectedAfter h state path op)
      (fun _ => true) (shownAt h state rows path)) :
    ((materializeRows h state rows).filter (atPath path)).Perm
      ((materializeRows h (accumulateVariant h original state op) rows).filter (atPath path)) := by
  rw [materializeRows_at hashed, materializeRows_at (accumulateVariant_wellHashed hashed op),
    shown.length_eq]
  refine List.Perm.trans (List.Perm.of_eq ?_) (shown.symm.map _)
  apply List.map_congr_left
  intro a mem
  have here : (contentRule (α := α) h).isAt path a = true := by
    simp [SelectRule.isAt, contentRule, path_of_shownAt mem]
  have marks := stand a mem here rfl
  rw [countP_isAt_shown] at marks
  unfold settleAt
  rw [if_pos (affected_accumulate at_), selected_accumulate at_]
  exact marks.symm

theorem shownAt_edit_present {item : ItemId} (at_ : itemPath item = some path) {content : String}
    (hashed : WellHashed h state)
    (new : converges h original state item path (h.ofContent content) = false)
    (present : ∃ a ∈ shownAt h state rows path, rowHash h a = h.ofContent content) :
    (shownAt h (applyEdit h original state item content) rows path).Perm
      (shownAt h state rows path) := by
  have not_stored : state.isUserVariant path (h.ofContent content) = false := by
    rw [converges, Bool.or_eq_false_iff] at new
    exact new.2
  -- The row shown is a scanned one: a gained row would be stored.
  have scanned : ∃ a ∈ rows, survivesAt h state path a = true ∧
      rowHash h a = h.ofContent content := by
    obtain ⟨a, mem, same⟩ := present
    rcases List.mem_append.mp mem with kept | gained
    · obtain ⟨mem, survives⟩ := List.mem_filter.mp kept
      exact ⟨a, mem, survives, same⟩
    · cases known : state.userVariants.lookup path with
      | none =>
        rw [known] at gained
        cases gained
      | some variants =>
        rw [known] at gained
        dsimp only at gained
        unfold gainedAt at gained
        split at gained
        · cases gained
        · obtain ⟨v, hv, rfl⟩ := List.mem_map.mp gained
          have stored := (HashOrder.mem_iter h.order).mp (List.mem_of_mem_filter hv)
          rw [rowHash_userVariant, ← hashed path variants known v stored] at same
          have user := isUserVariant_iff.mpr ⟨variants, known, v, stored, same⟩
          rw [not_stored] at user
          cases user
  obtain ⟨a, mem, survives, same⟩ := scanned
  rw [survivesAt, Bool.and_eq_true, Bool.not_eq_true'] at survives
  have at_path : VariantRow.path a = path := by simpa [atPath] using survives.1
  have live : state.isDiscarded path (h.ofContent content) = false := by
    have live := survives.2
    rwa [isRowDiscarded, at_path, same] at live
  have discarded : ∀ hash, (applyEdit h original state item content).isDiscarded path hash =
      state.isDiscarded path hash := by
    intro hash
    rw [isDiscarded_edit at_, new, Bool.false_or]
    by_cases own : hash = h.ofContent content
    · rw [own, live, Bool.false_and]
    · rw [bne_iff_ne.mpr own, Bool.and_true]
  have any : rows.any (isVersion h path (h.ofContent content)) = true :=
    List.any_eq_true.mpr ⟨a, mem, by simp [isVersion, at_path, same]⟩
  rw [shownAt, shownAt, survivesAt_congr discarded]
  refine List.Perm.append_left _ ?_
  have lookup : (applyEdit h original state item content).userVariants.lookup path =
      some (((state.userVariants.lookup path).getD ∅).insert (h.ofContent content) content) := by
    rw [applyEdit, at_]
    dsimp only
    rw [converges] at new
    rw [if_neg (by rw [new]; exact Bool.false_ne_true)]
    exact AList.lookup_insert _
  rw [lookup]
  -- The new version is not fresh, so the path gains what it gained before.
  have gains : ∀ variants : UserVariants, h.ofContent content ∉ variants →
      (gainedAt h (applyEdit h original state item content) rows
        ⟨path, variants.insert (h.ofContent content) content⟩).Perm
        (gainedAt h state rows ⟨path, variants⟩) := by
    intro variants absent
    unfold gainedAt
    dsimp only
    cases rows.find? (atPath path) with
    | none => exact List.Perm.refl _
    | some template =>
      dsimp only
      refine List.Perm.map _ ?_
      rw [isFresh_congr discarded]
      refine ((h.order.rearranges _).filter _).trans ?_
      refine List.Perm.trans ?_ ((h.order.rearranges variants.entries).symm.filter _)
      have entries : (variants.insert (h.ofContent content) content).entries =
          ⟨h.ofContent content, content⟩ :: variants.entries := by
        rw [AList.entries_insert_of_notMem absent]
      rw [entries, List.filter_cons_of_neg]
      simp [isFresh, any]
  cases known : state.userVariants.lookup path with
  | none =>
    have empty := gains ∅ (AList.notMem_empty _)
    have nothing : gainedAt h state rows ⟨path, (∅ : UserVariants)⟩ = [] := by
      unfold gainedAt
      split
      · rfl
      · rw [show (∅ : UserVariants).entries = [] from rfl, HashOrder.iter_nil]
        rfl
    rw [nothing] at empty
    exact empty
  | some variants =>
    refine gains variants fun stored => ?_
    have user : state.isUserVariant path (h.ofContent content) = true := by
      rw [VariantProjectionState.isUserVariant, known]
      exact AList.lookup_isSome.mpr stored
    rw [not_stored] at user
    cases user

theorem marksStand_nil {β : Type} {rule : SelectRule β} {selected : Option ContentHash}
    {tested : β → Bool} {rows : List β} (empty : rows = []) :
    MarksStand state rule path selected tested rows := by
  rw [empty]
  exact nofun

theorem rowsStand_nil (empty : rows = []) : RowsStand h original state path op rows := by
  have away : ∀ a ∈ rows, VariantRow.path a ≠ path := by rw [empty]; exact nofun
  have marks := @marksStand_nil state path α (contentRule h) (selectedAfter h state path op)
    (fun _ => true) _ (@shownAt_unknown h state α _ path rows away)
  unfold RowsStand
  cases op with
  | selectVariant item target => exact marks
  | editVariant item content basedOn =>
    dsimp only
    split
    · exact marks
    · exact .inl away
  | discardVariant item variant => exact away
  | _ => trivial

theorem materializeRows_stand (hashed : WellHashed h state) (at_ : op.variantPath = some path)
    (stand : RowsStand h original state path op rows) :
    (materializeRows h state rows).Perm
      (materializeRows h (accumulateVariant h original state op) rows) := by
  refine perm_of_paths fun q => ?_
  by_cases own : op.variantPath = some q
  · obtain rfl : path = q := Option.some.inj (at_.symm.trans own)
    -- A path without scanned rows shows none before or after.
    have unknown : (∀ a ∈ rows, VariantRow.path a ≠ path) →
        ((materializeRows h state rows).filter (atPath path)).Perm
          ((materializeRows h (accumulateVariant h original state op) rows).filter
            (atPath path)) := by
      intro unknown
      rw [materializeRows_at hashed, materializeRows_at (accumulateVariant_wellHashed hashed op),
        shownAt_unknown unknown, shownAt_unknown unknown]
      exact List.Perm.refl _
    cases op with
    | selectVariant item target =>
      refine materializeRows_at_stand hashed at_ ?_ stand
      rw [accumulateVariant, shownAt_select]
    | editVariant item content basedOn =>
      rw [RowsStand] at stand
      split at stand
      · rename_i there
        refine materializeRows_at_stand hashed at_ ?_ stand
        rw [accumulateVariant, shownAt_edit_converges at_ there]
      · rename_i new
        rw [Bool.not_eq_true] at new
        rcases stand with away | ⟨present, marks⟩
        · exact unknown away
        · exact materializeRows_at_stand hashed at_
            (shownAt_edit_present at_ hashed new present) marks
    | discardVariant item variant => exact unknown stand
    | _ => cases at_
  · have agree : AgreeAt q (accumulateVariant h original state op) state :=
      agreeAt_accumulate own
    exact List.Perm.of_eq (materializeRows_at_agree (accumulateVariant_wellHashed hashed op) hashed
      agree).symm

end Rows

section Marked

variable {h : Hashing} {original : InspectionSnapshot} {state : VariantProjectionState}
variable {path : String} {op : RefinementOp} {α : Type} {rule : SelectRule α} {rows : List α}

theorem settle_stand (at_ : op.variantPath = some path) {tested : α → Bool}
    (stand : MarksStand state rule path (selectedAfter h state path op) tested rows) {a : α}
    (mem : a ∈ rows) (test : tested a = true) :
    rule.settle (accumulateVariant h original state op) rows a = rule.settle state rows a := by
  unfold SelectRule.settle
  cases eligible : rule.eligible a with
  | false => rfl
  | true =>
    simp only [Bool.true_and, List.contains_iff_mem]
    by_cases own : op.variantPath = some (rule.path a)
    · obtain rfl : path = rule.path a := Option.some.inj (at_.symm.trans own)
      have here : rule.isAt (rule.path a) a = true := by simp [SelectRule.isAt, eligible]
      rw [if_pos (affected_accumulate at_), selected_accumulate at_, stand a mem here test]
      rfl
    · have agree : AgreeAt (rule.path a) (accumulateVariant h original state op) state :=
        agreeAt_accumulate own
      rw [agree.selected]
      by_cases affected : rule.path a ∈ state.affectedPaths
      · rw [if_pos affected, if_pos (agree.affected.mpr affected)]
      · rw [if_neg affected, if_neg fun there => affected (agree.affected.mp there)]

theorem selectVariants_stand (lawful : rule.Lawful) (at_ : op.variantPath = some path)
    (stand : MarksStand state rule path (selectedAfter h state path op) (fun _ => true) rows) :
    selectVariants rule state h.order rows =
      selectVariants rule (accumulateVariant h original state op) h.order rows := by
  rw [selectVariants_eq lawful, selectVariants_eq lawful]
  exact List.map_congr_left fun a mem => (settle_stand at_ stand mem rfl).symm

variable (h state) in
theorem languageEnv_settle (rows : List NonRpmItem) (e : NonRpmItem) :
    SameItem e ((languageEnvRule h).settle state rows e) := by
  unfold SelectRule.settle SelectRule.mark SelectRule.choose languageEnvRule
  dsimp only
  split
  · split
    · exact SameItem.refl e
    · split
      · exact SameItem.refl e
      · split
        · exact SameItem.refl e
        · split
          · exact ⟨.included, rfl⟩
          · exact SameItem.refl e
  · exact SameItem.refl e

theorem isOtherItem_finished {kind : VariantKind} (rows : List NonRpmItem) (e : NonRpmItem) :
    isOtherItem kind (clampLocked ((languageEnvRule h).settle state rows e)) =
      isOtherItem kind e := by
  obtain ⟨d, settled⟩ := languageEnv_settle h state rows e
  rw [settled]
  unfold clampLocked
  split <;> rfl

theorem clampLocked_settle {e : NonRpmItem} (locked : e.locked = true) (rows : List NonRpmItem) :
    clampLocked ((languageEnvRule h).settle state rows e) = clampLocked e := by
  obtain ⟨d, settled⟩ := languageEnv_settle h state rows e
  rw [settled]
  unfold clampLocked
  rw [if_pos (show LockableRow.locked (FindingRow.decide d e) = true from locked),
    if_pos (show LockableRow.locked e = true from locked), FindingRow.decide_decide]

theorem items_stand {kind : VariantKind} {rows : List NonRpmItem} (at_ : op.variantPath = some path)
    (stand : MarksStand state (languageEnvRule h) path (selectedAfter h state path op)
      (fun e => isOtherItem kind e && !e.locked) rows) :
    ((selectVariants (languageEnvRule h) state h.order rows).map clampLocked).filter
        (isOtherItem kind) =
      ((selectVariants (languageEnvRule h) (accumulateVariant h original state op) h.order
        rows).map clampLocked).filter (isOtherItem kind) := by
  rw [selectVariants_eq (languageEnvRule_lawful h), selectVariants_eq (languageEnvRule_lawful h),
    List.map_map, List.map_map, List.filter_map, List.filter_map]
  have same : ∀ state, isOtherItem kind ∘ clampLocked ∘ (languageEnvRule h).settle state rows =
      isOtherItem kind := fun state => by
    funext e
    exact isOtherItem_finished rows e
  rw [same, same]
  apply List.map_congr_left
  intro e mem
  obtain ⟨mem, other⟩ := List.mem_filter.mp mem
  rw [Function.comp_apply, Function.comp_apply]
  cases locked : e.locked with
  | true => rw [clampLocked_settle locked, clampLocked_settle locked]
  | false => rw [settle_stand at_ stand mem (by rw [other, locked]; rfl)]

end Marked

section Finished

variable {h : Hashing} {original snap : InspectionSnapshot} {state : VariantProjectionState}

theorem nonRpmItems_finishProjection : nonRpmItems (finishProjection h original state snap) =
    (selectVariants (languageEnvRule h) state h.order (nonRpmItems snap)).map clampLocked := by
  obtain ⟨_, _, finished⟩ := finishProjection_eq h original state snap
  rw [finished]
  refine rows_finish NonRpmSoftwareSection.items
    (fun rows => (selectVariants (languageEnvRule h) state h.order rows).map clampLocked) ?_
    (fun _ => rfl) snap.nonRpmSoftware
  rw [selectVariants_eq (languageEnvRule_lawful h)]
  rfl

theorem unmanagedItems_finishProjection :
    unmanagedItems (finishProjection h original state snap) =
      selectVariants unmanagedRule state h.order (unmanagedItems snap) := by
  obtain ⟨_, _, finished⟩ := finishProjection_eq h original state snap
  rw [finished]
  refine rows_finish UnmanagedFileSection.items (selectVariants unmanagedRule state h.order) ?_
    (fun _ => rfl) snap.unmanagedFiles
  rw [selectVariants_eq unmanagedRule_lawful]
  rfl

theorem withoutVariants_finishProjection :
    withoutVariants (finishProjection h original state snap) =
      withoutVariants (demoteUnservedRepoEnabling (clampLockedItems
        (raiseSensitivity original snap))) := by
  have users : hasNewPassword (materializeVariants h state snap) = hasNewPassword snap := by
    rw [materializeVariants_eq]
    rfl
  have redaction : (materializeVariants h state snap).redactionState = snap.redactionState := by
    rw [materializeVariants_eq]
  unfold finishProjection raiseSensitivity
  rw [users, redaction]
  split
  · rw [materializeVariants_eq]
    simp [withoutVariants, demoteUnservedRepoEnabling, clampLockedItems, InspectionSnapshot.onRpm,
      clampServices, clampContainers, materializeContainers, Function.comp_def]
  · rw [materializeVariants_eq]
    simp [withoutVariants, demoteUnservedRepoEnabling, clampLockedItems, InspectionSnapshot.onRpm,
      clampServices, clampContainers, materializeContainers, Function.comp_def]

theorem keptElsewhere_finished {kind : VariantKind} {path : String} {op : RefinementOp}
    (hashed : WellHashed h state) (at_ : op.variantPath = some path)
    (stand : OthersStand h original state kind path op snap) :
    KeptElsewhere kind (finishProjection h original state snap)
      (finishProjection h original (accumulateVariant h original state op) snap) where
  configFiles other := by
    rw [configFiles_finishProjection, configFiles_finishProjection]
    exact (materializeRows_stand hashed at_ (stand.configFiles other)).map _
  dropIns other := by
    rw [dropIns_finishProjection, dropIns_finishProjection]
    exact (materializeRows_stand hashed at_ (stand.dropIns other)).map _
  quadletUnits other := by
    rw [quadletUnits_finishProjection, quadletUnits_finishProjection]
    exact (materializeRows_stand hashed at_ (stand.quadletUnits other)).map _
  composeFiles other := by
    rw [composeFiles_finishProjection, composeFiles_finishProjection,
      selectVariants_stand (composeRule_lawful h) at_ (stand.composeFiles other)]
  items := by
    rw [nonRpmItems_finishProjection, nonRpmItems_finishProjection]
    exact items_stand at_ stand.items
  unmanagedFiles other := by
    rw [unmanagedItems_finishProjection, unmanagedItems_finishProjection,
      selectVariants_stand unmanagedRule_lawful at_ (stand.unmanagedFiles other)]
  rest := by rw [withoutVariants_finishProjection, withoutVariants_finishProjection]

end Finished

section Scanned

variable {h : Hashing} {original : InspectionSnapshot} {state : VariantProjectionState}

theorem isDiscarded_accumulate {op : RefinementOp} {path : String} {hash : ContentHash}
    (gone : (accumulateVariant h original state op).isDiscarded path hash = true) :
    state.isDiscarded path hash = true ∨
      ∃ item, op = .discardVariant item hash ∧ itemPath item = some path := by
  by_cases at_ : op.variantPath = some path
  · cases op with
    | selectVariant item target =>
      left
      have at_ : itemPath item = some path := at_
      rwa [accumulateVariant, applySelect, at_] at gone
    | editVariant item content basedOn =>
      left
      rw [accumulateVariant, isDiscarded_edit at_, Bool.and_eq_true] at gone
      exact gone.1
    | discardVariant item variant =>
      rw [accumulateVariant, isDiscarded_discard at_, Bool.or_eq_true, beq_iff_eq] at gone
      rcases gone with old | rfl
      · exact .inl old
      · exact .inr ⟨item, rfl, at_⟩
    | _ => cases at_
  · left
    rwa [(agreeAt_accumulate at_).isDiscarded] at gone

def NoneDiscarded (h : Hashing) (state : VariantProjectionState) {α : Type} [VariantRow α]
    (rows : List α) : Prop := ∀ a ∈ rows, isRowDiscarded h state a = false

theorem NoneDiscarded.accumulate {α : Type} [VariantRow α] {rows : List α} {op : RefinementOp}
    (kept : NoneDiscarded h state rows)
    (spares : ∀ item variant path, op = .discardVariant item variant → itemPath item = some path →
      NoneHas h path variant rows) :
    NoneDiscarded h (accumulateVariant h original state op) rows := by
  intro a mem
  rw [isRowDiscarded, Bool.eq_false_iff]
  intro gone
  rcases isDiscarded_accumulate gone with old | ⟨item, rfl, at_⟩
  · have live := kept a mem
    rw [isRowDiscarded, old] at live
    cases live
  · have absent := spares item _ _ rfl at_ a mem
    simp [isVersion] at absent

theorem noneDiscarded_of_spared {ops : List RefinementOp}
    (spared : ∀ op ∈ ops, SparesHost h original op) :
    EachContent (NoneDiscarded h (buildVariantState h original ops)) original := by
  induction ops using List.reverseRecOn with
  | nil => exact ⟨fun _ _ => rfl, fun _ _ => rfl, fun _ _ => rfl⟩
  | append_singleton ops op ih =>
    have before := ih fun op mem => spared op (List.mem_append_left _ mem)
    have last := spared op (List.mem_append_right _ List.mem_cons_self)
    rw [buildVariantState_append, List.foldl_cons, List.foldl_nil]
    refine ⟨before.configFiles.accumulate ?_, before.dropIns.accumulate ?_,
      before.quadletUnits.accumulate ?_⟩
    · rintro item variant path rfl at_
      exact (last path at_).configFiles
    · rintro item variant path rfl at_
      exact (last path at_).dropIns
    · rintro item variant path rfl at_
      exact (last path at_).quadletUnits

theorem showsAll_materialized (hashed : WellHashed h state) {α : Type} [VariantRow α]
    {rows rows' : List α} (frame : List.Forall₂ Redecided rows rows')
    (kept : NoneDiscarded h state rows) :
    ShowsAll rows ((materializeRows h state rows').map clampLocked) := by
  have same : List.Forall₂ SameFile rows rows' := frame.imp fun _ _ ab => ab.sameFile
  have all_kept : keptRows h state rows' = rows' := by
    rw [keptRows, List.filter_eq_self]
    intro b mem
    obtain ⟨a, ha, ab⟩ := mem_related same mem
    have live := kept a ha
    rw [isRowDiscarded, ← ab.path, ab.rowHash] at live
    rw [isRowDiscarded, live, Bool.not_false]
  have shown : shownRows h state rows' = rows' ++ gained h state rows' := by
    rw [shownRows, all_kept]
  have whole : materializeRows h state rows' =
      rows'.map ((contentRule h).settle state (shownRows h state rows')) ++
        (gained h state rows').map ((contentRule h).settle state (shownRows h state rows')) := by
    rw [materializeRows_eq hashed, ← List.map_append]
    exact congrArg (List.map _) shown
  have len : rows.length = (rows'.map ((contentRule h).settle state
      (shownRows h state rows'))).length := by rw [List.length_map, frame.length_eq]
  rw [ShowsAll, ← List.map_take, whole, len, List.take_left, List.map_map,
    List.forall₂_map_right_iff]
  refine same.imp fun a b ab => ?_
  obtain ⟨mark, marked⟩ := settle_reselected h state (shownRows h state rows') b
  have clamped := clampLocked_sameFile ((contentRule h).settle state (shownRows h state rows') b)
  rw [Function.comp_apply, clamped.path, clamped.content, marked, VariantRow.path_select,
    VariantRow.content_select]
  exact ⟨ab.path, ab.content⟩

theorem compose_kept (rows : List ComposeFile) (e : ComposeFile) :
    (fun e : ComposeFile => (e.path, e.images, e.rawContent))
      (clampLocked ((composeRule h).settle state rows e)) = (e.path, e.images, e.rawContent) := by
  unfold clampLocked SelectRule.settle SelectRule.mark SelectRule.choose composeRule
  dsimp only
  repeat' split
  all_goals rfl

theorem item_kept (rows : List NonRpmItem) (e : NonRpmItem) :
    (fun e : NonRpmItem => (e.path, e.name, e.method, e.version, e.content))
      (clampLocked ((languageEnvRule h).settle state rows e)) =
        (e.path, e.name, e.method, e.version, e.content) := by
  obtain ⟨d, settled⟩ := languageEnv_settle h state rows e
  rw [settled]
  unfold clampLocked
  split <;> rfl

theorem unmanaged_kept (rows : List UnmanagedFile) (e : UnmanagedFile) :
    (fun e : UnmanagedFile => (e.path, e.contentHash)) (unmanagedRule.settle state rows e) =
      (e.path, e.contentHash) := by
  unfold SelectRule.settle SelectRule.mark SelectRule.choose unmanagedRule
  dsimp only
  repeat' split
  all_goals rfl

theorem hostEntriesShown_projected {index : RepoIndex} {active : List TimelineEntry}
    (spared : ∀ op ∈ timelineOps active, SparesHost h original op) :
    HostEntriesShown original (projectSnapshot h original index active) := by
  have hashed : WellHashed h (buildVariantState h original (timelineOps active)) :=
    buildVariantState_wellHashed _
  have kept := noneDiscarded_of_spared spared
  have frame := @replay_frame original index (timelineOps active)
  unfold projectSnapshot
  constructor
  · rw [configFiles_finishProjection]
    exact showsAll_materialized hashed frame.configFiles kept.configFiles
  · rw [dropIns_finishProjection]
    exact showsAll_materialized hashed frame.dropIns kept.dropIns
  · rw [quadletUnits_finishProjection]
    exact showsAll_materialized hashed frame.quadletUnits kept.quadletUnits
  · rw [composeFiles_finishProjection, selectVariants_eq (composeRule_lawful h), List.map_map,
      List.map_map, frame.composeFiles]
    exact List.map_congr_left fun e _ => compose_kept _ e
  · rw [nonRpmItems_finishProjection, selectVariants_eq (languageEnvRule_lawful h), List.map_map,
      List.map_map]
    have repinned := rows_related NonRpmSoftwareSection.items (fun _ _ inner => inner.items)
      frame.nonRpmSoftware
    refine map_related (repinned.imp fun a b ab => ?_)
    obtain ⟨packages, rfl⟩ := ab
    exact item_kept _ _
  · rw [unmanagedItems_finishProjection, selectVariants_eq unmanagedRule_lawful, List.map_map]
    have same : unmanagedItems (replay original index (timelineOps active)) =
        unmanagedItems original := by
      unfold unmanagedItems
      rw [frame.rest]
    rw [same]
    exact List.map_congr_left fun e _ => unmanaged_kept _ e

end Scanned

section Session

theorem KeptElsewhere.refl (kind : VariantKind) (a : InspectionSnapshot) : KeptElsewhere kind a a where
  configFiles _ := List.Perm.refl _
  dropIns _ := List.Perm.refl _
  quadletUnits _ := List.Perm.refl _
  composeFiles _ := rfl
  items := rfl
  unmanagedFiles _ := rfl
  rest := rfl

theorem variantPath_of_kind {op : RefinementOp} {kind : VariantKind}
    (about : op.variantKind = some kind) : ∃ path, op.variantPath = some path := by
  cases op with
  | selectVariant item target => cases item <;> first | exact ⟨_, rfl⟩ | cases about
  | editVariant item content basedOn => cases item <;> first | exact ⟨_, rfl⟩ | cases about
  | discardVariant item variant => cases item <;> first | exact ⟨_, rfl⟩ | cases about
  | _ => cases about

variable {env : Env} {s : RefineSession}

theorem keptElsewhere_apply {op : RefinementOp} {kind : VariantKind} {disk : Disk}
    (about : op.variantKind = some kind)
    (inside : (s.apply env disk op).result = .ok () → StaysInside env.toHashing s op) :
    KeptElsewhere kind (s.projected env.toHashing)
      ((s.apply env disk op).session.projected env.toHashing) := by
  obtain ⟨path, at_⟩ := variantPath_of_kind about
  rcases apply_cases env disk s op with same | ⟨ok, _, _, recorded⟩
  · rw [same]
    exact KeptElsewhere.refl kind _
  · have hashed : WellHashed env.toHashing
        (buildVariantState env.toHashing s.original s.activeOps) := buildVariantState_wellHashed _
    have kept := keptElsewhere_finished hashed at_ ((inside ok).others kind path about at_)
    rw [recorded, projected_record, projectSnapshot, timelineOps_append, timelineOps_singleton]
    change KeptElsewhere kind _ (finishProjection env.toHashing s.original
      (buildVariantState env.toHashing s.original (s.activeOps ++ [op]))
      (replay s.original s.repoIndex (s.activeOps ++ [op])))
    rw [replay_variant at_, buildVariantState_append]
    exact kept

end Session

/-- Operations that stay inside their items lose no scanned entry and change none of another
    kind. -/
theorem variant_ops_stay_inside (env : Env) (start : RefineSession)
    (spared : ∀ op ∈ timelineOps start.history.entries,
      SparesHost env.toHashing start.original op) (moves : List Moved)
    (inside : Along (play env) (Fits env (StaysInside env.toHashing)) start moves) :
    (∀ s ∈ visited (play env) start moves,
      HostEntriesShown s.original (s.projected env.toHashing)) ∧
    Along (play env) (fun s moved => ∀ op kind, moved.2 = .apply op → op.variantKind = some kind →
      KeptElsewhere kind (s.projected env.toHashing)
        ((play env moved s).projected env.toHashing)) start moves := by
  constructor
  · have begun : EveryPrefix (fun ops => ∀ op ∈ ops, SparesHost env.toHashing start.original op)
        start start := by
      refine ⟨rfl, rfl, fun before split op mem => spared op ?_⟩
      obtain ⟨after, whole⟩ := split
      rw [← whole, timelineOps_append]
      exact List.mem_append_left _ mem
    have run := run_prefixes (fun s op every _ _ inside => ?_) begun inside
    · intro s mem
      have every := run s mem
      apply hostEntriesShown_projected
      rw [every.original]
      exact every.active
    · intro other mem
      rcases List.mem_append.mp mem with old | new
      · exact every.active other old
      · rw [List.mem_singleton.mp new, ← every.original]
        exact inside.spares
  · refine inside.imp fun s moved fits op kind applied about => ?_
    obtain ⟨disk, move⟩ := moved
    cases applied
    exact keptElsewhere_apply about fun accepted => fits op rfl accepted

theorem variant_ops_stay_inside_one_rewrite :
    (∀ s ∈ visited (play letterEnv) (RefineSession.new letterEnv sampleDisk soleFile)
        [rewriteA "b", discardA "b"], HostEntriesShown s.original (s.projected letterHashing)) ∧
      Along (play letterEnv) (fun s moved => ∀ op kind, moved.2 = .apply op →
        op.variantKind = some kind → KeptElsewhere kind (s.projected letterHashing)
          ((play letterEnv moved s).projected letterHashing))
        (RefineSession.new letterEnv sampleDisk soleFile) [rewriteA "b", discardA "b"] := by
  refine variant_ops_stay_inside letterEnv (RefineSession.new letterEnv sampleDisk soleFile) nofun
    [rewriteA "b", discardA "b"] ⟨?_, ?_, trivial⟩
  · intro op same _
    cases same
    refine ⟨fun kind path about at_ => ?_, trivial⟩
    cases about
    cases at_
    exact ⟨fun other => absurd rfl other, fun _ => rowsStand_nil rfl, fun _ => rowsStand_nil rfl,
      fun _ => marksStand_nil rfl, marksStand_nil rfl, fun _ => marksStand_nil rfl⟩
  · intro op same _
    cases same
    refine ⟨fun kind path about at_ => ?_, fun path at_ => ?_⟩
    · cases about
      cases at_
      exact ⟨fun other => absurd rfl other, fun _ => rowsStand_nil rfl, fun _ => rowsStand_nil rfl,
        fun _ => marksStand_nil rfl, marksStand_nil rfl, fun _ => marksStand_nil rfl⟩
    · cases at_
      exact ⟨by unfold NoneHas; decide, by unfold NoneHas; decide, by unfold NoneHas; decide⟩

/-- A drop-in that the file collector found as well. -/
def sharedPath : InspectionSnapshot :=
  { config := some
      { files := [{ path := "/etc/systemd/system/web.service.d/a.conf", content := "a" }] }
    services := some
      { dropIns := [{ path := "/etc/systemd/system/web.service.d/a.conf", content := "a" }] } }

def rewriteShared : RefinementOp :=
  .editVariant (.config "/etc/systemd/system/web.service.d/a.conf") "b" none

/-- Rewriting the configuration file adds a drop-in. -/
theorem config_rewrite_adds_dropIn :
    Reachable letterEnv (RefineSession.new letterEnv sampleDisk sharedPath) ∧
      ((RefineSession.new letterEnv sampleDisk sharedPath).apply letterEnv sampleDisk
        rewriteShared).result = .ok () ∧
      ¬ KeptElsewhere .config
        ((RefineSession.new letterEnv sampleDisk sharedPath).projected letterHashing)
        (((RefineSession.new letterEnv sampleDisk sharedPath).apply letterEnv sampleDisk
          rewriteShared).session.projected letterHashing) := by
  refine ⟨.opened sampleDisk sharedPath, rfl, fun kept => ?_⟩
  have rows := (kept.dropIns nofun).length_eq
  revert rows
  decide

end Inspectah
