import Inspectah.Refine.Pending
import Inspectah.Refine.Untracked

/-!
From a quiet comparison back to the projection. When the comparison finds
nothing and the operations leave what it does not look at as it was, the
projection is the one without operations.
-/
namespace Inspectah

open FirstMatch Observation

section Versions

variable (h : Hashing) {α : Type} [VariantRow α]

structure SameVersion (a b : α) : Prop where
  path : VariantRow.path b = VariantRow.path a
  hash : rowHash h b = rowHash h a
  selection : VariantRow.selection b = VariantRow.selection a

variable {h}

theorem Redecided.sameVersion {a b : α} (ab : Redecided a b) : SameVersion h a b := by
  obtain ⟨d, rfl, _⟩ := ab
  exact ⟨VariantRow.path_decide d a, rowHash_decide h d a, VariantRow.selection_decide d a⟩

theorem clampLocked_sameVersion (a : α) : SameVersion h (clampLocked a) a := by
  unfold clampLocked
  split
  · exact ⟨(VariantRow.path_decide _ a).symm, (rowHash_decide h _ a).symm,
      (VariantRow.selection_decide _ a).symm⟩
  · exact ⟨rfl, rfl, rfl⟩

theorem sameVariant_congr {a a' b b' : α} (aa : SameVersion h a a') (bb : SameVersion h b b') :
    sameVariant h a b = sameVariant h a' b' := by
  unfold sameVariant
  rw [aa.path, aa.hash, bb.path, bb.hash]

theorem changedVariants_congr {orig orig' proj proj' : List α}
    (origs : List.Forall₂ (SameVersion h) orig orig')
    (projs : List.Forall₂ (SameVersion h) proj proj') :
    changedVariants h orig proj = changedVariants h orig' proj' := by
  refine congrArg₂ (· + ·) (countP_related _ _ _ (fun a a' aa => ?_) origs)
    (countP_related _ _ _ (fun b b' bb => ?_) projs)
  · have found := find_related (SameVersion h) (sameVariant h a) (sameVariant h a')
      (fun b b' bb => sameVariant_congr aa bb) projs
    unfold selectionChanged
    generalize proj.find? (sameVariant h a) = x at found ⊢
    generalize proj'.find? (sameVariant h a') = y at found ⊢
    cases found with
    | none => rfl
    | some bb => simp only [bb.selection, aa.selection]
  · unfold isNewVariant
    rw [any_related (SameVersion h) (sameVariant h b) (sameVariant h b')
      (fun a a' aa => sameVariant_congr bb aa) origs, bb.selection]

theorem materialized_quiet {state : VariantProjectionState} (hashed : WellHashed h state)
    {rows rows' : List α} (rel : List.Forall₂ Redecided rows rows')
    (quiet : changedVariants h rows ((materializeRows h state rows').map clampLocked) = 0) :
    materializeRows h state rows' = rows' := by
  apply materializeRows_quiet h hashed
  rw [← quiet]
  have origs : List.Forall₂ (SameVersion h) rows rows' := rel.imp fun _ _ ab => ab.sameVersion
  have projs : List.Forall₂ (SameVersion h) ((materializeRows h state rows').map clampLocked)
      (materializeRows h state rows') :=
    List.forall₂_map_left_iff.mpr (List.forall₂_same.mpr fun a _ => clampLocked_sameVersion a)
  exact (changedVariants_congr origs projs).symm

end Versions

section Compose

variable (h : Hashing) (state : VariantProjectionState)

def composeKey (e : ComposeFile) : ContentHash := ⟨e.contentVariantKey h⟩

def selectCompose (s : VariantSelection) (e : ComposeFile) : ComposeFile :=
  { e with variantSelection := s }

theorem composeRule_marks : (composeRule h).Marks selectCompose (composeKey h) where
  eligible _ := rfl
  hash _ := rfl
  sole _ := rfl
  chosen _ := rfl
  other _ := rfl
  path_mark _ _ := rfl
  key_mark _ _ := rfl
  mark_mark _ _ _ := rfl

variable {h state}

theorem composeKey_beq (a e : ComposeFile) : (composeKey h e == composeKey h a) =
    (e.contentVariantKey h == a.contentVariantKey h) := by
  rw [Bool.eq_iff_iff, beq_iff_eq, beq_iff_eq]
  exact ⟨ContentHash.mk.inj, congrArg ContentHash.mk⟩

theorem composeRows_quiet {rows : List ComposeFile} (quiet : rows.countP (composeSelectionChanged h
      ((selectVariants (composeRule h) state h.order rows).map clampLocked)) = 0) :
    selectVariants (composeRule h) state h.order rows = rows := by
  obtain ⟨verdict, marked⟩ := selectVariants_remarks state (composeRule_marks h) h.order rows
  rw [marked] at quiet ⊢
  refine remark_kept (composeRule_marks h) (·.variantSelection) (fun _ _ => rfl) (fun _ => rfl) ?_
  intro a mem
  have kept := List.countP_eq_zero.mp quiet a mem
  unfold composeSelectionChanged at kept
  rw [List.find?_map] at kept
  -- The clamp keeps what a compose file is found by, and its selection.
  have found_by : ((fun e : ComposeFile => e.path == a.path &&
      e.contentVariantKey h == a.contentVariantKey h) ∘ clampLocked) =
      fun e => (composeRule h).path e == (composeRule h).path a &&
        composeKey h e == composeKey h a := by
    funext e
    rw [composeKey_beq, Function.comp_apply]
    unfold clampLocked
    split <;> rfl
  rw [found_by] at kept
  cases found : (rows.map (remark (composeRule h) selectCompose (composeKey h) verdict)).find?
      fun e => (composeRule h).path e == (composeRule h).path a &&
        composeKey h e == composeKey h a with
  | none => simp [found] at kept
  | some m =>
    refine ⟨m, rfl, ?_⟩
    have selection : (clampLocked m).variantSelection = m.variantSelection := by
      unfold clampLocked
      split <;> rfl
    simpa [found, selection] using kept

end Compose

section Snapshot

variable {h : Hashing} {state : VariantProjectionState} {o x : InspectionSnapshot}

structure Inert (h : Hashing) (state : VariantProjectionState) (x : InspectionSnapshot) : Prop where
  configs : materializeRows h state x.configFiles = x.configFiles
  dropIns : materializeRows h state x.dropIns = x.dropIns
  quadlets : materializeRows h state x.quadletUnits = x.quadletUnits
  compose : ∀ c, x.containers = some c →
    selectVariants (composeRule h) state h.order c.composeFiles = c.composeFiles
  environments : ∀ n, x.nonRpmSoftware = some n →
    selectVariants (languageEnvRule h) state h.order n.items = n.items
  unmanaged : ∀ u, x.unmanagedFiles = some u →
    selectVariants unmanagedRule state h.order u.items = u.items

theorem section_kept {σ : Type} {sec : Option σ} {f : σ → σ} (kept : ∀ s, sec = some s → f s = s) :
    sec.map f = sec := by
  cases sec with
  | none => rfl
  | some s => rw [Option.map_some, kept s rfl]

theorem Inert.materializeVariants (inert : Inert h state x) : materializeVariants h state x = x := by
  have config : x.config.map (fun c => { c with files := materializeRows h state c.files }) =
      x.config := section_kept fun c sec => by
    have rows := inert.configs
    rw [InspectionSnapshot.configFiles, sec] at rows
    exact congrArg (fun files => { c with files := files }) rows
  have services : x.services.map (fun s => { s with dropIns := materializeRows h state s.dropIns }) =
      x.services := section_kept fun s sec => by
    have rows := inert.dropIns
    rw [InspectionSnapshot.dropIns, sec] at rows
    exact congrArg (fun dropIns => { s with dropIns := dropIns }) rows
  have containers : x.containers.map (materializeContainers h state) = x.containers :=
    section_kept fun c sec => by
      have rows := inert.quadlets
      rw [InspectionSnapshot.quadletUnits, sec] at rows
      change materializeRows h state c.quadletUnits = c.quadletUnits at rows
      rw [materializeContainers, rows, inert.compose c sec]
  have environments : x.nonRpmSoftware.map (fun n =>
      { n with items := selectVariants (languageEnvRule h) state h.order n.items }) =
        x.nonRpmSoftware :=
    section_kept fun n sec => by rw [inert.environments n sec]
  have unmanaged : x.unmanagedFiles.map (fun u =>
      { u with items := selectVariants unmanagedRule state h.order u.items }) = x.unmanagedFiles :=
    section_kept fun u sec => by rw [inert.unmanaged u sec]
  rw [materializeVariants_eq, config, services, containers, environments, unmanaged]

theorem isSome_related {σ : Type} {R : σ → σ → Prop} {a b : Option σ} (rel : Option.Rel R a b) :
    b.isSome = a.isSome := by
  cases rel <;> rfl

theorem configVariants_rows {o p : InspectionSnapshot} (both : p.config.isSome = o.config.isSome) :
    configVariantsChanged h o p = changedVariants h o.configFiles p.configFiles := by
  unfold configVariantsChanged InspectionSnapshot.configFiles
  revert both
  cases p.config <;> cases o.config <;> intro both <;> first | rfl | cases both

theorem dropinVariants_rows {o p : InspectionSnapshot}
    (both : p.services.isSome = o.services.isSome) :
    dropinVariantsChanged h o p = changedVariants h o.dropIns p.dropIns := by
  unfold dropinVariantsChanged InspectionSnapshot.dropIns
  revert both
  cases p.services <;> cases o.services <;> intro both <;> first | rfl | cases both

def composeFiles (snap : InspectionSnapshot) : List ComposeFile :=
  (snap.containers.map (·.composeFiles)).getD []

theorem containerVariants_rows {o p : InspectionSnapshot}
    (both : p.containers.isSome = o.containers.isSome) : containerVariantsChanged h o p =
      changedVariants h o.quadletUnits p.quadletUnits +
        (composeFiles o).countP (composeSelectionChanged h (composeFiles p)) := by
  unfold containerVariantsChanged InspectionSnapshot.quadletUnits composeFiles
  revert both
  cases p.containers <;> cases o.containers <;> intro both <;> first | rfl | cases both

theorem composeFiles_finishProjection : composeFiles (finishProjection h o state x) =
    (selectVariants (composeRule h) state h.order (composeFiles x)).map clampLocked := by
  obtain ⟨_, _, finished⟩ := finishProjection_eq h o state x
  rw [finished]
  refine rows_finish ContainerSection.composeFiles
    (fun rows => (selectVariants (composeRule h) state h.order rows).map clampLocked) ?_
    (fun _ => rfl) x.containers
  obtain ⟨verdict, marked⟩ := selectVariants_remarks state (composeRule_marks h) h.order []
  rw [marked]
  rfl

theorem ReplayFrame.composeFiles (frame : ReplayFrame o x) :
    composeFiles x = Inspectah.composeFiles o := by
  unfold Inspectah.composeFiles
  have rel := frame.containers
  generalize o.containers = a at rel ⊢
  generalize x.containers = b at rel ⊢
  cases rel with
  | none => rfl
  | some inner => rw [Option.map_some, Option.map_some, inner.rest]

theorem variantsChanged_eq (frame : ReplayFrame o x) :
    variantsChanged h o (finishProjection h o state x) =
      changedVariants h o.configFiles ((materializeRows h state x.configFiles).map clampLocked) +
      changedVariants h o.dropIns ((materializeRows h state x.dropIns).map clampLocked) +
      (changedVariants h o.quadletUnits ((materializeRows h state x.quadletUnits).map clampLocked) +
        (composeFiles x).countP (composeSelectionChanged h
          ((selectVariants (composeRule h) state h.order (composeFiles x)).map clampLocked))) := by
  obtain ⟨_, _, finished⟩ := finishProjection_eq h o state x
  have config : (finishProjection h o state x).config.isSome = o.config.isSome := by
    rw [finished, Option.isSome_map, isSome_related frame.config]
  have services : (finishProjection h o state x).services.isSome = o.services.isSome := by
    rw [finished, Option.isSome_map, isSome_related frame.services]
  have containers : (finishProjection h o state x).containers.isSome = o.containers.isSome := by
    rw [finished, Option.isSome_map, isSome_related frame.containers]
  unfold variantsChanged
  rw [configVariants_rows config, dropinVariants_rows services, containerVariants_rows containers,
    configFiles_finishProjection, dropIns_finishProjection, quadletUnits_finishProjection,
    composeFiles_finishProjection, frame.composeFiles]

end Snapshot

section Clamped

variable {α : Type} [LockableRow α] {a b : α}

theorem Redecided.clamped (ab : Redecided a b) (act : (FindingRow.disposition a).isActionable)
    (same : (FindingRow.disposition a).isIncluded =
      (FindingRow.disposition (clampLocked b)).isIncluded) : clampLocked b = clampLocked a := by
  obtain ⟨d, rfl, open_⟩ := ab
  cases locked : LockableRow.locked a with
  | true =>
    have locked' : LockableRow.locked (FindingRow.decide d a) = true := by
      rw [LockableRow.locked_decide, locked]
    rw [clampLocked, clampLocked, if_pos locked, if_pos locked', FindingRow.decide_decide]
  | false =>
    have unlocked : LockableRow.locked (FindingRow.decide d a) = false := by
      rw [LockableRow.locked_decide, locked]
    rw [clampLocked_of_unlocked unlocked, FindingRow.disposition_decide] at same
    have decided := FindingKind.eq_of_isIncluded act (open_ act) same
    rw [← decided, FindingRow.decide_disposition]

theorem Reconsidered.clamped (ab : Reconsidered a b)
    (same : (FindingRow.disposition a).isIncluded =
      (FindingRow.disposition (clampLocked b)).isIncluded) : clampLocked b = clampLocked a := by
  rcases ab with rfl | ⟨act, incl, rfl⟩
  · rfl
  · exact ((Redecided.refl a).decideBool incl).clamped act same

theorem clamped_of_sameInclusion {R : α → α → Prop} {shown : α → α}
    (settles : ∀ a b, R a b → (FindingRow.disposition a).isIncluded =
      (FindingRow.disposition (shown b)).isIncluded → clampLocked b = clampLocked a)
    {rows rows' : List α} (rel : List.Forall₂ R rows rows')
    (same : SameInclusion rows (rows'.map shown)) :
    rows'.map clampLocked = rows.map clampLocked := by
  induction rel with
  | nil => rfl
  | cons head tail ih =>
    rename_i a b as bs
    have here := settles a b head (same (a, shown b) List.mem_cons_self)
    have later := ih fun pair mem => same pair (List.mem_cons_of_mem _ mem)
    exact congrArg₂ List.cons here later

end Clamped

section Projection

variable {h : Hashing} {state : VariantProjectionState} {o x : InspectionSnapshot}

theorem clampLockedItems_congr (frame : ReplayFrame o x) (rest : untracked x = untracked o)
    (packages : (rpmPackages x).map clampLocked = (rpmPackages o).map clampLocked)
    (configs : x.configFiles.map clampLocked = o.configFiles.map clampLocked) :
    clampLockedItems x = clampLockedItems o := by
  have rpm : x.rpm.map clampRpm = o.rpm.map clampRpm := by
    have bare : (untracked x).rpm = (untracked o).rpm := by rw [rest]
    change x.rpm.map untrackedRpm = o.rpm.map untrackedRpm at bare
    have whole : ∀ r, clampRpm r =
        { untrackedRpm r with packagesAdded := r.packagesAdded.map clampLocked } := fun _ => rfl
    unfold rpmPackages at packages
    cases hx : x.rpm with
    | none =>
      cases ho : o.rpm with
      | none => rfl
      | some r => simp [hx, ho] at bare
    | some r =>
      cases ho : o.rpm with
      | none => simp [hx, ho] at bare
      | some r' =>
        simp only [hx, ho, Option.map_some, Option.some.injEq] at bare
        simp only [hx, ho, Option.map_some, Option.getD_some] at packages
        rw [Option.map_some, Option.map_some, whole, whole, bare, packages]
  have config : x.config.map (fun c => { c with files := c.files.map clampLocked }) =
      o.config.map fun c => { c with files := c.files.map clampLocked } := by
    have both := isSome_related frame.config
    unfold InspectionSnapshot.configFiles at configs
    revert configs both
    cases x.config with
    | none => cases o.config <;> intro _ both <;> first | rfl | cases both
    | some c =>
      cases o.config with
      | none => intro _ both; cases both
      | some c' => exact fun configs _ => congrArg (fun files => some (ConfigSection.mk files)) configs
  have whole : ∀ y, clampLockedItems y =
      { untracked y with
        rpm := y.rpm.map clampRpm
        config := y.config.map fun c => { c with files := c.files.map clampLocked } } := fun _ => rfl
  rw [whole, whole, rest, rpm, config]

theorem clampLockedItems_raise :
    clampLockedItems (raiseSensitivity o x) = raiseSensitivity o (clampLockedItems x) := by
  have users : hasNewPassword (clampLockedItems x) = hasNewPassword x := rfl
  unfold raiseSensitivity
  rw [users]
  split <;> rfl

theorem finishProjection_congr (inert : Inert h state x)
    (same : clampLockedItems x = clampLockedItems o) :
    finishProjection h o state x = finishProjection h o {} o := by
  have nothing : materializeVariants h {} o = o := if_pos rfl
  unfold finishProjection
  rw [inert.materializeVariants, nothing, clampLockedItems_raise, clampLockedItems_raise, same]

end Projection

end Inspectah
