import Inspectah.Refine.VariantLaws

/-!
The variant state after an operation, read path by path. An operation reaches its item's path
alone.
-/
namespace Inspectah

section Reads

variable {state : VariantProjectionState} {path : String}

theorem mem_affectedPaths : path ∈ state.affectedPaths ↔
    path ∈ state.userVariants ∨ path ∈ state.discarded ∨ path ∈ state.selected := by
  simp only [VariantProjectionState.affectedPaths, List.mem_dedup, List.mem_append, or_assoc]
  rfl

def RefinementOp.variantPath : RefinementOp → Option String
  | .selectVariant item _ => itemPath item
  | .editVariant item _ _ => itemPath item
  | .discardVariant item _ => itemPath item
  | _ => none

structure AgreeAt (path : String) (a b : VariantProjectionState) : Prop where
  userVariants : a.userVariants.lookup path = b.userVariants.lookup path
  discarded : a.discarded.lookup path = b.discarded.lookup path
  selected : a.selected.lookup path = b.selected.lookup path
  affected : path ∈ a.affectedPaths ↔ path ∈ b.affectedPaths

theorem AgreeAt.refl (path : String) (a : VariantProjectionState) : AgreeAt path a a :=
  ⟨rfl, rfl, rfl, Iff.rfl⟩

theorem AgreeAt.isDiscarded {a b : VariantProjectionState} (agree : AgreeAt path a b)
    (hash : ContentHash) : a.isDiscarded path hash = b.isDiscarded path hash := by
  rw [VariantProjectionState.isDiscarded, agree.discarded, VariantProjectionState.isDiscarded]

theorem agreeAt_of_lookups {a b : VariantProjectionState}
    (user : a.userVariants.lookup path = b.userVariants.lookup path)
    (discarded : a.discarded.lookup path = b.discarded.lookup path)
    (selected : a.selected.lookup path = b.selected.lookup path) : AgreeAt path a b := by
  refine ⟨user, discarded, selected, ?_⟩
  simp only [mem_affectedPaths, ← AList.lookup_isSome, user, discarded, selected]

theorem isUserVariant_iff {hash : ContentHash} :
    state.isUserVariant path hash = true ↔ ∃ variants, state.userVariants.lookup path = some variants ∧
      ∃ v ∈ variants.entries, v.1 = hash := by
  unfold VariantProjectionState.isUserVariant
  cases known : state.userVariants.lookup path with
  | none => simp
  | some variants =>
    simp only [Option.map_some, Option.getD_some, AList.lookup_isSome, Option.some.injEq,
      exists_eq_left']
    exact List.mem_map

end Reads

section Accumulate

variable {h : Hashing} {snap : InspectionSnapshot} {state : VariantProjectionState}

/-- An operation says nothing about a path that is not its own. -/
theorem agreeAt_accumulate {op : RefinementOp} {path : String}
    (away : op.variantPath ≠ some path) :
    AgreeAt path (accumulateVariant h snap state op) state := by
  cases op with
  | selectVariant item target =>
    change AgreeAt path (applySelect state item target) state
    unfold applySelect
    cases at_ : itemPath item with
    | none => exact AgreeAt.refl path state
    | some p =>
      have ne : path ≠ p := fun same => away (by rw [RefinementOp.variantPath, at_, same])
      exact agreeAt_of_lookups rfl rfl (AList.lookup_insert_ne ne)
  | editVariant item content basedOn =>
    change AgreeAt path (applyEdit h snap state item content) state
    unfold applyEdit
    cases at_ : itemPath item with
    | none => exact AgreeAt.refl path state
    | some p =>
      have ne : path ≠ p := fun same => away (by rw [RefinementOp.variantPath, at_, same])
      dsimp only
      split
      · exact agreeAt_of_lookups rfl rfl (AList.lookup_insert_ne ne)
      · refine agreeAt_of_lookups (AList.lookup_insert_ne ne) ?_ (AList.lookup_insert_ne ne)
        cases state.discarded.lookup p with
        | none => rfl
        | some disc => exact AList.lookup_insert_ne ne
  | discardVariant item variant =>
    change AgreeAt path (applyDiscard state item variant) state
    unfold applyDiscard
    cases at_ : itemPath item with
    | none => exact AgreeAt.refl path state
    | some p =>
      have ne : path ≠ p := fun same => away (by rw [RefinementOp.variantPath, at_, same])
      refine agreeAt_of_lookups ?_ (AList.lookup_insert_ne ne) ?_
      · dsimp only
        cases state.userVariants.lookup p with
        | none => rfl
        | some variants => exact AList.lookup_insert_ne ne
      · dsimp only
        split
        · exact AList.lookup_erase_ne ne
        · rfl
  | _ => exact AgreeAt.refl path state

/-- Whether an edit only selects a version that is there already. -/
def converges (h : Hashing) (snap : InspectionSnapshot) (state : VariantProjectionState)
    (item : ItemId) (path : String) (hash : ContentHash) : Bool :=
  isHostVariant h snap item path hash || state.isUserVariant path hash

variable {item : ItemId} {path : String}

theorem selected_select (at_ : itemPath item = some path) (target : ContentHash) :
    (applySelect state item target).selected.lookup path = some target := by
  rw [applySelect, at_]
  exact AList.lookup_insert _

theorem selected_edit (at_ : itemPath item = some path) (content : String) :
    (applyEdit h snap state item content).selected.lookup path = some (h.ofContent content) := by
  rw [applyEdit, at_]
  dsimp only
  split <;> exact AList.lookup_insert _

theorem selected_discard (at_ : itemPath item = some path) (variant : ContentHash) :
    (applyDiscard state item variant).selected.lookup path =
      if state.selected.lookup path = some variant then none else state.selected.lookup path := by
  rw [applyDiscard, at_]
  dsimp only
  split
  · exact AList.lookup_erase path state.selected
  · rfl

theorem isUserVariant_edit (at_ : itemPath item = some path) (content : String)
    (hash : ContentHash) :
    (applyEdit h snap state item content).isUserVariant path hash =
      (state.isUserVariant path hash ||
        (!converges h snap state item path (h.ofContent content) &&
          hash == h.ofContent content)) := by
  rw [applyEdit, at_]
  dsimp only
  unfold converges
  split
  · rename_i there
    rw [there]
    simp [VariantProjectionState.isUserVariant]
  · rename_i new
    rw [Bool.not_eq_true] at new
    rw [new]
    unfold VariantProjectionState.isUserVariant
    rw [AList.lookup_insert]
    by_cases same : hash = h.ofContent content
    · subst same
      simp [AList.lookup_insert]
    · have away := beq_eq_false_iff_ne.mpr same
      cases state.userVariants.lookup path with
      | none =>
        simp only [Option.getD_none, Option.map_some, Option.getD_some,
          AList.lookup_insert_ne same]
        simp [away]
      | some variants => simp [away, AList.lookup_insert_ne same]

theorem isUserVariant_discard (at_ : itemPath item = some path) (variant hash : ContentHash) :
    (applyDiscard state item variant).isUserVariant path hash =
      (state.isUserVariant path hash && hash != variant) := by
  rw [applyDiscard, at_]
  unfold VariantProjectionState.isUserVariant
  dsimp only
  cases known : state.userVariants.lookup path with
  | none => simp [known]
  | some variants =>
    dsimp only
    rw [AList.lookup_insert]
    by_cases same : hash = variant
    · subst same
      simp [AList.lookup_erase]
    · simp [bne_iff_ne.mpr same, AList.lookup_erase_ne same]

theorem isDiscarded_edit (at_ : itemPath item = some path) (content : String)
    (hash : ContentHash) :
    (applyEdit h snap state item content).isDiscarded path hash =
      (state.isDiscarded path hash &&
        (converges h snap state item path (h.ofContent content) ||
          hash != h.ofContent content)) := by
  rw [applyEdit, at_]
  dsimp only
  unfold converges
  split
  · rename_i there
    simp [there, VariantProjectionState.isDiscarded]
  · rename_i new
    rw [Bool.not_eq_true] at new
    rw [new]
    unfold VariantProjectionState.isDiscarded
    dsimp only
    cases known : state.discarded.lookup path with
    | none => simp [known]
    | some disc =>
      dsimp only
      rw [AList.lookup_insert]
      by_cases same : hash = h.ofContent content <;> simp [same]

theorem isDiscarded_discard (at_ : itemPath item = some path) (variant hash : ContentHash) :
    (applyDiscard state item variant).isDiscarded path hash =
      (state.isDiscarded path hash || hash == variant) := by
  rw [applyDiscard, at_]
  unfold VariantProjectionState.isDiscarded
  dsimp only
  rw [AList.lookup_insert]
  cases known : state.discarded.lookup path with
  | none =>
    rw [Bool.eq_iff_iff]
    simp
  | some disc =>
    rw [Bool.eq_iff_iff]
    by_cases there : variant ∈ disc
    · simp only [Option.getD_some, List.contains_iff_mem, there, if_true, Option.map_some,
        Bool.or_eq_true, beq_iff_eq]
      exact ⟨.inl, fun old => old.elim id fun same => same ▸ there⟩
    · simp [there]

theorem affected_accumulate {op : RefinementOp} (at_ : op.variantPath = some path) :
    path ∈ (accumulateVariant h snap state op).affectedPaths := by
  rw [mem_affectedPaths]
  cases op with
  | selectVariant item target =>
    right; right
    rw [← AList.lookup_isSome, accumulateVariant, selected_select at_]
    rfl
  | editVariant item content basedOn =>
    right; right
    rw [← AList.lookup_isSome, accumulateVariant, selected_edit at_]
    rfl
  | discardVariant item variant =>
    right; left
    rw [accumulateVariant, applyDiscard, show itemPath item = some path from at_]
    exact AList.mem_insert _ |>.mpr (.inl rfl)
  | _ => cases at_

def StoredLive (state : VariantProjectionState) : Prop :=
  ∀ path hash, state.isUserVariant path hash = true → state.isDiscarded path hash = false

theorem isUserVariant_congr {a b : VariantProjectionState} (agree : AgreeAt path a b)
    (hash : ContentHash) : a.isUserVariant path hash = b.isUserVariant path hash := by
  rw [VariantProjectionState.isUserVariant, agree.userVariants,
    VariantProjectionState.isUserVariant]

theorem StoredLive.accumulate (live : StoredLive state) (op : RefinementOp) :
    StoredLive (accumulateVariant h snap state op) := by
  intro path hash stored
  by_cases at_ : op.variantPath = some path
  · cases op with
    | selectVariant item target =>
      have same : ∀ p : String, itemPath item = some p →
          (applySelect state item target).isUserVariant path hash =
            state.isUserVariant path hash ∧
          (applySelect state item target).isDiscarded path hash = state.isDiscarded path hash := by
        intro p known
        rw [applySelect, known]
        exact ⟨rfl, rfl⟩
      obtain ⟨user, discarded⟩ := same path at_
      rw [accumulateVariant, user] at stored
      rw [accumulateVariant, discarded]
      exact live path hash stored
    | editVariant item content basedOn =>
      rw [accumulateVariant, isUserVariant_edit at_, Bool.or_eq_true] at stored
      rw [accumulateVariant, isDiscarded_edit at_, Bool.and_eq_false_iff]
      rcases stored with old | new
      · exact .inl (live path hash old)
      · rw [Bool.and_eq_true, Bool.not_eq_true'] at new
        exact .inr (by simp [new.1, beq_iff_eq.mp new.2])
    | discardVariant item variant =>
      rw [accumulateVariant, isUserVariant_discard at_, Bool.and_eq_true] at stored
      rw [accumulateVariant, isDiscarded_discard at_, Bool.or_eq_false_iff]
      exact ⟨live path hash stored.1, by simpa using stored.2⟩
    | _ => cases at_
  · have agree : AgreeAt path (accumulateVariant h snap state op) state := agreeAt_accumulate at_
    rw [agree.isDiscarded]
    rw [isUserVariant_congr agree] at stored
    exact live path hash stored

theorem storedLive_empty : StoredLive {} := nofun

theorem buildVariantState_storedLive (ops : List RefinementOp) :
    StoredLive (buildVariantState h snap ops) := by
  have run : ∀ state, StoredLive state →
      StoredLive (ops.foldl (accumulateVariant h snap) state) := by
    induction ops with
    | nil => exact fun state live => live
    | cons op ops ih => exact fun state live => ih _ (live.accumulate op)
  exact run {} storedLive_empty

@[simp] theorem buildVariantState_append (ops more : List RefinementOp) :
    buildVariantState h snap (ops ++ more) =
      more.foldl (accumulateVariant h snap) (buildVariantState h snap ops) :=
  List.foldl_append

end Accumulate

/-- SHA-256 of four one-letter texts; the runs on fixed inputs hash no other. -/
def letterDigest (s : String) : String :=
  if s = "a" then "ca978112ca1bbdcafac231b39a23dc4da786eff8147c4e72b9807785afee48bb"
  else if s = "b" then "3e23e8160039594a33894f6564e1b1348bbd7a0088d42c4acb73eeaed59c009d"
  else if s = "c" then "2e7d2c03a9507ae265ecf5b5356885a53393a2029d241394997265a1a25aefc6"
  else if s = "d" then "18ac3e7343f016890c510e93f935261169d9e3f565436429830faf0934f4f8e4"
  else s

def letterHashing : Hashing :=
  { digest := letterDigest, imagesJson := fun _ => "[]", order := .insertion }

end Inspectah
