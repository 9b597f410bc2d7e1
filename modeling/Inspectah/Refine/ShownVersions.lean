import Inspectah.Refine.ClosedForms
import Inspectah.Refine.Frame
import Inspectah.Refine.VariantState

/-!
The rows a section shows at a path, after one more operation.
-/
namespace Inspectah

open FirstMatch KeyedFold

section Shown

variable {h : Hashing} {snap : InspectionSnapshot} {state : VariantProjectionState}
variable {α : Type} [VariantRow α] {path : String}

def hasHash (h : Hashing) (hash : ContentHash) (a : α) : Bool := rowHash h a == hash

theorem survivesAt_congr {a b : VariantProjectionState}
    (same : ∀ hash, a.isDiscarded path hash = b.isDiscarded path hash) :
    survivesAt (α := α) h a path = survivesAt h b path := by
  funext row
  cases here : atPath path row with
  | false => simp [survivesAt, here]
  | true =>
    have at_path : VariantRow.path row = path := by simpa [atPath] using here
    rw [survivesAt, survivesAt, isRowDiscarded, isRowDiscarded, at_path, same]

theorem isFresh_congr {a b : VariantProjectionState}
    (same : ∀ hash, a.isDiscarded path hash = b.isDiscarded path hash) (rows : List α) :
    isFresh h a rows path = isFresh h b rows path := by
  funext v
  rw [isFresh, isFresh, same]

theorem shownAt_agree {a b : VariantProjectionState} (agree : AgreeAt path a b) (rows : List α) :
    shownAt h a rows path = shownAt h b rows path := by
  rw [shownAt, shownAt, survivesAt_congr agree.isDiscarded, agree.userVariants]
  cases b.userVariants.lookup path with
  | none => rfl
  | some variants =>
    dsimp only
    rw [gainedAt, gainedAt, isFresh_congr agree.isDiscarded]

theorem shownAt_select (item : ItemId) (target : ContentHash) (rows : List α) :
    shownAt h (applySelect state item target) rows path = shownAt h state rows path := by
  unfold applySelect
  split <;> rfl

variable {item : ItemId} (at_ : itemPath item = some path)
include at_

theorem shownAt_edit_converges {content : String}
    (there : converges h snap state item path (h.ofContent content) = true) (rows : List α) :
    shownAt h (applyEdit h snap state item content) rows path = shownAt h state rows path := by
  rw [converges] at there
  rw [applyEdit, at_]
  dsimp only
  rw [if_pos there]
  rfl

theorem shownAt_discard (hashed : WellHashed h state) (variant : ContentHash) (rows : List α) :
    (shownAt h (applyDiscard state item variant) rows path).Perm
      ((shownAt h state rows path).filter fun a => !hasHash h variant a) := by
  have gone : ∀ hash, (applyDiscard state item variant).isDiscarded path hash =
      (state.isDiscarded path hash || hash == variant) := isDiscarded_discard at_ variant
  rw [shownAt, shownAt, List.filter_append]
  refine List.Perm.append ?_ ?_
  · rw [List.filter_filter]
    apply List.Perm.of_eq
    apply List.filter_congr
    intro a _
    cases here : atPath path a with
    | false => simp [survivesAt, here]
    | true =>
      have at_path : VariantRow.path a = path := by simpa [atPath] using here
      rw [survivesAt, survivesAt, here, isRowDiscarded, isRowDiscarded, at_path, gone, hasHash]
      simp [Bool.and_comm]
  · have lookup : (applyDiscard state item variant).userVariants.lookup path =
        (state.userVariants.lookup path).map fun m => m.erase variant := by
      rw [applyDiscard, at_]
      dsimp only
      cases known : state.userVariants.lookup path with
      | none => exact known
      | some variants => exact AList.lookup_insert _
    rw [lookup]
    cases known : state.userVariants.lookup path with
    | none => exact List.Perm.refl _
    | some variants =>
      rw [Option.map_some]
      dsimp only
      unfold gainedAt
      dsimp only
      cases rows.find? (atPath path) with
      | none => exact List.Perm.refl _
      | some template =>
        dsimp only
        rw [List.filter_map, List.filter_filter]
        refine List.Perm.map _ ?_
        have left : (variants.erase variant).entries =
            variants.entries.filter fun v => !(v.1 == variant) := by
          rw [show (variants.erase variant).entries = variants.entries.kerase variant from rfl,
            kerase_eq_filter variants.nodupKeys]
          rfl
        have old := (h.order.rearranges (variants.erase variant).entries).trans (.of_eq left)
        refine (old.filter _).trans ?_
        rw [List.filter_filter]
        refine List.Perm.trans (List.Perm.of_eq ?_)
          ((h.order.rearranges variants.entries).symm.filter _)
        apply List.filter_congr
        intro v mem
        have own := hashed path variants known v mem
        rw [isFresh, isFresh, gone, Function.comp_apply, hasHash, rowHash_userVariant, ← own]
        by_cases same : v.1 = variant
        · simp [same]
        · have away := beq_eq_false_iff_ne.mpr same
          simp [away]

omit at_ in
theorem countP_shownAt_stored (hashed : WellHashed h state) {hash : ContentHash}
    (live : state.isDiscarded path hash = false) (stored : state.isUserVariant path hash = true)
    {rows : List α} (known : ∃ a ∈ rows, VariantRow.path a = path) :
    (shownAt h state rows path).countP (hasHash h hash) =
      max 1 (rows.countP (isVersion h path hash)) := by
  have kept : (rows.filter (survivesAt h state path)).countP (hasHash h hash) =
      rows.countP (isVersion h path hash) := by
    rw [List.countP_filter]
    apply List.countP_congr
    intro a _
    cases here : atPath path a with
    | false =>
      have away : (VariantRow.path a == path) = false := here
      simp [survivesAt, isVersion, here, away]
    | true =>
      have at_path : (VariantRow.path a == path) = true := here
      by_cases same : rowHash h a = hash
      · simp [hasHash, isVersion, survivesAt, isRowDiscarded, here, same,
          beq_iff_eq.mp at_path, live]
      · simp [hasHash, isVersion, same]
  obtain ⟨variants, found, v, hv, rfl⟩ := isUserVariant_iff.mp stored
  obtain ⟨a, ha, here⟩ := known
  obtain ⟨template, first⟩ := exists_find (p := atPath path) ha (by simp [atPath, here])
  have gains : (gainedAt h state rows ⟨path, variants⟩).countP (hasHash h v.1) =
      if rows.any (isVersion h path v.1) then 0 else 1 := by
    unfold gainedAt
    dsimp only
    rw [first]
    dsimp only
    rw [List.countP_map, List.countP_filter]
    have once := countP_key (iter_entries_nodupKeys h.order variants)
      ((List.mem_keys_of_mem ((HashOrder.mem_iter h.order).mpr hv)))
    cases any : rows.any (isVersion h path v.1) with
    | true =>
      rw [if_pos rfl, List.countP_eq_zero]
      intro w hw both
      rw [Bool.and_eq_true, Function.comp_apply, hasHash, rowHash_userVariant, beq_iff_eq,
        ← hashed path variants found w ((HashOrder.mem_iter h.order).mp hw)] at both
      rw [isFresh, both.1, any] at both
      simp at both
    | false =>
      rw [if_neg Bool.false_ne_true, ← once]
      apply List.countP_congr
      intro w hw
      rw [Function.comp_apply, hasHash, rowHash_userVariant,
        ← hashed path variants found w ((HashOrder.mem_iter h.order).mp hw)]
      by_cases same : w.1 = v.1
      · simp [isFresh, same, live, any]
      · simp [same]
  rw [shownAt, found, List.countP_append, kept, gains]
  cases any : rows.any (isVersion h path v.1) with
  | true =>
    obtain ⟨b, hb, is_version⟩ := List.any_eq_true.mp any
    have some_there := List.countP_pos_iff.mpr ⟨b, hb, is_version⟩
    rw [if_pos rfl]
    omega
  | false =>
    have none_there : rows.countP (isVersion h path v.1) = 0 := by
      rw [List.countP_eq_zero]
      exact fun b hb => List.any_eq_false.mp any b hb
    rw [none_there]
    rfl

theorem countP_shownAt_creates (hashed : WellHashed h state) {content : String}
    (new : converges h snap state item path (h.ofContent content) = false) {rows : List α}
    (known : ∃ a ∈ rows, VariantRow.path a = path) :
    (shownAt h (applyEdit h snap state item content) rows path).countP
        (hasHash h (h.ofContent content)) =
      max 1 (rows.countP (isVersion h path (h.ofContent content))) := by
  refine countP_shownAt_stored (applyEdit_wellHashed hashed item content) ?_ ?_ known
  · rw [isDiscarded_edit at_, new]
    simp
  · rw [isUserVariant_edit at_, new]
    simp

omit at_ in
theorem shownAt_unknown {rows : List α} (unknown : ∀ a ∈ rows, VariantRow.path a ≠ path) :
    shownAt h state rows path = [] := by
  have none_at : ∀ a ∈ rows, atPath path a = false := fun a mem => by
    simpa [atPath] using unknown a mem
  have first : rows.find? (atPath path) = none := by
    rw [List.find?_eq_none]
    intro a mem
    simp [none_at a mem]
  rw [shownAt, List.append_eq_nil_iff]
  constructor
  · rw [List.filter_eq_nil_iff]
    intro a mem
    simp [survivesAt, none_at a mem]
  · cases state.userVariants.lookup path with
    | none => rfl
    | some variants =>
      dsimp only
      rw [gainedAt, first]

end Shown

section Related

variable {α : Type} [VariantRow α]

structure SameFile (a b : α) : Prop where
  path : VariantRow.path b = VariantRow.path a
  content : VariantRow.content b = VariantRow.content a
  selection : VariantRow.selection b = VariantRow.selection a

theorem SameFile.trans {a b c : α} (ab : SameFile a b) (bc : SameFile b c) : SameFile a c :=
  ⟨bc.path.trans ab.path, bc.content.trans ab.content, bc.selection.trans ab.selection⟩

theorem Redecided.sameFile {a b : α} (ab : Redecided a b) : SameFile a b := by
  obtain ⟨d, rfl, _⟩ := ab
  exact ⟨VariantRow.path_decide d a, VariantRow.content_decide d a, VariantRow.selection_decide d a⟩

theorem clampLocked_sameFile (a : α) : SameFile a (clampLocked a) := by
  unfold clampLocked
  split
  · exact ⟨VariantRow.path_decide _ a, VariantRow.content_decide _ a,
      VariantRow.selection_decide _ a⟩
  · exact ⟨rfl, rfl, rfl⟩

theorem forall₂_filter {β : Type} {R : β → β → Prop} {p : β → Bool}
    (agree : ∀ a b, R a b → p a = p b) {as bs : List β} (rel : List.Forall₂ R as bs) :
    List.Forall₂ R (as.filter p) (bs.filter p) := by
  induction rel with
  | nil => exact .nil
  | @cons a b as bs head tail ih =>
    by_cases keep : p a
    · have keep' : p b := by rw [← agree a b head]; exact keep
      rw [List.filter_cons_of_pos keep, List.filter_cons_of_pos keep']
      exact .cons head ih
    · have keep' : ¬ p b := by rw [← agree a b head]; exact keep
      rw [List.filter_cons_of_neg keep, List.filter_cons_of_neg keep']
      exact ih

variable {h : Hashing} {state : VariantProjectionState} {rows rows' : List α}

theorem SameFile.atPath {a b : α} (ab : SameFile a b) (path : String) :
    atPath path a = atPath path b := by
  rw [Inspectah.atPath, Inspectah.atPath, ab.path]

theorem SameFile.rowHash {a b : α} (ab : SameFile a b) : rowHash h a = rowHash h b := by
  rw [Inspectah.rowHash, Inspectah.rowHash, ab.content]

theorem shownAt_related (rel : List.Forall₂ SameFile rows rows') (path : String) :
    List.Forall₂ SameFile (shownAt h state rows path) (shownAt h state rows' path) := by
  refine List.rel_append ?_ ?_
  · refine forall₂_filter (fun a b ab => ?_) rel
    rw [survivesAt, survivesAt, ab.atPath, isRowDiscarded, isRowDiscarded, ab.path, ab.rowHash]
  · cases state.userVariants.lookup path with
    | none => exact .nil
    | some variants =>
      have first := find_related SameFile (atPath path) (atPath path)
        (fun a b ab => ab.atPath path) rel
      have fresh : isFresh h state rows path = isFresh h state rows' path := by
        funext v
        rw [isFresh, isFresh, any_related SameFile _ (isVersion h path v.1) (fun a b ab => ?_) rel]
        rw [isVersion, isVersion, ab.path, ab.rowHash]
      dsimp only
      unfold gainedAt
      dsimp only
      rw [fresh]
      generalize rows.find? (atPath path) = x at first ⊢
      generalize rows'.find? (atPath path) = y at first ⊢
      cases first with
      | none => exact .nil
      | some ab =>
        rw [List.forall₂_map_left_iff, List.forall₂_map_right_iff, List.forall₂_same]
        intro v _
        exact ⟨by simp [ab.path], by simp, by simp⟩

end Related

end Inspectah
