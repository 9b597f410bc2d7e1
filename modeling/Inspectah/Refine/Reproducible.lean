import Inspectah.Refine.ClosedForms
import Inspectah.Refine.Frame
import Inspectah.Refine.VariantState

/-!
When the projection does not depend on how hash tables iterate. Only the rows
of the operator's own versions are appended in table order, so the projection
is one value under every order exactly when no section gains two of them.
-/
namespace Inspectah

open FirstMatch KeyedFold

def Hashing.withOrder (h : Hashing) (order : HashOrder.Order) : Hashing := { h with order := order }

def OrderFree (h : Hashing) (original : InspectionSnapshot) (index : RepoIndex)
    (active : List TimelineEntry) : Prop :=
  ∀ order order' : HashOrder.Order,
    projectSnapshot (h.withOrder order) original index active =
      projectSnapshot (h.withOrder order') original index active

section Definitions

variable (h : Hashing) (original : InspectionSnapshot)

def RefinementOp.discards (path : String) (hash : ContentHash) (op : RefinementOp) : Prop :=
  ∃ item, op = .discardVariant item hash ∧ itemPath item = some path

def RefinementOp.creates (path : String) (hash : ContentHash) (op : RefinementOp) : Prop :=
  ∃ item content basedOn, op = .editVariant item content basedOn ∧ itemPath item = some path ∧
    h.ofContent content = hash ∧ isHostVariant h original item path hash = false

def Creates (ops : List RefinementOp) (path : String) (hash : ContentHash) : Prop :=
  ∃ before op after, ops = before ++ op :: after ∧ op.creates h original path hash ∧
    ∀ later ∈ after, ¬ later.discards path hash

structure IsNew (ops : List RefinementOp) {α : Type} [VariantRow α] (rows : List α) (path : String)
    (hash : ContentHash) : Prop where
  created : Creates h original ops path hash
  known : ∃ a ∈ rows, VariantRow.path a = path
  absent : ∀ a ∈ rows, VariantRow.path a = path → rowHash h a ≠ hash

def GainsAtMostOne (ops : List RefinementOp) {α : Type} [VariantRow α] (rows : List α) : Prop :=
  ∀ path hash path' hash', IsNew h original ops rows path hash →
    IsNew h original ops rows path' hash' → path = path' ∧ hash = hash'

end Definitions

section Creation

variable {h : Hashing} {original : InspectionSnapshot} {path : String} {hash : ContentHash}

theorem creates_snoc {ops : List RefinementOp} {op : RefinementOp} :
    Creates h original (ops ++ [op]) path hash ↔
      op.creates h original path hash ∨
        (Creates h original ops path hash ∧ ¬ op.discards path hash) := by
  constructor
  · rintro ⟨before, made, after, split, creates, kept⟩
    rcases List.eq_nil_or_concat after with rfl | ⟨front, last, rfl⟩
    · obtain ⟨_, same⟩ := List.append_inj' split rfl
      obtain rfl := List.singleton_inj.mp same
      exact .inl creates
    · rw [List.concat_eq_append] at split kept
      rw [← List.cons_append, ← List.append_assoc] at split
      obtain ⟨rfl, same⟩ := List.append_inj' split rfl
      obtain rfl := List.singleton_inj.mp same
      exact .inr ⟨⟨before, made, front, rfl, creates,
        fun later mem => kept later (List.mem_append_left _ mem)⟩, kept op (by simp)⟩
  · rintro (creates | ⟨⟨before, made, after, rfl, creates, kept⟩, keeps⟩)
    · exact ⟨ops, op, [], rfl, creates, nofun⟩
    · refine ⟨before, made, after ++ [op], by simp, creates, fun later mem => ?_⟩
      rcases List.mem_append.mp mem with mem | mem
      · exact kept later mem
      · rw [List.mem_singleton.mp mem]
        exact keeps

theorem isUserVariant_accumulate (state : VariantProjectionState) (op : RefinementOp) :
    (accumulateVariant h original state op).isUserVariant path hash = true ↔
      op.creates h original path hash ∨
        (state.isUserVariant path hash = true ∧ ¬ op.discards path hash) := by
  by_cases at_ : op.variantPath = some path
  · cases op with
    | selectVariant item target =>
      have same : (accumulateVariant h original state (.selectVariant item target)).isUserVariant
          path hash = state.isUserVariant path hash := by
        rw [accumulateVariant, applySelect, show itemPath item = some path from at_]
        rfl
      simp [same, RefinementOp.creates, RefinementOp.discards]
    | editVariant item content basedOn =>
      have at_ : itemPath item = some path := at_
      rw [accumulateVariant, isUserVariant_edit at_]
      have creates : (RefinementOp.editVariant item content basedOn).creates h original path hash ↔
          h.ofContent content = hash ∧ isHostVariant h original item path hash = false := by
        constructor
        · rintro ⟨_, _, _, same, _, hashed, host⟩
          cases same
          exact ⟨hashed, host⟩
        · rintro ⟨hashed, host⟩
          exact ⟨item, content, basedOn, rfl, at_, hashed, host⟩
      have keeps : ¬ (RefinementOp.editVariant item content basedOn).discards path hash := by
        rintro ⟨_, same, _⟩
        cases same
      rw [creates, Bool.or_eq_true, Bool.and_eq_true, beq_iff_eq, converges, Bool.not_eq_true',
        Bool.or_eq_false_iff]
      constructor
      · rintro (old | ⟨⟨host, _⟩, rfl⟩)
        · exact .inr ⟨old, keeps⟩
        · exact .inl ⟨rfl, host⟩
      · rintro (⟨rfl, host⟩ | ⟨old, _⟩)
        · cases stored : state.isUserVariant path (h.ofContent content) with
          | true => exact .inl rfl
          | false => exact .inr ⟨⟨host, rfl⟩, rfl⟩
        · exact .inl old
    | discardVariant item variant =>
      have at_ : itemPath item = some path := at_
      rw [accumulateVariant, isUserVariant_discard at_, Bool.and_eq_true, bne_iff_ne]
      have discards : (RefinementOp.discardVariant item variant).discards path hash ↔
          hash = variant := by
        constructor
        · rintro ⟨_, same, _⟩
          cases same
          rfl
        · rintro rfl
          exact ⟨item, rfl, at_⟩
      have creates : ¬ (RefinementOp.discardVariant item variant).creates h original path hash := by
        rintro ⟨_, _, _, same, _⟩
        cases same
      rw [discards]
      exact ⟨.inr, fun either => either.resolve_left creates⟩
    | _ => cases at_
  · have agree : AgreeAt path (accumulateVariant h original state op) state :=
      agreeAt_accumulate at_
    rw [isUserVariant_congr agree]
    have creates : ¬ op.creates h original path hash := by
      rintro ⟨item, content, basedOn, rfl, here, _⟩
      exact at_ here
    have keeps : ¬ op.discards path hash := by
      rintro ⟨item, rfl, here⟩
      exact at_ here
    exact ⟨fun old => .inr ⟨old, keeps⟩, fun either => (either.resolve_left creates).1⟩

theorem isUserVariant_iff_creates (ops : List RefinementOp) :
    (buildVariantState h original ops).isUserVariant path hash = true ↔
      Creates h original ops path hash := by
  induction ops using List.reverseRecOn with
  | nil =>
    refine iff_of_false nofun ?_
    rintro ⟨before, op, after, split, _⟩
    cases before <;> cases split
  | append_singleton ops op ih =>
    rw [buildVariantState_append, List.foldl_cons, List.foldl_nil, isUserVariant_accumulate,
      creates_snoc, ih]

end Creation

section Gained

variable {h : Hashing} {state : VariantProjectionState} {α : Type} [VariantRow α]

theorem mem_gained (hashed : WellHashed h state) (live : StoredLive state) {rows : List α}
    {path : String} {hash : ContentHash} :
    (path, hash) ∈ (gained h state rows).map (versionOf h) ↔
      state.isUserVariant path hash = true ∧ (∃ a ∈ rows, VariantRow.path a = path) ∧
        ∀ a ∈ rows, VariantRow.path a = path → rowHash h a ≠ hash := by
  constructor
  · intro mem
    obtain ⟨a, ha, same⟩ := List.mem_map.mp mem
    obtain ⟨rfl, rfl⟩ := Prod.mk.inj same
    obtain ⟨e, he, ha⟩ := List.mem_flatMap.mp ha
    have at_path := atPath_of_gainedAt ha
    have known := AList.mem_lookup_iff.mpr ((HashOrder.mem_iter h.order).mp he)
    unfold gainedAt at ha
    split at ha
    · cases ha
    · rename_i template found
      obtain ⟨v, hv, rfl⟩ := List.mem_map.mp ha
      obtain ⟨stored, fresh⟩ := List.mem_filter.mp hv
      have stored := (HashOrder.mem_iter h.order).mp stored
      have own : v.1 = h.ofContent v.2 := hashed e.1 e.2 known v stored
      rw [at_path, rowHash_userVariant, ← own]
      rw [isFresh, Bool.and_eq_true, Bool.not_eq_true', Bool.not_eq_true'] at fresh
      refine ⟨isUserVariant_iff.mpr ⟨e.2, known, v, stored, rfl⟩, ⟨template, ?_, ?_⟩, ?_⟩
      · exact List.mem_of_find?_eq_some found
      · simpa [atPath] using List.find?_some found
      · intro b hb here same
        have none_there := List.any_eq_false.mp fresh.2 b hb
        simp [isVersion, here, same] at none_there
  · rintro ⟨stored, ⟨a, ha, here⟩, absent⟩
    have alive := live path hash stored
    obtain ⟨variants, known, v, hv, rfl⟩ := isUserVariant_iff.mp stored
    have own := hashed path variants known v hv
    obtain ⟨template, found⟩ := exists_find (p := atPath path) ha (by simp [atPath, here])
    have at_path : VariantRow.path template = path := by
      simpa [atPath] using List.find?_some found
    refine List.mem_map.mpr ⟨VariantRow.userVariant v.2 template, ?_, ?_⟩
    · refine List.mem_flatMap.mpr ⟨⟨path, variants⟩,
        (HashOrder.mem_iter h.order).mpr (AList.mem_lookup_iff.mp known), ?_⟩
      unfold gainedAt
      rw [found]
      refine List.mem_map.mpr ⟨v, List.mem_filter.mpr
        ⟨(HashOrder.mem_iter h.order).mpr hv, ?_⟩, rfl⟩
      rw [isFresh, alive, Bool.not_false, Bool.true_and, Bool.not_eq_true', List.any_eq_false]
      intro b hb is_version
      rw [isVersion, Bool.and_eq_true, beq_iff_eq, beq_iff_eq] at is_version
      exact absent b hb is_version.1 is_version.2
    · rw [versionOf, VariantRow.path_userVariant, rowHash_userVariant, at_path, ← own]

theorem gained_nodup (hashed : WellHashed h state) (rows : List α) :
    ((gained h state rows).map (versionOf h)).Nodup := by
  unfold gained
  rw [List.map_flatMap, List.nodup_flatMap]
  have nodup := iter_entries_nodupKeys h.order state.userVariants
  refine ⟨fun e he => ?_, ?_⟩
  · have known := AList.mem_lookup_iff.mpr ((HashOrder.mem_iter h.order).mp he)
    unfold gainedAt
    cases found : rows.find? (atPath e.1) with
    | none => exact List.nodup_nil
    | some template =>
      rw [List.map_map]
      have versions := iter_entries_nodupKeys h.order e.2
      refine List.Nodup.map_on ?_ ((List.Nodup.of_map Sigma.fst versions).filter _)
      intro v hv w hw same
      have stored : ∀ {u}, u ∈ (h.order.iter e.2.entries).filter (isFresh h state rows e.1) →
          u.1 = h.ofContent u.2 ∧ u ∈ h.order.iter e.2.entries := fun mem =>
        ⟨hashed e.1 e.2 known _ ((HashOrder.mem_iter h.order).mp (List.mem_filter.mp mem).1),
          (List.mem_filter.mp mem).1⟩
      have hashes : h.ofContent v.2 = h.ofContent w.2 := by
        simpa [versionOf] using same
      refine List.NodupKeys.eq_of_fst_eq versions (stored hv).2 (stored hw).2 ?_
      rw [(stored hv).1, (stored hw).1, hashes]
  · refine List.Pairwise.imp ?_ (List.nodupKeys_iff_pairwise.mp nodup)
    intro e e' ne
    refine List.disjoint_left.mpr fun key mem mem' => ?_
    obtain ⟨a, ha, rfl⟩ := List.mem_map.mp mem
    obtain ⟨b, hb, same⟩ := List.mem_map.mp mem'
    apply ne
    rw [← atPath_of_gainedAt ha, ← atPath_of_gainedAt hb]
    exact (congrArg Prod.fst same).symm

variable (h state) in
theorem gained_perm (rows : List α) (order order' : HashOrder.Order) :
    (gained (h.withOrder order) state rows).Perm (gained (h.withOrder order') state rows) := by
  have same : ∀ {β : Type} (l : List β), (order.iter l).Perm (order'.iter l) := fun l =>
    (order.rearranges l).trans (order'.rearranges l).symm
  refine (same state.userVariants.entries).flatMap fun e _ => ?_
  unfold gainedAt
  cases rows.find? (atPath e.1) with
  | none => exact .nil
  | some template => exact ((same e.2.entries).filter _).map _

variable (h state) in
theorem gained_reversed (rows : List α) :
    gained (h.withOrder .reversed) state rows =
      (gained (h.withOrder .insertion) state rows).reverse := by
  rw [gained, gained, List.reverse_flatMap]
  congr 1
  funext e
  unfold gainedAt
  rw [Function.comp_apply]
  cases rows.find? (atPath e.1) with
  | none => rfl
  | some template =>
    dsimp only
    rw [← List.map_reverse, ← List.filter_reverse]
    rfl

end Gained

section Section

variable {h : Hashing} {original : InspectionSnapshot} {ops : List RefinementOp} {α : Type}
  [VariantRow α] {rows replayed : List α}

theorem versions_related (rel : List.Forall₂ Redecided rows replayed) :
    replayed.map (versionOf h) = rows.map (versionOf h) :=
  map_related (rel.imp fun a b ⟨d, same, _⟩ => by rw [same]; simp [versionOf])

theorem isNew_iff {path : String} {hash : ContentHash} :
    IsNew h original ops rows path hash ↔ Creates h original ops path hash ∧
      path ∈ (rows.map (versionOf h)).map Prod.fst ∧
      (path, hash) ∉ rows.map (versionOf h) := by
  constructor
  · rintro ⟨created, ⟨a, ha, here⟩, absent⟩
    refine ⟨created, ?_, fun mem => ?_⟩
    · rw [List.map_map]
      exact List.mem_map.mpr ⟨a, ha, here⟩
    · obtain ⟨b, hb, same⟩ := List.mem_map.mp mem
      exact absent b hb (congrArg Prod.fst same) (congrArg Prod.snd same)
  · rintro ⟨created, known, absent⟩
    rw [List.map_map] at known
    obtain ⟨a, ha, here⟩ := List.mem_map.mp known
    exact ⟨created, ⟨a, ha, here⟩, fun b hb at_ same =>
      absent (List.mem_map.mpr ⟨b, hb, Prod.ext at_ same⟩)⟩

theorem mem_gained_iff_isNew (rel : List.Forall₂ Redecided rows replayed)
    (order : HashOrder.Order) {path : String} {hash : ContentHash} :
    (path, hash) ∈ (gained (h.withOrder order) (buildVariantState h original ops) replayed).map
        (versionOf h) ↔ IsNew h original ops rows path hash := by
  have hashed : WellHashed (h.withOrder order) (buildVariantState h original ops) :=
    buildVariantState_wellHashed ops
  refine (mem_gained hashed (buildVariantState_storedLive ops)).trans ?_
  rw [isNew_iff, ← versions_related rel, ← isNew_iff]
  exact ⟨fun ⟨user, known, absent⟩ => ⟨(isUserVariant_iff_creates ops).mp user, known, absent⟩,
    fun new => ⟨(isUserVariant_iff_creates ops).mpr new.created, new.known, new.absent⟩⟩

theorem gained_few (rel : List.Forall₂ Redecided rows replayed)
    (one : GainsAtMostOne h original ops rows) (order : HashOrder.Order) :
    (gained (h.withOrder order) (buildVariantState h original ops) replayed).length ≤ 1 := by
  have hashed : WellHashed (h.withOrder order) (buildVariantState h original ops) :=
    buildVariantState_wellHashed ops
  have nodup := gained_nodup hashed replayed
  have new : ∀ version ∈ (gained (h.withOrder order) (buildVariantState h original ops)
      replayed).map (versionOf h), IsNew h original ops rows version.1 version.2 :=
    fun _ => (mem_gained_iff_isNew rel order).mp
  by_contra long
  rw [Nat.not_le, ← List.length_map (versionOf h)] at long
  have same := one _ _ _ _ (new _ (List.getElem_mem (Nat.lt_of_succ_lt long)))
    (new _ (List.getElem_mem long))
  have := (List.Nodup.getElem_inj_iff nodup).mp (Prod.ext same.1 same.2)
  omega

theorem materializeRows_order (rel : List.Forall₂ Redecided rows replayed)
    (one : GainsAtMostOne h original ops rows) (order order' : HashOrder.Order) :
    materializeRows (h.withOrder order) (buildVariantState h original ops) replayed =
      materializeRows (h.withOrder order') (buildVariantState h original ops) replayed := by
  have hashed : WellHashed h (buildVariantState h original ops) := buildVariantState_wellHashed ops
  have few := gained_few rel one order
  have alike : gained (h.withOrder order) (buildVariantState h original ops) replayed =
      gained (h.withOrder order') (buildVariantState h original ops) replayed := by
    have perm := gained_perm h (buildVariantState h original ops) replayed order order'
    generalize gained (h.withOrder order) (buildVariantState h original ops) replayed = l at perm few
    match l, few with
    | [], _ => exact (List.nil_perm.mp perm).symm
    | [a], _ => exact List.singleton_perm.mp perm
  rw [materializeRows_eq (h := h.withOrder order) hashed,
    materializeRows_eq (h := h.withOrder order') hashed, shownRows, shownRows, alike]
  rfl

theorem gainsAtMostOne_of_orders (rel : List.Forall₂ Redecided rows replayed)
    (same : (materializeRows (h.withOrder .insertion) (buildVariantState h original ops)
        replayed).map clampLocked =
      (materializeRows (h.withOrder .reversed) (buildVariantState h original ops)
        replayed).map clampLocked) :
    GainsAtMostOne h original ops rows := by
  have hashed : WellHashed h (buildVariantState h original ops) := buildVariantState_wellHashed ops
  have versions : ∀ order : HashOrder.Order,
      ((materializeRows (h.withOrder order) (buildVariantState h original ops) replayed).map
        clampLocked).map (versionOf h) =
      (keptRows h (buildVariantState h original ops) replayed).map (versionOf h) ++
        (gained (h.withOrder order) (buildVariantState h original ops) replayed).map
          (versionOf h) := by
    intro order
    rw [materializeRows_eq (h := h.withOrder order) hashed, List.map_map, List.map_map,
      ← List.map_append]
    apply List.map_congr_left
    intro a _
    rw [Function.comp_apply, Function.comp_apply, versionOf_clampLocked]
    exact versionOf_settle (h := h.withOrder order) _ a
  have turned := (versions .insertion).symm.trans ((congrArg _ same).trans (versions .reversed))
  have palindrome := List.append_cancel_left turned
  rw [gained_reversed, List.map_reverse] at palindrome
  have few := HashOrder.length_le_one_of_palindrome
    (gained_nodup (h := h.withOrder .insertion) hashed replayed) palindrome
  intro path hash path' hash' new new'
  have mem := (mem_gained_iff_isNew rel .insertion).mpr new
  have mem' := (mem_gained_iff_isNew rel .insertion).mpr new'
  have one : (path, hash) = (path', hash') := HashOrder.eq_of_length_le_one few mem mem'
  exact Prod.mk.inj one

end Section

section Projection

variable {h : Hashing} {original : InspectionSnapshot} {index : RepoIndex}

theorem selectVariants_order {α : Type} {rule : SelectRule α} (lawful : rule.Lawful)
    (state : VariantProjectionState) (order order' : HashOrder.Order) (rows : List α) :
    selectVariants rule state order rows = selectVariants rule state order' rows := by
  rw [selectVariants_eq lawful, selectVariants_eq lawful]

theorem materializeVariants_order {state : VariantProjectionState} {snap : InspectionSnapshot}
    {order order' : HashOrder.Order}
    (same : EachContent (fun rows => materializeRows (h.withOrder order) state rows =
      materializeRows (h.withOrder order') state rows) snap) :
    materializeVariants (h.withOrder order) state snap =
      materializeVariants (h.withOrder order') state snap := by
  rw [materializeVariants_eq, materializeVariants_eq]
  have config : (snap.config.map fun c =>
      { c with files := materializeRows (h.withOrder order) state c.files }) =
      snap.config.map fun c =>
        { c with files := materializeRows (h.withOrder order') state c.files } := by
    refine Option.map_congr fun c sec => ?_
    have rows := same.configFiles
    rw [InspectionSnapshot.configFiles, Option.mem_def.mp sec] at rows
    exact congrArg ConfigSection.mk rows
  have services : (snap.services.map fun s =>
      { s with dropIns := materializeRows (h.withOrder order) state s.dropIns }) =
      snap.services.map fun s =>
        { s with dropIns := materializeRows (h.withOrder order') state s.dropIns } := by
    refine Option.map_congr fun s sec => ?_
    have rows := same.dropIns
    rw [InspectionSnapshot.dropIns, Option.mem_def.mp sec] at rows
    exact congrArg (fun rows => { s with dropIns := rows }) rows
  have containers : snap.containers.map (materializeContainers (h.withOrder order) state) =
      snap.containers.map (materializeContainers (h.withOrder order') state) := by
    refine Option.map_congr fun c sec => ?_
    have rows := same.quadletUnits
    rw [InspectionSnapshot.quadletUnits, Option.mem_def.mp sec] at rows
    have compose : selectVariants (composeRule (h.withOrder order)) state order c.composeFiles =
        selectVariants (composeRule (h.withOrder order')) state order' c.composeFiles :=
      selectVariants_order (composeRule_lawful h) state order order' c.composeFiles
    exact congrArg₂ (fun quadlets compose =>
      { c with quadletUnits := quadlets, composeFiles := compose }) rows compose
  have items : (fun n : NonRpmSoftwareSection =>
      { n with
        items := selectVariants (languageEnvRule (h.withOrder order)) state
          (h.withOrder order).order n.items }) =
      fun n =>
        { n with
          items := selectVariants (languageEnvRule (h.withOrder order')) state
            (h.withOrder order').order n.items } := by
    funext n
    exact congrArg (fun items => { n with items := items })
      (selectVariants_order (languageEnvRule_lawful h) state order order' n.items)
  have unmanaged : (fun u : UnmanagedFileSection => { u with
      items := selectVariants unmanagedRule state (h.withOrder order).order u.items }) =
      fun u => { u with
        items := selectVariants unmanagedRule state (h.withOrder order').order u.items } := by
    funext u
    rw [selectVariants_order unmanagedRule_lawful state _ (h.withOrder order').order u.items]
  rw [config, services, containers, items, unmanaged]

/-- Table order has no effect exactly when every section gains at most one version of the
    operator's. -/
theorem projection_reproducible_iff (h : Hashing) (original : InspectionSnapshot)
    (index : RepoIndex) (active : List TimelineEntry) :
    OrderFree h original index active ↔
      EachContent (GainsAtMostOne h original (timelineOps active)) original := by
  have frame := @replay_frame original index (timelineOps active)
  constructor
  · intro free
    have same := free .insertion .reversed
    unfold projectSnapshot at same
    constructor
    · apply gainsAtMostOne_of_orders frame.configFiles
      have rows := congrArg InspectionSnapshot.configFiles same
      rwa [configFiles_finishProjection, configFiles_finishProjection] at rows
    · apply gainsAtMostOne_of_orders frame.dropIns
      have rows := congrArg InspectionSnapshot.dropIns same
      rwa [dropIns_finishProjection, dropIns_finishProjection] at rows
    · apply gainsAtMostOne_of_orders frame.quadletUnits
      have rows := congrArg InspectionSnapshot.quadletUnits same
      rwa [quadletUnits_finishProjection, quadletUnits_finishProjection] at rows
  · intro one order order'
    have same := @materializeVariants_order h (buildVariantState h original (timelineOps active))
      (replay original index (timelineOps active)) order order'
      ⟨materializeRows_order frame.configFiles one.configFiles order order',
        materializeRows_order frame.dropIns one.dropIns order order',
        materializeRows_order frame.quadletUnits one.quadletUnits order order'⟩
    exact congrArg (fun snap => demoteUnservedRepoEnabling (clampLockedItems
      (raiseSensitivity original snap))) same

end Projection

def twoFiles : InspectionSnapshot :=
  { config := some { files := [{ path := "/etc/a.conf", content := "a" },
      { path := "/etc/b.conf", content := "b" }] } }

def rewriteBoth : List TimelineEntry :=
  [.op (.editVariant (.config "/etc/a.conf") "c" none),
    .op (.editVariant (.config "/etc/b.conf") "d" none)]

/-- The two versions of the operator's come out in the table's order. -/
theorem rewritten_files_swap :
    ¬ OrderFree letterHashing twoFiles {} rewriteBoth := by
  intro free
  have rows := congrArg (fun snap => snap.configFiles.map (·.content)) (free .insertion .reversed)
  revert rows
  decide

end Inspectah
