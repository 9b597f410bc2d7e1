import Inspectah.Refine.Moves
import Inspectah.Refine.ShownVersions
import Inspectah.Refine.Toggle

/-!
Toggles of paths with several versions. A toggle decides the first scanned row at
its path; which version ships is settled after the replay.
-/
namespace Inspectah

open FirstMatch

inductive ContentKind where
  | config
  | dropIn
  | quadlet

def ContentKind.item (path : String) : ContentKind → ItemId
  | .config => .config path
  | .dropIn => .dropIn path
  | .quadlet => .quadlet path

def ContentKind.rows (P : {α : Type} → [VariantRow α] → List α → Prop)
    (snap : InspectionSnapshot) : ContentKind → Prop
  | .config => P snap.configFiles
  | .dropIn => P snap.dropIns
  | .quadlet => P snap.quadletUnits

section Rows

variable (h : Hashing) (state : VariantProjectionState) {α : Type} [VariantRow α]

/-- The version of its path that goes into the image. -/
def Ships (a : α) : Prop := VariantRow.selection a = .selected ∨ VariantRow.selection a = .only

instance (a : α) : Decidable (Ships a) := inferInstanceAs (Decidable (_ ∨ _))

def ShippedAt (path : String) (incl : Bool) (rows : List α) : Prop :=
  ∀ a ∈ rows, VariantRow.path a = path → Ships a → (FindingRow.disposition a).isIncluded = incl

/-- A replayed row, once the locked rows are clamped. -/
def StandsAs (incl : Bool) (a : α) : Prop := (standing a).clamp.disposition.isIncluded = incl

instance (incl : Bool) (a : α) : Decidable (StandsAs incl a) := inferInstanceAs (Decidable (_ = _))

def ShipsAt (path : String) (rows : List α) (a : α) : Prop :=
  Ships (settleAt h state path (shownAt h state rows path).length a)

instance (path : String) (rows : List α) (a : α) : Decidable (ShipsAt h state path rows a) :=
  inferInstanceAs (Decidable (Ships _))

def laterVersions (path : String) (rows : List α) : List α :=
  (rows.filter (atPath path)).tail.filter fun a => !isRowDiscarded h state a

/-- The first scanned version and the operator's, which are copies of it. -/
def ledVersions (path : String) (rows : List α) : List α :=
  ((rows.find? (atPath path)).toList.filter fun a => !isRowDiscarded h state a) ++
    match state.userVariants.lookup path with
    | none => []
    | some variants => gainedAt h state rows ⟨path, variants⟩

/-- No version after the first ships against the toggle, nor one it leads where another than the
    first had it skipped. -/
structure FollowsToggle (path : String) (incl : Bool) (skipped : Prop) (rows : List α) : Prop where
  later : ∀ a ∈ laterVersions h state path rows, ShipsAt h state path rows a → StandsAs incl a
  led : skipped → ∀ a ∈ ledVersions h state path rows, ShipsAt h state path rows a →
    StandsAs incl a

end Rows

section Versions

variable {h : Hashing} {state : VariantProjectionState} {α : Type} [VariantRow α]
variable {path : String} {incl : Bool} {rows : List α}

theorem mem_shownAt_iff {a : α} : a ∈ shownAt h state rows path ↔
    a ∈ ledVersions h state path rows ∨ a ∈ laterVersions h state path rows := by
  have split : rows.filter (survivesAt h state path) =
      ((rows.find? (atPath path)).toList.filter fun a => !isRowDiscarded h state a) ++
        laterVersions h state path rows := by
    have survivors : rows.filter (survivesAt h state path) =
        (rows.filter (atPath path)).filter fun a => !isRowDiscarded h state a := by
      rw [List.filter_filter]
      apply List.filter_congr
      intro b _
      rw [survivesAt, Bool.and_comm]
    rw [survivors, laterVersions, ← List.head?_filter, ← List.filter_append]
    congr 1
    cases rows.filter (atPath path) <;> rfl
  rw [shownAt, split, ledVersions]
  simp only [List.mem_append]
  tauto

theorem standing_led {a : α} (mem : a ∈ ledVersions h state path rows) :
    ∃ first, rows.find? (atPath path) = some first ∧ standing a = standing first := by
  rw [ledVersions, List.mem_append] at mem
  rcases mem with scanned | gained
  · have found := (List.mem_filter.mp scanned).1
    exact ⟨a, by simpa using found, rfl⟩
  · cases known : state.userVariants.lookup path with
    | none =>
      rw [known] at gained
      cases gained
    | some variants =>
      rw [known] at gained
      dsimp only at gained
      rw [gainedAt] at gained
      cases found : rows.find? (atPath path) with
      | none =>
        rw [found] at gained
        cases gained
      | some first =>
        rw [found] at gained
        obtain ⟨v, -, rfl⟩ := List.mem_map.mp gained
        exact ⟨first, rfl, by simp [standing]⟩

theorem settleAt_reselected (n : Nat) (a : α) : Reselected a (settleAt h state path n a) := by
  have within := contentRule_within (α := α) h
  unfold settleAt SelectRule.mark
  split
  · split
    · exact within.sole a a (Reselected.refl a)
    · split
      · exact Reselected.refl a
      · exact choose_within within _ (Reselected.refl a)
  · exact Reselected.refl a

theorem standing_settleAt (n : Nat) (a : α) :
    standing (settleAt h state path n a) = standing a := by
  obtain ⟨s, same⟩ := @settleAt_reselected h state α _ path n a
  rw [same]
  simp [standing]

theorem shippedAt_iff (hashed : WellHashed h state) :
    ShippedAt path incl ((materializeRows h state rows).map clampLocked) ↔
      ∀ a ∈ shownAt h state rows path, ShipsAt h state path rows a → StandsAs incl a := by
  have clamped : ∀ a : α, VariantRow.path (clampLocked a) = VariantRow.path a ∧
      (Ships (clampLocked a) ↔ Ships a) ∧
      FindingRow.disposition (clampLocked a) = (standing a).clamp.disposition := by
    intro a
    refine ⟨(clampLocked_sameFile a).path, ?_,
      congrArg Standing.disposition (standing_clampLocked a)⟩
    rw [Ships, Ships, (clampLocked_sameFile a).selection]
  have here : ShippedAt path incl ((materializeRows h state rows).map clampLocked) ↔
      ∀ a ∈ (materializeRows h state rows).filter (atPath path), Ships a → StandsAs incl a := by
    constructor
    · intro shipped a mem ships
      obtain ⟨mem, at_path⟩ := List.mem_filter.mp mem
      have stands := shipped (clampLocked a) (List.mem_map_of_mem mem)
        ((clamped a).1.trans (by simpa [atPath] using at_path)) ((clamped a).2.1.mpr ships)
      rw [(clamped a).2.2] at stands
      exact stands
    · intro stand b mem at_path ships
      obtain ⟨a, source, rfl⟩ := List.mem_map.mp mem
      rw [(clamped a).2.2]
      rw [(clamped a).1] at at_path
      exact stand a (List.mem_filter.mpr ⟨source, by simpa [atPath] using at_path⟩)
        ((clamped a).2.1.mp ships)
  rw [here, materializeRows_at hashed, List.forall_mem_map]
  apply forall₂_congr
  intro a _
  rw [StandsAs, standing_settleAt, ShipsAt, StandsAs]

theorem shippedAt_split (hashed : WellHashed h state) :
    ShippedAt path incl ((materializeRows h state rows).map clampLocked) ↔
      FollowsToggle h state path incl True rows := by
  rw [shippedAt_iff hashed]
  constructor
  · intro stand
    exact ⟨fun a mem => stand a (mem_shownAt_iff.mpr (.inr mem)),
      fun _ a mem => stand a (mem_shownAt_iff.mpr (.inl mem))⟩
  · rintro follows a mem ships
    rcases mem_shownAt_iff.mp mem with led | later
    · exact follows.led trivial a led ships
    · exact follows.later a later ships

theorem follows_of_first (skipped : Prop)
    (first : ∀ a, rows.find? (atPath path) = some a → StandsAs incl a) :
    FollowsToggle h state path incl True rows ↔ FollowsToggle h state path incl skipped rows := by
  have led : ∀ a ∈ ledVersions h state path rows, StandsAs incl a := by
    intro a mem
    obtain ⟨lead, found, same⟩ := standing_led mem
    rw [StandsAs, same]
    exact first lead found
  exact ⟨fun follows => ⟨follows.later, fun _ a mem _ => led a mem⟩,
    fun follows => ⟨follows.later, fun _ a mem _ => led a mem⟩⟩

section First

variable {f : α → FindingKind}

theorem laterVersions_toggled : laterVersions h state path
      (updateFirst (atPath path) (fun a => FindingRow.decide (f a) a) rows) =
    laterVersions h state path rows := by
  have inside : (updateFirst (atPath path) (fun a => FindingRow.decide (f a) a) rows).filter
      (atPath path) =
      updateFirst (atPath path) (fun a => FindingRow.decide (f a) a)
        (rows.filter (atPath path)) := by
    apply filter_updateFirst_inside
    · exact fun a hit => hit
    · exact fun a => atPath_blind (f a) a
  rw [laterVersions, laterVersions, inside]
  congr 1
  cases here : rows.filter (atPath path) with
  | nil => rfl
  | cons first rest =>
    have hit : atPath path first = true := by
      have mem : first ∈ rows.filter (atPath path) := by rw [here]; exact List.mem_cons_self
      exact (List.mem_filter.mp mem).2
    rw [updateFirst, if_pos hit, List.tail_cons, List.tail_cons]

theorem shipsAt_toggled (a : α) : ShipsAt h state path
      (updateFirst (atPath path) (fun a => FindingRow.decide (f a) a) rows) a ↔
    ShipsAt h state path rows a := by
  have same : List.Forall₂ SameFile rows
      (updateFirst (atPath path) (fun a => FindingRow.decide (f a) a) rows) := by
    apply updateFirst_forall
    · exact fun a => ⟨rfl, rfl, rfl⟩
    · intro a _
      exact ⟨VariantRow.path_decide _ a, VariantRow.content_decide _ a,
        VariantRow.selection_decide _ a⟩
  rw [ShipsAt, ShipsAt, (shownAt_related same path).length_eq]

theorem follows_toggled (decides : ∀ first, rows.find? (atPath path) = some first →
      LockableRow.locked first = false ∧ (f first).isIncluded = incl) :
    FollowsToggle h state path incl True
        (updateFirst (atPath path) (fun a => FindingRow.decide (f a) a) rows) ↔
      FollowsToggle h state path incl False rows := by
  have first : ∀ a, (updateFirst (atPath path) (fun a => FindingRow.decide (f a) a) rows).find?
      (atPath path) = some a → StandsAs incl a := by
    intro a found
    rw [find_updateFirst (atPath path) _ (fun b hit => by rwa [atPath_blind])] at found
    obtain ⟨b, scanned, rfl⟩ := Option.map_eq_some_iff.mp found
    obtain ⟨unlocked, decided⟩ := decides b scanned
    rw [StandsAs, Standing.clamp_of_unlocked (by simpa [standing] using unlocked)]
    simpa [standing] using decided
  rw [follows_of_first False first]
  constructor
  · intro follows
    refine ⟨fun a mem ships => ?_, False.elim⟩
    rw [← laterVersions_toggled (f := f)] at mem
    exact follows.later a mem ((shipsAt_toggled a).mpr ships)
  · intro follows
    refine ⟨fun a mem ships => ?_, False.elim⟩
    rw [laterVersions_toggled] at mem
    exact follows.later a mem ((shipsAt_toggled a).mp ships)

end First

end Versions

/-- Which version of the path ships is settled again, any number of times. -/
inductive Resolves (env : Env) (path : String) (s : RefineSession) : RefineSession → Prop where
  | refl : Resolves env path s s
  | select {t : RefineSession} (disk : Disk) (item : ItemId) (target : ContentHash)
      (earlier : Resolves env path s t) (here : itemPath item = some path)
      (accepted : (t.apply env disk (.selectVariant item target)).result = .ok ()) :
      Resolves env path s (t.apply env disk (.selectVariant item target)).session
  | edit {t : RefineSession} (disk : Disk) (item : ItemId) (content : String)
      (basedOn : Option ContentHash) (earlier : Resolves env path s t)
      (here : itemPath item = some path)
      (accepted : (t.apply env disk (.editVariant item content basedOn)).result = .ok ()) :
      Resolves env path s (t.apply env disk (.editVariant item content basedOn)).session

/-- The toggle was skipped: the first projected version stood as asked, and is not the first
    scanned. -/
def ContentKind.SkippedApart (h : Hashing) (c : SessionCore) (path : String) (incl : Bool)
    (kind : ContentKind) : Prop :=
  isOpNoop h c (.setInclude (kind.item path) incl) = true ∧
    toggleReaches h c.original (variantState h c) (kind.item path) = false

/-- What the timeline leaves of the snapshot before its variants are materialized. -/
def SessionCore.replayed (c : SessionCore) : InspectionSnapshot :=
  replay c.original c.repoIndex c.activeOps

section Sessions

variable {env : Env} {path : String} {s t : RefineSession}

theorem replay_toggle {original : InspectionSnapshot} {index : RepoIndex} {ops : List RefinementOp}
    {item : ItemId} {incl : Bool} (other : ∀ sectionId, item ≠ .repo sectionId) :
    replay original index (ops ++ [.setInclude item incl]) =
      setInclude original index (excludedSectionsAt ops) item incl (replay original index ops) := by
  rw [replay, replay, excludedSectionsAt, List.foldl_concat, List.foldl_concat,
    excludeSection_of_not_repo other]
  rfl

theorem replayed_record (disk : Disk) (op : RefinementOp) :
    (s.record env disk (.op op)).replayed =
      replay s.original s.repoIndex (s.activeOps ++ [op]) := by
  have ops : (s.record env disk (.op op)).activeOps = s.activeOps ++ [op] := by
    rw [SessionCore.activeOps, RefineSession.record, history_moveTo,
      UndoHistory.History.active_record, timelineOps_append, timelineOps_singleton]
    rfl
  rw [SessionCore.replayed, ops, RefineSession.record, original_moveTo, repoIndex_moveTo]

/-- Sessions over one opened snapshot whose timelines replay to one snapshot. -/
structure ReplaysSame (s t : RefineSession) : Prop where
  original : t.original = s.original
  replayed : t.replayed = s.replayed
  repoIndex : t.repoIndex = s.repoIndex

theorem ReplaysSame.apply (same : ReplaysSame s t) (disk : Disk) {op : RefinementOp}
    (at_ : op.variantPath = some path) : ReplaysSame s (t.apply env disk op).session := by
  rcases apply_cases env disk t op with kept | ⟨_, _, _, recorded⟩
  · rw [kept]
    exact same
  · rw [recorded]
    refine ⟨?_, ?_, ?_⟩
    · exact (original_moveTo _).trans same.original
    · rw [replayed_record, replay_variant at_, ← same.replayed, SessionCore.replayed]
    · exact (repoIndex_moveTo _).trans same.repoIndex

theorem Resolves.replaysSame (later : Resolves env path s t) : ReplaysSame s t := by
  induction later with
  | refl => exact ⟨rfl, rfl, rfl⟩
  | select disk item target earlier here accepted ih =>
    exact ih.apply disk here
  | edit disk item content basedOn earlier here accepted ih =>
    exact ih.apply disk here

theorem shipped_projected (kind : ContentKind) (incl : Bool) :
    kind.rows (ShippedAt path incl) (t.projected env.toHashing) ↔
      kind.rows (FollowsToggle env.toHashing (variantState env.toHashing t.toSessionCore) path incl
        True) t.replayed := by
  have hashed : WellHashed env.toHashing (variantState env.toHashing t.toSessionCore) :=
    buildVariantState_wellHashed _
  change kind.rows _ (finishProjection env.toHashing t.original
    (variantState env.toHashing t.toSessionCore) t.replayed) ↔ _
  cases kind with
  | config =>
    change ShippedAt path incl (finishProjection _ _ _ _).configFiles ↔ _
    rw [configFiles_finishProjection]
    exact shippedAt_split hashed
  | dropIn =>
    change ShippedAt path incl (finishProjection _ _ _ _).dropIns ↔ _
    rw [dropIns_finishProjection]
    exact shippedAt_split hashed
  | quadlet =>
    change ShippedAt path incl (finishProjection _ _ _ _).quadletUnits ↔ _
    rw [quadletUnits_finishProjection]
    exact shippedAt_split hashed

theorem unlocked_first {σ α : Type} [VariantRow α] (rows : σ → List α) (sec : Option σ)
    {replayed : List α} (rel : List.Forall₂ Redecided ((sec.map rows).getD []) replayed)
    (unlocked : ((sec.bind fun x => (rows x).find? (atPath path)).map
      LockableRow.locked).getD false = false) {first : α} (found : replayed.find? (atPath path) = some first) :
    LockableRow.locked first = false := by
  rw [locked_of_standing, standingOf] at unlocked
  have related := find_related Redecided (atPath path) (atPath path)
    (fun _ _ ab => ab.agree atPath_blind) rel
  rw [found] at related
  generalize ((sec.map rows).getD []).find? (atPath path) = scanned at unlocked related
  cases related with
  | some ab =>
    obtain ⟨d, rfl, _⟩ := ab
    simpa [standing] using unlocked

theorem actionable_first (valid : validateConfig s.toSessionCore path = .ok ())
    {first : ConfigFileEntry} (found : s.replayed.configFiles.find? (atPath path) = some first) :
    first.disposition.isActionable = true := by
  have frame : ReplayFrame s.original s.replayed := replay_frame _
  have related := find_related Redecided (atPath path) (atPath path)
    (fun _ _ ab => ab.agree atPath_blind) frame.configFiles
  rw [found] at related
  have rows : s.original.configFiles.find? (atPath path) =
      s.original.config.bind fun x => x.files.find? (atPath path) := by
    rw [InspectionSnapshot.configFiles]
    cases s.original.config <;> rfl
  rw [rows] at related
  have asked : (s.toSessionCore.original.config.bind fun x => x.files.find? fun e =>
      e.path == path) = s.original.config.bind fun x => x.files.find? (atPath path) := rfl
  rw [validateConfig, asked] at valid
  generalize (s.original.config.bind fun x => x.files.find? (atPath path)) = scanned
    at valid related
  cases related with
  | @some a b ab =>
    apply ab.isActionable
    change (if a.disposition.isAdvisory then _ else if a.disposition.isInventory then _ else _) = _
      at valid
    change a.disposition.isActionable = true
    cases decision : a.disposition with
    | actionable b => rfl
    | advisory t r =>
      rw [decision] at valid
      cases valid
    | inventory =>
      rw [decision] at valid
      cases valid

theorem follows_recorded (kind : ContentKind) (incl : Bool) {h : Hashing}
    {state : VariantProjectionState} {excluded : List RepoId}
    (unlocked : isItemLocked s.original (kind.item path) = false)
    (valid : kind = .config → validateConfig s.toSessionCore path = .ok ()) :
    kind.rows (FollowsToggle h state path incl True)
        (setInclude s.original s.repoIndex excluded (kind.item path) incl s.replayed) ↔
      kind.rows (FollowsToggle h state path incl False) s.replayed := by
  have frame : ReplayFrame s.original s.replayed := replay_frame _
  cases kind with
  | config =>
    change FollowsToggle h state path incl True
      (setInclude _ _ _ (.config path) _ _).configFiles ↔ _
    rw [configFiles_setInclude incl s.replayed unlocked]
    apply follows_toggled
    intro first found
    refine ⟨unlocked_first ConfigSection.files s.original.config frame.configFiles unlocked found,
      ?_⟩
    rw [FindingKind.withInclude_of_isActionable (actionable_first (valid rfl) found)]
    exact FindingKind.isIncluded_fromBool incl
  | dropIn =>
    change FollowsToggle h state path incl True (setInclude _ _ _ (.dropIn path) _ _).dropIns ↔ _
    rw [dropIns_setInclude incl s.replayed unlocked]
    apply follows_toggled
    intro first found
    exact ⟨unlocked_first ServiceSection.dropIns s.original.services frame.dropIns unlocked found,
      FindingKind.isIncluded_fromBool incl⟩
  | quadlet =>
    change FollowsToggle h state path incl True
      (setInclude _ _ _ (.quadlet path) _ _).quadletUnits ↔ _
    rw [quadletUnits_setInclude incl s.replayed unlocked]
    apply follows_toggled
    intro first found
    exact ⟨unlocked_first ContainerSection.quadletUnits s.original.containers frame.quadletUnits
      unlocked found, FindingKind.isIncluded_fromBool incl⟩

theorem stands_of_skipped {incl : Bool} {h : Hashing}
    (noop : isOpNoop h s.toSessionCore (.setInclude (.config path) incl) = true)
    (reached : toggleReaches h s.original (variantState h s.toSessionCore) (.config path) = true)
    {first : ConfigFileEntry} (found : s.replayed.configFiles.find? (atPath path) = some first) :
    StandsAs incl first := by
  have frame : ReplayFrame s.original s.replayed := replay_frame _
  have hashed : WellHashed h (variantState h s.toSessionCore) := buildVariantState_wellHashed _
  have said := (said_of_standing ConfigSection.files (atPath path)
    (s.projected h).config incl).symm.trans noop
  change ((standingOf (atPath path) (finishProjection h s.original (variantState h s.toSessionCore)
    s.replayed).configFiles).map _).getD false = true at said
  rw [configFiles_finishProjection, standingOf_map_clampLocked atPath_blind,
    standingOf_reached hashed ((reachesRow_redecided frame.configFiles).symm.trans reached),
    standingOf, found] at said
  simpa [StandsAs] using said

theorem follows_skipped (kind : ContentKind) {incl : Bool} {state : VariantProjectionState}
    {h : Hashing}
    (noop : isOpNoop h s.toSessionCore (.setInclude (kind.item path) incl) = true) :
    kind.rows (FollowsToggle h state path incl True) s.replayed ↔
      kind.rows (FollowsToggle h state path incl
        (kind.SkippedApart h s.toSessionCore path incl)) s.replayed := by
  cases reached : toggleReaches h s.original (variantState h s.toSessionCore) (kind.item path) with
  | false =>
    have apart : kind.SkippedApart h s.toSessionCore path incl = True :=
      eq_true ⟨noop, reached⟩
    rw [apart]
  | true =>
    cases kind with
    | config =>
      exact follows_of_first _ fun first found => stands_of_skipped noop reached found
    | dropIn => cases noop
    | quadlet => cases noop

end Sessions

theorem toggle_ships_iff (env : Env) (disk : Disk) (s t : RefineSession) (kind : ContentKind)
    (path : String) (incl : Bool) (unlocked : isItemLocked s.original (kind.item path) = false)
    (accepted : (s.apply env disk (.setInclude (kind.item path) incl)).result = .ok ())
    (later : Resolves env path (s.apply env disk (.setInclude (kind.item path) incl)).session t) :
    kind.rows (ShippedAt path incl) (t.projected env.toHashing) ↔
      kind.rows (FollowsToggle env.toHashing (variantState env.toHashing t.toSessionCore) path incl
        (kind.SkippedApart env.toHashing s.toSessionCore path incl)) s.replayed := by
  have same := later.replaysSame
  rw [shipped_projected, same.replayed]
  rcases apply_accepted accepted with ⟨skipped, kept⟩ | ⟨_, noop, recorded⟩
  · rw [kept]
    apply follows_skipped
    rcases skipped with locked | noop
    · cases incl <;> simp [isLockedInclusion, unlocked] at locked
    · exact noop
  · have apart : kind.SkippedApart env.toHashing s.toSessionCore path incl = False :=
      eq_false fun skipped => Bool.false_ne_true (noop.symm.trans skipped.1)
    have valid : kind = .config → validateConfig s.toSessionCore path = .ok () := by
      rintro rfl
      exact valid_of_accepted accepted
    have other : ∀ sectionId, kind.item path ≠ .repo sectionId := by
      intro sectionId
      cases kind <;> simp [ContentKind.item]
    rw [recorded, replayed_record, apart, replay_toggle other]
    exact follows_recorded kind incl unlocked valid

def twoVersions : InspectionSnapshot :=
  { aggregateMeta := some { label := "web", hostCount := 2, hostnames := ["web-01", "web-02"] }
    config := some
      { files :=
          [{ path := "/etc/app.conf", content := "fast", disposition := .excluded
             variantSelection := .selected
             aggregate := some { count := 1, total := 2, hosts := ["web-01"] } },
            { path := "/etc/app.conf", content := "slow", disposition := .excluded
              variantSelection := .alternative
              aggregate := some { count := 1, total := 2, hosts := ["web-02"] } }] } }

/-- Including the file while its first version is the selected one ships it. -/
theorem first_version_ships : ContentKind.config.rows (ShippedAt "/etc/app.conf" true)
    (((RefineSession.new sampleEnv sampleDisk twoVersions).apply sampleEnv sampleDisk
      (.setInclude (.config "/etc/app.conf") true)).session.projected sampleEnv.toHashing) :=
  (toggle_ships_iff sampleEnv sampleDisk (.new sampleEnv sampleDisk twoVersions) _ .config
    "/etc/app.conf" true (by decide +kernel) (by decide +kernel) .refl).mpr
    { later := by decide +kernel
      led := fun skipped => absurd skipped.1 (by decide +kernel) }

def secondSelected : RefineSession :=
  ((RefineSession.new sampleEnv sampleDisk twoVersions).apply sampleEnv sampleDisk
    (.selectVariant (.config "/etc/app.conf") ⟨"slow"⟩)).session

/-- With the second version selected the toggle is accepted, and what ships is excluded. -/
theorem second_version_stays_out :
    isItemLocked secondSelected.original (.config "/etc/app.conf") = false ∧
      (secondSelected.apply sampleEnv sampleDisk
        (.setInclude (.config "/etc/app.conf") true)).result = .ok () ∧
      ¬ ContentKind.config.rows (ShippedAt "/etc/app.conf" true) ((secondSelected.apply sampleEnv
        sampleDisk (.setInclude (.config "/etc/app.conf") true)).session.projected
          sampleEnv.toHashing) := by
  refine ⟨by decide +kernel, by decide +kernel, ?_⟩
  change ¬ ShippedAt _ _ _
  rw [ShippedAt]
  decide +kernel

end Inspectah
