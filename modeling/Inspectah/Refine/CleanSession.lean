import Inspectah.Refine.CleanProjection
import Inspectah.Refine.UndoRedo
import Inspectah.Refine.Reopen
import Inspectah.Refine.VariantState

/-!
What a clean session can hide. Pending changes look at the inclusion of packages
and configuration files, at excluded repositories and at the selections of
content-carrying and compose rows.
-/
namespace Inspectah

open FirstMatch Observation UndoHistory Runs

def selectionState (path : String) : Option ContentHash → VariantProjectionState
  | none => {}
  | some target => { selected := (∅ : KeyedMap ContentHash).insert path target }

def nonRpmItems (snap : InspectionSnapshot) : List NonRpmItem :=
  (snap.nonRpmSoftware.map (·.items)).getD []

def unmanagedItems (snap : InspectionSnapshot) : List UnmanagedFile :=
  (snap.unmanagedFiles.map (·.items)).getD []

section Visible

variable (h : Hashing) (original : InspectionSnapshot)

structure VariantsInert (path : String) (target : Option ContentHash) : Prop where
  environments : selectAtPath (languageEnvRule h) (selectionState path target)
    (nonRpmItems original) path = nonRpmItems original
  unmanaged : selectAtPath unmanagedRule (selectionState path target)
    (unmanagedItems original) path = unmanagedItems original

/-- Whatever the operation changes is something pending changes look at. -/
def Visible (index : RepoIndex) : RefinementOp → Prop
  | .selectVariant item target =>
    ∀ path, itemPath item = some path → VariantsInert h original path (some target)
  | .editVariant item content _ =>
    ∀ path, itemPath item = some path →
      VariantsInert h original path (some (h.ofContent content))
  | .discardVariant item _ =>
    ∀ path, itemPath item = some path → VariantsInert h original path none
  | op => untracked (replayOp original index [] original op) = untracked original

/-- The operations a request adds to the timeline. -/
def Request.recorded (env : Env) (s : RefineSession) : Request → List RefinementOp
  | .apply op => if s.records env op then [op] else []
  | .applyBatch ops => ops.filter fun op => !isLockedInclusion s.original op
  | _ => []

structure RecordsVisible (env : Env) (s : RefineSession) (served : Served) : Prop where
  timeline : served.2.isEdit = true ∨ served.2 = .undo ∨ served.2 = .redo
  visible : ∀ op ∈ served.2.recorded env s, Visible env.toHashing s.original s.repoIndex op

def CleanShowsOpened (h : Hashing) (s : RefineSession) : Prop :=
  s.isDirty h = false → s.projected h = (s.toSessionCore.onHistory .empty).projected h

end Visible

section State

variable {h : Hashing} {original : InspectionSnapshot} {state : VariantProjectionState}

theorem selectAtPath_congr {α : Type} (rule : SelectRule α) {state' : VariantProjectionState}
    {path : String} (same : state'.selected.lookup path = state.selected.lookup path)
    (rows : List α) : selectAtPath rule state' rows path = selectAtPath rule state rows path := by
  unfold selectAtPath
  rw [same]

theorem lookup_selectionState (path : String) (target : Option ContentHash) :
    (selectionState path target).selected.lookup path = target := by
  cases target with
  | none => rfl
  | some t => exact AList.lookup_insert _

def StateInert (h : Hashing) (original : InspectionSnapshot) (state : VariantProjectionState) :
    Prop :=
  ∀ path ∈ state.affectedPaths, VariantsInert h original path (state.selected.lookup path)

theorem StateInert.at {next : VariantProjectionState} (path : String)
    (inert : StateInert h original state)
    (others : ∀ other, other ≠ path → other ∈ next.affectedPaths →
      other ∈ state.affectedPaths ∧ next.selected.lookup other = state.selected.lookup other)
    (here : VariantsInert h original path (next.selected.lookup path)) :
    StateInert h original next := by
  intro other affected
  by_cases same : other = path
  · rw [same]
    exact here
  · obtain ⟨before, selection⟩ := others other same affected
    rw [selection]
    exact inert other before

theorem StateInert.select {path : String} {target : ContentHash}
    (inert : StateInert h original state) (here : VariantsInert h original path (some target)) :
    StateInert h original { state with selected := state.selected.insert path target } := by
  refine inert.at path (fun other differs affected => ?_) ?_
  · rw [mem_affectedPaths, AList.mem_insert] at affected
    rw [mem_affectedPaths]
    exact ⟨by tauto, AList.lookup_insert_ne differs⟩
  · rwa [AList.lookup_insert]

theorem StateInert.edit {path : String} {hash : ContentHash}
    {variants : UserVariants} {discarded : KeyedMap (List ContentHash)}
    (inert : StateInert h original state) (here : VariantsInert h original path (some hash))
    (kept : ∀ other, other ≠ path → other ∈ discarded → other ∈ state.discarded) :
    StateInert h original
      { userVariants := state.userVariants.insert path variants
        discarded := discarded
        selected := state.selected.insert path hash } := by
  refine inert.at path (fun other differs affected => ?_) ?_
  · rw [mem_affectedPaths, AList.mem_insert, AList.mem_insert] at affected
    rw [mem_affectedPaths]
    have := kept other differs
    exact ⟨by tauto, AList.lookup_insert_ne differs⟩
  · rwa [AList.lookup_insert]

theorem applyEdit_inert (inert : StateInert h original state) {item : ItemId} {content : String}
    (visible : ∀ path, itemPath item = some path →
      VariantsInert h original path (some (h.ofContent content))) :
    StateInert h original (applyEdit h original state item content) := by
  unfold applyEdit
  cases named : itemPath item with
  | none => exact inert
  | some path =>
    dsimp only
    split
    · exact inert.select (visible path named)
    · refine inert.edit (visible path named) fun other differs mem => ?_
      split at mem
      · exact mem
      · rw [AList.mem_insert] at mem
        exact mem.resolve_left differs

theorem applyDiscard_inert (inert : StateInert h original state) {item : ItemId}
    {variant : ContentHash}
    (visible : ∀ path, itemPath item = some path → VariantsInert h original path none) :
    StateInert h original (applyDiscard state item variant) := by
  unfold applyDiscard
  cases named : itemPath item with
  | none => exact inert
  | some path =>
    refine inert.at path (fun other differs affected => ?_) ?_
    · rw [mem_affectedPaths] at affected ⊢
      dsimp only at affected ⊢
      rw [AList.mem_insert] at affected
      constructor
      · rcases affected with user | (rfl | gone) | chosen
        · left
          split at user
          · exact user
          · rw [AList.mem_insert] at user
            exact user.resolve_left differs
        · exact absurd rfl differs
        · exact .inr (.inl gone)
        · right; right
          split at chosen
          · rw [AList.mem_erase] at chosen
            exact chosen.2
          · exact chosen
      · split
        · exact AList.lookup_erase_ne differs
        · rfl
    · dsimp only
      split
      · rw [AList.lookup_erase]
        exact visible path named
      · -- A selection that stays was inert; no selection is what a discard leaves.
        cases chosen : state.selected.lookup path with
        | none => exact visible path named
        | some target =>
          rw [← chosen]
          have known : path ∈ state.selected := by
            rw [← AList.lookup_isSome, chosen]
            rfl
          exact inert path (mem_affectedPaths.mpr (.inr (.inr known)))

theorem accumulateVariant_inert {index : RepoIndex} (inert : StateInert h original state)
    {op : RefinementOp} (visible : Visible h original index op) :
    StateInert h original (accumulateVariant h original state op) := by
  cases op with
  | selectVariant item target =>
    show StateInert h original (applySelect state item target)
    unfold applySelect
    cases named : itemPath item with
    | none => exact inert
    | some path => exact inert.select (visible path named)
  | editVariant item content basedOn => exact applyEdit_inert inert visible
  | discardVariant item variant => exact applyDiscard_inert inert visible
  | _ => exact inert

theorem buildVariantState_inert {index : RepoIndex} {ops : List RefinementOp}
    (visible : ∀ op ∈ ops, Visible h original index op) :
    StateInert h original (buildVariantState h original ops) := by
  have run : ∀ state, StateInert h original state →
      StateInert h original (ops.foldl (accumulateVariant h original) state) := by
    induction ops with
    | nil => exact fun state inert => inert
    | cons op ops ih =>
      intro state inert
      exact ih (fun op mem => visible op (List.mem_cons_of_mem _ mem)) _
        (accumulateVariant_inert inert (visible op List.mem_cons_self))
  exact run {} fun path affected => by cases affected

theorem selectVariants_inert {α : Type} {rule : SelectRule α} {order : HashOrder.Order}
    {rows : List α} (inert : ∀ path ∈ state.affectedPaths,
      selectAtPath rule (selectionState path (state.selected.lookup path)) rows path = rows) :
    selectVariants rule state order rows = rows := by
  have within : ∀ path ∈ order.iter state.affectedPaths,
      selectAtPath rule state rows path = rows := by
    intro path mem
    exact (selectAtPath_congr rule (lookup_selectionState path _).symm rows).trans
      (inert path ((HashOrder.mem_iter order).mp mem))
  unfold selectVariants
  generalize order.iter state.affectedPaths = paths at within
  induction paths with
  | nil => rfl
  | cons path paths ih =>
    rw [List.foldl_cons, within path List.mem_cons_self]
    exact ih fun other mem => within other (List.mem_cons_of_mem _ mem)

end State

section Projection

variable {h : Hashing}

theorem untracked_replay {original : InspectionSnapshot} {index : RepoIndex}
    {ops : List RefinementOp} (none : excludedSectionsAt ops = [])
    (visible : ∀ op ∈ ops, Visible h original index op) :
    untracked (replay original index ops) = untracked original := by
  unfold replay
  rw [none]
  refine foldl_unseen (replayOp_respects original index []) fun op mem => ?_
  have seen := visible op mem
  cases op with
  | selectVariant item target => rfl
  | editVariant item content basedOn => rfl
  | discardVariant item variant => rfl
  | _ => exact seen

theorem nonRpm_kept {o x : InspectionSnapshot} (frame : ReplayFrame o x)
    (rest : untracked x = untracked o) : nonRpmItems x = nonRpmItems o := by
  have clamped : (untracked x).nonRpmSoftware = (untracked o).nonRpmSoftware := by rw [rest]
  change x.nonRpmSoftware.map clampNonRpm = o.nonRpmSoftware.map clampNonRpm at clamped
  unfold nonRpmItems
  have rel := frame.nonRpmSoftware
  generalize o.nonRpmSoftware = a at rel clamped ⊢
  generalize x.nonRpmSoftware = b at rel clamped ⊢
  cases rel with
  | none => rfl
  | some inner =>
    rename_i n m
    have rows : m.items.map clampLocked = n.items.map clampLocked :=
      congrArg NonRpmSoftwareSection.items (Option.some.inj clamped)
    change m.items = n.items
    have pinned := inner.items
    generalize n.items = as at pinned rows ⊢
    generalize m.items = bs at pinned rows ⊢
    induction pinned with
    | nil => rfl
    | cons head tail ih =>
      obtain ⟨packages, rfl⟩ := head
      rw [List.map_cons, List.map_cons, List.cons.injEq] at rows
      rw [ih rows.2]
      congr 1
      rename_i a as bs
      have same : packages = a.packages := by
        have kept : ∀ e : NonRpmItem, (clampLocked e).packages = e.packages := by
          intro e
          unfold clampLocked
          split <;> rfl
        rw [← kept a, ← rows.1, kept]
      rw [same]

theorem inert_of_clean {c : SessionCore} (clean : NoChange h c)
    (visible : ∀ op ∈ c.activeOps, Visible h c.original c.repoIndex op) :
    Inert h (buildVariantState h c.original c.activeOps)
      (replay c.original c.repoIndex c.activeOps) := by
  have frame := @replay_frame c.original c.repoIndex c.activeOps
  have hashed := @buildVariantState_wellHashed h c.original c.activeOps
  have rest := untracked_replay clean.repos visible
  have state := buildVariantState_inert visible
  have quiet := clean.variants
  change variantsChanged h c.original (finishProjection h c.original
    (buildVariantState h c.original c.activeOps)
    (replay c.original c.repoIndex c.activeOps)) = 0 at quiet
  rw [variantsChanged_eq frame] at quiet
  simp only [Nat.add_eq_zero_iff] at quiet
  obtain ⟨⟨configs, dropIns⟩, quadlets, compose⟩ := quiet
  constructor
  · exact materialized_quiet hashed frame.configFiles configs
  · exact materialized_quiet hashed frame.dropIns dropIns
  · exact materialized_quiet hashed frame.quadletUnits quadlets
  · intro s sec
    have rows := composeRows_quiet compose
    rwa [composeFiles, sec] at rows
  · intro n sec
    have items : n.items = nonRpmItems c.original := by
      rw [← nonRpm_kept frame rest, nonRpmItems, sec]
      rfl
    rw [items]
    exact selectVariants_inert fun path mem => (state path mem).environments
  · intro u sec
    have items : u.items = unmanagedItems c.original := by
      rw [frame.rest] at sec
      rw [unmanagedItems, show c.original.unmanagedFiles = some u from sec]
      rfl
    rw [items]
    exact selectVariants_inert fun path mem => (state path mem).unmanaged

/-- Package rows whose decisions are settled, as opening a session leaves them. -/
def PackagesSettled (snap : InspectionSnapshot) : Prop :=
  ∀ p ∈ rpmPackages snap, p.disposition.isActionable = true

theorem projected_of_clean {c : SessionCore} (settled : PackagesSettled c.original)
    (clean : NoChange h c)
    (visible : ∀ op ∈ c.activeOps, Visible h c.original c.repoIndex op) :
    c.projected h = (c.onHistory .empty).projected h := by
  have frame := @replay_frame c.original c.repoIndex c.activeOps
  have inert := inert_of_clean clean visible
  refine finishProjection_congr inert ?_
  refine clampLockedItems_congr frame (untracked_replay clean.repos visible) ?_ ?_
  · obtain ⟨rpm, shown⟩ := rpmPackages_finishProjection h c.original
      (buildVariantState h c.original c.activeOps) (replay c.original c.repoIndex c.activeOps)
    have same := clean.packages
    change SameInclusion _ (rpmPackages (finishProjection h c.original
      (buildVariantState h c.original c.activeOps)
      (replay c.original c.repoIndex c.activeOps))) at same
    rw [shown, List.map_map] at same
    have rel := (List.forall₂_and_left _ _).mpr ⟨settled, frame.packages⟩
    refine clamped_of_sameInclusion (fun a b ab incl => ab.2.clamped ab.1 ?_) rel same
    obtain ⟨note, demoted⟩ := demotePackage_eq rpm (clampLocked b)
    rw [incl, Function.comp_apply, demoted]
    rfl
  · have same := clean.configs
    change SameInclusion _ (finishProjection h c.original
      (buildVariantState h c.original c.activeOps)
      (replay c.original c.repoIndex c.activeOps)).configFiles at same
    rw [configFiles_finishProjection, inert.configs] at same
    exact clamped_of_sameInclusion (fun a b ab incl => ab.clamped incl) frame.reconsidered same

end Projection

section Settled

variable {snap : InspectionSnapshot} {rpm : RpmSection} {ev : InstallerEvidence}

theorem installerTier_actionable {name : String} {reason : TriageReason}
    {tier : FindingKind × TriageTag} (given : installerTier ev name reason = some tier) :
    tier.1.isActionable = true := by
  unfold installerTier at given
  repeat' split at given
  all_goals cases given
  all_goals rfl

theorem settledDisposition_actionable (entry : PackageEntry) :
    (settledDisposition snap rpm ev entry).isActionable = true := by
  unfold settledDisposition
  split
  · rfl
  · cases verdict : installerVerdict snap rpm ev entry with
    | some tier =>
      unfold installerVerdict at verdict
      split at verdict
      · exact installerTier_actionable verdict
      · cases verdict
    | none =>
      change (bucketDefault _ _ _).isActionable = true
      unfold bucketDefault
      repeat' split
      all_goals rfl

theorem packagesSettled_normalized (snap : InspectionSnapshot) :
    PackagesSettled (normalizeSnapshot snap) := by
  intro p mem
  rw [normalizeSnapshot_eq, rpmPackages] at mem
  cases sec : snap.rpm with
  | none => simp [sec] at mem
  | some rpm =>
    simp only [sec, Option.map_some, Option.getD_some, settleRpm, List.mem_map] at mem
    obtain ⟨entry, _, rfl⟩ := mem
    rw [settlePackage_eq]
    exact settledDisposition_actionable entry

end Settled

section Runs

variable {env : Env}

structure AllVisible (env : Env) (s : RefineSession) : Prop where
  settled : PackagesSettled s.original
  visible : ∀ op ∈ timelineOps s.history.entries, Visible env.toHashing s.original s.repoIndex op

theorem timelineOps_active_subset (history : History TimelineEntry) :
    ∀ op ∈ timelineOps history.active, op ∈ timelineOps history.entries := by
  intro op mem
  rw [← history.active_append_redoTail, timelineOps_append]
  exact List.mem_append_left _ mem

theorem AllVisible.record {s : RefineSession} (all : AllVisible env s) (disk : Disk)
    {entry : TimelineEntry}
    (visible : ∀ op ∈ entry.ops, Visible env.toHashing s.original s.repoIndex op) :
    AllVisible env (s.record env disk entry) := by
  have index := @repoIndex_record env disk s entry
  refine ⟨by rw [RefineSession.record, original_moveTo]; exact all.settled, fun op mem => ?_⟩
  rw [index]
  rw [RefineSession.record, history_moveTo] at mem
  rw [RefineSession.record, original_moveTo]
  change op ∈ timelineOps (s.history.active ++ [entry]) at mem
  rw [timelineOps_append, timelineOps_singleton, List.mem_append] at mem
  rcases mem with earlier | new
  · exact all.visible op (timelineOps_active_subset s.history op earlier)
  · exact visible op new

theorem AllVisible.moveTo {s : RefineSession} (all : AllVisible env s) (disk : Disk)
    {history : History TimelineEntry} (entries : history.entries = s.history.entries) :
    AllVisible env (s.moveTo env disk history) := by
  obtain ⟨_, core⟩ := toSessionCore_moveTo env disk s history
  refine ⟨by rw [core]; exact all.settled, fun op mem => ?_⟩
  rw [core] at mem ⊢
  exact all.visible op (entries ▸ mem)

theorem AllVisible.serve {s : RefineSession} (all : AllVisible env s) {served : Served}
    (records : RecordsVisible env s served) : AllVisible env (serve env served s) := by
  obtain ⟨disk, request⟩ := served
  have visible := records.visible
  cases request with
  | apply op =>
    change AllVisible env (s.apply env disk op).session
    rw [apply_session]
    split
    · rename_i recorded
      refine all.record disk fun op' mem => visible op' ?_
      rw [List.mem_singleton.mp mem]
      simp [Request.recorded, recorded]
    · exact all
  | applyDirective directive =>
    change AllVisible env (s.applyDirective env disk directive).session
    rcases @applyDirective_session env s disk directive with same | recorded
    · rw [same]
      exact all
    · rw [recorded]
      exact all.record disk fun op mem => by cases mem
  | applyBatch ops =>
    change AllVisible env (s.applyBatch env disk ops).session
    rw [applyBatch_session]
    cases kept : ops.filter fun op => !isLockedInclusion s.original op with
    | nil => exact all
    | cons op rest =>
      refine all.record disk fun op' mem => visible op' ?_
      rwa [Request.recorded, kept]
  | undo =>
    change AllVisible env (s.undo env disk).session
    unfold RefineSession.undo
    cases step : s.history.undo with
    | none => exact all
    | some history => exact all.moveTo disk (History.undo_fields step).1
  | redo =>
    change AllVisible env (s.redo env disk).session
    unfold RefineSession.redo
    cases step : s.history.redo with
    | none => exact all
    | some history => exact all.moveTo disk (History.redo_fields step).1
  | _ => rcases records.timeline with edit | undo | redo <;> contradiction

theorem AllVisible.cleanShowsOpened {s : RefineSession} (all : AllVisible env s) :
    CleanShowsOpened env.toHashing s := fun clean =>
  projected_of_clean all.settled ((isDirty_eq_false_iff _ _).mp clean) fun op mem =>
    all.visible op (timelineOps_active_subset s.history op mem)

theorem allVisible_new (disk : Disk) (snap : InspectionSnapshot) :
    AllVisible env (.new env disk snap) :=
  ⟨packagesSettled_normalized snap, fun op mem => by cases mem⟩

/-- With visible operations only, a session that is not dirty shows what an empty timeline shows. -/
theorem clean_run_shows_opened (disk : Disk) (snap : InspectionSnapshot) (requests : List Served)
    (visible : Along (serve env) (RecordsVisible env) (.new env disk snap) requests) :
    ∀ s ∈ visited (serve env) (RefineSession.new env disk snap) requests,
      CleanShowsOpened env.toHashing s := by
  have all := along_invariant (P := AllVisible env)
    (fun _ _ records all => all.serve records) (allVisible_new disk snap) visible
  exact fun s mem => (all s mem).cleanShowsOpened

end Runs

def mixedHost : InspectionSnapshot :=
  { rpm := some { packagesAdded := [{ name := "htop", arch := "x86_64", sourceRepo := "epel" }] }
    kernelBoot := some { sysctlOverrides := [{ key := "vm.swappiness", runtime := "10" }] } }

def excludeHtop : Request := .apply (.setInclude (.package "htop" "x86_64") false)

def excludeSwappiness : Request := .apply (.setInclude (.sysctl "vm.swappiness") false)

theorem clean_run_shows_opened_htop :
    CleanShowsOpened sampleEnv.toHashing (serve sampleEnv (sampleDisk, .undo)
      (serve sampleEnv (sampleDisk, excludeHtop) (.new sampleEnv sampleDisk mixedHost))) := by
  refine clean_run_shows_opened sampleDisk mixedHost [(sampleDisk, excludeHtop), (sampleDisk, .undo)]
    ⟨⟨.inl rfl, ?_⟩, ⟨.inr (.inl rfl), nofun⟩, trivial⟩ _ (by simp [visited])
  intro op mem
  simp only [Request.recorded, excludeHtop] at mem
  split at mem
  · rw [List.mem_singleton.mp mem]
    rfl
  · cases mem

/-- An excluded kernel parameter is gone from the projection, and the session is
    not dirty. -/
theorem excluded_sysctl_is_clean :
    ¬ ∀ s ∈ visited (serve sampleEnv) (RefineSession.new sampleEnv sampleDisk mixedHost)
      [(sampleDisk, excludeSwappiness)], CleanShowsOpened sampleEnv.toHashing s := by
  intro shows
  let last : RefineSession := serve sampleEnv (sampleDisk, excludeSwappiness)
    (.new sampleEnv sampleDisk mixedHost)
  have clean : last.isDirty sampleEnv.toHashing = false := by decide
  have same := shows last (by simp [visited, last]) clean
  have rows := congrArg (fun snap => snap.sysctlOverrides.map (·.disposition)) same
  revert rows
  decide

end Inspectah
