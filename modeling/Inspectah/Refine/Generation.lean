import Inspectah.Library.Runs
import Inspectah.Refine.Batch
import Inspectah.Refine.Staging

/-!
The generation number as a guard of exports. Every request but the first preparation of the
upload directory leaves what an export carries or moves to the next one.
-/
namespace Inspectah

open FirstMatch

variable (env : Env)

/-- Some file of the listing belongs to a package that does not claim it yet. -/
def FindsUpload (disk : Disk) (canon : String) (snap : InspectionSnapshot) (names : List String) :
    Prop :=
  ∃ name ∈ names, skipReason disk canon name = none ∧
    (packagesStagedIn disk canon snap).spokenFor.lookup name = none ∧
    (matchUploadedRpm (rpmPackages snap) name).isSome

def MarksOnPreparing (s : RefineSession) (served : Served) : Prop :=
  served.2 = .ensureUploadDir → s.uploadDirCanon = none →
    ∀ dir canon, prepareStaging served.1 s.toSessionCore = .ok (dir, canon) →
      ∃ names, served.1.readDir canon = .ok names ∧ FindsUpload served.1 canon s.original names

def unstaged (p : PackageEntry) : PackageEntry :=
  { p with
    uploaded := false
    repolessCached := false
    cachePath := none
    uploadedVersion := none }

theorem matchUploadedRpm_unstaged (packages : List PackageEntry) (filename : String) :
    matchUploadedRpm (packages.map unstaged) filename = matchUploadedRpm packages filename := by
  have repoless : (packages.map unstaged).filter (fun p => !p.repolessAnnotation.isEmpty) =
      (packages.filter fun p => !p.repolessAnnotation.isEmpty).map unstaged := List.filter_map ..
  unfold matchUploadedRpm
  rw [repoless]
  simp only [List.find?_map, Option.map_map]
  have blind : (fun p => filename == nevraFilename p) ∘ unstaged =
      fun p => filename == nevraFilename p := rfl
  rw [blind]
  cases (packages.filter fun p => !p.repolessAnnotation.isEmpty).find? fun p =>
    filename == nevraFilename p <;> rfl

theorem unstaged_updateFirst (test : PackageEntry → Bool) (path : String) (version : Option String)
    (packages : List PackageEntry) :
    (updateFirst test (stage path version) packages).map unstaged = packages.map unstaged := by
  induction packages with
  | nil => rfl
  | cons p ps ih =>
    by_cases hit : test p
    · rw [updateFirst, if_pos hit]
      rfl
    · rw [updateFirst, if_neg hit, List.map_cons, ih, List.map_cons]

theorem rpmPackages_updatePackage (test : PackageEntry → Bool) (f : PackageEntry → PackageEntry)
    (c : SessionCore) : rpmPackages (c.updatePackage test f).original =
      updateFirst test f (rpmPackages c.original) := by
  unfold SessionCore.updatePackage rpmPackages InspectionSnapshot.onRpm
  cases c.original.rpm <;> rfl

theorem unstaged_recordUploaded (canonical path : String) (version : Option String)
    (c : SessionCore) : (rpmPackages (c.recordUploaded canonical path version).original).map unstaged =
      (rpmPackages c.original).map unstaged := by
  change (rpmPackages (c.updatePackage _ _).original).map unstaged = _
  rw [rpmPackages_updatePackage, unstaged_updateFirst]

theorem recordUploaded_eq (canonical path : String) (version : Option String) (c : SessionCore) :
    ∃ snap prior, c.recordUploaded canonical path version =
      { c with original := snap, priorCache := prior } :=
  ⟨_, _, rfl⟩

section Rescan

/-- What a pass over the listing leaves as it was, and what it counts so far. -/
structure PassOver (c : SessionCore) (found : Prop) (r : Rescan) : Prop where
  core : ∃ snap prior, r.core = { c with original := snap, priorCache := prior }
  packages : (rpmPackages r.core.original).map unstaged = (rpmPackages c.original).map unstaged
  marked : 0 < r.marked ↔ found

variable {c : SessionCore} {found : Prop} {r : Rescan}

theorem PassOver.unmarked (pass : PassOver c found r) {r' : Rescan} (core : r'.core = r.core)
    (marked : r'.marked = r.marked) : PassOver c found r' :=
  ⟨core ▸ pass.core, core ▸ pass.packages, marked ▸ pass.marked⟩

theorem PassOver.entry (pass : PassOver c found r) (disk : Disk) (canon stagedDir : String)
    (spokenFor : KeyedMap String) (name : String) :
    PassOver c (found ∨ (skipReason disk canon name = none ∧ spokenFor.lookup name = none ∧
      (matchUploadedRpm (rpmPackages c.original) name).isSome))
      (rescanEntry disk canon stagedDir spokenFor r name) := by
  have same : matchUploadedRpm (rpmPackages r.core.original) name =
      matchUploadedRpm (rpmPackages c.original) name := by
    rw [← matchUploadedRpm_unstaged, pass.packages, matchUploadedRpm_unstaged]
  unfold rescanEntry
  cases skipped : skipReason disk canon name with
  | some why =>
    simp only [reduceCtorEq, false_and, or_false]
    exact pass.unmarked rfl rfl
  | none =>
    cases spoken : spokenFor.lookup name with
    | some owner =>
      simp only [reduceCtorEq, false_and, and_false, or_false]
      exact pass.unmarked rfl rfl
    | none =>
      dsimp only
      rw [same]
      cases hit : matchUploadedRpm (rpmPackages c.original) name with
      | none =>
        simp only [Option.isSome_none, Bool.false_eq_true, and_false, or_false]
        exact pass
      | some m =>
        obtain ⟨snap, prior, core⟩ := pass.core
        refine ⟨?_, ?_, ?_⟩
        · obtain ⟨snap', prior', recorded⟩ := recordUploaded_eq m.canonical
            (joinPath stagedDir name) m.uploadedVersion r.core
          exact ⟨snap', prior', by dsimp only [Rescan.claim]; rw [recorded, core]⟩
        · dsimp only [Rescan.claim]
          rw [unstaged_recordUploaded]
          exact pass.packages
        · simp [Rescan.claim]

theorem PassOver.entries (pass : PassOver c found r) (disk : Disk) (canon stagedDir : String)
    (spokenFor : KeyedMap String) (names : List String) :
    PassOver c (found ∨ ∃ name ∈ names, skipReason disk canon name = none ∧
        spokenFor.lookup name = none ∧ (matchUploadedRpm (rpmPackages c.original) name).isSome)
      (names.foldl (rescanEntry disk canon stagedDir spokenFor) r) := by
  induction names generalizing found r with
  | nil => simpa using pass
  | cons name names ih =>
    have rest := ih (pass.entry disk canon stagedDir spokenFor name)
    rw [List.foldl_cons]
    simpa only [List.mem_cons, exists_eq_or_imp, or_assoc] using rest

theorem mem_sortedNames {names : List String} {name : String} :
    name ∈ sortedNames names ↔ name ∈ names := by
  simp [sortedNames]

theorem rescanListing_pass (disk : Disk) (canon stagedDir : String) (names : List String)
    (c : SessionCore) :
    PassOver c (FindsUpload disk canon c.original names)
      (rescanListing disk canon stagedDir names c) := by
  have start : PassOver c False
      { core := c, warnings := (packagesStagedIn disk canon c.original).warnings } :=
    ⟨⟨_, _, rfl⟩, rfl, by simp⟩
  have pass := start.entries disk canon stagedDir
    (packagesStagedIn disk canon c.original).spokenFor (sortedNames names)
  simp only [false_or, mem_sortedNames] at pass
  exact pass

end Rescan

/-- A session whose caches were just computed: what changed since is not in them. -/
def Recomputed (s : RefineSession) : Prop :=
  ∃ disk c warnings degraded, s =
    { recomputeView env disk c with
      rescanWarnings := warnings
      durabilityDegraded := degraded }

/-- A request leaves all but viewed marks, the next generation, or a prepared directory at the
    same one. -/
inductive Served.Effect (s : RefineSession) (served : Served) (after : RefineSession) : Prop where
  | kept (viewed : List String) (same : after = { s with viewed := viewed })
      (marks : MarksOnPreparing s served)
  | advanced (next : after.generation = s.generation + 1) (fresh : Recomputed env after)
      (marks : MarksOnPreparing s served)
  | prepared (dir canon : String) (warnings : List String) (asked : served.2 = .ensureUploadDir)
      (first : s.uploadDirCanon = none)
      (ready : prepareStaging served.1 s.toSessionCore = .ok (dir, canon))
      (idle : ∀ names, served.1.readDir canon = .ok names →
        ¬ FindsUpload served.1 canon s.original names)
      (same : after =
        { s with uploadDir := some dir, uploadDirCanon := some canon, rescanWarnings := warnings })

section Effect

variable {env} {s : RefineSession} {disk : Disk}

theorem recomputed_view (env : Env) (disk : Disk) (c : SessionCore) :
    Recomputed env (recomputeView env disk c) :=
  ⟨disk, c, c.rescanWarnings, c.durabilityDegraded, rfl⟩

theorem recomputed_moveTo (env : Env) (disk : Disk) (s : RefineSession)
    (history : UndoHistory.History TimelineEntry) : Recomputed env (s.moveTo env disk history) := by
  obtain ⟨degraded, moved⟩ := moveTo_eq env disk s history
  exact ⟨disk, _, s.rescanWarnings, degraded, moved⟩

theorem ensureUploadDir_effect :
    Served.Effect env s (disk, .ensureUploadDir) (s.ensureUploadDir env disk).session := by
  unfold RefineSession.ensureUploadDir
  cases first : s.uploadDirCanon with
  | some canon =>
    exact .kept s.viewed rfl fun _ unprepared => by rw [first] at unprepared; cases unprepared
  | none =>
    dsimp only
    cases ready : prepareStaging disk s.toSessionCore with
    | error e =>
      refine .kept s.viewed rfl fun _ _ dir canon prepared => ?_
      rw [ready] at prepared
      cases prepared
    | ok paths =>
      obtain ⟨dir, canon⟩ := paths
      dsimp only
      unfold RefineSession.rescanUploadDir
      cases listed : disk.readDir canon with
      | error e =>
        refine .prepared dir canon s.rescanWarnings rfl first ready ?_ rfl
        intro names named
        rw [listed] at named
        cases named
      | ok names =>
        have pass := rescanListing_pass disk canon dir names
          { s.toSessionCore with uploadDir := some dir, uploadDirCanon := some canon }
        dsimp only
        split
        · rename_i e after gone
          split at gone <;> cases gone
        · rename_i warnings after passed
          split at passed
          · rename_i marked
            cases passed
            refine .advanced ?_ ⟨disk, _, _, _, rfl⟩ fun _ _ dir' canon' prepared => ?_
            · obtain ⟨snap, prior, core⟩ := pass.core
              change (rescanListing _ _ _ _ _).core.generation + 1 = _
              rw [core]
            · rw [ready] at prepared
              cases prepared
              exact ⟨names, listed, pass.marked.mp marked⟩
          · rename_i unmarked
            cases passed
            refine .prepared dir canon _ rfl first ready ?_ rfl
            intro names' named
            rw [listed] at named
            cases named
            exact fun finds => unmarked (pass.marked.mpr finds)

theorem unmarkUploadedRpm_effect (name arch : String) :
    Served.Effect env s (disk, .unmarkUploadedRpm name arch)
      (s.unmarkUploadedRpm env disk name arch).session := by
  unfold RefineSession.unmarkUploadedRpm
  split
  · exact .kept s.viewed rfl nofun
  · split
    · exact .kept s.viewed rfl nofun
    · split
      · exact .kept s.viewed rfl nofun
      · exact .advanced rfl (recomputed_view env _ _) nofun

theorem applyDirective_session (directive : ViewDirective) :
    (s.applyDirective env disk directive).session = s ∨
      (s.applyDirective env disk directive).session = s.record env disk (.view directive) := by
  cases directive with
  | ungroupGroup name =>
    unfold RefineSession.applyDirective
    dsimp only
    split
    · exact .inl rfl
    · split
      · exact .inl rfl
      · exact .inr rfl

theorem timeline_effect (env : Env) (request : Request) (other : request ≠ .ensureUploadDir)
    {after : RefineSession} (moves : after = s ∨ ∃ history, after = s.moveTo env disk history) :
    Served.Effect env s (disk, request) after := by
  have marks : MarksOnPreparing s (disk, request) := fun asked => absurd asked other
  rcases moves with rfl | ⟨history, rfl⟩
  · exact .kept after.viewed rfl marks
  · exact .advanced (generation_moveTo history) (recomputed_moveTo env disk s history) marks

theorem undo_moves : (s.undo env disk).session = s ∨
    ∃ history, (s.undo env disk).session = s.moveTo env disk history := by
  unfold RefineSession.undo
  cases s.history.undo with
  | none => exact .inl rfl
  | some history => exact .inr ⟨history, rfl⟩

theorem redo_moves : (s.redo env disk).session = s ∨
    ∃ history, (s.redo env disk).session = s.moveTo env disk history := by
  unfold RefineSession.redo
  cases s.history.redo with
  | none => exact .inl rfl
  | some history => exact .inr ⟨history, rfl⟩

theorem reset_moves : (s.reset env disk).session = s ∨
    ∃ history, (s.reset env disk).session = s.moveTo env disk history := by
  unfold RefineSession.reset
  split
  · exact .inl rfl
  · exact .inr ⟨.empty, rfl⟩

theorem apply_moves (op : RefinementOp) : (s.apply env disk op).session = s ∨
    ∃ history, (s.apply env disk op).session = s.moveTo env disk history := by
  rw [apply_session]
  split
  · exact .inr ⟨_, rfl⟩
  · exact .inl rfl

theorem applyDirective_moves (directive : ViewDirective) :
    (s.applyDirective env disk directive).session = s ∨
      ∃ history, (s.applyDirective env disk directive).session = s.moveTo env disk history :=
  (applyDirective_session directive).imp_right fun moved => ⟨_, moved⟩

theorem applyBatch_moves (ops : List RefinementOp) : (s.applyBatch env disk ops).session = s ∨
    ∃ history, (s.applyBatch env disk ops).session = s.moveTo env disk history := by
  rw [applyBatch_session]
  cases ops.filter fun op => !isLockedInclusion s.original op with
  | nil => exact .inl rfl
  | cons op rest => exact .inr ⟨_, rfl⟩

theorem serve_effect (env : Env) (s : RefineSession) (served : Served) :
    Served.Effect env s served (serve env served s) := by
  obtain ⟨disk, request⟩ := served
  cases request with
  | apply op => exact timeline_effect env (.apply op) nofun (apply_moves op)
  | applyDirective directive =>
    exact timeline_effect env (.applyDirective directive) nofun (applyDirective_moves directive)
  | applyBatch ops => exact timeline_effect env (.applyBatch ops) nofun (applyBatch_moves ops)
  | undo => exact timeline_effect env .undo nofun undo_moves
  | redo => exact timeline_effect env .redo nofun redo_moves
  | reset => exact timeline_effect env .reset nofun reset_moves
  | setUploaded canonical path version => exact .advanced rfl (recomputed_view env disk _) nofun
  | unmarkUploadedRpm name arch => exact unmarkUploadedRpm_effect name arch
  | ensureUploadDir => exact ensureUploadDir_effect
  | markViewed id =>
    change Served.Effect env s _ (s.markViewed id).session
    unfold RefineSession.markViewed
    cases validateViewedId id with
    | error e => exact .kept s.viewed rfl nofun
    | ok _ => exact .kept _ rfl nofun

theorem generation_le_serve (env : Env) (s : RefineSession) (served : Served) :
    s.generation ≤ (serve env served s).generation := by
  rcases serve_effect env s served with
    ⟨_, same, _⟩ | ⟨next, _, _⟩ | ⟨_, _, _, _, _, _, _, same⟩
  · rw [same]
  · omega
  · rw [same]

theorem plan_kept_iff (h : Hashing) (served : Served) :
    ((serve env served s).generation = s.generation → (serve env served s).plan h = s.plan h) ↔
      MarksOnPreparing s served := by
  have effect := serve_effect env s served
  constructor
  · intro kept asked first dir canon ready
    rcases effect with ⟨_, _, marks⟩ | ⟨_, _, marks⟩ | ⟨_, canon', _, _, _, _, _, same⟩
    · exact marks asked first dir canon ready
    · exact marks asked first dir canon ready
    · have lost := kept (by rw [same])
      rw [same] at lost
      have canons : some canon' = s.uploadDirCanon := congrArg ExportPlan.uploadDirCanon lost
      rw [first] at canons
      cases canons
  · intro marks same
    rcases effect with
      ⟨_, after, _⟩ | ⟨next, _, _⟩ | ⟨dir, canon, _, asked, first, ready, idle, after⟩
    · rw [after]
      rfl
    · omega
    · obtain ⟨names, named, finds⟩ := marks asked first dir canon ready
      exact absurd finds (idle names named)

end Effect

theorem exportPlan_current (h : Hashing) (s : RefineSession) :
    s.exportPlan h s.generation = .ok (s.plan h) := by
  simp [RefineSession.exportPlan]

/-- Sessions of one generation export one plan exactly when first preparations find an upload to
    mark. -/
theorem generation_guards_export_iff (s : RefineSession) (calls : List Served) :
    (∀ a ∈ Runs.visited (serve env) s calls, ∀ b ∈ Runs.visited (serve env) s calls,
      a.generation = b.generation →
        a.exportPlan env.toHashing a.generation = b.exportPlan env.toHashing b.generation) ↔
      Runs.Along (serve env) MarksOnPreparing s calls := by
  have guards := Runs.guards_iff (fun s : RefineSession => s.plan env.toHashing)
    (generation_le_serve env) s calls
  rw [Runs.along_congr fun s served => plan_kept_iff env.toHashing served] at guards
  rw [← guards]
  simp only [exportPlan_current, Runs.Guards, Except.ok.injEq]

def tarballSession : RefineSession :=
  { RefineSession.new sampleEnv sampleDisk {} with tarballPath := some "/srv/host.tar.gz" }

/-- Preparing an empty upload directory changes the export at its generation. -/
theorem preparing_empty_dir_changes_export :
    ¬ ∀ a ∈ Runs.visited (serve sampleEnv) tarballSession [(sampleDisk, .ensureUploadDir)],
      ∀ b ∈ Runs.visited (serve sampleEnv) tarballSession [(sampleDisk, .ensureUploadDir)],
        a.generation = b.generation →
          a.exportPlan sampleEnv.toHashing a.generation =
            b.exportPlan sampleEnv.toHashing b.generation := by
  intro guarded
  have first : tarballSession ∈
      Runs.visited (serve sampleEnv) tarballSession [(sampleDisk, .ensureUploadDir)] :=
    Runs.start_visited _ _
  have last : serve sampleEnv (sampleDisk, .ensureUploadDir) tarballSession ∈
      Runs.visited (serve sampleEnv) tarballSession [(sampleDisk, .ensureUploadDir)] :=
    List.mem_cons_of_mem _ (Runs.start_visited _ _)
  have same := guarded _ first _ last (by decide)
  rw [exportPlan_current, exportPlan_current] at same
  have canons := congrArg ExportPlan.uploadDirCanon (Except.ok.inj same)
  revert canons
  decide

end Inspectah
