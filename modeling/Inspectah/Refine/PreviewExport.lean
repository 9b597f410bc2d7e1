import Mathlib.Data.List.Find
import Inspectah.Library.KeyedFold
import Inspectah.Refine.Generation
import Inspectah.Refine.ShownPackages
import Inspectah.Render.ConfigTree
import Inspectah.Render.Inclusion

/-!
The Containerfile a session shows and those it exports. The preview copies the view's
decisions first, an export proves the uploads again, and the download forgets the group
states.
-/
namespace Inspectah

/-- The digest, base64, and the roots of a config tree written to a fresh directory. -/
structure ExportHost where
  digest : String → String
  decode : String → Option String
  tree : List WriteStep → Except String (List String)

namespace ExportHost

variable (host : ExportHost)

def writtenRoots (snap : InspectionSnapshot) : Except String (List String) :=
  host.tree (writeConfigTree host.decode snap)

def render (roots : List String) (orig : TextMap Bool) (ctx : RenderContext)
    (snap : InspectionSnapshot) : String :=
  renderContainerfile
    { digest := host.digest
      materializedRoots := some roots
      originalIncludes := some orig
      ctx := some ctx } snap

def preview (snap : InspectionSnapshot) (orig : TextMap Bool) (ctx : RenderContext) : String :=
  host.render ((host.writtenRoots snap).toOption.getD []) orig ctx snap

end ExportHost

def ExportPlan.withoutRenderContext (plan : ExportPlan) : ExportPlan :=
  { plan with renderCtx := ⟨∅, ∅⟩ }

/-- The Containerfile of the tarball, unless its config tree cannot be written. -/
def ExportPlan.containerfile (host : ExportHost) (disk : Disk) (plan : ExportPlan) :
    Option String :=
  let proved := proveStagedUploads disk plan.uploadDirCanon (rpmPackages plan.projected)
  (host.writtenRoots plan.projected).toOption.map fun roots =>
    host.render roots plan.originalIncludes ⟨plan.renderCtx.groupStates, verifiedUploads proved⟩
      plan.projected

/-- The tarballs of the session's plan and of the download hold the Containerfile shown. -/
structure PreviewExported (host : ExportHost) (env : Env) (disk : Disk) (s : RefineSession) :
    Prop where
  direct : ∀ plan text, s.exportPlan env.toHashing s.generation = .ok plan →
    plan.containerfile host disk = some text → text = s.cachedView.containerfilePreview
  route : ∀ plan text, s.exportPlan env.toHashing s.generation = .ok plan →
    plan.withoutRenderContext.containerfile host disk = some text →
      text = s.cachedView.containerfilePreview

def RowsAlike (rows : List PackageEntry) : Prop :=
  ∀ p ∈ rows, ∀ lead, leadRow rows p = some lead →
    lead.disposition.isIncluded = p.disposition.isIncluded ∧ lead.locked = p.locked

def IdsApart (rows : List PackageEntry) : Prop :=
  ∀ p ∈ rows, ∀ q ∈ rows, packageId p = packageId q → p.name = q.name ∧ p.arch = q.arch

instance (rows : List PackageEntry) : Decidable (IdsApart rows) :=
  inferInstanceAs (Decidable (∀ p ∈ rows, ∀ q ∈ rows,
    packageId p = packageId q → p.name = q.name ∧ p.arch = q.arch))

def GroupSilent (states : TextMap GroupRenderState) (g : InstalledGroup) : Prop :=
  ∀ state, states.lookup g.name = some state →
    state ≠ .renderable ∧ ∀ reason, state ≠ .degraded reason

structure ShownPlainly (h : Hashing) (s : RefineSession) : Prop where
  alike : RowsAlike (rpmPackages (s.projected h))
  apart : IdsApart (rpmPackages s.original)
  silent : ∀ rpm, (s.projected h).rpm = some rpm → ∀ g ∈ rpm.installedGroups.getD [],
    GroupSilent s.cachedRenderContext.groupStates g

theorem last_of_name {rows : List PackageEntry} (apart : IdsApart rows) {p : PackageEntry}
    (mem : p ∈ rows) :
    rows.reverse.find? (fun q => (q.name, q.arch) == (p.name, p.arch)) =
      rows.reverse.find? fun q => packageId q == packageId p := by
  apply List.find?_congr
  intro q there
  have same : (q.name, q.arch) = (p.name, p.arch) ↔ packageId q = packageId p := by
    refine ⟨fun pair => ?_, fun ids => ?_⟩
    · obtain ⟨name, arch⟩ := Prod.mk.inj pair
      rw [packageId, packageId, name, arch]
    · obtain ⟨name, arch⟩ := apart q (List.mem_reverse.mp there) p mem ids
      rw [name, arch]
  exact Bool.eq_iff_iff.mpr (by rw [beq_iff_eq, beq_iff_eq, same])

theorem previewIncludes_eq (order : HashOrder.Order) {original : InspectionSnapshot}
    (apart : IdsApart (rpmPackages original)) :
    previewIncludes order original = originalIncludes original := by
  apply Finmap.ext_lookup
  intro id
  rw [previewIncludes, originalIncludes, KeyedFold.lookup_finmap_foldl_insert,
    KeyedFold.lookup_finmap_foldl_insert]
  generalize rpmPackages original = rows at apart
  have entries : ∀ e, e ∈ order.iter
        (rows.foldl (fun (m : AList fun _ : String × String => Bool) p =>
          m.insert (p.name, p.arch) p.disposition.isIncluded) ∅).entries ↔
      ∃ p, rows.reverse.find? (fun q => (q.name, q.arch) == e.1) = some p ∧
        p.disposition.isIncluded = e.2 := fun e =>
    (HashOrder.mem_iter order).trans KeyedFold.mem_entries_foldl_insert
  generalize order.iter _ = table at entries
  cases last : rows.reverse.find? fun p => packageId p == id with
  | none =>
    have absent : table.reverse.find? (fun e => canonicalPackageId e.1.1 e.1.2 == id) = none := by
      rw [List.find?_eq_none]
      intro e mem hit
      obtain ⟨p, found, -⟩ := (entries e).mp (List.mem_reverse.mp mem)
      have own := List.find?_eq_none.mp last p (List.mem_of_find?_eq_some found)
      have pair : (p.name, p.arch) = e.1 := by simpa using List.find?_some found
      rw [packageId, show p.name = e.1.1 from congrArg Prod.fst pair,
        show p.arch = e.1.2 from congrArg Prod.snd pair] at own
      exact own hit
    rw [absent]
    rfl
  | some p =>
    have ids : packageId p = id := by simpa using List.find?_some last
    have there := List.mem_reverse.mp (List.mem_of_find?_eq_some last)
    have own := (last_of_name apart there).trans (ids ▸ last)
    have values : ∀ e ∈ table, canonicalPackageId e.1.1 e.1.2 = id →
        e.2 = p.disposition.isIncluded := by
      intro e mem hit
      obtain ⟨q, found, value⟩ := (entries e).mp mem
      have pair : (q.name, q.arch) = e.1 := by simpa using List.find?_some found
      have alike := apart q (List.mem_reverse.mp (List.mem_of_find?_eq_some found)) p there
        (by rw [packageId, ids, ← hit, ← pair])
      rw [← pair, alike.1, alike.2, own] at found
      rw [← value, Option.some.inj found]
    have listed := (entries ⟨(p.name, p.arch), p.disposition.isIncluded⟩).mpr ⟨p, own, rfl⟩
    obtain ⟨e, found⟩ := FirstMatch.exists_find
      (p := fun e : Sigma fun _ : String × String => Bool => canonicalPackageId e.1.1 e.1.2 == id)
      (List.mem_reverse.mpr listed) (beq_iff_eq.mpr ids)
    have hit : canonicalPackageId e.1.1 e.1.2 = id := by simpa using List.find?_some found
    rw [found, Option.map_some, Option.map_some,
      values e (List.mem_reverse.mp (List.mem_of_find?_eq_some found)) hit]

theorem shownPackages_alike {rows : List PackageEntry} (alike : RowsAlike rows) :
    shownPackages rows = rows.map asDecided := by
  refine List.map_congr_left fun p mem => ?_
  obtain ⟨lead, led, -, -⟩ := leadRow_some mem
  obtain ⟨included, locked⟩ := alike p mem lead led
  rw [led, standAs, asDecided, included, locked]

theorem onPackages_congr {snap : InspectionSnapshot} {rpm : RpmSection}
    (found : snap.rpm = some rpm) {f g : RpmSection → List PackageEntry} (same : f rpm = g rpm) :
    (snap.onRpm fun rpm => { rpm with packagesAdded := f rpm }) =
      snap.onRpm fun rpm => { rpm with packagesAdded := g rpm } := by
  rw [InspectionSnapshot.onRpm, InspectionSnapshot.onRpm, found, Option.map_some, Option.map_some,
    same]

theorem rpmPackages_onPackages {snap : InspectionSnapshot} {rpm : RpmSection}
    (found : snap.rpm = some rpm) (f : RpmSection → List PackageEntry) :
    rpmPackages (snap.onRpm fun rpm => { rpm with packagesAdded := f rpm }) = f rpm := by
  rw [rpmPackages, InspectionSnapshot.onRpm, found]
  rfl

theorem shown_decided {h : Hashing} {c : SessionCore}
    (alike : RowsAlike (rpmPackages (c.projected h))) :
    (viewParts h c).shown = (c.projected h).decided := by
  rw [viewParts]
  dsimp only
  generalize c.projected h = snap at alike
  rw [classifyPackages]
  cases found : snap.rpm with
  | none =>
    rw [decided_none found, syncClassified, InspectionSnapshot.onRpm, found, Option.map_none,
      ← found]
  | some rpm =>
    have rows : rpmPackages snap = rpm.packagesAdded := by rw [rpmPackages, found]; rfl
    have shown := (syncClassified_rows c.refineMode snap rpm found).trans
      (shownPackages_alike (rows ▸ alike))
    rw [syncClassified, rpmPackages_onPackages found] at shown
    dsimp only
    rw [List.map_map, List.map_map, rows]
    exact onPackages_congr found shown

theorem writeConfigTree_decided (decode : String → Option String) (snap : InspectionSnapshot) :
    writeConfigTree decode snap.decided = writeConfigTree decode snap := by
  have files : sectionFiles snap.decided = sectionFiles snap := by
    rw [sectionFiles, InspectionSnapshot.decided, InspectionSnapshot.onRpm]
    cases found : snap.rpm <;> rw [sectionFiles, found] <;> rfl
  unfold writeConfigTree
  rw [files]
  rfl

theorem preview_decided (host : ExportHost) (snap : InspectionSnapshot) (orig : TextMap Bool)
    (ctx : RenderContext) : host.preview snap.decided orig ctx = host.preview snap orig ctx := by
  rw [ExportHost.preview, ExportHost.preview, ExportHost.writtenRoots, ExportHost.writtenRoots,
    writeConfigTree_decided, ExportHost.render, ExportHost.render, renderContainerfile_decided]

theorem proveStagedUploads_decided (disk : Disk) (canon : Option String)
    (rows : List PackageEntry) :
    proveStagedUploads disk canon (rows.map asDecided) = proveStagedUploads disk canon rows := by
  have claims : ∀ p, ((asDecided p).uploaded && (asDecided p).disposition.isIncluded) =
      (p.uploaded && p.disposition.isIncluded) := fun p => by rw [isIncluded_asDecided]; rfl
  unfold proveStagedUploads
  rw [filter_asDecided claims, filterMap_asDecided fun _ => rfl]

section Silent

variable {rpm : RpmSection} {states : TextMap GroupRenderState} {verified : TextMap VerifiedUpload}
variable {orig : Option (TextMap Bool)}

theorem renderableGroups_silent (silent : ∀ g ∈ rpm.installedGroups.getD [], GroupSilent states g) :
    renderableGroups rpm (some ⟨states, verified⟩) = renderableGroups rpm (some ⟨∅, verified⟩) := by
  refine congrArg sortGroups (List.filter_congr fun g mem => ?_)
  have unsaid : groupStateOf (some ⟨states, verified⟩) g.name ≠ some .renderable :=
    fun said => (silent g mem _ said).1 rfl
  have unknown : groupStateOf (some ⟨∅, verified⟩) g.name = none := Finmap.lookup_empty _
  rw [unknown, beq_eq_false_iff_ne.mpr unsaid]
  rfl

theorem provenanceSection_silent
    (silent : ∀ g ∈ rpm.installedGroups.getD [], GroupSilent states g) :
    provenanceSection rpm (some ⟨states, verified⟩) =
      provenanceSection rpm (some ⟨∅, verified⟩) := by
  have each : ∀ g ∈ sortGroups (rpm.installedGroups.getD []),
      groupProvenance (some ⟨states, verified⟩) g = groupProvenance (some ⟨∅, verified⟩) g := by
    intro g mem
    have unknown : groupStateOf (some ⟨∅, verified⟩) g.name = none := Finmap.lookup_empty _
    rw [groupProvenance, groupProvenance, unknown]
    refine congrArg (· ++ _) ?_
    cases said : groupStateOf (some ⟨states, verified⟩) g.name with
    | none => rfl
    | some state =>
      have quiet := (silent g ((List.mem_insertionSort _).mp mem) state said).2
      cases state with
      | degraded reason => exact absurd rfl (quiet reason)
      | _ => rfl
  have lines := List.flatMap_congr each
  unfold provenanceSection knownGroups
  dsimp only
  rw [lines]

theorem rpmLines_silent (snap : InspectionSnapshot)
    (silent : ∀ g ∈ rpm.installedGroups.getD [], GroupSilent states g) :
    rpmLines snap rpm orig (some ⟨states, verified⟩) =
      rpmLines snap rpm orig (some ⟨∅, verified⟩) := by
  unfold rpmLines namedPackages
  rw [renderableGroups_silent silent, provenanceSection_silent silent]

theorem renderContainerfile_silent (digest : String → String) (roots : Option (List String))
    {snap : InspectionSnapshot} (silent : ∀ rpm, snap.rpm = some rpm →
      ∀ g ∈ rpm.installedGroups.getD [], GroupSilent states g) :
    renderContainerfile ⟨digest, roots, orig, some ⟨states, verified⟩⟩ snap =
      renderContainerfile ⟨digest, roots, orig, some ⟨∅, verified⟩⟩ snap := by
  have packages :
      packagesSectionLines snap (baseImageFromSnapshot snap) orig (some ⟨states, verified⟩) =
        packagesSectionLines snap (baseImageFromSnapshot snap) orig (some ⟨∅, verified⟩) := by
    cases found : snap.rpm with
    | none => rw [packagesSectionLines, packagesSectionLines, found]
    | some rpm =>
      rw [packagesSectionLines, packagesSectionLines, found]
      exact congrArg _ (rpmLines_silent snap (silent rpm found))
  unfold renderContainerfile renderContainerfileLines
  dsimp only
  rw [packages]
  rfl

end Silent

structure Watched where
  session : RefineSession
  disk : Disk

/-- The disk a request leaves: a removal takes the staged file away. -/
def Served.leaves (s : RefineSession) (served : Served) : Disk :=
  match served.2 with
  | .unmarkUploadedRpm name arch =>
    match (rpmPackages s.original).find? fun p => p.name == name && p.arch == arch with
    | none => served.1
    | some pkg => (removeStaged served.1 s.toSessionCore pkg.cachePath).toOption.getD served.1
  | _ => served.1

/-- A view is computed when the generation moves on. -/
def watch (env : Env) (served : Served) (w : Watched) : Watched :=
  let after := serve env served w.session
  ⟨after, if after.generation = w.session.generation then w.disk else served.leaves w.session⟩

inductive Opened (env : Env) : Watched → Prop
  | new (disk : Disk) (snap : InspectionSnapshot) (tarball : Option String) :
    Opened env ⟨{ RefineSession.new env disk snap with tarballPath := tarball }, disk⟩
  | resume (disk : Disk) (snap : InspectionSnapshot) (tarball : String)
      (timeline : List TimelineEntry) (cursor : Nat) :
    Opened env ⟨RefineSession.resume env disk snap tarball timeline cursor, disk⟩

def PreparesUnclaimed (env : Env) (w : Watched) (served : Served) : Prop :=
  served.2 = .ensureUploadDir → w.session.uploadDirCanon = none →
    ∀ dir canon, prepareStaging served.1 w.session.toSessionCore = .ok (dir, canon) →
      (∃ names, served.1.readDir canon = .ok names ∧
        FindsUpload served.1 canon w.session.original names) ∨
      proveStagedUploads w.disk (some canon)
        (rpmPackages (viewParts env.toHashing w.session.toSessionCore).shown) = []

structure SameStaged (a b : Disk) : Prop where
  parents : a.parentOf = b.parentOf
  files : a.probeFile = b.probeFile

theorem SameStaged.refl (disk : Disk) : SameStaged disk disk := ⟨rfl, rfl⟩

/-- What the view shows is what would be computed now, on its own disk. -/
structure ViewHeld (env : Env) (w : Watched) : Prop where
  preview : w.session.cachedView.containerfilePreview =
    env.preview (viewParts env.toHashing w.session.toSessionCore).shown
      (previewIncludes env.order w.session.original) w.session.cachedRenderContext
  uploads : w.session.cachedRenderContext.verifiedUploads =
    verifiedUploads (proveStagedUploads w.disk w.session.uploadDirCanon
      (rpmPackages (viewParts env.toHashing w.session.toSessionCore).shown))

section Runs

variable {env : Env} {s : RefineSession} {disk : Disk}

def RecomputedOn (env : Env) (disk : Disk) (s : RefineSession) : Prop :=
  ∃ c tarball warnings degraded, s =
    { recomputeView env disk c with
      tarballPath := tarball
      rescanWarnings := warnings
      durabilityDegraded := degraded }

theorem RecomputedOn.held (fresh : RecomputedOn env disk s) : ViewHeld env ⟨s, disk⟩ := by
  obtain ⟨c, tarball, warnings, degraded, rfl⟩ := fresh
  exact ⟨rfl, rfl⟩

theorem recomputedOn_moveTo (history : UndoHistory.History TimelineEntry) :
    RecomputedOn env disk (s.moveTo env disk history) := by
  obtain ⟨degraded, moved⟩ := moveTo_eq env disk s history
  exact ⟨_, s.tarballPath, s.rescanWarnings, degraded, moved⟩

theorem recomputedOn_view (env : Env) (disk : Disk) (c : SessionCore) :
    RecomputedOn env disk (recomputeView env disk c) :=
  ⟨c, c.tarballPath, c.rescanWarnings, c.durabilityDegraded, rfl⟩

theorem Opened.held {w : Watched} (opened : Opened env w) : ViewHeld env w := by
  cases opened with
  | new disk snap tarball =>
    exact RecomputedOn.held ⟨openSnapshot snap, tarball, _, _, rfl⟩
  | resume disk snap tarball timeline cursor =>
    refine RecomputedOn.held ?_
    rw [RefineSession.resume]
    let fresh := openSnapshot (RefineSession.new env disk snap).original
    obtain ⟨degraded, saved⟩ := tryAutosave_eq disk.autosaveFails (recomputeView env disk
      { fresh with
        tarballPath := some tarball
        history := restoredHistory timeline cursor })
    exact ⟨_, _, _, degraded, saved⟩

theorem moved_recomputed {request : Request} {after : RefineSession}
    (leaves : Served.leaves s (disk, request) = disk)
    (moves : after = s ∨ ∃ history, after = s.moveTo env disk history)
    (next : after.generation ≠ s.generation) :
    RecomputedOn env (Served.leaves s (disk, request)) after := by
  rw [leaves]
  obtain rfl | ⟨history, rfl⟩ := moves
  · exact absurd rfl next
  · exact recomputedOn_moveTo history

theorem ensured_recomputed
    (next : (s.ensureUploadDir env disk).session.generation ≠ s.generation) :
    RecomputedOn env disk (s.ensureUploadDir env disk).session := by
  unfold RefineSession.ensureUploadDir at next ⊢
  cases first : s.uploadDirCanon with
  | some canon => simp [first] at next
  | none =>
    rw [first] at next
    dsimp only at next ⊢
    cases ready : prepareStaging disk s.toSessionCore with
    | error e => simp [ready] at next
    | ok paths =>
      obtain ⟨dir, canon⟩ := paths
      rw [ready] at next
      dsimp only at next ⊢
      unfold RefineSession.rescanUploadDir at next ⊢
      cases listed : disk.readDir canon with
      | error e => simp [listed] at next
      | ok names =>
        rw [listed] at next
        dsimp only at next ⊢
        split at next
        · rename_i passed
          split at passed <;> cases passed
        · rename_i passed
          split at passed
          · cases passed
            exact ⟨_, _, _, _, rfl⟩
          · cases passed
            exact absurd rfl next

theorem unmarked_recomputed {name arch : String}
    (next : (s.unmarkUploadedRpm env disk name arch).session.generation ≠ s.generation) :
    RecomputedOn env (Served.leaves s (disk, .unmarkUploadedRpm name arch))
      (s.unmarkUploadedRpm env disk name arch).session := by
  unfold RefineSession.unmarkUploadedRpm at next ⊢
  unfold Served.leaves
  dsimp only
  cases found : (rpmPackages s.original).find? fun p => p.name == name && p.arch == arch with
  | none => simp [found] at next
  | some pkg =>
    rw [found] at next
    dsimp only at next ⊢
    by_cases claimed : pkg.uploaded
    · simp only [claimed, Bool.not_true, Bool.false_eq_true, if_false] at next ⊢
      cases removed : removeStaged disk s.toSessionCore pkg.cachePath with
      | error e => simp [removed] at next
      | ok left => exact recomputedOn_view env left _
    · simp [claimed] at next

theorem serve_recomputed (served : Served)
    (next : (serve env served s).generation ≠ s.generation) :
    RecomputedOn env (served.leaves s) (serve env served s) := by
  obtain ⟨disk, request⟩ := served
  cases request with
  | apply op => exact moved_recomputed rfl (apply_moves op) next
  | applyDirective directive => exact moved_recomputed rfl (applyDirective_moves directive) next
  | applyBatch ops => exact moved_recomputed rfl (applyBatch_moves ops) next
  | undo => exact moved_recomputed rfl undo_moves next
  | redo => exact moved_recomputed rfl redo_moves next
  | reset => exact moved_recomputed rfl reset_moves next
  | setUploaded canonical path version => exact recomputedOn_view env disk _
  | unmarkUploadedRpm name arch => exact unmarked_recomputed next
  | ensureUploadDir => exact ensured_recomputed next
  | markViewed id =>
    refine absurd ?_ next
    change (s.markViewed id).session.generation = _
    unfold RefineSession.markViewed
    cases validateViewedId id <;> rfl

theorem ViewHeld.watch {w : Watched} (held : ViewHeld env w) {served : Served}
    (quiet : PreparesUnclaimed env w served) : ViewHeld env (watch env served w) := by
  unfold Inspectah.watch
  dsimp only
  by_cases same : (serve env served w.session).generation = w.session.generation
  · rw [if_pos same]
    rcases serve_effect env w.session served with
      ⟨viewed, after, -⟩ | ⟨next, -, -⟩ | ⟨dir, canon, warnings, asked, first, ready, idle, after⟩
    · rw [after]
      exact ⟨held.preview, held.uploads⟩
    · omega
    · rw [after]
      refine ⟨held.preview, ?_⟩
      obtain ⟨names, listed, finds⟩ | unclaimed := quiet asked first dir canon ready
      · exact absurd finds (idle names listed)
      · refine held.uploads.trans (congrArg verifiedUploads ?_)
        refine Eq.trans ?_ unclaimed.symm
        rw [first]
        exact List.filterMap_eq_nil_iff.mpr fun _ _ => rfl
  · rw [if_neg same]
    exact (serve_recomputed served same).held

end Runs

section Exported

variable {env : Env} {disk : Disk} {w : Watched}

theorem verifyStagedUpload_same {a b : Disk} (same : SameStaged a b) :
    verifyStagedUpload a = verifyStagedUpload b := by
  funext canon pkg
  unfold verifyStagedUpload
  rw [same.parents, same.files]

theorem proved_again (held : ViewHeld env w) (same : SameStaged disk w.disk)
    (alike : RowsAlike (rpmPackages (w.session.projected env.toHashing))) :
    verifiedUploads (proveStagedUploads disk w.session.uploadDirCanon
      (rpmPackages (w.session.projected env.toHashing))) =
        w.session.cachedRenderContext.verifiedUploads := by
  have rows : rpmPackages (viewParts env.toHashing w.session.toSessionCore).shown =
      (rpmPackages (w.session.projected env.toHashing)).map asDecided := by
    rw [rpmPackages_shown, shownPackages_alike alike]
  rw [held.uploads, rows, proveStagedUploads_decided]
  unfold proveStagedUploads
  rw [verifyStagedUpload_same same]

variable {host : ExportHost} {plan : ExportPlan} {text : String}

theorem containerfile_preview
    (uploads : verifiedUploads (proveStagedUploads disk plan.uploadDirCanon
      (rpmPackages plan.projected)) = plan.renderCtx.verifiedUploads)
    (written : plan.containerfile host disk = some text) :
    text = host.preview plan.projected plan.originalIncludes plan.renderCtx := by
  unfold ExportPlan.containerfile at written
  dsimp only at written
  obtain ⟨roots, tree, rfl⟩ := Option.map_eq_some_iff.mp written
  rw [uploads, ExportHost.preview, tree]
  rfl

theorem preview_shown (renders : env.preview = host.preview) (held : ViewHeld env w)
    (alike : RowsAlike (rpmPackages (w.session.projected env.toHashing)))
    (apart : IdsApart (rpmPackages w.session.original)) :
    w.session.cachedView.containerfilePreview = host.preview (w.session.projected env.toHashing)
      (originalIncludes w.session.original) w.session.cachedRenderContext := by
  rw [held.preview, renders, shown_decided alike, previewIncludes_eq _ apart, preview_decided]

theorem containerfile_silent (silent : ∀ rpm, plan.projected.rpm = some rpm →
      ∀ g ∈ rpm.installedGroups.getD [], GroupSilent plan.renderCtx.groupStates g) :
    plan.withoutRenderContext.containerfile host disk = plan.containerfile host disk := by
  unfold ExportPlan.containerfile ExportPlan.withoutRenderContext
  dsimp only
  refine congrArg (fun render => Option.map render _) (funext fun roots => ?_)
  exact (renderContainerfile_silent host.digest (some roots) silent).symm

theorem exported_of_held (renders : env.preview = host.preview) (held : ViewHeld env w)
    (same : SameStaged disk w.disk) (plain : ShownPlainly env.toHashing w.session) :
    PreviewExported host env disk w.session := by
  have uploads := proved_again held same plain.alike
  have shown := preview_shown renders held plain.alike plain.apart
  have direct : ∀ text, (w.session.plan env.toHashing).containerfile host disk = some text →
      text = w.session.cachedView.containerfilePreview :=
    fun text written => (containerfile_preview uploads written).trans shown.symm
  constructor
  · intro plan text planned written
    rw [exportPlan_current] at planned
    cases planned
    exact direct text written
  · intro plan text planned written
    rw [exportPlan_current] at planned
    cases planned
    rw [containerfile_silent plain.silent] at written
    exact direct text written

/-- A session shown plainly is exported as shown, if no preparation proved a claim the view left
    out. -/
theorem preview_exported (renders : env.preview = host.preview) {start : Watched}
    (opened : Opened env start) {calls : List Served}
    (quiet : Runs.Along (watch env) (PreparesUnclaimed env) start calls) :
    ∀ w ∈ Runs.visited (watch env) start calls, ∀ disk, SameStaged disk w.disk →
      ShownPlainly env.toHashing w.session → PreviewExported host env disk w.session := by
  intro w visited disk same plain
  have keeps : ∀ w served, PreparesUnclaimed env w served → ViewHeld env w →
      ViewHeld env (watch env served w) := fun _ _ quiet held => held.watch quiet
  have held := Runs.along_invariant keeps opened.held quiet w visited
  exact exported_of_held renders held same plain

end Exported

def plainHost : ExportHost := ⟨sampleDigest, some, fun _ => .ok []⟩

def plainEnv : Env := { sampleEnv with preview := plainHost.preview }

theorem plainEnv_preview : plainEnv.preview = plainHost.preview := by rw [plainEnv]

def openedPackages (rpm : RpmSection) : Watched :=
  ⟨{ RefineSession.new plainEnv sampleDisk { rpm := some rpm } with
      tarballPath := some "/srv/host.tar.gz" }, sampleDisk⟩

theorem openedPackages_opened (rpm : RpmSection) : Opened plainEnv (openedPackages rpm) :=
  .new sampleDisk { rpm := some rpm } (some "/srv/host.tar.gz")

def appstreamPackage (name version : String) : PackageEntry :=
  { name := name, version := version, arch := "x86_64", sourceRepo := "appstream" }

def includeItem (item : ItemId) : Served := (sampleDisk, .apply (.setInclude item true))

def included (rpm : RpmSection) (item : ItemId) : Watched :=
  watch plainEnv (includeItem item) (openedPackages rpm)

theorem rowsAlike_of_once {rows : List PackageEntry} (once : (rows.map packageId).Nodup) :
    RowsAlike rows := by
  intro p mem lead led
  rw [leadRow_own once mem] at led
  cases led
  exact ⟨rfl, rfl⟩

def compilerSection : RpmSection where
  packagesAdded := [appstreamPackage "gcc" "14.2", appstreamPackage "gdb" "15.1"]

theorem compiler_plain : ShownPlainly plainEnv.toHashing
    (included compilerSection (.package "gcc" "x86_64")).session := by
  refine ⟨rowsAlike_of_once (by decide +kernel), by decide +kernel, ?_⟩
  have groupless : ((included compilerSection (.package "gcc" "x86_64")).session.projected
      plainEnv.toHashing).rpm.bind (·.installedGroups) = none := by decide +kernel
  intro rpm found g mem
  rw [found, Option.bind_some] at groupless
  rw [groupless] at mem
  exact absurd mem List.not_mem_nil

/-- A package included on a host without groups. -/
theorem compiler_exported : PreviewExported plainHost plainEnv
    (included compilerSection (.package "gcc" "x86_64")).disk
    (included compilerSection (.package "gcc" "x86_64")).session := by
  have quiet : Runs.Along (watch plainEnv) (PreparesUnclaimed plainEnv)
      (openedPackages compilerSection) [includeItem (.package "gcc" "x86_64")] :=
    ⟨nofun, trivial⟩
  have reached : included compilerSection (.package "gcc" "x86_64") ∈ Runs.visited (watch plainEnv)
      (openedPackages compilerSection) [includeItem (.package "gcc" "x86_64")] :=
    Runs.step_visited _ _ _
  exact preview_exported plainEnv_preview (openedPackages_opened compilerSection) quiet _ reached _
    (SameStaged.refl _) compiler_plain

def toolsSection : RpmSection where
  packagesAdded := [appstreamPackage "gcc" "14.2"]
  installedGroups := some [{ name := "Tools", members := ["gcc"] }]

/-- Two versions of one package; an inclusion reaches the first. -/
def kernelSection : RpmSection where
  packagesAdded := [appstreamPackage "kernel" "6.12", appstreamPackage "kernel" "6.13"]

/-- The download names the member where the preview installs the group; with both versions
    included, the session's plan exports the first. -/
theorem download_drops_group :
    ¬PreviewExported plainHost plainEnv sampleDisk
      (included toolsSection (.group "Tools")).session ∧
    ¬PreviewExported plainHost plainEnv sampleDisk
      (included kernelSection (.package "kernel" "x86_64")).session := by
  constructor
  · intro exported
    have same := exported.route _ _ (exportPlan_current _ _) rfl
    revert same
    decide +kernel
  · intro exported
    have same := exported.direct _ _ (exportPlan_current _ _) rfl
    revert same
    decide +kernel

end Inspectah
