import Inspectah.Refine.UndoRedo

/-!
Removing an upload. A session records and removes; through both a package is as it was or
staged, with what it displaced kept for its removal.
-/
namespace Inspectah

open FirstMatch

structure StagingState where
  packages : List PackageEntry
  priorCache : KeyedMap PriorCache

def stagingOf (c : SessionCore) : StagingState := ⟨rpmPackages c.original, c.priorCache⟩

inductive StagingMove where
  | record (canonical path : String) (version : Option String)
  | remove (name arch : String)

def isStaged (name arch : String) (p : PackageEntry) : Bool :=
  p.name == name && p.arch == arch && p.uploaded

def StagingMove.run (st : StagingState) : StagingMove → StagingState
  | .record canonical path version =>
    let prior := (st.packages.find? (isCanonical canonical)).bind displaced
    { packages := updateFirst (isCanonical canonical) (stage path version) st.packages
      priorCache := (prior.map fun p => st.priorCache.insert canonical p).getD st.priorCache }
  | .remove name arch =>
    let canonical := canonicalPackageId name arch
    { packages := updateFirst (isStaged name arch) (unstage (st.priorCache.lookup canonical)) st.packages
      priorCache := st.priorCache.erase canonical }

theorem stagingOf_recordUploaded (canonical path : String) (version : Option String) (c : SessionCore) :
    stagingOf (c.recordUploaded canonical path version) =
      StagingMove.run (stagingOf c) (.record canonical path version) := by
  have packages : rpmPackages (c.recordUploaded canonical path version).original =
      updateFirst (isCanonical canonical) (stage path version) (rpmPackages c.original) :=
    rpmPackages_updatePackage _ _ c
  rw [stagingOf, packages]
  rfl

structure MovesOf (request : Request) (before after : StagingState) (moves : List StagingMove) : Prop where
  run : after = moves.foldl StagingMove.run before
  removes : ∀ name arch, .remove name arch ∈ moves →
    request = .unmarkUploadedRpm name arch ∧ ∃ p ∈ before.packages, p.name = name ∧ p.arch = arch

section Moves

variable {env : Env} {disk : Disk} {s : RefineSession}

theorem movesOf_nil (request : Request) (st : StagingState) : MovesOf request st st [] :=
  ⟨rfl, fun _ _ mem => absurd mem List.not_mem_nil⟩

theorem stagingOf_moves {after : RefineSession}
    (moves : after = s ∨ ∃ history, after = s.moveTo env disk history) :
    stagingOf after.toSessionCore = stagingOf s.toSessionCore := by
  rcases moves with rfl | ⟨history, rfl⟩
  · rfl
  · obtain ⟨_, core⟩ := toSessionCore_moveTo env disk s history
    rw [core]
    rfl

theorem rescanListing_moves (disk : Disk) (canon stagedDir : String) (names : List String)
    (c : SessionCore) : ∃ moves, MovesOf .ensureUploadDir (stagingOf c)
      (stagingOf (rescanListing disk canon stagedDir names c).core) moves := by
  have entry : ∀ (spokenFor : KeyedMap String) (r : Rescan) (name : String),
      ∃ moves : List StagingMove, (∀ m ∈ moves, ∃ canonical path version, m = .record canonical path version) ∧
        stagingOf (rescanEntry disk canon stagedDir spokenFor r name).core =
          moves.foldl StagingMove.run (stagingOf r.core) := by
    intro spokenFor r name
    unfold rescanEntry
    split
    · exact ⟨[], by simp, rfl⟩
    · split
      · exact ⟨[], by simp, rfl⟩
      · split
        · exact ⟨[], by simp, rfl⟩
        · rename_i found _
          refine ⟨[.record found.canonical (joinPath stagedDir name) found.uploadedVersion], by simp, ?_⟩
          exact stagingOf_recordUploaded _ _ _ _
  have pass : ∀ (spokenFor : KeyedMap String) (sorted : List String) (r : Rescan),
      ∃ moves : List StagingMove, (∀ m ∈ moves, ∃ canonical path version, m = .record canonical path version) ∧
        stagingOf (sorted.foldl (rescanEntry disk canon stagedDir spokenFor) r).core =
          moves.foldl StagingMove.run (stagingOf r.core) := by
    intro spokenFor sorted
    induction sorted with
    | nil => exact fun r => ⟨[], by simp, rfl⟩
    | cons name rest ih =>
      intro r
      obtain ⟨first, records, made⟩ := entry spokenFor r name
      obtain ⟨more, records', made'⟩ := ih (rescanEntry disk canon stagedDir spokenFor r name)
      refine ⟨first ++ more, ?_, ?_⟩
      · intro m mem
        rcases List.mem_append.mp mem with here | later
        · exact records m here
        · exact records' m later
      · rw [List.foldl_append, ← made]
        exact made'
  obtain ⟨moves, records, made⟩ := pass (packagesStagedIn disk canon c.original).spokenFor
    (sortedNames names) { core := c, warnings := (packagesStagedIn disk canon c.original).warnings }
  refine ⟨moves, made, fun name arch mem => ?_⟩
  obtain ⟨_, _, _, same⟩ := records _ mem
  cases same

theorem unmarkUploadedRpm_cases (env : Env) (disk : Disk) (s : RefineSession) (name arch : String) :
    ((s.unmarkUploadedRpm env disk name arch).session = s ∧
      (s.unmarkUploadedRpm env disk name arch).result ≠ .ok .removed) ∨
    ((s.unmarkUploadedRpm env disk name arch).result = .ok .removed ∧
      (∃ p, ((rpmPackages s.original).find? fun p => p.name == name && p.arch == arch) = some p ∧
        p.uploaded = true) ∧
      stagingOf (s.unmarkUploadedRpm env disk name arch).session.toSessionCore =
        StagingMove.run (stagingOf s.toSessionCore) (.remove name arch)) := by
  unfold RefineSession.unmarkUploadedRpm
  cases found : (rpmPackages s.original).find? fun p => p.name == name && p.arch == arch with
  | none => exact .inl ⟨rfl, nofun⟩
  | some p =>
    cases uploaded : p.uploaded with
    | false =>
      simp only [uploaded, Bool.not_false, if_true]
      refine .inl ⟨trivial, fun removed => ?_⟩
      cases cached : p.repolessCached <;> simp [cached] at removed
    | true =>
      simp only [uploaded, Bool.not_true, Bool.false_eq_true, if_false]
      cases removeStaged disk s.toSessionCore p.cachePath with
      | error e => exact .inl ⟨rfl, nofun⟩
      | ok disk' =>
        refine .inr ⟨rfl, ⟨p, rfl, uploaded⟩, ?_⟩
        have packages := rpmPackages_updatePackage (isStaged name arch)
          (unstage (s.priorCache.lookup (canonicalPackageId name arch))) s.toSessionCore
        change StagingState.mk (rpmPackages (s.toSessionCore.updatePackage _ _).original) _ = _
        exact congrArg (fun rows => StagingState.mk rows _) packages

theorem unmarkUploadedRpm_moves (name arch : String) :
    ∃ moves, MovesOf (.unmarkUploadedRpm name arch) (stagingOf s.toSessionCore)
      (stagingOf (s.unmarkUploadedRpm env disk name arch).session.toSessionCore) moves := by
  rcases unmarkUploadedRpm_cases env disk s name arch with ⟨kept, -⟩ | ⟨-, ⟨p, found, -⟩, run⟩
  · rw [kept]
    exact ⟨[], movesOf_nil _ _⟩
  · refine ⟨[.remove name arch], run, fun name' arch' mem => ?_⟩
    cases List.mem_singleton.mp mem
    have same := List.find?_some found
    rw [Bool.and_eq_true, beq_iff_eq, beq_iff_eq] at same
    exact ⟨rfl, p, List.mem_of_find?_eq_some found, same⟩

theorem ensureUploadDir_moves : ∃ moves, MovesOf .ensureUploadDir (stagingOf s.toSessionCore)
    (stagingOf (s.ensureUploadDir env disk).session.toSessionCore) moves := by
  unfold RefineSession.ensureUploadDir RefineSession.rescanUploadDir
  split
  · exact ⟨[], movesOf_nil _ _⟩
  · split
    · exact ⟨[], movesOf_nil _ _⟩
    · rename_i dir canon _
      cases disk.readDir canon with
      | error e => exact ⟨[], movesOf_nil _ _⟩
      | ok names =>
        have pass := rescanListing_moves disk canon dir names
          { s.toSessionCore with uploadDir := some dir, uploadDirCanon := some canon }
        dsimp only
        split
        · rename_i passed
          split at passed <;> cases passed
        · rename_i passed
          split at passed
          · cases passed
            exact pass
          · cases passed
            exact ⟨[], movesOf_nil _ _⟩

theorem serve_moves (env : Env) (served : Served) (s : RefineSession) :
    ∃ moves, MovesOf served.2 (stagingOf s.toSessionCore)
      (stagingOf (serve env served s).toSessionCore) moves := by
  obtain ⟨disk, request⟩ := served
  have still : ∀ {after : RefineSession}, (after = s ∨ ∃ history, after = s.moveTo env disk history) →
      ∃ moves, MovesOf request (stagingOf s.toSessionCore) (stagingOf after.toSessionCore) moves :=
    fun moved => ⟨[], stagingOf_moves moved ▸ movesOf_nil _ _⟩
  cases request with
  | apply op => exact still (apply_moves op)
  | applyDirective directive => exact still (applyDirective_moves directive)
  | applyBatch ops => exact still (applyBatch_moves ops)
  | undo => exact still undo_moves
  | redo => exact still redo_moves
  | reset => exact still reset_moves
  | setUploaded canonical path version =>
    refine ⟨[.record canonical path version], ?_, by simp⟩
    exact stagingOf_recordUploaded canonical path version s.toSessionCore
  | unmarkUploadedRpm name arch => exact unmarkUploadedRpm_moves name arch
  | ensureUploadDir => exact ensureUploadDir_moves
  | markViewed id =>
    refine ⟨[], ?_⟩
    change MovesOf _ _ (stagingOf (s.markViewed id).session.toSessionCore) _
    unfold RefineSession.markViewed
    split <;> exact movesOf_nil _ _

end Moves

@[simp] theorem isCanonical_stage (k path : String) (version : Option String) (p : PackageEntry) :
    isCanonical k (stage path version p) = isCanonical k p := rfl

@[simp] theorem isCanonical_unstage (k : String) (prior : Option PriorCache) (p : PackageEntry) :
    isCanonical k (unstage prior p) = isCanonical k p := rfl

def StagingState.at (st : StagingState) (k : String) : List PackageEntry :=
  st.packages.filter (isCanonical k)

theorem at_record_same (k path : String) (version : Option String) (st : StagingState) :
    (StagingMove.run st (.record k path version)).at k =
      updateFirst (isCanonical k) (stage path version) (st.at k) :=
  @filter_updateFirst_inside _ (isCanonical k) (isCanonical k) (stage path version)
    (fun _ hit => hit) (fun _ => rfl) st.packages

theorem isCanonical_apart {k q : String} (apart : k ≠ q) {p : PackageEntry} (hit : isCanonical q p) :
    isCanonical k p = false := by
  rw [isCanonical, beq_iff_eq] at hit
  rw [isCanonical, beq_eq_false_iff_ne, hit]
  exact apart.symm

theorem at_record_other {k q : String} (apart : k ≠ q) (path : String) (version : Option String)
    (st : StagingState) : (StagingMove.run st (.record q path version)).at k = st.at k :=
  @filter_updateFirst_outside _ (isCanonical q) (isCanonical k) (stage path version)
    (fun _ hit => isCanonical_apart apart hit) (fun _ => rfl) st.packages

theorem priorCache_record_other {k q : String} (apart : k ≠ q) (path : String)
    (version : Option String) (st : StagingState) :
    (StagingMove.run st (.record q path version)).priorCache.lookup k = st.priorCache.lookup k := by
  change (((st.packages.find? (isCanonical q)).bind displaced).map _ |>.getD st.priorCache).lookup k = _
  cases (st.packages.find? (isCanonical q)).bind displaced with
  | none => rfl
  | some prior => exact AList.lookup_insert_ne apart

theorem priorCache_record_same (k path : String) (version : Option String) (st : StagingState) :
    (StagingMove.run st (.record k path version)).priorCache.lookup k =
      ((st.at k).head?.bind displaced).or (st.priorCache.lookup k) := by
  change (((st.packages.find? (isCanonical k)).bind displaced).map _ |>.getD st.priorCache).lookup k = _
  rw [← List.head?_filter, StagingState.at]
  cases (st.packages.filter (isCanonical k)).head?.bind displaced with
  | none => rfl
  | some prior => exact AList.lookup_insert _

theorem isCanonical_of_isStaged {name arch : String} {p : PackageEntry} (staged : isStaged name arch p) :
    isCanonical (canonicalPackageId name arch) p := by
  simp only [isStaged, Bool.and_eq_true, beq_iff_eq] at staged
  rw [isCanonical, staged.1.1, staged.1.2, beq_self_eq_true]

theorem at_remove_other {k name arch : String} (apart : k ≠ canonicalPackageId name arch)
    (st : StagingState) : (StagingMove.run st (.remove name arch)).at k = st.at k :=
  @filter_updateFirst_outside _ (isStaged name arch) (isCanonical k) (unstage _)
    (fun _ hit => isCanonical_apart apart (isCanonical_of_isStaged hit)) (fun _ => rfl) st.packages

theorem priorCache_remove_other {k name arch : String} (apart : k ≠ canonicalPackageId name arch)
    (st : StagingState) :
    (StagingMove.run st (.remove name arch)).priorCache.lookup k = st.priorCache.lookup k :=
  AList.lookup_erase_ne apart

theorem at_remove_same (name arch : String) (st : StagingState) :
    (StagingMove.run st (.remove name arch)).at (canonicalPackageId name arch) =
      updateFirst (isStaged name arch)
        (unstage (st.priorCache.lookup (canonicalPackageId name arch)))
        (st.at (canonicalPackageId name arch)) :=
  @filter_updateFirst_inside _ (isStaged name arch) (isCanonical (canonicalPackageId name arch))
    (unstage _) (fun _ hit => isCanonical_of_isStaged hit) (fun _ => rfl) st.packages

def HeldForStaged (st : StagingState) : Prop :=
  ∀ k prior, st.priorCache.lookup k = some prior → ∃ p, (st.at k).head? = some p ∧ p.uploaded = true

theorem HeldForStaged.run {st : StagingState} (held : HeldForStaged st) (move : StagingMove) :
    HeldForStaged (StagingMove.run st move) := by
  intro k prior has
  cases move with
  | record q path version =>
    by_cases same : k = q
    · subst same
      rw [priorCache_record_same] at has
      rw [at_record_same]
      cases rows : st.at k with
      | nil =>
        rw [rows] at has
        obtain ⟨p, first, -⟩ := held k prior has
        rw [rows] at first
        cases first
      | cons p rest =>
        have own : isCanonical k p := by
          have mem : p ∈ st.at k := rows ▸ List.mem_cons_self
          exact (List.mem_filter.mp mem).2
        exact ⟨stage path version p, by rw [updateFirst, if_pos own]; rfl, rfl⟩
    · rw [priorCache_record_other same] at has
      rw [at_record_other same]
      exact held k prior has
  | remove name arch =>
    by_cases same : k = canonicalPackageId name arch
    · subst same
      have gone : (st.priorCache.erase (canonicalPackageId name arch)).lookup
          (canonicalPackageId name arch) = some prior := has
      rw [AList.lookup_erase] at gone
      cases gone
    · rw [priorCache_remove_other same] at has
      rw [at_remove_other same]
      exact held k prior has

theorem HeldForStaged.runs {st : StagingState} (held : HeldForStaged st) (moves : List StagingMove) :
    HeldForStaged (moves.foldl StagingMove.run st) := by
  induction moves generalizing st with
  | nil => exact held
  | cons move rest ih => exact ih (held.run move)

theorem stagingOf_tryAutosave (fails : Bool) (s : RefineSession) :
    stagingOf (tryAutosave fails s).toSessionCore = stagingOf s.toSessionCore := by
  unfold tryAutosave
  split <;> rfl

theorem Reachable.heldForStaged {env : Env} {s : RefineSession} (reached : Reachable env s) :
    HeldForStaged (stagingOf s.toSessionCore) := by
  have fresh : ∀ packages : List PackageEntry, HeldForStaged ⟨packages, ∅⟩ := by
    intro packages k prior has
    rw [AList.lookup_empty] at has
    cases has
  induction reached with
  | opened disk snap => exact fresh _
  | resumed disk snap tarball timeline cursor =>
    rw [RefineSession.resume, stagingOf_tryAutosave]
    exact fresh _
  | tarball path earlier ih => exact ih
  | uploadDir dir earlier ih => exact ih
  | served call earlier ih =>
    obtain ⟨moves, made⟩ := serve_moves env call _
    rw [made.run]
    exact ih.runs moves

def StagedOver (k : String) (p : PackageEntry) (st : StagingState) : Prop :=
  (st.at k = [p] ∧ st.priorCache.lookup k = none) ∨
    ∃ path version, st.at k = [stage path version p] ∧ st.priorCache.lookup k = displaced p

theorem StagedOver.run {k : String} {p : PackageEntry} {st : StagingState} (own : isCanonical k p)
    (held : StagedOver k p st) {move : StagingMove}
    (others : ∀ name arch, move = .remove name arch → canonicalPackageId name arch ≠ k) :
    StagedOver k p (StagingMove.run st move) := by
  cases move with
  | record q path version =>
    by_cases same : k = q
    · subst same
      right
      rcases held with ⟨rows, none_held⟩ | ⟨path', version', rows, kept⟩
      · refine ⟨path, version, ?_, ?_⟩
        · rw [at_record_same, rows, updateFirst, if_pos own]
        · rw [priorCache_record_same, rows, none_held, List.head?_cons, Option.bind_some, Option.or_none]
      · refine ⟨path, version, ?_, ?_⟩
        · rw [at_record_same, rows, updateFirst, if_pos (by exact own)]
          rfl
        · have still : displaced (stage path' version' p) = none := by simp [displaced, stage]
          rw [priorCache_record_same, rows, kept, List.head?_cons, Option.bind_some, still, Option.none_or]
    · unfold StagedOver
      rw [at_record_other same, priorCache_record_other same]
      exact held
  | remove name arch =>
    have apart : k ≠ canonicalPackageId name arch := (others name arch rfl).symm
    unfold StagedOver
    rw [at_remove_other apart, priorCache_remove_other apart]
    exact held

theorem StagedOver.runs {k : String} {p : PackageEntry} {st : StagingState} (own : isCanonical k p)
    (held : StagedOver k p st) {moves : List StagingMove}
    (others : ∀ name arch, .remove name arch ∈ moves → canonicalPackageId name arch ≠ k) :
    StagedOver k p (moves.foldl StagingMove.run st) := by
  induction moves generalizing st with
  | nil => exact held
  | cons move rest ih =>
    refine ih (held.run own ?_) fun name arch mem => others name arch (List.mem_cons_of_mem _ mem)
    rintro name arch rfl
    exact others name arch List.mem_cons_self

/-- The host's cache supplied the package, or nothing is recorded of one. -/
def Restorable (p : PackageEntry) : Prop :=
  p.repolessCached = true ∨ (p.cachePath = none ∧ p.uploadedVersion = none)

theorem unstage_stage_iff {p : PackageEntry} (unstaged : p.uploaded = false) (path : String)
    (version : Option String) :
    unstage (displaced p) (stage path version p) = p ↔ Restorable p := by
  cases cached : p.repolessCached with
  | true =>
    have same : unstage (displaced p) (stage path version p) = p := by
      simp [unstage, stage, displaced, cached, unstaged]
      cases p
      simp_all
    simp [same, Restorable, cached]
  | false =>
    have cleared : unstage (displaced p) (stage path version p) =
        { p with cachePath := none, uploadedVersion := none } := by
      simp [unstage, stage, displaced, cached]
      cases p
      simp_all
    rw [cleared, Restorable, cached]
    constructor
    · intro same
      refine .inr ⟨?_, ?_⟩
      · exact (congrArg PackageEntry.cachePath same).symm
      · exact (congrArg PackageEntry.uploadedVersion same).symm
    · rintro (cached' | ⟨path, version⟩)
      · cases cached'
      · cases p
        simp_all

section Removal

variable {env : Env} {s : RefineSession} {p : PackageEntry}

def sameId (p : PackageEntry) (s : RefineSession) : List PackageEntry :=
  (rpmPackages s.original).filter (isCanonical (canonicalPackageId p.name p.arch))

def IsStagedOver (p : PackageEntry) (s : RefineSession) : Prop :=
  StagedOver (canonicalPackageId p.name p.arch) p (stagingOf s.toSessionCore)

theorem isCanonical_self (p : PackageEntry) : isCanonical (canonicalPackageId p.name p.arch) p :=
  beq_self_eq_true _

theorem IsStagedOver.only (staged : IsStagedOver p s) {q : PackageEntry}
    (listed : q ∈ rpmPackages s.original)
    (id : isCanonical (canonicalPackageId p.name p.arch) q) : q.name = p.name ∧ q.arch = p.arch := by
  have mem : q ∈ (stagingOf s.toSessionCore).at (canonicalPackageId p.name p.arch) :=
    List.mem_filter.mpr ⟨listed, id⟩
  rcases staged with ⟨rows, -⟩ | ⟨path, version, rows, -⟩
  · rw [rows, List.mem_singleton] at mem
    rw [mem]
    exact ⟨rfl, rfl⟩
  · rw [rows, List.mem_singleton] at mem
    rw [mem]
    exact ⟨rfl, rfl⟩

theorem IsStagedOver.serve (staged : IsStagedOver p s) {call : Served}
    (other : call.2 ≠ .unmarkUploadedRpm p.name p.arch) : IsStagedOver p (serve env call s) := by
  obtain ⟨moves, made⟩ := serve_moves env call s
  have apart : ∀ name arch, .remove name arch ∈ moves →
      canonicalPackageId name arch ≠ canonicalPackageId p.name p.arch := by
    intro name arch mem same
    obtain ⟨asked, q, listed, rfl, rfl⟩ := made.removes name arch mem
    obtain ⟨name, arch⟩ := staged.only listed (by rw [isCanonical, same, beq_self_eq_true])
    exact other (name ▸ arch ▸ asked)
  unfold IsStagedOver
  rw [made.run]
  exact StagedOver.runs (isCanonical_self p) staged apart

theorem IsStagedOver.calls (staged : IsStagedOver p s) {calls : List Served}
    (others : ∀ call ∈ calls, call.2 ≠ .unmarkUploadedRpm p.name p.arch) :
    IsStagedOver p (calls.foldl (fun s call => Inspectah.serve env call s) s) := by
  induction calls generalizing s with
  | nil => exact staged
  | cons call rest ih =>
    exact ih (staged.serve (others call List.mem_cons_self))
      fun call mem => others call (List.mem_cons_of_mem _ mem)

theorem find_of_sameId {x : PackageEntry} (alone : sameId p s = [x]) (name : x.name = p.name)
    (arch : x.arch = p.arch) :
    ((rpmPackages s.original).find? fun q => q.name == p.name && q.arch == p.arch) = some x := by
  have listed : x ∈ rpmPackages s.original := by
    have mem : x ∈ sameId p s := alone ▸ List.mem_cons_self
    exact (List.mem_filter.mp mem).1
  cases found : (rpmPackages s.original).find? fun q => q.name == p.name && q.arch == p.arch with
  | none =>
    have absent := List.find?_eq_none.mp found x listed
    simp [name, arch] at absent
  | some q =>
    have same := List.find?_some found
    rw [Bool.and_eq_true, beq_iff_eq, beq_iff_eq] at same
    have mem : q ∈ sameId p s := by
      refine List.mem_filter.mpr ⟨List.mem_of_find?_eq_some found, ?_⟩
      rw [isCanonical, same.1, same.2, beq_self_eq_true]
    rw [alone, List.mem_singleton] at mem
    rw [mem]

theorem IsStagedOver.removed_iff (staged : IsStagedOver p s) (unstaged : p.uploaded = false) {disk : Disk}
    (removed : (s.unmarkUploadedRpm env disk p.name p.arch).result = .ok .removed) :
    sameId p (s.unmarkUploadedRpm env disk p.name p.arch).session = [p] ↔ Restorable p := by
  rcases unmarkUploadedRpm_cases env disk s p.name p.arch with ⟨-, kept⟩ | ⟨-, ⟨q, found, uploaded⟩, run⟩
  · exact absurd removed kept
  · rcases staged with ⟨rows, -⟩ | ⟨path, version, rows, prior⟩
    · rw [find_of_sameId (p := p) (s := s) rows rfl rfl] at found
      cases found
      rw [unstaged] at uploaded
      cases uploaded
    · have hit : isStaged p.name p.arch (stage path version p) := by simp [isStaged, stage]
      have after : sameId p (s.unmarkUploadedRpm env disk p.name p.arch).session =
          [unstage (displaced p) (stage path version p)] := by
        change (stagingOf (s.unmarkUploadedRpm env disk p.name p.arch).session.toSessionCore).at _ = _
        rw [run, at_remove_same, rows, prior, updateFirst, if_pos hit]
      rw [after, List.singleton_inj]
      exact unstage_stage_iff unstaged path version

end Removal

def cachedTool (cached : Bool) : PackageEntry :=
  { name := "tool", version := "1", release := "1", arch := "noarch", disposition := .excluded
    repolessAnnotation := "No repo source", repolessCached := cached
    cachePath := some "/var/cache/tool.rpm" }

def toolSession (cached : Bool) : RefineSession :=
  { RefineSession.new sampleEnv sampleDisk { rpm := some { packagesAdded := [cachedTool cached] } } with
    tarballPath := some "/srv/host.tar.gz" }

def stageTool : List Served :=
  [(sampleDisk, .ensureUploadDir),
   (stagedDisk, .setUploaded "tool.noarch" "/srv/host-uploads/tool-1-1.noarch.rpm" none)]

def toolStaged (cached : Bool) : RefineSession :=
  stageTool.foldl (fun s call => serve sampleEnv call s) (toolSession cached)

theorem toolSession_reachable (cached : Bool) : Reachable sampleEnv (toolSession cached) :=
  .tarball _ (.opened sampleDisk _)

end Inspectah
