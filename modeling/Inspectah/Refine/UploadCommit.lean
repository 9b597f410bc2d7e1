import Inspectah.Refine.ExportConfined
import Inspectah.Refine.UploadRemoval

/-!
Uploads as the server takes them: refused if another package has the file, else placed and
recorded, and what was superseded removed. No call takes another package's file away.
-/
namespace Inspectah

open FirstMatch

def namesOneFile (disk : Disk) (a b : String) : Bool :=
  (Text.fileName a).isSome && Text.fileName a == Text.fileName b &&
    (disk.parentOf a).isSome && disk.parentOf a == disk.parentOf b

inductive Occupant where
  | staged (owner : String)
  | cachedNevra (owner : String)

def Occupant.refusal (filename : String) : Occupant → String
  | .staged owner => filename ++ " is already staged for " ++ owner
  | .cachedNevra owner =>
    filename ++ " is the cached RPM filename of " ++ owner ++
      "; upload it under a different name or remove " ++ owner ++ " from the export"

def occupantOf (disk : Disk) (packages : List PackageEntry) (dest : String)
    (exclude : Option String) : Option Occupant :=
  let others := packages.filter fun p => some (packageId p) != exclude
  match others.find? fun p => p.cachePath.any (namesOneFile disk · dest) with
  | some p => some (.staged (packageId p))
  | none =>
    (others.find? fun p =>
      p.repolessCached && !p.uploaded && some (nevraFilename p) == Text.fileName dest).map
      fun p => .cachedNevra (packageId p)

def supersededUpload (disk : Disk) (packages : List PackageEntry) (canonical dest : String) :
    Option String :=
  ((packages.find? fun p => isCanonical canonical p && p.uploaded).bind (·.cachePath)).filter
    fun previous => !namesOneFile disk previous dest

inductive UploadError where
  | client (status : Nat) (message : String)
  | session (e : RefineError)

structure UploadOutcome where
  matched : Option UploadMatch
  parsed : Option RpmFilename
  stagedAs : String

structure Committed where
  result : Except UploadError UploadOutcome
  session : RefineSession
  removed : Option String := none

def supersededFile (disk : Disk) (c : SessionCore) (dest : String) (m : UploadMatch) :
    Except UploadError (Option String) :=
  match supersededUpload disk (rpmPackages c.original) m.canonical dest with
  | none => .ok none
  | some previous =>
    match resolveStagedFile disk c previous with
    | .ok target => .ok target
    | .error _ => .error (.client 409 (m.canonical ++
        " records a staged file outside the upload directory; nothing was staged"))

/-- Placing the part file gives an error, or the host with the file in its place. -/
def commit (env : Env) (disk : Disk) (name : StagedName) (persist : Except String Disk)
    (s : RefineSession) : Committed :=
  match s.ensureUploadDir env disk with
  | ⟨.error e, s⟩ => ⟨.error (.session e), s, none⟩
  | ⟨.ok (dir, _), s⟩ =>
    let dest := joinPath dir name.text
    let matched := matchUploadedRpm (rpmPackages s.original) name.text
    match occupantOf disk (rpmPackages s.original) dest (matched.map (·.canonical)) with
    | some occupant => ⟨.error (.client 409 (occupant.refusal name.text)), s, none⟩
    | none =>
      match (matched.map (supersededFile disk s.toSessionCore dest)).getD (.ok none) with
      | .error e => ⟨.error e, s, none⟩
      | .ok superseded =>
        match persist with
        | .error e =>
          ⟨.error (.session (.tarballError ("stage upload as " ++ dest ++ ": " ++ e))), s, none⟩
        | .ok placed =>
          { result := .ok ⟨matched, RpmFilename.parseUntrusted name.text, name.text⟩
            session := (matched.map fun m =>
              (s.setUploaded env placed m.canonical dest m.uploadedVersion).session).getD s
            removed := superseded }

/-- The calls a server makes on its session; only an upload records one. -/
inductive WebCall where
  | upload (name : StagedName) (persist : Except String Disk)
  | other (request : Request) (records : ∀ k path version, request ≠ .setUploaded k path version)

def WebCall.serve (env : Env) (disk : Disk) (s : RefineSession) : WebCall → RefineSession
  | .upload name persist => (commit env disk name persist s).session
  | .other request _ => Inspectah.serve env (disk, request) s

def serveAll (env : Env) (calls : List (Disk × WebCall)) (s : RefineSession) : RefineSession :=
  calls.foldl (fun s call => call.2.serve env call.1 s) s

/-- Directories lead where they did, and what is below one is below its canonical path. -/
structure Leads (parents : String → Option String) (disk : Disk) : Prop where
  same : disk.parentOf = parents
  inside : ∀ dir canon (name : StagedName), disk.canonicalize dir = .ok canon →
    parents (joinPath dir name.text) = some canon

/-- A file: its directory and its name there. -/
def fileOf (parents : String → Option String) (path : String) : Option (String × String) :=
  (parents path).bind fun dir => (Text.fileName path).map (dir, ·)

def uploadOf (parents : String → Option String) (p : PackageEntry) : Option (String × String) :=
  if p.uploaded then p.cachePath.bind (fileOf parents) else none

def Exclusive (parents : String → Option String) (packages : List PackageEntry) : Prop :=
  ∀ p ∈ packages, ∀ q ∈ packages, ∀ f, uploadOf parents p = some f → uploadOf parents q = some f →
    packageId p = packageId q

section

variable {env : Env} {disk : Disk} {parents : String → Option String}
  {packages : List PackageEntry} {s : RefineSession} {k path : String} {version : Option String}

theorem namesOneFile_of_fileOf {a b : String} {f : String × String}
    (left : fileOf disk.parentOf a = some f) (right : fileOf disk.parentOf b = some f) :
    namesOneFile disk a b = true := by
  obtain ⟨dir, lead, named⟩ := Option.bind_eq_some_iff.mp left
  obtain ⟨name, here, rfl⟩ := Option.map_eq_some_iff.mp named
  obtain ⟨dir', lead', named'⟩ := Option.bind_eq_some_iff.mp right
  obtain ⟨name', here', same⟩ := Option.map_eq_some_iff.mp named'
  cases same
  simp [namesOneFile, lead, lead', here, here']

theorem mem_staged (parents : String → Option String) {p : PackageEntry}
    (mem : p ∈ updateFirst (isCanonical k) (stage path version) packages) :
    p ∈ packages ∨ packageId p = k ∧ uploadOf parents p = fileOf parents path := by
  rcases mem_updateFirst mem with old | ⟨q, found, rfl⟩
  · exact .inl old
  · have own : isCanonical k q = true := List.find?_some found
    exact .inr ⟨beq_iff_eq.mp own, rfl⟩

theorem Exclusive.record (exclusive : Exclusive parents packages)
    (free : ∀ q ∈ packages, ∀ f, fileOf parents path = some f → uploadOf parents q = some f →
      packageId q = k) :
    Exclusive parents (updateFirst (isCanonical k) (stage path version) packages) := by
  intro p memP q memQ f ofP ofQ
  rcases mem_staged parents memP with oldP | ⟨idP, newP⟩
  · rcases mem_staged parents memQ with oldQ | ⟨idQ, newQ⟩
    · exact exclusive p oldP q oldQ f ofP ofQ
    · exact (free p oldP f (newQ.symm.trans ofQ) ofP).trans idQ.symm
  · rcases mem_staged parents memQ with oldQ | ⟨idQ, newQ⟩
    · exact idP.trans (free q oldQ f (newP.symm.trans ofP) ofQ).symm
    · exact idP.trans idQ.symm

theorem Exclusive.remove (exclusive : Exclusive parents packages) (test : PackageEntry → Bool)
    (prior : Option PriorCache) :
    Exclusive parents (updateFirst test (unstage prior) packages) := by
  have kept : ∀ p ∈ updateFirst test (unstage prior) packages, ∀ f,
      uploadOf parents p = some f → p ∈ packages := by
    intro p mem f has
    rcases mem_updateFirst mem with old | ⟨q, -, rfl⟩
    · exact old
    · cases has
  intro p memP q memQ f ofP ofQ
  exact exclusive p (kept p memP f ofP) q (kept q memQ f ofQ) f ofP ofQ

theorem stagedClaim_eq {canon name : String} {p : PackageEntry}
    (has : uploadOf disk.parentOf p = some (canon, name)) :
    stagedClaim disk canon p = some name := by
  rw [uploadOf] at has
  split at has
  · rename_i uploaded
    obtain ⟨path, recorded, file⟩ := Option.bind_eq_some_iff.mp has
    obtain ⟨dir, lead, named⟩ := Option.bind_eq_some_iff.mp file
    obtain ⟨name, here, same⟩ := Option.map_eq_some_iff.mp named
    cases same
    simp [stagedClaim, uploaded, recorded, here, lead]
  · cases has

theorem spokenFor_fold {canon name : String} (claims : Claims)
    (claimed : (claims.spokenFor.lookup name).isSome ∨
      ∃ p ∈ packages, stagedClaim disk canon p = some name) :
    ((packages.foldl (addClaim disk canon) claims).spokenFor.lookup name).isSome := by
  induction packages generalizing claims with
  | nil => simpa using claimed
  | cons p rest ih =>
    refine ih _ ?_
    have added : (claims.spokenFor.lookup name).isSome ∨ stagedClaim disk canon p = some name →
        ((addClaim disk canon claims p).spokenFor.lookup name).isSome := by
      intro known
      rw [addClaim]
      split
      · rename_i none
        exact known.resolve_right fun some => by rw [none] at some; cases some
      · rename_i other claim
        by_cases same : name = other
        · rw [same, AList.lookup_insert]
          rfl
        · rw [AList.lookup_insert_ne same]
          refine known.resolve_right fun some => same ?_
          rw [claim] at some
          exact (Option.some.inj some).symm
    rcases claimed with known | ⟨q, mem, claim⟩
    · exact .inl (added (.inl known))
    · rcases List.mem_cons.mp mem with rfl | later
      · exact .inl (added (.inr claim))
      · exact .inr ⟨q, later, claim⟩

theorem fileName_staged (dir : String) (name : StagedName) :
    Text.fileName (joinPath dir name.text) = some name.text := by
  obtain ⟨filled, first, plain⟩ := plain_of_stagedNameFault name.admitted
  have whole (base : String) : Text.fileName (base ++ "/" ++ name.text) = some name.text :=
    fileName_join base (fun slash => plain _ slash rfl) (fun empty => filled (by simp [empty]))
      (fun dot => first (by simp [dot])) fun dots => first (by simp [dots])
  rw [joinPath]
  split
  · rename_i ends
    obtain ⟨before, rfl⟩ := endsWith_iff.mp ends
    exact whole before
  · exact whole dir

theorem text_of_parse {text : String} {name : StagedName}
    (parsed : StagedName.parse text = .ok name) : name.text = text := by
  unfold StagedName.parse at parsed
  split at parsed
  · cases parsed
  · cases parsed
    rfl

/-- What a pass over the listing knows of the files it has not come to. -/
structure Marking (parents : String → Option String) (canon : String) (spokenFor : KeyedMap String)
    (ahead : List String) (r : Rescan) : Prop where
  exclusive : Exclusive parents (rpmPackages r.core.original)
  spoken : ∀ p ∈ rpmPackages r.core.original, ∀ name ∈ ahead,
    uploadOf parents p = some (canon, name) → (spokenFor.lookup name).isSome

theorem Marking.entry {canon dir name : String} {spokenFor : KeyedMap String} {ahead : List String}
    {r : Rescan} (leads : Leads parents disk) (lead : disk.canonicalize dir = .ok canon)
    (fresh : name ∉ ahead) (marking : Marking parents canon spokenFor (name :: ahead) r) :
    Marking parents canon spokenFor ahead (rescanEntry disk canon dir spokenFor r name) := by
  have still : Marking parents canon spokenFor ahead r :=
    ⟨marking.exclusive, fun p mem n later => marking.spoken p mem n (List.mem_cons_of_mem _ later)⟩
  rw [rescanEntry]
  split
  · exact ⟨still.exclusive, still.spoken⟩
  · rename_i admitted
    split
    · exact ⟨still.exclusive, still.spoken⟩
    · rename_i unspoken
      split
      · exact still
      · rename_i found _
        have placed : fileOf parents (joinPath dir name) = some (canon, name) := by
          rw [skipReason] at admitted
          split at admitted
          · cases admitted
          · rename_i staged parsed
            rw [← text_of_parse parsed, fileOf, leads.inside dir canon staged lead, fileName_staged]
            rfl
        have recorded : rpmPackages (r.core.recordUploaded found.canonical (joinPath dir name)
            found.uploadedVersion).original = updateFirst (isCanonical found.canonical)
              (stage (joinPath dir name) found.uploadedVersion) (rpmPackages r.core.original) :=
          rpmPackages_updatePackage _ _ _
        constructor
        · change Exclusive parents (rpmPackages (r.core.recordUploaded _ _ _).original)
          rw [recorded]
          refine marking.exclusive.record fun q mem f here has => ?_
          cases placed.symm.trans here
          have known := marking.spoken q mem name List.mem_cons_self has
          rw [unspoken] at known
          cases known
        · intro p mem n later has
          change p ∈ rpmPackages (r.core.recordUploaded _ _ _).original at mem
          rw [recorded] at mem
          rcases mem_staged parents mem with old | ⟨-, new⟩
          · exact marking.spoken p old n (List.mem_cons_of_mem _ later) has
          · cases placed.symm.trans (new.symm.trans has)
            exact absurd later fresh

theorem Marking.pass {canon dir : String} {spokenFor : KeyedMap String} {names : List String}
    {r : Rescan} (leads : Leads parents disk) (lead : disk.canonicalize dir = .ok canon)
    (once : names.Nodup) (marking : Marking parents canon spokenFor names r) :
    Exclusive parents
      (rpmPackages (names.foldl (rescanEntry disk canon dir spokenFor) r).core.original) := by
  induction names generalizing r with
  | nil => exact marking.exclusive
  | cons name rest ih =>
    obtain ⟨fresh, once⟩ := List.nodup_cons.mp once
    exact ih once (marking.entry leads lead fresh)

theorem Exclusive.rescan {canon dir : String} {c : SessionCore} (names : List String)
    (leads : Leads parents disk) (lead : disk.canonicalize dir = .ok canon)
    (exclusive : Exclusive parents (rpmPackages c.original)) :
    Exclusive parents (rpmPackages (rescanListing disk canon dir names c).core.original) := by
  have once : (sortedNames names).Nodup :=
    (List.perm_insertionSort _ _).nodup_iff.mpr (List.nodup_dedup _)
  refine Marking.pass leads lead once ⟨exclusive, fun p mem name _ has => ?_⟩
  rw [← leads.same] at has
  exact spokenFor_fold {} (.inr ⟨p, mem, stagedClaim_eq has⟩)

theorem canonicalize_of_prepared {dir canon : String}
    (prepared : prepareStaging disk s.toSessionCore = .ok (dir, canon)) :
    disk.canonicalize dir = .ok canon := by
  rw [prepareStaging] at prepared
  split at prepared
  · cases prepared
  · split at prepared
    · cases prepared
    · rename_i there
      split at prepared
      · cases prepared
      · cases prepared
        rw [prepareUploadDir] at there
        dsimp only at there
        split at there
        · cases there
        · split at there
          · cases there
          · rename_i lead
            cases there
            exact lead

theorem Exclusive.ensure (leads : Leads parents disk)
    (exclusive : Exclusive parents (rpmPackages s.original)) :
    Exclusive parents (rpmPackages (s.ensureUploadDir env disk).session.original) := by
  unfold RefineSession.ensureUploadDir RefineSession.rescanUploadDir
  split
  · exact exclusive
  · split
    · exact exclusive
    · rename_i dir canon prepared
      cases disk.readDir canon with
      | error e => exact exclusive
      | ok names =>
        have lead := canonicalize_of_prepared prepared
        have pass := @Exclusive.rescan disk parents canon dir
          { s.toSessionCore with uploadDir := some dir, uploadDirCanon := some canon } names
          leads lead exclusive
        dsimp only
        split
        · rename_i passed
          split at passed <;> cases passed
        · rename_i passed
          split at passed
          · cases passed
            exact pass
          · cases passed
            exact exclusive

theorem free_of_unoccupied {dest : String} {m : UploadMatch}
    (none : occupantOf disk packages dest (some m.canonical) = none) :
    ∀ q ∈ packages, ∀ f, fileOf disk.parentOf dest = some f → uploadOf disk.parentOf q = some f →
      packageId q = m.canonical := by
  intro q mem f placed has
  by_contra other
  have recorded : q.cachePath.any (namesOneFile disk · dest) = true := by
    rw [uploadOf] at has
    split at has
    · obtain ⟨path, recorded, file⟩ := Option.bind_eq_some_iff.mp has
      rw [recorded]
      exact namesOneFile_of_fileOf file placed
    · cases has
  have listed : q ∈ packages.filter fun p => some (packageId p) != some m.canonical :=
    List.mem_filter.mpr ⟨mem, by simpa using other⟩
  rw [occupantOf] at none
  split at none
  · cases none
  · rename_i absent
    exact List.find?_eq_none.mp absent q listed recorded

/-- What an upload comes to: nothing is recorded, or it is for the package that it matches. -/
inductive Taken (env : Env) (disk : Disk) (ready : RefineSession) (c : Committed) : Prop where
  | nothing (kept : c.session = ready) (removed : c.removed = none)
  | matched (m : UploadMatch) (dest : String) (placed : Disk)
      (free : occupantOf disk (rpmPackages ready.original) dest (some m.canonical) = none)
      (outcome : ∃ o, c.result = .ok o ∧ o.matched = some m)
      (superseded : supersededFile disk ready.toSessionCore dest m = .ok c.removed)
      (session : c.session =
        (ready.setUploaded env placed m.canonical dest m.uploadedVersion).session)

theorem commit_taken (name : StagedName) (persist : Except String Disk) :
    Taken env disk (s.ensureUploadDir env disk).session (commit env disk name persist s) := by
  rw [commit]
  split
  · rename_i failed
    exact .nothing (congrArg Outcome.session failed).symm rfl
  · rename_i dir _ ready prepared
    rw [prepared]
    dsimp only
    split
    · exact .nothing rfl rfl
    · rename_i free
      split
      · exact .nothing rfl rfl
      · rename_i superseded found
        cases persist with
        | error e => exact .nothing rfl rfl
        | ok placed =>
          cases matched : matchUploadedRpm (rpmPackages ready.original) name.text with
          | none =>
            rw [matched] at found
            cases found
            exact .nothing rfl rfl
          | some m =>
            rw [matched] at free found
            exact .matched m _ placed free ⟨_, rfl, rfl⟩ found rfl

theorem recorded_packages (placed : Disk) (dest : String) :
    rpmPackages (s.setUploaded env placed k dest version).session.original =
      updateFirst (isCanonical k) (stage dest version) (rpmPackages s.original) :=
  rpmPackages_updatePackage _ _ s.toSessionCore

theorem Exclusive.commit (leads : Leads parents disk) (name : StagedName)
    (persist : Except String Disk) (exclusive : Exclusive parents (rpmPackages s.original)) :
    Exclusive parents (rpmPackages (commit env disk name persist s).session.original) := by
  have ready := @Exclusive.ensure env disk parents s leads exclusive
  cases @commit_taken env disk s name persist with
  | nothing kept =>
    rw [kept]
    exact ready
  | matched m dest placed free outcome superseded session =>
    rw [session, recorded_packages]
    refine ready.record ?_
    rw [← leads.same]
    exact free_of_unoccupied free

theorem Exclusive.serve (leads : Leads parents disk) (call : WebCall)
    (exclusive : Exclusive parents (rpmPackages s.original)) :
    Exclusive parents (rpmPackages (call.serve env disk s).original) := by
  have still : ∀ {after : RefineSession},
      (after = s ∨ ∃ history, after = s.moveTo env disk history) →
        Exclusive parents (rpmPackages after.original) := by
    intro after moved
    change Exclusive parents (stagingOf after.toSessionCore).packages
    rw [stagingOf_moves moved]
    exact exclusive
  cases call with
  | upload name persist => exact exclusive.commit leads name persist
  | other request records =>
    cases request with
    | apply op => exact still (apply_moves op)
    | applyDirective directive => exact still (applyDirective_moves directive)
    | applyBatch ops => exact still (applyBatch_moves ops)
    | undo => exact still undo_moves
    | redo => exact still redo_moves
    | reset => exact still reset_moves
    | setUploaded k path version => exact absurd rfl (records k path version)
    | unmarkUploadedRpm name arch =>
      change Exclusive parents
        (stagingOf (s.unmarkUploadedRpm env disk name arch).session.toSessionCore).packages
      rcases unmarkUploadedRpm_cases env disk s name arch with ⟨kept, -⟩ | ⟨-, -, run⟩
      · rw [kept]
        exact exclusive
      · rw [run]
        exact exclusive.remove _ _
    | ensureUploadDir => exact exclusive.ensure leads
    | markViewed id =>
      change Exclusive parents (rpmPackages (s.markViewed id).session.original)
      unfold RefineSession.markViewed
      split <;> exact exclusive

theorem Exclusive.run {calls : List (Disk × WebCall)}
    (leads : ∀ call ∈ calls, Leads parents call.1)
    (exclusive : Exclusive parents (rpmPackages s.original)) :
    Exclusive parents (rpmPackages (serveAll env calls s).original) := by
  induction calls generalizing s with
  | nil => exact exclusive
  | cons call rest ih =>
    obtain ⟨first, later⟩ := List.forall_mem_cons.mp leads
    exact ih later (exclusive.serve first call.2)

/-- A staged file is unlinked for one package, which has another one then, and is no other's. -/
structure UnlinksOwn (env : Env) (disk : Disk) (parents : String → Option String)
    (s : RefineSession) : Prop where
  upload : ∀ name persist target, (commit env disk name persist s).removed = some target →
    ∃ o m dir file, (commit env disk name persist s).result = .ok o ∧ o.matched = some m ∧
      target = joinPath dir file ∧
      (∀ q ∈ rpmPackages (commit env disk name persist s).session.original,
        uploadOf parents q = some (dir, file) → packageId q = m.canonical) ∧
      ∀ q, (rpmPackages (commit env disk name persist s).session.original).find?
        (isCanonical m.canonical) = some q → uploadOf parents q ≠ some (dir, file)
  removal : ∀ p ∈ rpmPackages s.original, ∀ recorded target,
    p.uploaded = true → p.cachePath = some recorded →
    resolveStagedFile disk s.toSessionCore recorded = .ok (some target) →
    ∃ dir file, target = joinPath dir file ∧ ∀ q ∈ rpmPackages s.original,
      uploadOf parents q = some (dir, file) → packageId q = packageId p

theorem resolved_file {c : SessionCore} {recorded target : String}
    (resolved : resolveStagedFile disk c recorded = .ok (some target)) :
    ∃ dir file, target = joinPath dir file ∧ fileOf disk.parentOf recorded = some (dir, file) := by
  unfold resolveStagedFile at resolved
  dsimp only at resolved
  split at resolved
  · cases resolved
  · cases resolved
  · rename_i canon basename _ named
    split at resolved
    · cases resolved
    · split at resolved
      · cases resolved
      · rename_i inside
        have lead := not_not.mp inside
        refine ⟨canon, basename, ?_, by simp [fileOf, lead, named]⟩
        split at resolved <;> cases resolved <;> rfl

theorem superseded_file {c : SessionCore} {dest target : String} {m : UploadMatch}
    (superseded : supersededFile disk c dest m = .ok (some target)) :
    ∃ p ∈ rpmPackages c.original, packageId p = m.canonical ∧ ∃ dir file,
      target = joinPath dir file ∧ uploadOf disk.parentOf p = some (dir, file) ∧
        fileOf disk.parentOf dest ≠ some (dir, file) := by
  rw [supersededFile] at superseded
  split at superseded
  · cases superseded
  · rename_i previous found
    obtain ⟨had, other⟩ := Option.filter_eq_some_iff.mp found
    obtain ⟨p, first, recorded⟩ := Option.bind_eq_some_iff.mp had
    have hit := List.find?_some first
    obtain ⟨own, uploaded⟩ := Bool.and_eq_true_iff.mp hit
    split at superseded
    · rename_i resolved
      cases superseded
      obtain ⟨dir, file, unlinked, is⟩ := resolved_file resolved
      refine ⟨p, List.mem_of_find?_eq_some first, beq_iff_eq.mp own, dir, file, unlinked, ?_, ?_⟩
      · rw [uploadOf, if_pos uploaded, recorded]
        exact is
      · intro same
        rw [namesOneFile_of_fileOf is same] at other
        cases other
    · cases superseded

theorem Exclusive.unlinksOwn (leads : Leads parents disk)
    (exclusive : Exclusive parents (rpmPackages s.original)) : UnlinksOwn env disk parents s where
  upload name persist target removed := by
    have ready := @Exclusive.ensure env disk parents s leads exclusive
    cases @commit_taken env disk s name persist with
    | nothing _ none =>
      rw [none] at removed
      cases removed
    | matched m dest placed free outcome superseded session =>
      rw [removed] at superseded
      obtain ⟨o, accepted, matched⟩ := outcome
      obtain ⟨p, mem, own, dir, file, unlinked, has, apart⟩ := superseded_file superseded
      rw [leads.same] at has apart
      refine ⟨o, m, dir, file, accepted, matched, unlinked, ?_, ?_⟩
      · rw [session, recorded_packages]
        intro q memQ same
        rcases mem_staged parents memQ with old | ⟨id, -⟩
        · exact (ready q old p mem _ same has).trans own
        · exact id
      · rw [session, recorded_packages,
          find_updateFirst _ _ fun a hit => (isCanonical_stage _ _ _ a).trans hit]
        intro q first
        obtain ⟨a, -, rfl⟩ := Option.map_eq_some_iff.mp first
        exact apart
  removal p mem recorded target uploaded cached resolved := by
    obtain ⟨dir, file, unlinked, is⟩ := resolved_file resolved
    refine ⟨dir, file, unlinked, fun q memQ same => exclusive q memQ p mem _ same ?_⟩
    rw [uploadOf, if_pos uploaded, cached, ← leads.same]
    exact is

/-- Through any run no two packages have one file for their uploads, and no file is unlinked
    that is another package's. -/
theorem uploads_kept_apart {calls : List (Disk × WebCall)}
    (leads : ∀ call ∈ calls, Leads parents call.1) (lead : Leads parents disk)
    (exclusive : Exclusive parents (rpmPackages s.original)) :
    Exclusive parents (rpmPackages (serveAll env calls s).original) ∧
      UnlinksOwn env disk parents (serveAll env calls s) := by
  have stays : Exclusive parents (rpmPackages (serveAll env calls s).original) :=
    exclusive.run leads
  exact ⟨stays, stays.unlinksOwn lead⟩

end

def uploadDisk : Disk :=
  { stagedDisk with
    canonicalize := fun _ => .ok "/srv/host-uploads"
    readDir := fun _ => .ok [] }

def uploadTool : WebCall := .upload ⟨"tool-1-1.noarch.rpm", by decide⟩ (.ok uploadDisk)

theorem leads_uploadDisk : Leads (fun _ => some "/srv/host-uploads") uploadDisk :=
  ⟨rfl, fun _ _ _ lead => congrArg some (Except.ok.inj lead)⟩

theorem uploads_kept_apart_tool :
    Exclusive (fun _ => some "/srv/host-uploads") (rpmPackages
        (serveAll sampleEnv [(uploadDisk, uploadTool)] (toolSession true)).original) ∧
      UnlinksOwn sampleEnv uploadDisk (fun _ => some "/srv/host-uploads")
        (serveAll sampleEnv [(uploadDisk, uploadTool)] (toolSession true)) :=
  uploads_kept_apart (fun _ mem => List.mem_singleton.mp mem ▸ leads_uploadDisk) leads_uploadDisk
    fun p mem q _ f has _ => by
      obtain rfl := List.mem_singleton.mp mem
      cases has

end Inspectah
