import Inspectah.Library.LastWriter
import Inspectah.Refine.Frame
import Inspectah.Refine.SessionLaws

/-!
Password decisions. An operation about a user rewrites the first record of that name, so each
record is a register of its own.
-/
namespace Inspectah

open FirstMatch LastWriter

def userRows (snap : InspectionSnapshot) : List Json := (snap.usersGroups.map (·.users)).getD []

def userRecord (snap : InspectionSnapshot) (username : String) : Option Json :=
  (userRows snap).find? (isUser username)

def RefinementOp.subject : RefinementOp → Option String
  | .userStrategy username _ => some username
  | .userPassword p => some p.username
  | _ => none

def RefinementOp.isPassword : RefinementOp → Bool
  | .userPassword _ => true
  | _ => false

def decidesPassword (username : String) : RefinementOp → Bool
  | .userPassword p => p.username == username
  | _ => false

def namesUser (op : RefinementOp) (user : Json) : Bool := op.subject.any fun u => isUser u user

/-- Some operation is about the user whose first record is at this position. -/
def IsWritten (original : InspectionSnapshot) (ops : List RefinementOp) (i : Nat) : Prop :=
  ∃ op ∈ ops, ∃ username, op.subject = some username ∧
    (userRows original).findIdx? (isUser username) = some i

structure PasswordFields where
  choice : Option Json
  hash : Option Json

def passwordFields (user : Json) : PasswordFields :=
  ⟨user.get "password_choice", user.get "password_hash"⟩

def EndsWith (original projected : InspectionSnapshot) (username : String)
    (fields : PasswordFields) : Prop :=
  (userRecord original username).isSome →
    ∃ after, userRecord projected username = some after ∧ passwordFields after = fields

/-- Choice `new` with a hash that is not empty. -/
def HasNewPassword (user : Json) : Prop :=
  user.get "password_choice" = some (.str "new") ∧
    ∃ hash : String, hash ≠ "" ∧ user.get "password_hash" = some (.str hash)

def RedactionState.unresolved : RedactionState → Nat × List RedactionHint
  | .partiallyRedacted _ _ count hints => (count, hints)
  | .sensitiveRetained _ _ count hints => (count, hints)
  | _ => (0, [])

def IsRetained (before after : Option RedactionState) : Prop :=
  ∃ redactedBy configHash, after = some (.sensitiveRetained redactedBy configHash
    ((before.map (·.unresolved)).getD (0, [])).1 ((before.map (·.unresolved)).getD (0, [])).2)

def RedactionState.isRedacted : RedactionState → Bool
  | .fullyRedacted .. => true
  | .partiallyRedacted .. => true
  | _ => false

def IsRaised (before after : Option RedactionState) : Prop :=
  if before.any RedactionState.isRedacted then IsRetained before after else after = before

/-- What a history of operations decides about the users of the opened snapshot,
    given what sensitivity makes of a redaction state. -/
structure PasswordDecisions (raised : Option RedactionState → Option RedactionState → Prop)
    (original projected : InspectionSnapshot) (ops : List RefinementOp) : Prop where
  preserved : ∀ username,
    lastOf (decidesPassword username) ops = some (.userPassword (.preserve username)) →
    EndsWith original projected username
      ⟨some (.str "preserve"), (originalHash original username).map .str⟩
  removed : ∀ username,
    lastOf (decidesPassword username) ops = some (.userPassword (.none username)) →
    EndsWith original projected username ⟨some (.str "none"), none⟩
  renewed : ∀ username hash,
    lastOf (decidesPassword username) ops = some (.userPassword (.new username (some hash))) →
    EndsWith original projected username ⟨some (.str "new"), some (.str hash)⟩
  others : ∀ i, ¬ IsWritten original ops i →
    (userRows projected)[i]? = (userRows original)[i]?
  sensitive : original.sensitiveSnapshot = false →
    (projected.sensitiveSnapshot = true ↔ ∃ user ∈ userRows projected, HasNewPassword user)
  redaction : original.sensitiveSnapshot = false → projected.sensitiveSnapshot = true →
    raised original.redactionState projected.redactionState

def writeUser (original : InspectionSnapshot) : RefinementOp → Json → Json
  | .userStrategy _ strategy =>
    Json.insert "containerfile_strategy" (.str (strategyText strategy))
  | .userPassword p => setPassword original p
  | _ => id

theorem usersGroups_setInclude (original : InspectionSnapshot) (index : RepoIndex)
    (excluded : List RepoId) (item : ItemId) (incl : Bool) (snap : InspectionSnapshot) :
    (setInclude original index excluded item incl snap).usersGroups = snap.usersGroups := by
  unfold setInclude
  split
  · rfl
  · cases item <;> rfl

theorem userRows_updateUser (username : String) (f : Json → Json) (snap : InspectionSnapshot) :
    userRows (updateUser username f snap) = updateFirst (isUser username) f (userRows snap) := by
  rw [updateUser, userRows, userRows, InspectionSnapshot.onUsersGroups]
  cases snap.usersGroups <;> rfl

theorem userRows_replayOp (original : InspectionSnapshot) (index : RepoIndex)
    (excluded : List RepoId) (snap : InspectionSnapshot) (op : RefinementOp) :
    userRows (replayOp original index excluded snap op) =
      updateFirst (namesUser op) (writeUser original op) (userRows snap) := by
  have passes : op.subject = none →
      updateFirst (namesUser op) (writeUser original op) (userRows snap) = userRows snap := by
    intro silent
    apply updateFirst_absent
    simp [namesUser, silent]
  cases op with
  | setInclude item incl =>
    rw [passes rfl, replayOp, userRows, usersGroups_setInclude, userRows]
  | userStrategy username strategy => exact userRows_updateUser username _ snap
  | userPassword p => exact userRows_updateUser p.username _ snap
  | selectVariant => exact (passes rfl).symm
  | editVariant => exact (passes rfl).symm
  | discardVariant => exact (passes rfl).symm
  | setPackagePin item pinned =>
    rw [passes rfl]
    cases item <;> rfl
  | setBulkPackagePin => exact (passes rfl).symm

section Records

variable (original : InspectionSnapshot) (op : RefinementOp) (user : Json)

theorem isObject_writeUser : (writeUser original op user).isObject = user.isObject := by
  unfold writeUser
  split
  · exact isObject_insert ..
  · rename_i p
    cases p with
    | new username hash => cases hash <;> simp [setPassword]
    | none username => simp [setPassword]
    | preserve username =>
      rw [setPassword]
      cases originalHash original username <;> simp
  · rfl

theorem isUser_writeUser (username : String) :
    isUser username (writeUser original op user) = isUser username user := by
  have inserted : ∀ (key : String) (value j : Json), key ≠ "name" →
      isUser username (Json.insert key value j) = isUser username j := by
    intro key value j other
    rw [isUser, isUser, get_insert_ne other]
  have removed : ∀ (key : String) (j : Json), key ≠ "name" →
      isUser username (j.remove key) = isUser username j := by
    intro key j other
    rw [isUser, isUser, get_remove_ne other]
  unfold writeUser
  split
  · exact inserted _ _ _ (by decide)
  · rename_i p
    cases p with
    | new _ hash => cases hash <;> simp [setPassword, inserted]
    | none _ => simp [setPassword, inserted, removed]
    | preserve name =>
      rw [setPassword]
      cases originalHash original name <;> simp [inserted, removed]
  · rfl

theorem namesUser_writeUser (op' : RefinementOp) :
    namesUser op' (writeUser original op user) = namesUser op' user := by
  simp only [namesUser, isUser_writeUser]

theorem passwordFields_passed (other : op.isPassword = false) :
    passwordFields (writeUser original op user) = passwordFields user := by
  cases op with
  | userStrategy username strategy =>
    rw [writeUser, passwordFields, get_insert_ne (by decide), get_insert_ne (by decide),
      passwordFields]
  | userPassword p => cases other
  | _ => rfl

variable {user} (object : user.isObject)
include object

theorem passwordFields_new (username hash : String) :
    passwordFields (writeUser original (.userPassword (.new username (some hash))) user) =
      ⟨some (.str "new"), some (.str hash)⟩ := by
  rw [writeUser, setPassword, passwordFields, get_insert_ne (by decide), get_insert_self object,
    get_insert_self (by simpa using object)]

theorem passwordFields_none (username : String) :
    passwordFields (writeUser original (.userPassword (.none username)) user) =
      ⟨some (.str "none"), none⟩ := by
  rw [writeUser, setPassword, passwordFields, get_remove_ne (by decide), get_insert_self object,
    get_remove_self]

theorem passwordFields_preserve (username : String) :
    passwordFields (writeUser original (.userPassword (.preserve username)) user) =
      ⟨some (.str "preserve"), (originalHash original username).map .str⟩ := by
  rw [writeUser, setPassword, passwordFields]
  cases originalHash original username with
  | none =>
    rw [get_remove_ne (by decide), get_insert_self object, get_remove_self]
    rfl
  | some hash =>
    rw [get_insert_ne (by decide), get_insert_self object, get_insert_self (by simpa using object)]
    rfl

end Records

section History

variable (original : InspectionSnapshot) (index : RepoIndex) (excluded : List RepoId)
variable (ops : List RefinementOp)

theorem userRows_foldl (snap : InspectionSnapshot) :
    userRows (ops.foldl (replayOp original index excluded) snap) =
      ops.foldl (fun rows op => updateFirst (namesUser op) (writeUser original op) rows)
        (userRows snap) := by
  induction ops generalizing snap with
  | nil => rfl
  | cons op rest ih => rw [List.foldl_cons, List.foldl_cons, ih, userRows_replayOp]

theorem getElem_userRows_replay (i : Nat) :
    (userRows (replay original index ops))[i]? = (userRows original)[i]?.map fun user =>
      (writesAt namesUser (userRows original) i ops).foldl
        (fun user op => writeUser original op user) user := by
  rw [replay, userRows_foldl, getElem_foldl_updateFirst]
  intro op op' user
  exact namesUser_writeUser original op' user op

theorem findIdx_userRows_replay (username : String) :
    (userRows (replay original index ops)).findIdx? (isUser username) =
      (userRows original).findIdx? (isUser username) := by
  rw [replay, userRows_foldl]
  generalize userRows original = rows
  induction ops generalizing rows with
  | nil => rfl
  | cons op rest ih =>
    rw [List.foldl_cons, ih]
    exact findIdx_updateFirst (fun user => isUser_writeUser original op user username) rows

variable {original ops}

theorem isUser_unique {username username' : String} {user : Json} (one : isUser username user)
    (other : isUser username' user) : username = username' := by
  rw [isUser, beq_iff_eq] at one other
  exact Option.some.inj (one.symm.trans other)

theorem lastOf_writesAt {username : String} {i : Nat}
    (first : (userRows original).findIdx? (isUser username) = some i) :
    lastOf RefinementOp.isPassword (writesAt namesUser (userRows original) i ops) =
      lastOf (decidesPassword username) ops := by
  rw [lastOf, lastOf, writesAt, List.filter_filter]
  congr 1
  apply List.filter_congr
  intro op _
  cases op with
  | userPassword p =>
    rw [decidesPassword, RefinementOp.isPassword, Bool.true_and, Bool.eq_iff_iff, beq_iff_eq,
      beq_iff_eq]
    change (userRows original).findIdx? (isUser p.username) = some i ↔ p.username = username
    constructor
    · intro same
      obtain ⟨bound, here, _⟩ := List.findIdx?_eq_some_iff_getElem.mp same
      obtain ⟨_, there, _⟩ := List.findIdx?_eq_some_iff_getElem.mp first
      exact isUser_unique here there
    · intro same
      rw [same, first]
  | _ => rfl

theorem writesAt_unwritten {i : Nat} (unwritten : ¬ IsWritten original ops i) :
    writesAt namesUser (userRows original) i ops = [] := by
  rw [writesAt, List.filter_eq_nil_iff]
  intro op mem reaches
  rw [beq_iff_eq] at reaches
  apply unwritten
  cases about : op.subject with
  | none =>
    obtain ⟨bound, here, _⟩ := List.findIdx?_eq_some_iff_getElem.mp reaches
    rw [namesUser, about] at here
    cases here
  | some username =>
    have same : namesUser op = isUser username := by
      funext user
      rw [namesUser, about, Option.any_some]
    exact ⟨op, mem, username, about, by rw [← same, reaches]⟩

theorem isObject_of_isUser {username : String} {user : Json} (named : isUser username user) :
    user.isObject := by
  cases user with
  | obj => rfl
  | _ => cases named

theorem endsWith_of_last {username : String} {op : RefinementOp} {fields : PasswordFields}
    (last : lastOf (decidesPassword username) ops = some op)
    (written : ∀ user : Json, user.isObject →
      passwordFields (writeUser original op user) = fields) :
    EndsWith original (replay original index ops) username fields := by
  intro known
  obtain ⟨before, found⟩ := Option.isSome_iff_exists.mp known
  rw [userRecord, List.find?_eq_bind_findIdx?_getElem?] at found
  obtain ⟨i, first, here⟩ := Option.bind_eq_some_iff.mp found
  have named : isUser username before := by
    obtain ⟨bound, named, _⟩ := List.findIdx?_eq_some_iff_getElem.mp first
    rw [List.getElem?_eq_getElem bound, Option.some.injEq] at here
    rwa [← here]
  have after := getElem_userRows_replay original index ops i
  rw [here, Option.map_some] at after
  have reached : userRecord (replay original index ops) username =
      (userRows (replay original index ops))[i]? := by
    rw [userRecord, List.find?_eq_bind_findIdx?_getElem?, findIdx_userRows_replay, first]
    rfl
  rw [← lastOf_writesAt first] at last
  have shown : ∃ user : Json, user.isObject ∧
      passwordFields ((writesAt namesUser (userRows original) i ops).foldl
        (fun user op => writeUser original op user) before) =
        passwordFields (writeUser original op user) :=
    observe_last (fun user op object => by rwa [isObject_writeUser])
      (fun user op other => passwordFields_passed original op user other)
      (isObject_of_isUser named) last
  obtain ⟨user, object, shown⟩ := shown
  exact ⟨_, reached.trans after, shown.trans (written user object)⟩

end History

section Sensitivity

variable (h : Hashing) (original : InspectionSnapshot) (state : VariantProjectionState)
variable (snap : InspectionSnapshot)

theorem usersGroups_finishProjection :
    (finishProjection h original state snap).usersGroups = snap.usersGroups := by
  obtain ⟨_, _, finished⟩ := finishProjection_eq h original state snap
  rw [finished]

theorem raiseSensitivity_congr {a b : InspectionSnapshot} (users : a.usersGroups = b.usersGroups)
    (sensitive : a.sensitiveSnapshot = b.sensitiveSnapshot)
    (redaction : a.redactionState = b.redactionState) :
    (raiseSensitivity original a).sensitiveSnapshot =
        (raiseSensitivity original b).sensitiveSnapshot ∧
      (raiseSensitivity original a).redactionState =
        (raiseSensitivity original b).redactionState := by
  have raises : hasNewPassword a = hasNewPassword b := by rw [hasNewPassword, users, hasNewPassword]
  unfold raiseSensitivity
  rw [raises]
  split
  · exact ⟨rfl, congrArg retainSensitive redaction⟩
  · exact ⟨sensitive, redaction⟩

theorem sensitivity_finishProjection :
    (finishProjection h original state snap).sensitiveSnapshot =
        (raiseSensitivity original snap).sensitiveSnapshot ∧
      (finishProjection h original state snap).redactionState =
        (raiseSensitivity original snap).redactionState := by
  rw [finishProjection, materializeVariants_eq]
  exact raiseSensitivity_congr original rfl rfl rfl

theorem hasNewPassword_iff :
    hasNewPassword snap = true ↔ ∃ user ∈ userRows snap, HasNewPassword user := by
  rw [hasNewPassword, List.any_eq_true]
  apply exists_congr
  intro user
  apply and_congr_right
  intro _
  rw [HasNewPassword, Bool.and_eq_true, beq_iff_eq]
  apply and_congr
  · cases user.get "password_choice" with
    | none => simp
    | some value => cases value <;> simp [Json.asStr]
  · cases user.get "password_hash" with
    | none => simp
    | some value => cases value <;> simp [Json.asStr]

theorem isRaised_retainSensitive (before : Option RedactionState) :
    IsRaised before (retainSensitive before) := by
  cases before with
  | none => rfl
  | some state =>
    cases state with
    | fullyRedacted by_ hash => exact ⟨by_, hash, rfl⟩
    | partiallyRedacted by_ hash count hints => exact ⟨by_, hash, rfl⟩
    | _ => rfl

end Sensitivity

/-- What password operations decide, over every session and every cursor. -/
theorem password_decisions_law (h : Hashing) (c : SessionCore) :
    PasswordDecisions IsRaised c.original (c.projected h) c.activeOps := by
  have projected : c.projected h = finishProjection h c.original
      (buildVariantState h c.original c.activeOps)
      (replay c.original c.repoIndex c.activeOps) := rfl
  have rows : userRows (c.projected h) = userRows (replay c.original c.repoIndex c.activeOps) := by
    rw [projected, userRows, userRows, usersGroups_finishProjection]
  have record : ∀ username, userRecord (c.projected h) username =
      userRecord (replay c.original c.repoIndex c.activeOps) username := by
    intro username
    rw [userRecord, userRecord, rows]
  have decided : ∀ {username op fields},
      lastOf (decidesPassword username) c.activeOps = some op →
      (∀ user : Json, user.isObject →
        passwordFields (writeUser c.original op user) = fields) →
      EndsWith c.original (c.projected h) username fields := by
    intro username op fields last written known
    rw [record]
    exact endsWith_of_last c.repoIndex last written known
  have frame : ReplayFrame c.original (replay c.original c.repoIndex c.activeOps) := replay_frame _
  obtain ⟨sensitive, redaction⟩ := sensitivity_finishProjection h c.original
    (buildVariantState h c.original c.activeOps) (replay c.original c.repoIndex c.activeOps)
  have start : (replay c.original c.repoIndex c.activeOps).sensitiveSnapshot =
      c.original.sensitiveSnapshot := by rw [frame.rest]
  have before : (replay c.original c.repoIndex c.activeOps).redactionState =
      c.original.redactionState := by rw [frame.rest]
  constructor
  · intro username last
    exact decided last fun user object => passwordFields_preserve c.original object username
  · intro username last
    exact decided last fun user object => passwordFields_none c.original object username
  · intro username hash last
    exact decided last fun user object => passwordFields_new c.original object username hash
  · intro i unwritten
    rw [rows, getElem_userRows_replay, writesAt_unwritten unwritten]
    exact Option.map_id'
  · intro plain
    rw [projected, sensitive, ← projected, rows, ← hasNewPassword_iff, raiseSensitivity]
    cases raised : hasNewPassword (replay c.original c.repoIndex c.activeOps) <;>
      simp [plain, start]
  · intro plain raised
    rw [projected, sensitive, raiseSensitivity] at raised
    rw [projected, redaction, raiseSensitivity]
    split at raised
    · rename_i raises
      rw [if_pos raises, before]
      exact isRaised_retainSensitive _
    · rw [start, plain] at raised
      cases raised

def unredactedHost : InspectionSnapshot :=
  { usersGroups := some { users := [.obj [("name", .str "alice")]] } }

def renewPassword : RefinementOp := .userPassword (.new "alice" (some "$6$salt$hash"))

def renewedSession : RefineSession :=
  ((RefineSession.new sampleEnv sampleDisk unredactedHost).apply sampleEnv sampleDisk
    renewPassword).session

/-- A new password makes the snapshot sensitive and retains nothing: there was no
    redaction state to upgrade. -/
theorem unredacted_not_retained :
    ¬ PasswordDecisions IsRetained renewedSession.original
      (renewedSession.projected sampleEnv.toHashing) renewedSession.activeOps := by
  intro stated
  obtain ⟨redactedBy, configHash, after⟩ :=
    stated.redaction (by decide +kernel) (by decide +kernel)
  have bare : (renewedSession.projected sampleEnv.toHashing).redactionState = none := by
    decide +kernel
  rw [bare] at after
  cases after

end Inspectah
