import Inspectah.Collect.Users

/-!
What the account section of a host says of its passwords: two hosts that differ in passwords
only, through the whole inspector.
-/
namespace Inspectah

open FirstMatch (updateFirst)

def secondField (line : String) : String := (accountFields line)[1]?.getD ""

def SameButSecond (line line' : String) : Prop :=
  ∃ password, accountFields line' = (accountFields line).set 1 password

def SameEntries (R : String → String → Prop) : Except IoError String → Except IoError String → Prop
  | .ok text, .ok text' => (entryLines text).Forall₂ R (entryLines text')
  | .error e, .error e' => e = e'
  | _, _ => False

def accountFiles : List String := ["/etc/passwd", "/etc/shadow", "/etc/group", "/etc/gshadow"]

structure SameButPasswords (host host' : AccountHost) : Prop where
  others : ∀ path, path ∉ accountFiles → host.readFile path = host'.readFile path
  dirs : host.readDir = host'.readDir
  passwd : SameEntries SameButSecond (host.readFile "/etc/passwd") (host'.readFile "/etc/passwd")
  shadow : SameEntries (fun line line' => SameButSecond line line' ∧
      passwordStatus (secondField line) = passwordStatus (secondField line'))
    (host.readFile "/etc/shadow") (host'.readFile "/etc/shadow")
  group : SameEntries SameButSecond (host.readFile "/etc/group") (host'.readFile "/etc/group")
  gshadow : SameEntries SameButSecond (host.readFile "/etc/gshadow") (host'.readFile "/etc/gshadow")

def SameButField (key : String) (j j' : Json) : Prop :=
  ∃ fields fields', j = .obj fields ∧ j' = .obj fields' ∧
    fields.Forall₂ (fun f f' => f.1 = f'.1 ∧ (f.1 ≠ key → f.2 = f'.2)) fields'

def usersWithPassword (host : AccountHost) : List String :=
  match host.readFile "/etc/shadow" with
  | .ok text => ((entryLines text).filter fun line =>
      passwordStatus (secondField line) = .passwordSet).map firstField
  | .error _ => []

def SameUser (names : List String) (user user' : Json) : Prop :=
  user = user' ∨ strField user "name" ∈ names ∧ SameButField "password_hash" user user'

structure SameUpToHashes (names : List String) (a b : UserGroupOutput) : Prop where
  users : a.userGroups.users.Forall₂ (SameUser names) b.userGroups.users
  rest : { a.userGroups with users := [] } = { b.userGroups with users := [] }
  hints : a.redactionHints = b.redactionHints

def SameResult (names : List String) : Except InspectorError UserGroupOutput →
    Except InspectorError UserGroupOutput → Prop
  | .ok a, .ok b => SameUpToHashes names a b
  | .error (.degraded a reason), .error (.degraded b reason') =>
    SameUpToHashes names a b ∧ reason = reason'
  | .error (.failed reason), .error (.failed reason') => reason = reason'
  | _, _ => False

def NoPasswordFlow (uppercase : String → String) (host host' : AccountHost) : Prop :=
  ∀ keys : Bool,
    inspectUsers uppercase ⟨false, keys⟩ host = inspectUsers uppercase ⟨false, keys⟩ host' ∧
    SameResult (usersWithPassword host) (inspectUsers uppercase ⟨true, keys⟩ host)
      (inspectUsers uppercase ⟨true, keys⟩ host')

def PasswordsAgree (record : String → Option AccountRecord) :
    Except IoError String → Except IoError String → Prop
  | .ok text, .ok text' => (entryLines text).Forall₂
      (fun line line' => (record line).isSome → secondField line = secondField line')
      (entryLines text')
  | _, _ => True

/-- Every user and group that is kept has the same password on both hosts. -/
def KeptPasswordsAgree (host host' : AccountHost) : Prop :=
  PasswordsAgree passwdRecord (host.readFile "/etc/passwd") (host'.readFile "/etc/passwd") ∧
    ((host.readFile "/etc/passwd").isOk →
      PasswordsAgree groupRecord (host.readFile "/etc/group") (host'.readFile "/etc/group"))

section Records

variable {key k : String} {j j' v v' : Json} {names : List String}

theorem strField_insert_ne (other : k ≠ key) (j : Json) :
    strField (Json.insert k v j) key = strField j key := by
  rw [strField, get_insert_ne other, strField]

theorem SameButField.get (same : SameButField key j j') (other : k ≠ key) :
    j.get k = j'.get k := by
  obtain ⟨fields, fields', rfl, rfl, each⟩ := same
  rw [Json.get, Json.get]
  induction each with
  | nil => rfl
  | @cons f f' rest rest' head tail ih =>
    rw [List.find?_cons, List.find?_cons, ← head.1]
    by_cases here : f.1 = k
    · have value := head.2 (here ▸ other)
      simp [here, value]
    · have apart : (f.1 == k) = false := by simpa using here
      rw [apart]
      exact ih

theorem SameButField.insert (same : SameButField key j j') (value : k ≠ key → v = v') :
    SameButField key (Json.insert k v j) (Json.insert k v' j') := by
  obtain ⟨fields, fields', rfl, rfl, each⟩ := same
  refine ⟨_, _, rfl, rfl, ?_⟩
  induction each with
  | nil => exact .cons ⟨rfl, value⟩ .nil
  | @cons f f' rest rest' head tail ih =>
    rw [Json.insertField, Json.insertField, ← head.1]
    split
    · exact .cons ⟨rfl, value⟩ (.cons ⟨rfl, head.2⟩ tail)
    · split
      · exact .cons ⟨rfl, value⟩ tail
      · exact .cons ⟨rfl, head.2⟩ ih

theorem sameButField_self (fields : List (String × Json)) :
    SameButField key (.obj fields) (.obj fields) :=
  ⟨fields, fields, rfl, rfl, List.forall₂_same.mpr fun _ _ => ⟨rfl, fun _ => rfl⟩⟩

theorem SameUser.get (same : SameUser names j j') (other : k ≠ "password_hash") :
    j.get k = j'.get k := by
  rcases same with rfl | ⟨-, same⟩
  · rfl
  · exact same.get other

theorem SameUser.strField (same : SameUser names j j') (other : k ≠ "password_hash") :
    strField j k = strField j' k := by
  rw [Inspectah.strField, same.get other, Inspectah.strField]

theorem SameUser.insert (same : SameUser names j j') (other : k ≠ "name") :
    SameUser names (Json.insert k v j) (Json.insert k v j') := by
  rcases same with rfl | ⟨name, same⟩
  · exact .inl rfl
  · refine .inr ⟨?_, same.insert fun _ => rfl⟩
    rwa [strField_insert_ne other]

theorem SameUser.insertHash (same : SameUser names j j') (name : Inspectah.strField j "name" ∈ names) :
    SameUser names (Json.insert "password_hash" v j)
      (Json.insert "password_hash" v' j') := by
  have named : Inspectah.strField (Json.insert "password_hash" v j) "name" ∈ names := by
    rwa [strField_insert_ne (by decide)]
  rcases same with rfl | ⟨-, same⟩
  · cases j with
    | obj fields => exact .inr ⟨named, (sameButField_self fields).insert fun other => absurd rfl other⟩
    | _ => exact .inl rfl
  · exact .inr ⟨named, same.insert fun other => absurd rfl other⟩

theorem sameUser_nil : SameUser [] j j' ↔ j = j' := by
  simp [SameUser]

theorem forall₂_updateFirst {α β : Type} {R : α → β → Prop} {p : α → Bool} {q : β → Bool}
    {f : α → α} {g : β → β} {rows : List α} {rows' : List β} (related : rows.Forall₂ R rows')
    (found : ∀ a b, R a b → p a = q b) (changed : ∀ a b, R a b → p a → R (f a) (g b)) :
    (updateFirst p f rows).Forall₂ R (updateFirst q g rows') := by
  induction related with
  | nil => exact .nil
  | @cons a b rest rest' head tail ih =>
    rw [updateFirst, updateFirst, ← found a b head]
    split
    · rename_i here
      exact .cons (changed a b head here) tail
    · exact .cons head ih

end Records

section Lines

variable {line line' : String}

theorem SameButSecond.shape (same : SameButSecond line line') :
    accountFields line' = accountFields line ∨ ∃ name password password' rest,
      accountFields line = name :: password :: rest ∧
        accountFields line' = name :: password' :: rest := by
  obtain ⟨password', fields⟩ := same
  rw [fields]
  match accountFields line with
  | [] => exact .inl rfl
  | [_] => exact .inl rfl
  | name :: password :: rest => exact .inr ⟨name, password, password', rest, rfl, rfl⟩

theorem sameButSecond_self (line : String) : SameButSecond line line := by
  unfold SameButSecond
  match accountFields line with
  | [] => exact ⟨"", rfl⟩
  | [_] => exact ⟨"", rfl⟩
  | _ :: password :: _ => exact ⟨password, rfl⟩

/-- What a record says apart from its line. -/
def AccountRecord.said (r : AccountRecord) : String × Json := (r.name, r.entry)

theorem passwdRecord_said (same : SameButSecond line line') :
    (passwdRecord line).map (·.said) = (passwdRecord line').map (·.said) := by
  unfold passwdRecord
  rcases same.shape with fields | ⟨name, password, password', rest, fields, fields'⟩
  · rw [fields]
    split
    · cases parseU32 _ with
      | none => rfl
      | some uid =>
        dsimp only [Option.bind_some]
        split <;> rfl
    · rfl
  · rw [fields, fields']
    match rest with
    | uid :: gid :: _ :: home :: shell :: _ =>
      dsimp only
      cases parseU32 uid with
      | none => rfl
      | some uid =>
        dsimp only [Option.bind_some]
        split <;> rfl
    | [] => rfl
    | [_] => rfl
    | [_, _] => rfl
    | [_, _, _] => rfl
    | [_, _, _, _] => rfl

theorem groupRecord_said (same : SameButSecond line line') :
    (groupRecord line).map (·.said) = (groupRecord line').map (·.said) := by
  unfold groupRecord
  rcases same.shape with fields | ⟨name, password, password', rest, fields, fields'⟩
  · rw [fields]
    split
    · cases parseU32 _ with
      | none => rfl
      | some gid =>
        dsimp only [Option.bind_some]
        split <;> rfl
    · rfl
  · rw [fields, fields']
    match rest with
    | gid :: _ =>
      dsimp only
      cases parseU32 gid with
      | none => rfl
      | some gid =>
        dsimp only [Option.bind_some]
        split <;> rfl
    | [] => rfl

theorem passwdRecord_raw {r : AccountRecord} (found : passwdRecord line = some r) : r.raw = line := by
  unfold passwdRecord at found
  split at found
  · obtain ⟨uid, -, kept⟩ := Option.bind_eq_some_iff.mp found
    split at kept
    · cases kept
      rfl
    · cases kept
  · cases found

theorem groupRecord_raw {r : AccountRecord} (found : groupRecord line = some r) : r.raw = line := by
  unfold groupRecord at found
  split at found
  · obtain ⟨gid, -, kept⟩ := Option.bind_eq_some_iff.mp found
    split at kept
    · cases kept
      rfl
    · cases kept
  · cases found

theorem gshadowEntry_same (same : SameButSecond line line') (groups : List String) :
    gshadowEntry groups line = gshadowEntry groups line' := by
  unfold gshadowEntry
  rcases same.shape with fields | ⟨name, password, password', rest, fields, fields'⟩
  · rw [fields]
  · rw [fields, fields']
    match rest with
    | _ :: _ :: _ => rfl
    | [] => rfl
    | [_] => rfl

theorem membershipsOn_same (same : SameButSecond line line') (username : String) :
    membershipsOn username line = membershipsOn username line' := by
  unfold membershipsOn
  rcases same.shape with fields | ⟨name, password, password', rest, fields, fields'⟩
  · rw [fields]
  · rw [fields, fields']
    match rest with
    | _ :: _ :: _ => rfl
    | [] => rfl
    | [_] => rfl

structure SameShadow (preserve : Bool) (names : List String) (r r' : ShadowRecord) : Prop where
  username : r.username = r'.username
  status : r.status = r'.status
  safeEntry : r.safeEntry = r'.safeEntry
  known : preserve = true → r.status = .passwordSet → r.username ∈ names

theorem shadowRecord_same {preserve : Bool} {names : List String}
    (same : SameButSecond line line')
    (status : passwordStatus (secondField line) = passwordStatus (secondField line'))
    (known : preserve = true → passwordStatus (secondField line) = .passwordSet →
      Inspectah.firstField line ∈ names) (users : List String) :
    Option.Rel (SameShadow preserve names) (shadowRecord users line) (shadowRecord users line') := by
  unfold shadowRecord
  unfold secondField at status known
  unfold Inspectah.firstField at known
  rcases same.shape with fields | ⟨name, password, password', rest, fields, fields'⟩
  · rw [fields]
    match accountFields line, known with
    | [], _ => exact .none
    | [_], _ => exact .none
    | username :: hash :: rest, known =>
      dsimp only
      split
      · exact .some ⟨rfl, rfl, rfl, known⟩
      · exact .none
  · rw [fields] at status known ⊢
    rw [fields'] at status ⊢
    dsimp only
    have status : passwordStatus password = passwordStatus password' := status
    split
    · exact .some ⟨rfl, status, by rw [status], known⟩
    · exact .none

theorem splitOn_inj {sep : Char} {s t : String}
    (same : Text.splitOn (· == sep) s = Text.splitOn (· == sep) t) : s = t := by
  unfold Text.splitOn at same
  have pieces : Text.splitChars (· == sep) s.toList = Text.splitChars (· == sep) t.toList :=
    List.map_injective_iff.mpr (fun _ _ => String.ofList_inj.mp) same
  rw [Text.splitChars_eq_splitOnP, Text.splitChars_eq_splitOnP, ← List.splitOn_eq_splitOnP,
    ← List.splitOn_eq_splitOnP] at pieces
  have joined := congrArg [sep].intercalate pieces
  rw [List.intercalate_splitOn, List.intercalate_splitOn] at joined
  exact String.toList_injective joined

theorem SameButSecond.line_eq (same : SameButSecond line line') :
    secondField line = secondField line' ↔ line = line' := by
  constructor
  · intro password
    refine @splitOn_inj ':' _ _ ?_
    change accountFields line = accountFields line'
    rcases same.shape with fields | ⟨name, first, second, rest, fields, fields'⟩
    · exact fields.symm
    · rw [secondField, secondField, fields, fields'] at password
      rw [fields, fields']
      rw [show first = second from password]
  · rintro rfl
    rfl

end Lines

section Flow

variable {names : List String} {raw raw' : List String × List String}

/-- The lines kept of `/etc/passwd` and of `/etc/group`. -/
def keptLines (sec : UserGroupSection) : List String × List String :=
  (sec.passwdEntries, sec.groupEntries)

/-- Sections that differ in the kept lines, as given, and in hashes. -/
structure Related (names : List String) (raw raw' : List String × List String)
    (a b : UserGroupSection) : Prop where
  users : a.users.Forall₂ (SameUser names) b.users
  groups : a.groups = b.groups
  sudoersRules : a.sudoersRules = b.sudoersRules
  sshAuthorizedKeysRefs : a.sshAuthorizedKeysRefs = b.sshAuthorizedKeysRefs
  shadowEntries : a.shadowEntries = b.shadowEntries
  gshadowEntries : a.gshadowEntries = b.gshadowEntries
  subuidEntries : a.subuidEntries = b.subuidEntries
  subgidEntries : a.subgidEntries = b.subgidEntries
  left : keptLines a = raw
  right : keptLines b = raw'

variable {a b : UserGroupSection}

theorem Related.onUsers (related : Related names raw raw' a b) {f g : Json → Json}
    (each : ∀ user user', SameUser names user user' → SameUser names (f user) (g user')) :
    Related names raw raw' (Inspectah.onUsers f a) (Inspectah.onUsers g b) :=
  { related with
    users := by
      refine List.forall₂_map_left_iff.mpr (List.forall₂_map_right_iff.mpr ?_)
      exact related.users.imp each }

theorem Related.onUser (related : Related names raw raw' a b) {name : String} {f g : Json → Json}
    (each : ∀ user user', SameUser names user user' → strField user "name" = name →
      SameUser names (f user) (g user')) :
    Related names raw raw' (Inspectah.onUser name f a) (Inspectah.onUser name g b) :=
  { related with
    users := by
      refine forall₂_updateFirst related.users ?_ ?_
      · intro user user' same
        rw [same.strField (by decide)]
      · intro user user' same here
        exact each user user' same (by simpa using here) }

theorem recordShadow_related {preserve : Bool} {r r' : ShadowRecord}
    (same : SameShadow preserve names r r') {out out' : UserGroupSection × List RedactionHint}
    (related : Related names raw raw' out.1 out'.1 ∧ out.2 = out'.2) :
    Related names raw raw' (recordShadow preserve out r).1 (recordShadow preserve out' r').1 ∧
      (recordShadow preserve out r).2 = (recordShadow preserve out' r').2 := by
  obtain ⟨related, hints⟩ := related
  unfold recordShadow
  dsimp only
  rw [← same.username, ← same.status, ← same.safeEntry, hints]
  refine ⟨?_, rfl⟩
  have hashed : Related names raw raw'
      (if preserve && r.status = .passwordSet then
        onUser r.username (Json.insert "password_hash" (.str r.hashField)) out.1 else out.1)
      (if preserve && r.status = .passwordSet then
        onUser r.username (Json.insert "password_hash" (.str r'.hashField)) out'.1 else out'.1) := by
    split
    · rename_i stored
      simp only [Bool.and_eq_true, decide_eq_true_eq] at stored
      refine related.onUser fun user user' same_user name => same_user.insertHash ?_
      exact name ▸ same.known stored.1 stored.2
    · exact related
  refine Related.onUser ?_ fun user user' same_user _ => same_user.insert (by decide)
  exact { hashed with shadowEntries := by rw [hashed.shadowEntries] }

theorem parseShadow_related {preserve : Bool} {text text' : String}
    (files : (entryLines text).Forall₂ (fun line line' => SameButSecond line line' ∧
      passwordStatus (secondField line) = passwordStatus (secondField line')) (entryLines text'))
    (known : preserve = true → ∀ line ∈ entryLines text,
      passwordStatus (secondField line) = .passwordSet → firstField line ∈ names)
    (users : List String) {out out' : UserGroupSection × List RedactionHint}
    (related : Related names raw raw' out.1 out'.1 ∧ out.2 = out'.2) :
    Related names raw raw' (parseShadow text users preserve out).1
        (parseShadow text' users preserve out').1 ∧
      (parseShadow text users preserve out).2 = (parseShadow text' users preserve out').2 := by
  have entries : ((entryLines text).filterMap (shadowRecord users)).Forall₂
      (SameShadow preserve names) ((entryLines text').filterMap (shadowRecord users)) := by
    have lines := (List.forall₂_and_left _ _).mpr ⟨fun line mem keep => known keep line mem, files⟩
    exact List.rel_filterMap (fun line line' same =>
      shadowRecord_same same.2.1 same.2.2 same.1 users) lines
  unfold parseShadow
  generalize (entryLines text).filterMap (shadowRecord users) = records at entries
  generalize (entryLines text').filterMap (shadowRecord users) = records' at entries
  induction entries generalizing out out' with
  | nil => exact related
  | cons head tail ih => exact ih (recordShadow_related head related)

theorem filterMap_congr_forall₂ {α β γ : Type} {R : α → β → Prop} {f : α → Option γ}
    {g : β → Option γ} {xs : List α} {ys : List β} (related : xs.Forall₂ R ys)
    (same : ∀ x y, R x y → f x = g y) : xs.filterMap f = ys.filterMap g := by
  induction related with
  | nil => rfl
  | cons head tail ih => rw [List.filterMap_cons, List.filterMap_cons, same _ _ head, ih]

theorem records_said {record : String → Option AccountRecord} {text text' : String}
    (files : (entryLines text).Forall₂ SameButSecond (entryLines text'))
    (said : ∀ line line', SameButSecond line line' →
      (record line).map (·.said) = (record line').map (·.said)) :
    ((entryLines text).filterMap record).map (·.said) =
      ((entryLines text').filterMap record).map (·.said) := by
  rw [List.map_filterMap, List.map_filterMap]
  exact filterMap_congr_forall₂ files said

theorem names_of_said {records records' : List AccountRecord}
    (said : records.map (·.said) = records'.map (·.said)) :
    records.map (·.name) = records'.map (·.name) ∧
      records.map (·.entry) = records'.map (·.entry) := by
  have names := congrArg (List.map Prod.fst) said
  have entries := congrArg (List.map Prod.snd) said
  rw [List.map_map, List.map_map] at names entries
  exact ⟨names, entries⟩

theorem extractSudoersRules_related (uppercase : String → String) (text : String)
    {out out' : UserGroupSection × List RedactionHint}
    (related : Related names raw raw' out.1 out'.1 ∧ out.2 = out'.2) :
    Related names raw raw' (extractSudoersRules uppercase text out).1
        (extractSudoersRules uppercase text out').1 ∧
      (extractSudoersRules uppercase text out).2 = (extractSudoersRules uppercase text out').2 := by
  obtain ⟨related, hints⟩ := related
  unfold extractSudoersRules
  dsimp only
  rw [hints]
  exact ⟨{ related with sudoersRules := by rw [related.sudoersRules] }, rfl⟩

theorem recordSshKeys_related (preserveKeys : Bool) (keys : SshKeys)
    (related : Related names raw raw' a b) :
    Related names raw raw' (recordSshKeys preserveKeys a keys) (recordSshKeys preserveKeys b keys) := by
  unfold recordSshKeys
  dsimp only
  refine Related.onUser ?_ fun user user' same _ => ?_
  · exact { related with sshAuthorizedKeysRefs := by rw [related.sshAuthorizedKeysRefs] }
  · split
    · exact (same.insert (by decide)).insert (by decide)
    · exact same.insert (by decide)

theorem setDefaults_same {user user' : Json} (same : SameUser names user user') :
    SameUser names (setDefaults user) (setDefaults user') := by
  have absent : ∀ {key : String} {value u u' : Json}, key ≠ "name" → key ≠ "password_hash" →
      SameUser names u u' → SameUser names (orInsert key value u) (orInsert key value u') := by
    intro key value u u' other apart same
    unfold orInsert
    rw [← same.get apart]
    split
    · exact same
    · exact same.insert other
  have classified : classifyUser user = classifyUser user' := by
    rw [classifyUser, same.strField (by decide), classifyUser]
  unfold setDefaults
  rw [classified]
  exact absent (by decide) (by decide)
    (absent (by decide) (by decide) (same.insert (by decide)))

theorem classificationRationale_same {user user' : Json} (same : SameUser names user user') :
    classificationRationale user = classificationRationale user' := by
  unfold classificationRationale
  dsimp only
  rw [same.get (k := "shell") (by decide), same.get (k := "home") (by decide),
    same.get (k := "password_status") (by decide), same.get (k := "has_sudo") (by decide),
    same.get (k := "ssh_key_count") (by decide),
    same.get (k := "supplementary_groups") (by decide)]

theorem enrichSupplementaryGroups_related {text text' : String}
    (files : (entryLines text).Forall₂ SameButSecond (entryLines text'))
    (related : Related names raw raw' a b) :
    Related names raw raw' (enrichSupplementaryGroups text a) (enrichSupplementaryGroups text' b) := by
  have groups : ∀ username, (entryLines text).flatMap (membershipsOn username) =
      (entryLines text').flatMap (membershipsOn username) := by
    intro username
    generalize entryLines text = lines at files
    generalize entryLines text' = lines' at files
    induction files with
    | nil => rfl
    | cons head tail ih =>
      rw [List.flatMap_cons, List.flatMap_cons, membershipsOn_same head, ih]
  refine related.onUsers fun user user' same => ?_
  rw [same.strField (by decide), groups]
  exact same.insert (by decide)

theorem enrichSudoFlags_related (related : Related names raw raw' a b) :
    Related names raw raw' (enrichSudoFlags a) (enrichSudoFlags b) := by
  refine related.onUsers fun user user' same => ?_
  rw [related.sudoersRules, hasSudo, hasSudo, same.strField (by decide),
    same.get (k := "supplementary_groups") (by decide)]
  exact same.insert (by decide)

theorem enrichSubuidFlags_related (related : Related names raw raw' a b) :
    Related names raw raw' (enrichSubuidFlags a) (enrichSubuidFlags b) := by
  refine related.onUsers fun user user' same => ?_
  rw [related.subuidEntries, same.strField (by decide)]
  exact same.insert (by decide)

theorem sudoers_apart (name : String) : "/etc/sudoers.d/" ++ name ∉ accountFiles := by
  intro mem
  simp only [accountFiles, List.mem_cons, List.not_mem_nil, or_false] at mem
  have chars : ∀ path : String, "/etc/sudoers.d/" ++ name = path →
      "/etc/sudoers.d/".toList ++ name.toList = path.toList := by
    rintro path rfl
    exact String.toList_append.symm
  rcases mem with same | same | same | same
  all_goals
    have clash := chars _ same
    simp at clash

theorem sshKeys_apart (home : String) : home ++ "/.ssh/authorized_keys" ∉ accountFiles := by
  intro mem
  have ending : ∀ path ∈ accountFiles, path.toList.getLast? ≠ some 's' := by decide
  refine ending _ mem ?_
  rw [String.toList_append, List.getLast?_append]
  rfl

theorem SameEntries.cases {R : String → String → Prop} {file file' : Except IoError String}
    (same : SameEntries R file file') :
    (∃ e, file = .error e ∧ file' = .error e) ∨
      ∃ text text', file = .ok text ∧ file' = .ok text' ∧
        (entryLines text).Forall₂ R (entryLines text') := by
  match file, file', same with
  | .error e, .error e', same => exact .inl ⟨e, rfl, by rw [same]⟩
  | .ok text, .ok text', same => exact .inr ⟨text, text', rfl, rfl, same⟩

def linesOf (record : String → Option AccountRecord) (file : Except IoError String) :
    List String :=
  match file with
  | .ok text => ((entryLines text).filterMap record).map (·.raw)
  | .error _ => []

variable {host host' : AccountHost}

theorem parsePasswd_related {text text' : String}
    (files : (entryLines text).Forall₂ SameButSecond (entryLines text')) :
    Related names (linesOf passwdRecord (.ok text), []) (linesOf passwdRecord (.ok text'), [])
        (parsePasswd text {}).1 (parsePasswd text' {}).1 ∧
      (parsePasswd text {}).2 = (parsePasswd text' {}).2 := by
  obtain ⟨known, entries⟩ := names_of_said (records_said files fun _ _ => passwdRecord_said)
  refine ⟨?_, known⟩
  unfold parsePasswd
  constructor <;> try rfl
  dsimp only
  rw [List.nil_append, List.nil_append, entries, List.forall₂_same]
  exact fun _ _ => .inl rfl

theorem readShadow_related (same : SameButPasswords host host') {preserve : Bool}
    (known : preserve = true → names = usersWithPassword host) {users users' : List String}
    (kept : users = users') (related : Related names raw raw' a b) :
    Related names raw raw' (readShadow host users preserve a).1
        (readShadow host' users' preserve b).1 ∧
      (readShadow host users preserve a).2 = (readShadow host' users' preserve b).2 := by
  subst kept
  unfold readShadow
  rcases same.shadow.cases with ⟨e, read, read'⟩ | ⟨text, text', read, read', files⟩
  · rw [read, read']
    exact ⟨related, rfl⟩
  · rw [read, read']
    refine parseShadow_related files ?_ users ⟨related, rfl⟩
    intro keep line mem status
    rw [known keep, usersWithPassword, read]
    exact List.mem_map_of_mem (List.mem_filter.mpr ⟨mem, decide_eq_true status⟩)

theorem readGroup_related (same : SameButPasswords host host') {passwd passwd' : List String}
    (related : Related names (passwd, []) (passwd', []) a b) :
    Related names (passwd, linesOf groupRecord (host.readFile "/etc/group"))
        (passwd', linesOf groupRecord (host'.readFile "/etc/group"))
        (readGroup host a).1 (readGroup host' b).1 ∧
      (readGroup host a).2 = (readGroup host' b).2 := by
  have left := Prod.mk.inj related.left
  have right := Prod.mk.inj related.right
  unfold readGroup
  rcases same.group.cases with ⟨e, read, read'⟩ | ⟨text, text', read, read', files⟩
  · rw [read, read']
    exact ⟨related, rfl⟩
  · rw [read, read']
    obtain ⟨known, entries⟩ := names_of_said (records_said files fun _ _ => groupRecord_said)
    refine ⟨{ related with groups := ?_, left := ?_, right := ?_ }, known⟩
    · simp only [parseGroup]
      rw [related.groups, entries]
    · simp only [keptLines, parseGroup, linesOf]
      rw [left.1, left.2, List.nil_append]
    · simp only [keptLines, parseGroup, linesOf]
      rw [right.1, right.2, List.nil_append]

theorem readGshadow_related (same : SameButPasswords host host') {groups groups' : List String}
    (kept : groups = groups') (related : Related names raw raw' a b) :
    Related names raw raw' (readGshadow host groups a) (readGshadow host' groups' b) := by
  subst kept
  unfold readGshadow
  rcases same.gshadow.cases with ⟨e, read, read'⟩ | ⟨text, text', read, read', files⟩
  · rw [read, read']
    exact related
  · rw [read, read']
    refine { related with gshadowEntries := ?_ }
    simp only [parseGshadow]
    rw [related.gshadowEntries,
      filterMap_congr_forall₂ files fun line line' same => gshadowEntry_same same groups]

theorem readSubids_related (same : SameButPasswords host host') {users users' : List String}
    (kept : users = users') (related : Related names raw raw' a b) :
    Related names raw raw' (readSubids host users a) (readSubids host' users' b) := by
  subst kept
  have entries : ∀ path, path ∉ accountFiles →
      subidEntries host path users = subidEntries host' path users := by
    intro path apart
    rw [subidEntries, same.others path apart, subidEntries]
  refine { related with subuidEntries := ?_, subgidEntries := ?_ }
  · simp only [readSubids]
    rw [related.subuidEntries, entries _ (by decide)]
  · simp only [readSubids]
    rw [related.subgidEntries, entries _ (by decide)]

theorem parseSudoers_related (same : SameButPasswords host host') (uppercase : String → String)
    {out out' : UserGroupSection × List RedactionHint}
    (related : Related names raw raw' out.1 out'.1 ∧ out.2 = out'.2) :
    Related names raw raw' (parseSudoers uppercase host out).1
        (parseSudoers uppercase host' out').1 ∧
      (parseSudoers uppercase host out).2 = (parseSudoers uppercase host' out').2 := by
  have files : sudoersFiles host = sudoersFiles host' := by
    rw [sudoersFiles, same.dirs, sudoersFiles]
  have apart : ∀ path ∈ "/etc/sudoers" :: sudoersFiles host', path ∉ accountFiles := by
    intro path mem
    rcases List.mem_cons.mp mem with rfl | mem
    · decide
    · unfold sudoersFiles at mem
      split at mem
      · obtain ⟨name, -, rfl⟩ := List.mem_map.mp mem
        exact sudoers_apart name
      · cases mem
  unfold parseSudoers
  rw [files]
  generalize "/etc/sudoers" :: sudoersFiles host' = paths at apart
  induction paths generalizing out out' with
  | nil => exact related
  | cons path rest ih =>
    refine ih ?_ fun path' mem => apart path' (List.mem_cons_of_mem _ mem)
    dsimp only
    rw [same.others path (apart path List.mem_cons_self)]
    split
    · exact extractSudoersRules_related uppercase _ related
    · exact related

theorem collectSshKeys_related (same : SameButPasswords host host') (preserveKeys : Bool)
    (related : Related names raw raw' a b) :
    Related names raw raw' (collectSshKeys host preserveKeys a)
      (collectSshKeys host' preserveKeys b) := by
  have keys : a.users.filterMap (sshKeysOf host) = b.users.filterMap (sshKeysOf host') := by
    refine filterMap_congr_forall₂ related.users fun user user' alike => ?_
    rw [sshKeysOf, sshKeysOf, alike.strField (k := "home") (by decide),
      alike.strField (k := "name") (by decide), same.others _ (sshKeys_apart _)]
  unfold collectSshKeys
  rw [keys]
  clear keys
  generalize b.users.filterMap (sshKeysOf host') = found
  induction found generalizing a b with
  | nil => exact related
  | cons first rest ih => exact ih (recordSshKeys_related preserveKeys first related)

theorem readSupplementaryGroups_related (same : SameButPasswords host host')
    (related : Related names raw raw' a b) :
    Related names raw raw' (readSupplementaryGroups host a) (readSupplementaryGroups host' b) := by
  unfold readSupplementaryGroups
  rcases same.group.cases with ⟨e, read, read'⟩ | ⟨text, text', read, read', files⟩
  · rw [read, read']
    exact related
  · rw [read, read']
    exact enrichSupplementaryGroups_related files related

theorem collectAccounts_related (same : SameButPasswords host host')
    (uppercase : String → String) (options : UserGroupOptions)
    (known : options.preservePasswordHashes = true → names = usersWithPassword host)
    {text text' : String}
    (files : (entryLines text).Forall₂ SameButSecond (entryLines text')) :
    Related names (linesOf passwdRecord (.ok text), linesOf groupRecord (host.readFile "/etc/group"))
        (linesOf passwdRecord (.ok text'), linesOf groupRecord (host'.readFile "/etc/group"))
        (collectAccounts uppercase options host text).userGroups
        (collectAccounts uppercase options host' text').userGroups ∧
      (collectAccounts uppercase options host text).redactionHints =
        (collectAccounts uppercase options host' text').redactionHints := by
  unfold collectAccounts
  dsimp only
  obtain ⟨passwd, users⟩ := @parsePasswd_related names _ _ files
  have defaults := passwd.onUsers fun _ _ => setDefaults_same
  obtain ⟨shadow, hints⟩ := readShadow_related same known users defaults
  obtain ⟨group, groups⟩ := readGroup_related same shadow
  have accounts := readSubids_related same users (readGshadow_related same groups group)
  obtain ⟨sudoers, hints⟩ := @parseSudoers_related _ _ _ host host' same uppercase (_, _) (_, _)
    ⟨accounts, hints⟩
  refine ⟨?_, hints⟩
  have keys := collectSshKeys_related same options.preserveSshKeys sudoers
  have enriched := enrichSubuidFlags_related
    (enrichSudoFlags_related (readSupplementaryGroups_related same keys))
  refine enriched.onUsers fun user user' alike => ?_
  rw [setRationale, classificationRationale_same alike]
  exact alike.insert (by decide)

theorem lines_eq_iff {record : String → Option AccountRecord}
    (raw : ∀ line r, record line = some r → r.raw = line)
    (said : ∀ line line', SameButSecond line line' →
      (record line).map (·.said) = (record line').map (·.said)) {lines lines' : List String}
    (related : lines.Forall₂ SameButSecond lines') :
    (lines.filterMap record).map (·.raw) = (lines'.filterMap record).map (·.raw) ↔
      lines.Forall₂ (fun line line' => (record line).isSome → secondField line = secondField line')
        lines' := by
  induction related with
  | nil => exact ⟨fun _ => .nil, fun _ => rfl⟩
  | @cons line line' rest rest' head tail ih =>
    rw [List.forall₂_cons, List.filterMap_cons, List.filterMap_cons]
    have alike := said line line' head
    cases found : record line with
    | none =>
      rw [found] at alike
      have none' : record line' = none := Option.map_eq_none_iff.mp alike.symm
      rw [none']
      dsimp only
      rw [ih]
      exact (and_iff_right fun has => by simp at has).symm
    | some r =>
      rw [found] at alike
      obtain ⟨r', found', -⟩ := Option.map_eq_some_iff.mp alike.symm
      rw [found']
      dsimp only
      rw [List.map_cons, List.map_cons, List.cons.injEq, ih, raw line r found,
        raw line' r' found', head.line_eq]
      simp

theorem linesOf_eq_iff {record : String → Option AccountRecord}
    (raw : ∀ line r, record line = some r → r.raw = line)
    (said : ∀ line line', SameButSecond line line' →
      (record line).map (·.said) = (record line').map (·.said))
    {file file' : Except IoError String} (same : SameEntries SameButSecond file file') :
    linesOf record file = linesOf record file' ↔ PasswordsAgree record file file' := by
  rcases same.cases with ⟨e, rfl, rfl⟩ | ⟨text, text', rfl, rfl, files⟩
  · exact ⟨fun _ => trivial, fun _ => rfl⟩
  · exact lines_eq_iff raw said files

theorem Related.rest_eq_iff (related : Related names raw raw' a b) :
    ({ a with users := [] } : UserGroupSection) = { b with users := [] } ↔ raw = raw' := by
  have left := related.left
  have right := related.right
  constructor
  · intro same
    rw [← left, ← right]
    exact @congrArg _ _ { a with users := [] } { b with users := [] } keptLines same
  · intro same
    rw [← left, ← right] at same
    obtain ⟨passwd, group⟩ := Prod.mk.inj same
    rw [related.groups, related.sudoersRules, related.sshAuthorizedKeysRefs,
      related.shadowEntries, related.gshadowEntries, related.subuidEntries,
      related.subgidEntries, passwd, group]

theorem Related.eq_iff (related : Related [] raw raw' a b) : a = b ↔ raw = raw' := by
  rw [← related.rest_eq_iff]
  constructor
  · rintro rfl
    rfl
  · intro rest
    have users : a.users = b.users := by
      have alike := related.users.imp fun _ _ => sameUser_nil.mp
      rwa [List.forall₂_eq_eq_eq] at alike
    calc a = { ({ a with users := [] } : UserGroupSection) with users := a.users } := rfl
      _ = { ({ b with users := [] } : UserGroupSection) with users := a.users } := by rw [rest]
      _ = b := by rw [users]

theorem degraded_same (same : SameButPasswords host host') :
    shadowDegraded (host.readFile "/etc/shadow") = shadowDegraded (host'.readFile "/etc/shadow") ∧
      groupDegraded (host.readFile "/etc/group") = groupDegraded (host'.readFile "/etc/group") := by
  constructor
  · rcases same.shadow.cases with ⟨e, read, read'⟩ | ⟨text, text', read, read', -⟩
    · rw [read, read']
    · rw [read, read']
      rfl
  · rcases same.group.cases with ⟨e, read, read'⟩ | ⟨text, text', read, read', -⟩
    · rw [read, read']
    · rw [read, read']
      rfl

/-- Passwords stay out of the scan exactly when the kept lines have the same ones. -/
theorem password_flow_iff (uppercase : String → String) (same : SameButPasswords host host') :
    NoPasswordFlow uppercase host host' ↔ KeptPasswordsAgree host host' := by
  obtain ⟨shadow, group⟩ := degraded_same same
  unfold NoPasswordFlow KeptPasswordsAgree inspectUsers
  rw [← shadow, ← group, ← linesOf_eq_iff (fun _ _ => passwdRecord_raw)
      (fun _ _ => passwdRecord_said) same.passwd, ← linesOf_eq_iff (fun _ _ => groupRecord_raw)
      (fun _ _ => groupRecord_said) same.group]
  rcases same.passwd.cases with ⟨e, read, read'⟩ | ⟨text, text', read, read', files⟩
  · rw [read, read']
    refine iff_of_true (fun keys => ⟨rfl, rfl⟩) ⟨rfl, fun readable => ?_⟩
    cases readable
  · rw [read, read']
    have off := fun keys => @collectAccounts_related [] _ _ same uppercase ⟨false, keys⟩
      (fun keep => by cases keep) _ _ files
    have on := fun keys => collectAccounts_related same uppercase ⟨true, keys⟩ (fun _ => rfl) files
    generalize (shadowDegraded (host.readFile "/etc/shadow")).toList ++
      (groupDegraded (host.readFile "/etc/group")).toList = reasons
    constructor
    · intro flow
      have same_off : collectAccounts uppercase ⟨false, false⟩ host text =
          collectAccounts uppercase ⟨false, false⟩ host' text' := by
        have equal := (flow false).1
        dsimp only at equal
        split at equal
        · exact Except.ok.inj equal
        · exact (InspectorError.degraded.inj (Except.error.inj equal)).1
      have kept := (off false).1.eq_iff.mp (congrArg UserGroupOutput.userGroups same_off)
      obtain ⟨passwd, group⟩ := Prod.mk.inj kept
      exact ⟨passwd, fun _ => group⟩
    · rintro ⟨passwd, group⟩ keys
      have kept : (linesOf passwdRecord (.ok text), linesOf groupRecord (host.readFile "/etc/group")) =
          (linesOf passwdRecord (.ok text'), linesOf groupRecord (host'.readFile "/etc/group")) :=
        Prod.ext passwd (group rfl)
      have same_off : collectAccounts uppercase ⟨false, keys⟩ host text =
          collectAccounts uppercase ⟨false, keys⟩ host' text' :=
        congrArg₂ UserGroupOutput.mk ((off keys).1.eq_iff.mpr kept) (off keys).2
      have same_on : SameUpToHashes (usersWithPassword host)
          (collectAccounts uppercase ⟨true, keys⟩ host text)
          (collectAccounts uppercase ⟨true, keys⟩ host' text') :=
        ⟨(on keys).1.users, (on keys).1.rest_eq_iff.mpr kept, (on keys).2⟩
      dsimp only
      rw [same_off]
      refine ⟨rfl, ?_⟩
      split
      · exact same_on
      · exact ⟨same_on, rfl⟩

end Flow

section Samples

/-- A host with these two files and no group. -/
def accountsOf (passwd shadow : String) : AccountHost where
  readFile path :=
    if path = "/etc/passwd" then .ok passwd
    else if path = "/etc/shadow" then .ok shadow
    else if path = "/etc/group" then .ok ""
    else .error ⟨.notFound, "not found"⟩
  readDir _ := .missing

theorem accountsOf_same {passwd passwd' shadow shadow' : String}
    (users : (entryLines passwd).Forall₂ SameButSecond (entryLines passwd'))
    (hashes : (entryLines shadow).Forall₂ (fun line line' => SameButSecond line line' ∧
      passwordStatus (secondField line) = passwordStatus (secondField line')) (entryLines shadow')) :
    SameButPasswords (accountsOf passwd shadow) (accountsOf passwd' shadow') where
  others := by
    intro path apart
    simp only [accountFiles, List.mem_cons, List.not_mem_nil, or_false, not_or] at apart
    simp [accountsOf, apart]
  dirs := rfl
  passwd := users
  shadow := hashes
  group := by
    change (entryLines "").Forall₂ SameButSecond (entryLines "")
    exact .nil
  gshadow := rfl

theorem sameButSecond_entry {line line' password : String}
    (fields : accountFields line' = (accountFields line).set 1 password)
    (entry : entryLines line = [line]) (entry' : entryLines line' = [line']) :
    (entryLines line).Forall₂ SameButSecond (entryLines line') := by
  rw [entry, entry']
  exact .cons ⟨password, fields⟩ .nil

/-- A hash that is shadowed stays on the host. -/
theorem shadowed_hash_stays :
    NoPasswordFlow id (accountsOf "al:x:1000:1000::/:/sh" "al:$6$a:1")
      (accountsOf "al:x:1000:1000::/:/sh" "al:$6$b:1") := by
  have fields : accountFields "al:$6$b:1" = (accountFields "al:$6$a:1").set 1 "$6$b" := by decide
  have entry : entryLines "al:$6$a:1" = ["al:$6$a:1"] := by decide
  have entry' : entryLines "al:$6$b:1" = ["al:$6$b:1"] := by decide
  have status : passwordStatus (secondField "al:$6$a:1") =
      passwordStatus (secondField "al:$6$b:1") := by decide
  refine (password_flow_iff id (accountsOf_same ?_ ?_)).mpr ⟨?_, fun _ => ?_⟩
  · exact List.forall₂_same.mpr fun line _ => sameButSecond_self line
  · rw [entry, entry']
    exact .cons ⟨⟨_, fields⟩, status⟩ .nil
  · exact List.forall₂_same.mpr fun _ _ _ => rfl
  · exact List.forall₂_same.mpr fun _ _ _ => rfl

/-- A hash that is still in `/etc/passwd` is copied with its line. -/
theorem unshadowed_hash_flows :
    SameButPasswords (accountsOf "al:$6$a:1000:1000::/:/sh" "")
        (accountsOf "al:$6$b:1000:1000::/:/sh" "") ∧
      ¬ NoPasswordFlow id (accountsOf "al:$6$a:1000:1000::/:/sh" "")
        (accountsOf "al:$6$b:1000:1000::/:/sh" "") := by
  have fields : accountFields "al:$6$b:1000:1000::/:/sh" =
      (accountFields "al:$6$a:1000:1000::/:/sh").set 1 "$6$b" := by decide
  constructor
  · refine accountsOf_same (sameButSecond_entry fields (by decide) (by decide)) ?_
    exact List.forall₂_same.mpr fun line _ => ⟨sameButSecond_self line, rfl⟩
  · intro flow
    have same := congrArg (fun result => match result with
      | .ok output => output.userGroups.passwdEntries
      | .error _ => []) (flow false).1
    exact absurd same (by decide)

end Samples

end Inspectah
