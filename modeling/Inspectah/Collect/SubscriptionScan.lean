import Inspectah.Collect.EtcLinks
import Inspectah.Core.Snapshot
import Inspectah.Library.KeyedFold
import Inspectah.Library.OrderedTable
import Inspectah.Render.Safety
import Mathlib.Data.String.Basic

/-!
The subscription inspector: the entitlement certificates and keys, the CA certificates, the
subscription manager's configuration and the repository file, and whether a build could subscribe
with them.
-/
namespace Inspectah

open OrderedTable (Table)

structure EntitlementPair where
  serial : String
  certPath : Option String := none
  keyPath : Option String := none
  deriving DecidableEq

namespace EntitlementPair

def isComplete (p : EntitlementPair) : Bool := p.certPath.isSome && p.keyPath.isSome

def pathOf (p : EntitlementPair) (isKey : Bool) : Option String :=
  if isKey then p.keyPath else p.certPath

def record (p : EntitlementPair) (path : String) (isKey : Bool) : EntitlementPair :=
  if isKey then { p with keyPath := some path } else { p with certPath := some path }

end EntitlementPair

def serialOf (filename : String) : Option (String × Bool) :=
  match Text.beforeSuffix filename "-key.pem" with
  | some serial => some (serial, true)
  | none => (Text.beforeSuffix filename ".pem").map fun serial => (serial, false)

def parseSerial (path : String) : Option (String × Bool) := (Text.fileName path).bind serialOf

def addToPairs (pairs : Table String EntitlementPair) (f : SubscriptionFile) :
    Table String EntitlementPair :=
  match parseSerial f.path with
  | some (serial, isKey) => pairs.update serial fun old => (old.getD { serial }).record f.path isKey
  | none => pairs

def matchEntitlementPairs (files : List SubscriptionFile) : List EntitlementPair × List String :=
  let pairs := (files.foldl addToPairs {}).entries.map Prod.snd
  (pairs.filter (·.isComplete),
    (pairs.filter (!·.isComplete)).filterMap fun p => p.certPath.or p.keyPath)

def SUBSCRIPTION_MAX_FILE_SIZE : Nat := 1048576
def ENTITLEMENT_DIR : String := "/etc/pki/entitlement"
def CONSUMER_CERT : String := "/etc/pki/consumer/cert.pem"
def RHSM_CONF : String := "/etc/rhsm/rhsm.conf"
def RHSM_CA_DIR : String := "/etc/rhsm/ca"
def REDHAT_REPO : String := "/etc/yum.repos.d/redhat.repo"

def APPROVED_ROOTS : List String :=
  ["/etc/pki/entitlement", "/etc/rhsm", "/etc/yum.repos.d/redhat.repo"]

inductive HostRead (α : Type) where
  | ok (a : α)
  | error (isNotFound : Bool) (text : String)

/-- The host as the inspector reads it. No name in a directory has a slash or a NUL. -/
structure SubscriptionHost where
  hostRoot : String
  readDir : String → HostRead (List String)
  readFile : String → HostRead String
  isLink : String → Bool
  resolveFinalTarget : String → Except String String
  named : ∀ path names, readDir path = .ok names →
    ∀ name ∈ names, IsName name ∧ Char.ofNat 0 ∉ name.toList

/-- What the PEM and X.509 libraries read off the text of a certificate. -/
structure CertReader where
  notAfter : String → Option Int
  organization : String → Option String
  commonName : String → Option String
  issuerOrganization : String → Option String

def subscriptionWarning (message : String) : Warning := { inspector := "subscription", message }

namespace SubscriptionHost

variable (host : SubscriptionHost) (encode : String → String)

def hostPath (path : String) : String := joinPiece host.hostRoot (trimSlashes path)

def isSymlinkSafe (filePath : String) : Except String Bool :=
  (host.resolveFinalTarget filePath).map fun resolved =>
    APPROVED_ROOTS.any fun root => pathStartsWith resolved (host.hostPath root)

/-- Why a link is not followed; `name` is what it is called in warnings. -/
def symlinkRefusal (filePath name outside : String) : Option String :=
  if host.isLink filePath then
    match host.isSymlinkSafe filePath with
    | .ok true => none
    | .ok false => some outside
    | .error e => some ("Cannot resolve symlink " ++ name ++ ": " ++ e)
  else none

def collectContent (path content : String) : Except String SubscriptionFile :=
  let size := content.utf8ByteSize
  if SUBSCRIPTION_MAX_FILE_SIZE < size then
    .error (path ++ ": file exceeds 1 MB limit (" ++ toString size ++ " bytes), skipped")
  else .ok { path, content := encode content, sizeBytes := size }

def collectDirPem (dir entry : String) : Option (Except String SubscriptionFile) :=
  let path := dir ++ "/" ++ entry
  if !Text.endsWith entry ".pem" then none
  else
    let filePath := joinPiece (host.hostPath dir) entry
    match host.symlinkRefusal filePath path ("Symlink " ++ path ++
        " resolves outside approved subscription paths, skipped") with
    | some refusal => some (.error refusal)
    | none =>
      match host.readFile filePath with
      | .ok content => some (collectContent encode path content)
      | .error _ e => some (.error ("Cannot read " ++ path ++ ": " ++ e))

def collectDirPems (dir : String) : List (Except String SubscriptionFile) :=
  match host.readDir (host.hostPath dir) with
  | .ok entries => entries.filterMap (host.collectDirPem encode dir)
  | .error isNotFound e =>
    if isNotFound then [] else [.error ("Cannot read " ++ dir ++ ": " ++ e)]

def collectSingleFile (path : String) : List (Except String SubscriptionFile) :=
  let filePath := host.hostPath path
  match host.symlinkRefusal filePath path (path ++
      " is a symlink resolving outside approved subscription paths, skipped") with
  | some refusal => [.error refusal]
  | none =>
    match host.readFile filePath with
    | .ok content => [collectContent encode path content]
    | .error isNotFound e =>
      if isNotFound then [] else [.error ("Cannot read " ++ path ++ ": " ++ e)]

end SubscriptionHost

def collectedFiles (results : List (Except String SubscriptionFile)) : List SubscriptionFile :=
  results.filterMap fun r => match r with | .ok f => some f | .error _ => none

def collectionWarnings (results : List (Except String SubscriptionFile)) : List Warning :=
  results.filterMap fun r => match r with
    | .ok _ => none
    | .error e => some (subscriptionWarning e)

section Certificates

variable (reader : CertReader) (decode : String → Option String)

def certExpiryOf (f : SubscriptionFile) : Option Int :=
  if Text.endsWith f.path "-key.pem" then none
  else (decode f.content).bind reader.notAfter

def earlier (earliest : Option Int) (expiry : Int) : Option Int :=
  match earliest with
  | none => some expiry
  | some e => if expiry < e then some expiry else some e

def parseCertExpiries (section_ : SubscriptionSection) : SubscriptionSection :=
  let certs := section_.entitlementCerts.map fun f =>
    { f with certExpiry := (certExpiryOf reader decode f).or f.certExpiry }
  { section_ with
    entitlementCerts := certs
    earliestExpiry :=
      (section_.entitlementCerts.filterMap (certExpiryOf reader decode)).foldl earlier none }

def parseOrgMetadata (host : SubscriptionHost) (section_ : SubscriptionSection) :
    SubscriptionSection :=
  match host.readFile (host.hostPath CONSUMER_CERT) with
  | .ok content =>
    { section_ with
      orgId := (reader.organization content).or section_.orgId
      systemUuid := (reader.commonName content).or section_.systemUuid
      rhsmServer := (reader.issuerOrganization content).or section_.rhsmServer }
  | .error _ _ => section_

end Certificates

def missingParts (section_ : SubscriptionSection) : List String :=
  (if (matchEntitlementPairs section_.entitlementCerts).1.isEmpty then
    ["entitlement cert+key pair (matched by serial number)"] else []) ++
  (if section_.configFiles.any fun f => Text.contains f.path "rhsm.conf" then []
    else ["rhsm.conf"]) ++
  (if section_.caCerts.isEmpty then ["CA certs from /etc/rhsm/ca/"] else []) ++
  (if section_.configFiles.any fun f => Text.contains f.path "redhat.repo" then []
    else ["redhat.repo"])

def evaluateBundleCompleteness (section_ : SubscriptionSection) :
    SubscriptionSection × List Warning :=
  let orphans := (matchEntitlementPairs section_.entitlementCerts).2
  let missing := missingParts section_
  (if missing.isEmpty then section_ else { section_ with incomplete := true },
    orphans.map (fun orphan =>
      subscriptionWarning ("Entitlement file has no matching pair: " ++ orphan)) ++
    missing.map fun item =>
      subscriptionWarning ("Incomplete subscription bundle: missing " ++ item))

/-- The files, and the warnings about those that were skipped. -/
def collectSubscription (host : SubscriptionHost) (encode : String → String) :
    SubscriptionSection × List Warning :=
  let hostname := match host.readFile (joinPiece host.hostRoot "etc/hostname") with
    | .ok s => some (Text.trim s)
    | .error _ _ => none
  let certs := host.collectDirPems encode ENTITLEMENT_DIR
  let conf := host.collectSingleFile encode RHSM_CONF
  let cas := host.collectDirPems encode RHSM_CA_DIR
  let repo := host.collectSingleFile encode REDHAT_REPO
  ({ entitlementCerts := collectedFiles certs
     caCerts := collectedFiles cas
     configFiles := collectedFiles conf ++ collectedFiles repo
     sourceHostname := hostname.filter fun name => !name.isEmpty },
    [certs, conf, cas, repo].flatMap collectionWarnings)

def inspectSubscription (host : SubscriptionHost) (reader : CertReader) (encode : String → String)
    (decode : String → Option String) : SubscriptionSection × List Warning :=
  let (collected, skipped) := collectSubscription host encode
  let (section_, warnings) := evaluateBundleCompleteness
    (parseCertExpiries reader decode (parseOrgMetadata reader host collected))
  (section_, skipped ++ warnings)

theorem EntitlementPair.pathOf_record (p : EntitlementPair) (path : String) (isKey asked : Bool) :
    (p.record path isKey).pathOf asked = if isKey = asked then some path else p.pathOf asked := by
  cases isKey <;> cases asked <;> rfl

theorem EntitlementPair.serial_record (p : EntitlementPair) (path : String) (isKey : Bool) :
    (p.record path isKey).serial = p.serial := by
  cases isKey <;> rfl

theorem pathOf_pairs (files : List SubscriptionFile) (serial : String) (isKey : Bool) :
    (((files.foldl addToPairs {}).lookup serial).bind fun p => p.pathOf isKey) =
      (files.reverse.find? fun f => parseSerial f.path == some (serial, isKey)).map (·.path) := by
  induction files using List.reverseRecOn with
  | nil => rfl
  | append_singleton files f ih =>
    rw [List.foldl_concat, List.reverse_concat, List.find?_cons]
    cases parsed : parseSerial f.path with
    | none =>
      rw [addToPairs, parsed]
      exact ih
    | some found =>
      obtain ⟨own, kind⟩ := found
      rw [addToPairs, parsed]
      dsimp only
      rw [Table.lookup_update]
      by_cases same : serial = own
      · subst same
        rw [if_pos rfl, Option.bind_some, EntitlementPair.pathOf_record]
        by_cases alike : kind = isKey
        · subst alike
          simp
        · rw [if_neg alike]
          have miss : (some (serial, kind) == some (serial, isKey)) = false := by simp [alike]
          rw [miss, ← ih]
          cases (files.foldl addToPairs {}).lookup serial with
          | none => cases isKey <;> rfl
          | some p => rfl
      · have miss : (some (own, kind) == some (serial, isKey)) = false := by
          simp [Ne.symm same]
        rw [if_neg same, miss]
        exact ih

theorem serial_pairs (files : List SubscriptionFile) {serial : String} {p : EntitlementPair}
    (found : (files.foldl addToPairs {}).lookup serial = some p) : p.serial = serial := by
  induction files using List.reverseRecOn generalizing p with
  | nil => cases found
  | append_singleton files f ih =>
    rw [List.foldl_concat] at found
    cases parsed : parseSerial f.path with
    | none =>
      rw [addToPairs, parsed] at found
      exact ih found
    | some row =>
      obtain ⟨own, kind⟩ := row
      rw [addToPairs, parsed] at found
      dsimp only at found
      rw [Table.lookup_update] at found
      split at found
      · next same =>
        subst same
        rw [← Option.some.inj found, EntitlementPair.serial_record]
        cases old : (files.foldl addToPairs {}).lookup serial with
        | none => rfl
        | some p => exact ih old
      · exact ih found

theorem mem_pairs_iff {files : List SubscriptionFile} {p : EntitlementPair} :
    p ∈ (matchEntitlementPairs files).1 ↔
      (files.foldl addToPairs {}).lookup p.serial = some p ∧ p.isComplete := by
  rw [matchEntitlementPairs, List.mem_filter, List.mem_map]
  constructor
  · rintro ⟨⟨⟨serial, p⟩, mem, rfl⟩, complete⟩
    have found := (Table.mem_entries_iff _).mp mem
    exact ⟨(serial_pairs files found).symm ▸ found, complete⟩
  · rintro ⟨found, complete⟩
    exact ⟨⟨(p.serial, p), (Table.mem_entries_iff _).mpr found, rfl⟩, complete⟩

theorem pair_files {files : List SubscriptionFile} {p : EntitlementPair}
    (mem : p ∈ (matchEntitlementPairs files).1) (isKey : Bool) :
    ∃ f ∈ files, p.pathOf isKey = some f.path ∧ parseSerial f.path = some (p.serial, isKey) := by
  obtain ⟨found, complete⟩ := mem_pairs_iff.mp mem
  have own := pathOf_pairs files p.serial isKey
  rw [found, Option.bind_some] at own
  have held : (p.pathOf isKey).isSome := by
    obtain ⟨cert, key⟩ := Bool.and_eq_true_iff.mp complete
    cases isKey
    · exact cert
    · exact key
  rw [own, Option.isSome_map] at held
  obtain ⟨f, last⟩ := Option.isSome_iff_exists.mp held
  refine ⟨f, List.mem_reverse.mp (List.mem_of_find?_eq_some last), ?_, ?_⟩
  · rw [own, last, Option.map_some]
  · simpa using List.find?_some last

theorem exists_pair_iff {files : List SubscriptionFile} :
    (matchEntitlementPairs files).1.isEmpty = false ↔
      ∃ serial, ∀ isKey, ∃ f ∈ files, parseSerial f.path = some (serial, isKey) := by
  rw [← Bool.not_eq_true, List.isEmpty_iff, ← ne_eq, List.ne_nil_iff_exists_cons]
  constructor
  · rintro ⟨p, rest, whole⟩
    refine ⟨p.serial, fun isKey => ?_⟩
    obtain ⟨f, mem, -, parsed⟩ :=
      @pair_files files p (whole ▸ List.mem_cons_self) isKey
    exact ⟨f, mem, parsed⟩
  · rintro ⟨serial, each⟩
    have some_path : ∀ isKey, (((files.foldl addToPairs {}).lookup serial).bind
        fun p => p.pathOf isKey).isSome := by
      intro isKey
      obtain ⟨f, mem, parsed⟩ := each isKey
      rw [pathOf_pairs, Option.isSome_map, List.find?_isSome]
      exact ⟨f, List.mem_reverse.mpr mem, by simp [parsed]⟩
    cases found : (files.foldl addToPairs {}).lookup serial with
    | none =>
      have cert := some_path false
      rw [found] at cert
      cases cert
    | some p =>
      have cert := some_path false
      have key := some_path true
      rw [found, Option.bind_some] at cert key
      have complete : p.isComplete := Bool.and_eq_true_iff.mpr ⟨cert, key⟩
      have mem : p ∈ (matchEntitlementPairs files).1 :=
        mem_pairs_iff.mpr ⟨(serial_pairs files found).symm ▸ found, complete⟩
      exact List.ne_nil_iff_exists_cons.mp (List.ne_nil_of_mem mem)

/-- The name of a file the inspector collects from a directory. -/
structure IsPemName (name : String) : Prop where
  own : IsName name
  no_nul : Char.ofNat 0 ∉ name.toList
  pem : Text.endsWith name ".pem" = true

def SubscriptionHost.Holds (host : SubscriptionHost) (encode : String → String) (filePath : String)
    (f : SubscriptionFile) : Prop :=
  ∃ content, host.readFile filePath = .ok content ∧ f.content = encode content

/-- What a section of the inspector's holds. -/
structure RecordedBundle (host : SubscriptionHost) (encode : String → String)
    (section_ : SubscriptionSection) : Prop where
  certs : ∀ f ∈ section_.entitlementCerts, ∃ name, IsPemName name ∧
    f.path = ENTITLEMENT_DIR ++ "/" ++ name ∧
      host.Holds encode (joinPiece (host.hostPath ENTITLEMENT_DIR) name) f
  cas : ∀ f ∈ section_.caCerts, ∃ name, IsPemName name ∧ f.path = RHSM_CA_DIR ++ "/" ++ name ∧
    host.Holds encode (joinPiece (host.hostPath RHSM_CA_DIR) name) f
  configs : ∀ f ∈ section_.configFiles, (f.path = RHSM_CONF ∨ f.path = REDHAT_REPO) ∧
    host.Holds encode (host.hostPath f.path) f
  judged : section_.incomplete = !(missingParts section_).isEmpty

section Collected

variable {host : SubscriptionHost} {encode : String → String}

theorem mem_collectedFiles {results : List (Except String SubscriptionFile)}
    {f : SubscriptionFile} : f ∈ collectedFiles results ↔ .ok f ∈ results := by
  rw [collectedFiles, List.mem_filterMap]
  constructor
  · rintro ⟨r, mem, kept⟩
    cases r with
    | error e => cases kept
    | ok g => exact Option.some.inj kept ▸ mem
  · exact fun mem => ⟨.ok f, mem, rfl⟩

theorem collectContent_ok {path content : String} {f : SubscriptionFile}
    (made : SubscriptionHost.collectContent encode path content = .ok f) :
    f.path = path ∧ f.content = encode content := by
  unfold SubscriptionHost.collectContent at made
  dsimp only at made
  split at made
  · cases made
  · cases made
    exact ⟨rfl, rfl⟩

theorem mem_collectDirPems {dir : String} {f : SubscriptionFile}
    (mem : .ok f ∈ host.collectDirPems encode dir) : ∃ name, IsPemName name ∧
      f.path = dir ++ "/" ++ name ∧ host.Holds encode (joinPiece (host.hostPath dir) name) f := by
  unfold SubscriptionHost.collectDirPems at mem
  split at mem
  · next entries read =>
    obtain ⟨entry, listed, made⟩ := List.mem_filterMap.mp mem
    unfold SubscriptionHost.collectDirPem at made
    dsimp only at made
    split at made
    · cases made
    · next pem =>
      obtain ⟨own, no_nul⟩ := host.named _ _ read entry listed
      split at made
      · cases made
      · split at made
        · next content held =>
          obtain ⟨path, encoded⟩ := collectContent_ok (Option.some.inj made)
          exact ⟨entry, ⟨own, no_nul, by simpa using pem⟩, path, content, held, encoded⟩
        · cases made
  · split at mem
    · cases mem
    · cases List.mem_singleton.mp mem

theorem mem_collectSingleFile {path : String} {f : SubscriptionFile}
    (mem : .ok f ∈ host.collectSingleFile encode path) :
    f.path = path ∧ host.Holds encode (host.hostPath path) f := by
  unfold SubscriptionHost.collectSingleFile at mem
  dsimp only at mem
  split at mem
  · cases List.mem_singleton.mp mem
  · split at mem
    · next content held =>
      obtain ⟨own, encoded⟩ := collectContent_ok (List.mem_singleton.mp mem).symm
      exact ⟨own, content, held, encoded⟩
    · split at mem
      · cases mem
      · cases List.mem_singleton.mp mem

/-- Everything but the verdict is as it was. -/
theorem evaluate_eq (section_ : SubscriptionSection) :
    (evaluateBundleCompleteness section_).1 =
      { section_ with incomplete := section_.incomplete || !(missingParts section_).isEmpty } := by
  unfold evaluateBundleCompleteness
  dsimp only
  split
  · next none => simp [none]
  · next some => simp [some]

theorem parseOrgMetadata_eq (host : SubscriptionHost) (reader : CertReader)
    (section_ : SubscriptionSection) :
    ∃ org uuid server, parseOrgMetadata reader host section_ =
      { section_ with orgId := org, systemUuid := uuid, rhsmServer := server } := by
  unfold parseOrgMetadata
  split
  · exact ⟨_, _, _, rfl⟩
  · exact ⟨_, _, _, rfl⟩

theorem inspect_recorded (host : SubscriptionHost) (reader : CertReader)
    (encode : String → String) (decode : String → Option String) :
    RecordedBundle host encode (inspectSubscription host reader encode decode).1 := by
  unfold inspectSubscription
  dsimp only
  obtain ⟨org, uuid, server, read⟩ :=
    parseOrgMetadata_eq host reader (collectSubscription host encode).1
  rw [evaluate_eq, read]
  refine ⟨?_, ?_, ?_, rfl⟩
  · intro f mem
    obtain ⟨g, collected, rfl⟩ := List.mem_map.mp mem
    have own : g ∈ collectedFiles (host.collectDirPems encode ENTITLEMENT_DIR) := collected
    obtain ⟨name, pem, path, held⟩ := mem_collectDirPems (mem_collectedFiles.mp own)
    exact ⟨name, pem, path, held⟩
  · exact fun f mem => mem_collectDirPems (mem_collectedFiles.mp mem)
  · intro f mem
    rcases List.mem_append.mp mem with conf | repo
    · obtain ⟨path, held⟩ := mem_collectSingleFile (mem_collectedFiles.mp conf)
      exact ⟨.inl path, path ▸ held⟩
    · obtain ⟨path, held⟩ := mem_collectSingleFile (mem_collectedFiles.mp repo)
      exact ⟨.inr path, path ▸ held⟩

end Collected

end Inspectah
