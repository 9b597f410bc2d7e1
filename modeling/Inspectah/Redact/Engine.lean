import Inspectah.Core.Snapshot
import Inspectah.Core.Text
import Inspectah.Library.Numbering
import Inspectah.Library.Spans
import Mathlib.Data.List.Sort

/-!
What the secret scan looks for: the patterns with their findings, and the accounts of a
shadow file.

The scan of one text for secrets. Every pattern's matches are collected, of those that
overlap the shorter are dropped, and the rest are replaced by numbered tokens from the
last to the first. Places in a text count characters; lengths are compared in bytes.
-/
namespace Inspectah

structure SecretPattern where
  regex : String
  findingKind : SecretFindingKind
  detectionMethod : DetectionMethod
  confidence : Confidence
  remediation : String
  replacementTemplate : Option String
  deriving DecidableEq

def pattern (findingKind : SecretFindingKind) (regex remediation : String)
    (replacementTemplate : Option String) : SecretPattern :=
  { regex, findingKind, detectionMethod := .pattern, confidence := .high, remediation,
    replacementTemplate }

def PRIVATE_KEY_PATTERN : SecretPattern :=
  pattern .privateKey
    ("(?s)-----BEGIN\\s+(?:RSA |EC |DSA |OPENSSH )?PRIVATE KEY-----.*?" ++
      "-----END\\s+(?:RSA |EC |DSA |OPENSSH )?PRIVATE KEY-----")
    "Remove private key or exclude file from snapshot" none

def CERTIFICATE_PATTERN : SecretPattern :=
  pattern .certificate "(?s)-----BEGIN CERTIFICATE-----.*?-----END CERTIFICATE-----"
    "Review whether certificate exposure is intended; check for adjacent private keys" none

def PASSWORD_HASH_PATTERN : SecretPattern :=
  pattern .passwordHash
    "\\$(?:1|2[aby]?|5|6|y|gy|7|sha1)\\$(?:[A-Za-z0-9./+=]+\\$)\x7b1,2\x7d[A-Za-z0-9./+=]+"
    "Remove password hash or use a secrets manager" none

def PASSWORD_PATTERN : SecretPattern :=
  pattern .password
    ("(?i)(?:^|\\b|_)(?:password|passwd|db_password|secret|api_key|api_secret|token|" ++
      "credential|private_key|access_key|secret_key|auth_key|encryption_key|signing_key|" ++
      "master_key|service_key)\\s*[=:]\\s*\\S+")
    "Use environment variables or a secrets manager instead of inline passwords" none

def AWS_KEY_PATTERN : SecretPattern :=
  pattern .awsKey "(?:^|[^A-Z0-9])AKIA[0-9A-Z]\x7b16\x7d(?:[^A-Z0-9]|$)"
    "Rotate the AWS access key and use IAM roles" none

def JDBC_PATTERN : SecretPattern :=
  pattern .jdbcPassword "jdbc:[a-z]+://[^?]+\\?.*password=[^&\\s]+"
    "Use connection pooling with externalized credentials" none

/-- The text a connection string is rewritten to, as a template of its groups. -/
def TOKEN_TEMPLATE : String := "$\x7b1\x7dREDACTED_TOKEN$\x7b3\x7d"

def POSTGRES_PATTERN : SecretPattern :=
  pattern .postgresPassword "(postgres(?:ql)?://[^:]+:)([^@]+)(@)"
    "Use .pgpass or environment variables for PostgreSQL credentials" (some TOKEN_TEMPLATE)

def MONGODB_PATTERN : SecretPattern :=
  pattern .mongodbPassword "(mongodb(?:\\+srv)?://[^:]+:)([^@]+)(@)"
    "Use environment variables for MongoDB credentials" (some TOKEN_TEMPLATE)

def REDIS_PATTERN : SecretPattern :=
  pattern .redisPassword "(redis://:)([^@]+)(@)"
    "Use environment variables for Redis credentials" (some TOKEN_TEMPLATE)

def WIREGUARD_PATTERN : SecretPattern :=
  pattern .wireguardKey "(?i)(?:PrivateKey|PreSharedKey)\\s*=\\s*[A-Za-z0-9+/]\x7b43\x7d="
    "Regenerate WireGuard keys and use wg-quick with externalized key files" none

def WIFI_PSK_PATTERN : SecretPattern :=
  pattern .wifiPsk "(?i)(?:psk|wpa-psk|wifi\\.psk)\\s*=\\s*\\S+"
    "Use 802.1X or externalize WiFi credentials" none

def PATTERNS : List SecretPattern :=
  [PRIVATE_KEY_PATTERN, CERTIFICATE_PATTERN, PASSWORD_HASH_PATTERN, PASSWORD_PATTERN,
   AWS_KEY_PATTERN, JDBC_PATTERN, POSTGRES_PATTERN, MONGODB_PATTERN, REDIS_PATTERN,
   WIREGUARD_PATTERN, WIFI_PSK_PATTERN]

/-- The name of a kind in lower case, as it is written for debugging. -/
def SecretFindingKind.label : SecretFindingKind → String
  | .privateKey => "privatekey"
  | .certificate => "certificate"
  | .passwordHash => "passwordhash"
  | .password => "password"
  | .awsKey => "awskey"
  | .jdbcPassword => "jdbcpassword"
  | .postgresPassword => "postgrespassword"
  | .mongodbPassword => "mongodbpassword"
  | .redisPassword => "redispassword"
  | .wireguardKey => "wireguardkey"
  | .wifiPsk => "wifipsk"
  | .shadowHash => "shadowhash"
  | .noPassword => "nopassword"
  | .genericCredential => "genericcredential"

inductive ShadowClassification where
  | locked
  | disabled
  | emptyPassword (username : String)
  | hasHash (username : String)
  | notShadow
  deriving DecidableEq

def classifyShadowLine (line : String) : ShadowClassification :=
  match Text.splitOn (· == ':') line with
  | username :: hashField :: _ :: _ =>
    if Text.startsWith hashField "!!" || hashField == "!" then .locked
    else if hashField == "*" then .disabled
    else if hashField.isEmpty then .emptyPassword username
    else if Text.startsWith hashField "$" then .hasHash username
    else .notShadow
  | _ => .notShadow

def shadowFinding (path : String) (lineNum : Nat) : ShadowClassification → Option RedactionFinding
  | .hasHash username => some
      { path, source := "shadow", kind := .inline, pattern := "shadow_hash"
        remediation := "User '" ++ username ++ "': remove password hash or lock account"
        line := some (lineNum + 1), detectionMethod := .pattern, confidence := some .high
        findingKind := some .shadowHash }
  | .emptyPassword username => some
      { path, source := "shadow", kind := .flagged, pattern := "empty_password"
        remediation := "User '" ++ username ++
          "': empty password field — set a password or lock account"
        line := some (lineNum + 1), detectionMethod := .pattern, confidence := some .low
        findingKind := some .noPassword }
  | .locked | .disabled | .notShadow => none

def scanShadow (content path : String) : List RedactionFinding :=
  (Text.lines content).zipIdx.filterMap fun (line, lineNum) =>
    shadowFinding path lineNum (classifyShadowLine line)

open Spans

structure RegexMatch (content : String) where
  start : Nat
  stop : Nat
  some_text : start < stop
  inside : stop ≤ content.toList.length
  groups : List String

def RegexMatch.text {content : String} (m : RegexMatch content) : String :=
  String.ofList (slice content.toList m.start m.stop)

/-- The matches of the patterns in a text. The password is the second group of a connection
    string. -/
structure RegexEngine where
  find : SecretPattern → (content : String) → List (RegexMatch content)
  parts : ∀ pat ∈ PATTERNS, pat.replacementTemplate.isSome → ∀ content, ∀ m ∈ find pat content,
    ∃ a b c : String, m.groups = [a, b, c] ∧ b.toList ≠ [] ∧
      m.text.toList = a.toList ++ (b.toList ++ c.toList)

def partsFit (text : List Char) : List String → Bool
  | [a, b, c] => !b.toList.isEmpty && text == a.toList ++ (b.toList ++ c.toList)
  | _ => false

theorem partsFit_iff {text : List Char} {groups : List String} : partsFit text groups = true ↔
    ∃ a b c : String, groups = [a, b, c] ∧ b.toList ≠ [] ∧
      text = a.toList ++ (b.toList ++ c.toList) := by
  unfold partsFit
  split
  · simp
  next other => exact iff_of_false Bool.false_ne_true fun ⟨a, b, c, same, _⟩ => other a b c same

def tableEngine (table : SecretFindingKind → String → List (Nat × Nat × List String)) :
    RegexEngine where
  find pat content := (table pat.findingKind content).filterMap fun (start, stop, groups) =>
    if h : start < stop ∧ stop ≤ content.toList.length ∧
        (pat.replacementTemplate.isSome → partsFit (slice content.toList start stop) groups) then
      some ⟨start, stop, h.1, h.2.1, groups⟩
    else none
  parts := by
    intro pat _ template content m mem
    obtain ⟨⟨start, stop, groups⟩, _, found⟩ := List.mem_filterMap.mp mem
    dsimp only at found
    split at found
    next h =>
      obtain rfl := Option.some.inj found
      rw [RegexMatch.text, String.toList_ofList]
      exact partsFit_iff.mp (h.2.2 template)
    · cases found

structure EligibleMatch (content : String) extends RegexMatch content where
  lineNum : Nat
  captures : Option (String × String × String)

def FALSE_POSITIVE_VALUES : List String :=
  ["files", "compat", "sss", "ldap", "nis", "hesiod", "systemd", "nisplus", "winbind", "required",
   "sufficient", "optional", "include", "substack", "pam_unix.so", "pam_sss.so", "pam_deny.so",
   "pam_permit.so", "pam_env.so", "requisite"]

/-- `to_lowercase` as far as ASCII letters come of it: the Kelvin sign is a k. -/
def keywordLower (s : String) : String :=
  String.ofList (s.toList.map fun c => if c = '\u212A' then 'k' else c.toLower)

def isFalsePositiveValue (value : String) : Bool :=
  FALSE_POSITIVE_VALUES.contains (keywordLower (Text.trim value))

/-- A comment line opens with `#`, `//` or `;` before the place. -/
def isCommentLine (content : String) (place : Nat) : Bool :=
  let line := ((content.toList.take place).reverse.takeWhile (· != '\n')).reverse
  let opening := line.dropWhile Text.isWhitespace
  ['#'].isPrefixOf opening || ['/', '/'].isPrefixOf opening || [';'].isPrefixOf opening

def settingValue (text : String) : Option String :=
  ((Text.splitOnce '=' text).or (Text.splitOnce ':' text)).map (·.2)

def isShadowPath (path : String) : Bool :=
  Text.endsWith path "/shadow" || Text.endsWith path "/shadow-"

def lineNumber (content : String) (place : Nat) : Nat :=
  (Text.lines (String.ofList (content.toList.take place))).length + 1

variable (re : RegexEngine)

def collectEligibleMatches (pat : SecretPattern) (content : String) (path : Option String) :
    List (EligibleMatch content) :=
  if pat.replacementTemplate.isSome then
    (re.find pat content).filterMap fun mat =>
      if isCommentLine content mat.start then none
      else
        let group (n : Nat) := (mat.groups[n]?).getD ""
        some { mat with
          lineNum := lineNumber content mat.start
          captures := some (group 0, group 1, group 2) }
  else
    (re.find pat content).filterMap fun mat =>
      if isCommentLine content mat.start then none
      else if pat.findingKind = .password && (settingValue mat.text).any isFalsePositiveValue then
        none
      -- the scan of a shadow file owns its hashes
      else if pat.findingKind = .passwordHash && path.any isShadowPath then none
      else some { mat with lineNum := lineNumber content mat.start, captures := none }

abbrev Tagged (content : String) := SecretPattern × EligibleMatch content

def allMatches (content : String) (path : Option String) : List (Tagged content) :=
  PATTERNS.flatMap fun pat => (collectEligibleMatches re pat content path).map fun em => (pat, em)

def byteLen (text : List Char) : Nat := (text.map Char.utf8Size).sum

variable {content : String}

namespace Tagged

def start (m : Tagged content) : Nat := m.2.start

def stop (m : Tagged content) : Nat := m.2.stop

def size (m : Tagged content) : Nat := byteLen (slice content.toList m.start m.stop)

/-- The order of matches: where they start, and the longer of two that start together. -/
def Precedes (a b : Tagged content) : Prop :=
  a.start < b.start ∨ (a.start = b.start ∧ b.size ≤ a.size)

instance : DecidableRel (@Tagged.Precedes content) := fun a b =>
  inferInstanceAs (Decidable (a.start < b.start ∨ (a.start = b.start ∧ b.size ≤ a.size)))

end Tagged

/-- One match against the later ones: whether it is kept, and what becomes of the others. -/
def compareLater (i : Tagged content) :
    List (Bool × Tagged content) → Bool × List (Bool × Tagged content)
  | [] => (true, [])
  | (false, j) :: later =>
    let (kept, rest) := compareLater i later
    (kept, (false, j) :: rest)
  | (true, j) :: later =>
    if i.start ≤ j.start ∧ j.stop ≤ i.stop then
      if i.stop ≤ j.start then (true, (false, j) :: later)
      else
        let (kept, rest) := compareLater i later
        (kept, (false, j) :: rest)
    else if j.start < i.stop ∧ i.stop < j.stop then
      if j.size ≤ i.size then
        let (kept, rest) := compareLater i later
        (kept, (false, j) :: rest)
      else (false, (true, j) :: later)
    else if i.stop ≤ j.start then (true, (true, j) :: later)
    else
      let (kept, rest) := compareLater i later
      (kept, (true, j) :: rest)

theorem length_compareLater (i : Tagged content) (later : List (Bool × Tagged content)) :
    (compareLater i later).2.length = later.length := by
  induction later with
  | nil => rfl
  | cons first later ih =>
    obtain ⟨kept, j⟩ := first
    cases kept with
    | false => simpa [compareLater] using ih
    | true =>
      rw [compareLater]
      split_ifs <;> simp [ih]

/-- Every match in turn against those after it. -/
def keepFlags : List (Bool × Tagged content) → List (Bool × Tagged content)
  | [] => []
  | (false, i) :: later => (false, i) :: keepFlags later
  | (true, i) :: later => ((compareLater i later).1, i) :: keepFlags (compareLater i later).2
termination_by flags => flags.length
decreasing_by
  · simp
  · simp [length_compareLater]

def dedupOverlappingMatches (found : List (Tagged content)) : List (Tagged content) :=
  let sorted := found.insertionSort Tagged.Precedes
  ((keepFlags (sorted.map fun m => (true, m))).filter (·.1)).map (·.2)

def matchesToReplace (content : String) (path : Option String) : List (Tagged content) :=
  (dedupOverlappingMatches (allMatches re content path)).insertionSort fun a b => b.start ≤ a.start

abbrev CounterRegistry := Numbering.Registry String String

def tokenText (kindLabel : String) (n : Nat) : String :=
  "REDACTED_" ++ String.ofList (kindLabel.toList.map Char.toUpper) ++ "_" ++ toString n

def tokenFor (registry : CounterRegistry) (kindLabel secretValue : String) :
    String × CounterRegistry :=
  let (n, registry) := registry.number kindLabel secretValue
  (tokenText kindLabel n, registry)

structure TokenUse where
  label : String
  secret : String
  key : String
  token : String
  deriving DecidableEq

structure Replaced extends TokenUse where
  range : Patch Char
  hidden : Patch Char
  deriving DecidableEq

def connectionParts (pat : SecretPattern) (em : EligibleMatch content) :
    Option (String × String × String) :=
  if pat.replacementTemplate.isSome then em.captures else none

def secretOf (m : Tagged content) : String :=
  match connectionParts m.1 m.2 with
  | some (_, secret, _) => secret
  | none => m.2.text

inductive Keying where
  | secret
  | wholeMatch
  deriving DecidableEq

def buildReplacement (keying : Keying) (registry : CounterRegistry) (m : Tagged content) :
    Replaced × CounterRegistry :=
  let label := m.1.findingKind.label
  let secret := secretOf m
  match keying, connectionParts m.1 m.2 with
  | .secret, some (opening, _, closing) =>
    let (token, registry) := tokenFor registry label secret
    let hidden := m.start + opening.toList.length
    ({ label, secret, key := secret, token
       range := ⟨m.start, m.stop, (opening ++ token ++ closing).toList⟩
       hidden := ⟨hidden, hidden + secret.toList.length, token.toList⟩ }, registry)
  | _, _ =>
    let (token, registry) := tokenFor registry label m.2.text
    let range := ⟨m.start, m.stop, token.toList⟩
    ({ label, secret, key := m.2.text, token, range, hidden := range }, registry)

def buildReplacements (keying : Keying) (registry : CounterRegistry) :
    List (Tagged content) → List Replaced × CounterRegistry
  | [] => ([], registry)
  | m :: rest =>
    let (done, registry) := buildReplacement keying registry m
    let (more, registry) := buildReplacements keying registry rest
    (done :: more, registry)

def replaceAll (content : String) (replaced : List Replaced) : String :=
  String.ofList (replaced.foldl (fun text done => done.range.apply text) content.toList)

/-- A text on its own, with tokens of its own. Nothing for a text that stays as it is. -/
def redactString (content : String) : Option (String × List Replaced) :=
  if PATTERNS.all fun pat => (re.find pat content).isEmpty then none
  else
    let found := matchesToReplace re content none
    if found.isEmpty then none
    else
      let replaced := (buildReplacements .secret {} found).1
      some (replaceAll content replaced, replaced)

def patternFinding (path : String) (m : Tagged content) : RedactionFinding where
  path := path
  source := "pattern"
  kind := .inline
  pattern := m.1.findingKind.label
  remediation := m.1.remediation
  line := some m.2.lineNum
  detectionMethod := m.1.detectionMethod
  confidence := some m.1.confidence
  findingKind := some m.1.findingKind

def scanContent (content path : String) : List RedactionFinding :=
  let shadow := Text.endsWith path "/shadow" || path == "/etc/shadow"
  (if shadow then scanShadow content path else []) ++
    (dedupOverlappingMatches (allMatches re content (some path))).map (patternFinding path)

structure FieldRedaction where
  content : String
  findings : List RedactionFinding
  replaced : List Replaced
  registry : CounterRegistry

/-- The pattern pass over one field. -/
def scanAndRedactField (keying : Keying) (content sourcePath : String)
    (registry : CounterRegistry) : FieldRedaction :=
  let findings := scanContent re content sourcePath
  if findings.isEmpty then { content, findings, replaced := [], registry }
  else
    let (replaced, registry) :=
      buildReplacements keying registry (matchesToReplace re content (some sourcePath))
    { content := replaceAll content replaced, findings, replaced, registry }

end Inspectah
