import Inspectah.Core.Text
import Inspectah.Library.Spans

/-!
The scrubbers for text the patterns do not cover: credentials in the registry URLs of
package manifests, and secret values in compose files. Each finds the key of a value first
and looks for the value from there.
-/
namespace Inspectah

open Spans

variable (line : List Char) (c : Char)

inductive ValueSyntax where
  /-- A JSON object member. -/
  | jsonMember
  /-- A quoted argument, in either quote style. -/
  | quotedArgument
  /-- An option argument, after a blank or `=`. -/
  | optionArgument
  /-- An assignment to the end of the line. -/
  | assignment
  deriving DecidableEq

def leadingWhitespace (text : List Char) : Nat := (text.takeWhile Text.isWhitespace).length

/-- The span inside the quoted run that begins at the first non-blank from a place on. -/
def quotedRun (place : Nat) (quotes : List Char) : Option (Nat × Nat) :=
  let start := place + leadingWhitespace (line.drop place)
  match line.drop start with
  | [] => none
  | quote :: inner =>
    if quotes.contains quote then
      (inner.findIdx? (· == quote)).map fun close => (start + 1, start + 1 + close)
    else none

def valueSpanAfterKey (line : List Char) (keyEnd : Nat) : ValueSyntax → Option (Nat × Nat)
  | .jsonMember =>
    let rest := line.drop keyEnd
    (rest.findIdx? (· == ':')).bind fun colon =>
      if (rest.take colon).all Text.isWhitespace then quotedRun line (keyEnd + colon + 1) ['"']
      else none
  | .quotedArgument => quotedRun line keyEnd ['"', '\'']
  | .optionArgument =>
    match line.drop keyEnd with
    | [] => none
    | sep :: after =>
      if sep != '=' && !Text.isWhitespace sep then none
      else
        let start := keyEnd + 1 + leadingWhitespace after
        if line.length ≤ start then none
        else some (start, start + ((line.drop start).takeWhile (!Text.isWhitespace ·)).length)
  | .assignment =>
    match line.drop keyEnd with
    | [] => none
    | sep :: after =>
      if sep != '=' && sep != ':' then none
      else some (keyEnd + 1 + leadingWhitespace after, line.length)

def SCHEME_END : List Char := [':', '/', '/']

def URL_AUTH_REDACTED : List Char := ['R', 'E', 'D', 'A', 'C', 'T', 'E', 'D', '@']

def isAuthorityTerminator : Bool := c == '/' || c == '?' || c == '#'

/-- The text before the last `@`, and the text after it. -/
def splitLastAt (text : List Char) : Option (List Char × List Char) :=
  match text.reverse.span (· != '@') with
  | (_, []) => none
  | (after, _ :: before) => some (before.reverse, after.reverse)

def scrubUrlAuth (url : List Char) : List Char :=
  match Text.findChars SCHEME_END url with
  | none => url
  | some (scheme, rest) =>
    match splitLastAt (rest.takeWhile (!isAuthorityTerminator ·)) with
    | none => url
    | some (_, host) =>
      scheme ++ SCHEME_END ++ URL_AUTH_REDACTED ++
        (host ++ rest.dropWhile (!isAuthorityTerminator ·))

inductive LineOutcome where
  | notMine
  | rewritten (line : List Char)
  /-- The line has the key, and the value of the key could not be located. -/
  | unlocatable (key : String)

structure UnscrubbedLine where
  line : Nat
  key : String
  deriving DecidableEq

structure ScrubOutcome where
  content : String
  unscrubbed : List UnscrubbedLine
  deriving DecidableEq

def LineOutcome.text (line : List Char) : LineOutcome → List Char
  | .rewritten new => new
  | .notMine | .unlocatable _ => line

def LineOutcome.miss (idx : Nat) : LineOutcome → Option UnscrubbedLine
  | .unlocatable key => some ⟨idx + 1, key⟩
  | .notMine | .rewritten _ => none

/-- The lines rewritten one by one, with a final newline where the content has one. -/
def scrubLines (content : String) (scrub : List Char → LineOutcome) : ScrubOutcome where
  content :=
    let lines := (Text.lines content).map fun line => (scrub line.toList).text line.toList
    let final := if Text.endsWith content "\n" then ['\n'] else []
    String.ofList (['\n'].intercalate lines ++ final)
  unscrubbed := (Text.lines content).zipIdx.filterMap fun (line, idx) =>
    (scrub line.toList).miss idx

def replaceSpan (span : Nat × Nat) (text : List Char) : List Char :=
  line.take span.1 ++ text ++ line.drop span.2

/-- Longest first: no directive opens a longer one. -/
def PIP_INDEX_DIRECTIVES : List String := ["--extra-index-url", "--index-url", "-i"]

def scrubSpan (span : Nat × Nat) : List Char :=
  replaceSpan line span (scrubUrlAuth (slice line span.1 span.2))

def scrubRequirementsLine : LineOutcome :=
  let indent := line.takeWhile Text.isWhitespace
  let trimmed := line.dropWhile Text.isWhitespace
  match PIP_INDEX_DIRECTIVES.find? fun d => d.toList.isPrefixOf trimmed with
  | none => .notMine
  | some directive =>
    match valueSpanAfterKey trimmed directive.toList.length .optionArgument with
    | some span => .rewritten (indent ++ scrubSpan trimmed span)
    | none => .unlocatable directive

def JSON_REGISTRY_KEY : String := "\"registry\""

def JSON_RESOLVED_KEY : String := "\"resolved\""

def scrubJsonLine (key : String) (line : List Char) : LineOutcome :=
  match Text.findChars key.toList line with
  | none => .notMine
  | some (before, _) =>
    match valueSpanAfterKey line (before.length + key.toList.length) .jsonMember with
    | some span => .rewritten (scrubSpan line span)
    | none => .unlocatable key

def GEMFILE_SOURCE_KEY : String := "source"

def scrubGemfileLine : LineOutcome :=
  let indent := line.takeWhile Text.isWhitespace
  let trimmed := line.dropWhile Text.isWhitespace
  if !GEMFILE_SOURCE_KEY.toList.isPrefixOf trimmed then .notMine
  else
    let after := trimmed.drop GEMFILE_SOURCE_KEY.toList.length
    -- `source` has to be a whole word
    if !(after.head?.any fun c => Text.isWhitespace c || c == '"' || c == '\'') then .notMine
    else
      match valueSpanAfterKey trimmed GEMFILE_SOURCE_KEY.toList.length .quotedArgument with
      | some span => .rewritten (indent ++ scrubSpan trimmed span)
      | none => .unlocatable GEMFILE_SOURCE_KEY

def isUrlDelimiter : Bool := Text.isWhitespace c || c == '"' || c == '\''

/-- The tokens from a place on that carry a scheme; one has begun at `start`. -/
def urlSpansFrom (line : List Char) (start place : Nat) : List Char → List (Nat × Nat)
  | [] =>
    if start < line.length && Text.containsChars SCHEME_END (line.drop start) then
      [(start, line.length)]
    else []
  | c :: rest =>
    if isUrlDelimiter c then
      let later := urlSpansFrom line (place + 1) (place + 1) rest
      if start < place && Text.containsChars SCHEME_END (slice line start place) then
        (start, place) :: later
      else later
    else urlSpansFrom line start (place + 1) rest

def urlSpans : List (Nat × Nat) := urlSpansFrom line 0 0 line

def scrubGemfileLockLine : LineOutcome :=
  let spans := urlSpans line
  if spans.isEmpty then .notMine
  else
    .rewritten (spans.foldr (fun span out =>
      replaceSpan out span (scrubUrlAuth (slice line span.1 span.2))) line)

def scrubManifestAuth (filename content : String) : ScrubOutcome :=
  if filename = "requirements.txt" then scrubLines content scrubRequirementsLine
  else if filename = "package.json" then scrubLines content (scrubJsonLine JSON_REGISTRY_KEY)
  else if filename = "package-lock.json" then scrubLines content (scrubJsonLine JSON_RESOLVED_KEY)
  else if filename = "Gemfile" then scrubLines content scrubGemfileLine
  else if filename = "Gemfile.lock" then scrubLines content scrubGemfileLockLine
  else ⟨content, []⟩

def SECRET_NAMES : List String :=
  ["PASSWORD", "PASSWD", "SECRET", "TOKEN", "API_KEY", "PRIVATE_KEY", "AUTH", "CREDENTIAL"]

/-- `to_uppercase` as far as ASCII letters come of it. -/
def upperChars : List Char :=
  match c with
  | 'ß' => ['S', 'S']
  | 'ı' => ['I']
  | 'ŉ' => ['\u02BC', 'N']
  | 'ſ' => ['S']
  | 'ǰ' => ['J', '\u030C']
  | '\u1E96' => ['H', '\u0331']
  | '\u1E97' => ['T', '\u0308']
  | '\u1E98' => ['W', '\u030A']
  | '\u1E99' => ['Y', '\u030A']
  | '\u1E9A' => ['A', '\u02BE']
  | '\uFB00' => ['F', 'F']
  | '\uFB01' => ['F', 'I']
  | '\uFB02' => ['F', 'L']
  | '\uFB03' => ['F', 'F', 'I']
  | '\uFB04' => ['F', 'F', 'L']
  | '\uFB05' => ['S', 'T']
  | '\uFB06' => ['S', 'T']
  | _ => [c.toUpper]

def isKeyChar : Bool := c.isAlphanum || c == '_' || c == '.' || c == '-'

def isEnvNameChar : Bool := c.isUpper || c.isDigit || c == '_'

/-- The length of an assignment's key. After a colon only a variable with a value is one. -/
def assignmentKeyLen (body : List Char) : Option Nat :=
  let key := body.takeWhile isKeyChar
  match body.dropWhile isKeyChar with
  | [] => none
  | sep :: value =>
    if key.isEmpty then none
    else if sep = '=' then some key.length
    else if sep = ':' then
      if !key.all isEnvNameChar || !key.any Char.isUpper then none
      else if value.all Text.isWhitespace then none
      else some key.length
    else none

/-- The scheme of a URL with its separator, the user before the first `@`, and the rest. -/
def urlUser (value : List Char) : Option (List Char × List Char × List Char) :=
  (Text.findChars SCHEME_END value).bind fun (scheme, rest) =>
    (Text.findChars ['@'] rest).map fun (user, after) => (scheme ++ SCHEME_END, user, '@' :: after)

def hasUrlCredentials (value : List Char) : Bool :=
  (urlUser value).any fun (_, user, _) => user.contains ':'

def COMPOSE_REDACTED : List Char := ['<', 'R', 'E', 'D', 'A', 'C', 'T', 'E', 'D', '>']

def scrubUrlCredentials (value : List Char) : List Char :=
  match urlUser value with
  | some (scheme, _, after) => scheme ++ COMPOSE_REDACTED ++ [':'] ++ COMPOSE_REDACTED ++ after
  | none => value

def scrubComposeLine : List Char :=
  let trimmed := Text.trimChars line
  if trimmed.isEmpty || ['#'].isPrefixOf trimmed then line
  else
    let indent := line.takeWhile Text.isWhitespace
    let upper := trimmed.flatMap upperChars
    let named := SECRET_NAMES.any fun name => Text.containsChars name.toList upper
    let dash := if ['-', ' '].isPrefixOf trimmed then 2 else 0
    let body := trimmed.drop dash
    match (assignmentKeyLen body).bind fun len => valueSpanAfterKey body len .assignment with
    | none => line
    | some span =>
      let value := slice body span.1 span.2
      let rewrite (new : List Char) := indent ++ trimmed.take dash ++ body.take span.1 ++ new
      if hasUrlCredentials value then rewrite (scrubUrlCredentials value)
      else if named then rewrite COMPOSE_REDACTED
      else line

def scrubComposeSecrets (content : String) : String :=
  let lines := (Text.lines content).map fun line => scrubComposeLine line.toList ++ ['\n']
  let result := lines.flatten
  String.ofList (if Text.endsWith content "\n" then result else result.dropLast)

/-- `matches(needle).count()`, the hits that do not overlap. -/
def countHits (needle : List Char) : Nat → List Char → Nat
  | _, [] => 0
  | skip + 1, _ :: rest => countHits needle skip rest
  | 0, c :: rest =>
    if needle.isPrefixOf (c :: rest) then countHits needle (needle.length - 1) rest + 1
    else countHits needle 0 rest

end Inspectah
