import Inspectah.Library.Replacing
import Inspectah.Refine.Projection
import Inspectah.Render.Users

/-!
The users and groups as a kickstart fragment and as a blueprint. Both write the records out
line by line, as they are. The preview of the users' kickstart and blueprint.
-/
namespace Inspectah

def optionText (given : Bool) (text : String) : String := if given then text else ""

def kickstartGroup (g : Json) : Option String :=
  let name := strField g "name"
  let gid := uidField g "gid"
  if name.isEmpty then none
  else if 0 < gid then some ("group --name=" ++ name ++ " --gid=" ++ toString gid)
  else some ("group --name=" ++ name)

def kickstartOptions (u : Json) : String :=
  let uid := uidField u "uid"
  let gid := uidField u "gid"
  let shell := strField u "shell"
  let home := strField u "home"
  let groups := suppGroups u
  "user --name=" ++ strField u "name" ++
    optionText (0 < uid) (" --uid=" ++ toString uid) ++
    optionText (0 < gid) (" --gid=" ++ toString gid) ++
    optionText (!shell.isEmpty) (" --shell=" ++ shell) ++
    optionText (!home.isEmpty) (" --homedir=" ++ home) ++
    optionText (!groups.isEmpty) (" --groups=" ++ ",".intercalate groups)

def kickstartKey (name key : String) : String :=
  "sshkey --username=" ++ name ++ " \"" ++ key ++ "\""

def kickstartUser (u : Json) : List String :=
  let name := strField u "name"
  let pw := strField u "password_hash"
  if name.isEmpty then []
  else (kickstartOptions u ++ optionText (!pw.isEmpty) (" --iscrypted --password=" ++ pw)) ::
    (sshKeys u).map (kickstartKey name)

def kickstartLines (snap : InspectionSnapshot) : List String :=
  (customGroups snap).filterMap kickstartGroup ++ (includedUsers snap).flatMap kickstartUser

def renderKickstart (snap : InspectionSnapshot) : String :=
  if (customGroups snap).isEmpty && (includedUsers snap).isEmpty then ""
  else "\n".intercalate (kickstartLines snap)

def tomlText (key value : String) : String := key ++ " = \"" ++ value ++ "\""

def optionLine (given : Bool) (line : String) : List String := if given then [line] else []

def blueprintGroup (g : Json) : List String :=
  let name := strField g "name"
  let gid := uidField g "gid"
  if name.isEmpty then []
  else ["[[customizations.group]]", tomlText "name" name] ++
    optionLine (0 < gid) ("gid = " ++ toString gid) ++ [""]

/-- The lines of a user above the password. -/
def blueprintAccount (u : Json) : List String :=
  let uid := uidField u "uid"
  let gid := uidField u "gid"
  let home := strField u "home"
  let shell := strField u "shell"
  let groups := suppGroups u
  ["[[customizations.user]]", tomlText "name" (strField u "name")] ++
    optionLine (0 < uid) ("uid = " ++ toString uid) ++
    optionLine (0 < gid) ("gid = " ++ toString gid) ++
    optionLine (!home.isEmpty) (tomlText "home" home) ++
    optionLine (!shell.isEmpty) (tomlText "shell" shell) ++
    optionLine (!groups.isEmpty)
      ("groups = [" ++ ", ".intercalate (groups.map fun g => "\"" ++ g ++ "\"") ++ "]")

def blueprintKeys : List String → List String
  | [] => []
  | key :: others =>
    tomlText "key" key :: optionLine (0 < others.length)
      ("# NOTE: " ++ toString others.length ++
        " additional SSH key(s) cannot be expressed in blueprint TOML (single key only)")

def blueprintUser (u : Json) : List String :=
  let pw := strField u "password_hash"
  if (strField u "name").isEmpty then []
  else blueprintAccount u ++ optionLine (!pw.isEmpty) (tomlText "password" pw) ++
    blueprintKeys (sshKeys u) ++ [""]

def blueprintLines (snap : InspectionSnapshot) : List String :=
  (customGroups snap).flatMap blueprintGroup ++ (includedUsers snap).flatMap blueprintUser

def renderBlueprintToml (snap : InspectionSnapshot) : String :=
  if (customGroups snap).isEmpty && (includedUsers snap).isEmpty then ""
  else "\n".intercalate (blueprintLines snap)

open Replacing

def REDACTED_SECRET : List Char := "<REDACTED>".toList

/-- What no crypt hash has: a blank or a quote. -/
def isHashEnd (c : Char) : Bool := Text.isWhitespace c || c == '\'' || c == '"'

/-- The pattern `\$(?:6|5|y)\$[^\s'"]+`. -/
def cryptPattern : Pattern Char
  | '$' :: scheme :: '$' :: rest =>
    let hash := rest.takeWhile fun c => !isHashEnd c
    if ['6', '5', 'y'].contains scheme && !hash.isEmpty then
      some (REDACTED_SECRET, 3 + hash.length)
    else none
  | _ => none

/-- The pattern `(?:ssh-(?:rsa|ed25519|dss)|ecdsa-sha2-nistp(?:256|384|521))`. -/
def KEY_TYPES : List (List Char) :=
  ["ssh-rsa", "ssh-ed25519", "ssh-dss", "ecdsa-sha2-nistp256", "ecdsa-sha2-nistp384",
    "ecdsa-sha2-nistp521"].map String.toList

/-- A key type, `\s+` and `\S+`, of which the last is replaced. -/
def sshPattern : Pattern Char := behind KEY_TYPES Text.isWhitespace REDACTED_SECRET

def redactSensitiveContent (content : String) : String :=
  String.ofList (Replacing.replaceAll sshPattern (Replacing.replaceAll cryptPattern content.toList))

def isSensitive (projected : InspectionSnapshot) : Bool :=
  projected.sensitiveSnapshot || hasNewPassword projected

structure UserPreview where
  kickstart : String
  blueprintToml : String
  sensitive : Bool
  deriving DecidableEq

def userPreview (reveal : Option Bool) (projected : InspectionSnapshot) : UserPreview :=
  let sensitive := isSensitive projected
  let shown := fun text =>
    if sensitive && !reveal.getD false then redactSensitiveContent text else text
  { kickstart := shown (renderKickstart projected)
    blueprintToml := shown (renderBlueprintToml projected)
    sensitive := sensitive }

/-- A crypt hash: not empty, without blanks, quotes and angle brackets. -/
def IsHash (hash : String) : Prop :=
  hash ≠ "" ∧ ∀ c ∈ hash.toList, isHashEnd c = false ∧ c ≠ '<'

def isBase64 (c : Char) : Bool := c.isAlphanum || c == '+' || c == '/' || c == '='

def IsBlob (blob : List Char) : Prop := blob ≠ [] ∧ ∀ c ∈ blob, isBase64 c = true

structure KeyLine where
  options : List Char
  type : List Char
  gap : List Char
  comment : List Char
  apart : ∀ c ∈ options.getLast?, Text.isWhitespace c = true
  word : type ≠ [] ∧ ∀ c ∈ type, Text.isWhitespace c = false
  blank : gap ≠ [] ∧ ∀ c ∈ gap, Text.isWhitespace c = true
  behind : Opens Text.isWhitespace comment

def KeyLine.lead (key : KeyLine) : List Char := key.options ++ key.type ++ key.gap

def KeyLine.text (key : KeyLine) (blob : List Char) : String :=
  String.ofList (key.lead ++ (blob ++ key.comment))

def HashAlike (a b : Option Json) : Prop :=
  a = b ∨ ∃ h h', a = some (.str h) ∧ b = some (.str h') ∧ IsHash h ∧ IsHash h'

def KeyAlike (k k' : String) : Prop :=
  k = k' ∨ ∃ key : KeyLine, ∃ blob blob', IsBlob blob ∧ IsBlob blob' ∧
    k = key.text blob ∧ k' = key.text blob'

structure AccountAlike (u u' : Json) : Prop where
  hash : HashAlike (u.get "password_hash") (u'.get "password_hash")
  keys : List.Forall₂ KeyAlike (sshKeys u) (sshKeys u')
  others : ∀ field, field ≠ "password_hash" → field ≠ "ssh_keys" → u.get field = u'.get field

structure DifferInSecrets (s s' : InspectionSnapshot) : Prop where
  others : s' = { s with usersGroups := s'.usersGroups }
  users : List.Forall₂ AccountAlike (rowsOf (·.users) s.usersGroups)
    (rowsOf (·.users) s'.usersGroups)
  rest : s'.usersGroups = s.usersGroups.map fun g =>
    { g with users := rowsOf (·.users) s'.usersGroups }

end Inspectah
