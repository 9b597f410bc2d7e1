import Inspectah.Core.Snapshot
import Inspectah.Core.Text
import Inspectah.Library.Masking

/-!
The masks of credentials in URLs and settings. A mask looks for one shape and rewrites the
first place it finds; the mask of a proxy line looks for a password in a URL, and only
without one for a `proxy_password` setting.
-/
namespace Inspectah

open Masking

def REDACTED : List Char := ['[', 'R', 'E', 'D', 'A', 'C', 'T', 'E', 'D', ']']

def userChar (c : Char) : Bool := !(c == ':' || c == '/' || c == '@' || Text.isWhitespace c)

def passwordChar (c : Char) : Bool := !(c == '@' || Text.isWhitespace c)

def settingChar (c : Char) : Bool := !Text.isWhitespace c

def tokenChar (c : Char) : Bool := c.isAlphanum || c == '_' || c == '-'

def afterScheme : List Char → Option (List Char)
  | ':' :: '/' :: '/' :: rest => some rest
  | _ => none

/-- `://user:` -/
def proxyCredLead (text : List Char) : Option (List Char × List Char) :=
  (afterScheme text).bind fun rest =>
    if (rest.takeWhile userChar).isEmpty then none
    else
      match rest.dropWhile userChar with
      | ':' :: more => some ([':', '/', '/'] ++ rest.takeWhile userChar ++ [':'], more)
      | _ => none

def PROXY_PASSWORD : List Char :=
  ['p', 'r', 'o', 'x', 'y', '_', 'p', 'a', 's', 's', 'w', 'o', 'r', 'd']

/-- The folding of `(?i)`: the long s is an s as well. -/
def folds (k c : Char) : Bool := c.toLower == k || (k == 's' && c == '\u017f')

def takeFolded : List Char → List Char → Option (List Char × List Char)
  | [], text => some ([], text)
  | _ :: _, [] => none
  | k :: key, c :: text =>
    if folds k c then (takeFolded key text).map fun (taken, rest) => (c :: taken, rest) else none

/-- `proxy_password\s*=\s*` -/
def proxyPasswordLead (text : List Char) : Option (List Char × List Char) :=
  (takeFolded PROXY_PASSWORD text).bind fun (key, rest) =>
    match rest.dropWhile Text.isWhitespace with
    | '=' :: more => some (key ++ rest.takeWhile Text.isWhitespace ++
        '=' :: more.takeWhile Text.isWhitespace, more.dropWhile Text.isWhitespace)
    | _ => none

structure TokenShape where
  opening : List Char
  body : Char → Bool
  least : Nat

def wordChar (c : Char) : Bool := c.isAlphanum || c == '_'

def TOKEN_SHAPES : List TokenShape :=
  [⟨['g', 'h', 'p', '_'], wordChar, 36⟩,
   ⟨['g', 'h', 'o', '_'], wordChar, 36⟩,
   ⟨['g', 'l', 'p', 'a', 't', '-'], tokenChar, 20⟩,
   ⟨['g', 'i', 't', 'h', 'u', 'b', '_', 'p', 'a', 't', '_'], wordChar, 22⟩,
   ⟨[], tokenChar, 20⟩]

def TokenShape.accepts (shape : TokenShape) (token : List Char) : Bool :=
  shape.opening.isPrefixOf token && (token.drop shape.opening.length).all shape.body &&
    shape.least ≤ (token.drop shape.opening.length).length

/-- `PROXY_CRED_RE`. No part can take characters of the next one, so each is as long as it
    can be. -/
def PROXY_CRED : Shape Char where
  lead := proxyCredLead
  plain := passwordChar
  accepts _ := true
  closes next := next == some '@'

/-- `PROXY_PASSWORD_KV_RE`. -/
def PROXY_PASSWORD_KV : Shape Char where
  lead := proxyPasswordLead
  plain := settingChar
  accepts _ := true
  closes _ := true

/-- `TOKEN_USERNAME_RE`. -/
def TOKEN_USERNAME : Shape Char where
  lead text := (afterScheme text).map fun rest => ([':', '/', '/'], rest)
  plain := tokenChar
  accepts token := TOKEN_SHAPES.any fun shape => shape.accepts token
  closes next := next == some '@'

def credentialFinding (source pattern remediation sourcePath : String) : RedactionFinding where
  path := sourcePath
  source := source
  kind := .inline
  pattern := pattern
  remediation := remediation
  detectionMethod := .pattern
  confidence := some .high
  findingKind := some .password

def proxyUrlFinding : String → RedactionFinding :=
  credentialFinding "proxy_credential" "proxy_password"
    ("Remove embedded credentials from proxy URL; use environment-specific auth " ++
      "configuration")

def proxySettingFinding : String → RedactionFinding :=
  credentialFinding "proxy_credential" "proxy_password"
    ("Remove plaintext proxy_password from DNF/Yum configuration; use repository-level auth " ++
      "instead")

def tokenFinding : String → RedactionFinding :=
  credentialFinding "token_credential" "token_username"
    "Remove embedded token from URL; use credential helpers or SSH keys"

def maskProxyCredentials (line sourcePath : String) : String × Option RedactionFinding :=
  match PROXY_CRED.mask REDACTED line.toList with
  | some masked => (String.ofList masked, some (proxyUrlFinding sourcePath))
  | none =>
    match PROXY_PASSWORD_KV.mask REDACTED line.toList with
    | some masked => (String.ofList masked, some (proxySettingFinding sourcePath))
    | none => (line, none)

def maskTokenUsername (line sourcePath : String) : String × Option RedactionFinding :=
  match TOKEN_USERNAME.mask REDACTED line.toList with
  | some masked => (String.ofList masked, some (tokenFinding sourcePath))
  | none => (line, none)

/-- Both masks over the remote of a repository, as the redaction pass applies them before
    its general scan. -/
def maskGitRemote (remote path : String) : String × List RedactionFinding :=
  let (remote, proxy) := maskProxyCredentials remote path
  let (remote, token) := maskTokenUsername remote path
  (remote, proxy.toList ++ token.toList)

end Inspectah
