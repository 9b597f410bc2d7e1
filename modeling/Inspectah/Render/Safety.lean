import Inspectah.Library.BuildScript
import Inspectah.Refine.Types

/-!
What stands between a scanned string and a build instruction: the refusals a
string can meet before it is written into a command, and the escapes it gets
before it is written into a comment.
-/
namespace Inspectah

open BuildScript (Line Segment)

def APOSTROPHE : Char := Char.ofNat 39
def BACKTICK : Char := Char.ofNat 96

/-- `SHELL_UNSAFE_RE`. -/
def isShellUnsafe (c : Char) : Bool :=
  [';', '&', '|', '$', BACKTICK, '"', APOSTROPHE, '\\', '<', '>', '(', ')', Char.ofNat 123,
    Char.ofNat 125].contains c || Text.isWhitespace c

def sanitizeShellValue (val : String) : Option String :=
  if val.toList.any isShellUnsafe then none else some val

/-- `TUNED_PROFILE_RE`. -/
def isValidTunedProfile (name : String) : Bool :=
  !name.isEmpty && name.toList.all fun c => c.isAlphanum || c == '_' || c == '-'

def MAX_EXPORT_PATH_LEN : Nat := 4096

def isAllowedPathChar (c : Char) : Bool :=
  c.isAlphanum || ['.', '_', '+', '~', '^', '@', ':', ',', '-', '/'].contains c

inductive PathError where
  | empty
  | tooLong
  | notAbsolute
  | badByte (position : Nat)
  | relativeComponent
  deriving DecidableEq

/-- The first fault in the order of the checks. All before a disallowed character is ASCII. -/
def exportPathFault (path : String) : Option PathError :=
  if path.isEmpty then some .empty
  else if MAX_EXPORT_PATH_LEN < path.utf8ByteSize then some .tooLong
  else if !Text.startsWith path "/" then some .notAbsolute
  else
    match path.toList.findIdx? fun c => !isAllowedPathChar c with
    | some position => some (.badByte position)
    | none =>
      if (Text.splitOn (· == '/') path).any fun c => c == "." || c == ".." then
        some .relativeComponent
      else none

structure ExportPath where
  text : String
  admitted : exportPathFault text = none

def ExportPath.parse (path : String) : Except PathError ExportPath :=
  match h : exportPathFault path with
  | some fault => .error fault
  | none => .ok ⟨path, h⟩

def MAX_EXPORT_TOKEN_LEN : Nat := 256

def isAllowedTokenChar (c : Char) : Bool := c.isAlphanum || c == '.' || c == '_' || c == '-'

inductive TokenError where
  | empty
  | tooLong
  | badByte (position : Nat)
  deriving DecidableEq

def exportTokenFault (value : String) : Option TokenError :=
  if value.isEmpty then some .empty
  else if MAX_EXPORT_TOKEN_LEN < value.utf8ByteSize then some .tooLong
  else (value.toList.findIdx? fun c => !isAllowedTokenChar c).map .badByte

/-- A mode, an account name or a group name the export may write. -/
structure ExportToken where
  text : String
  admitted : exportTokenFault text = none

def ExportToken.parse (value : String) : Except TokenError ExportToken :=
  match h : exportTokenFault value with
  | some fault => .error fault
  | none => .ok ⟨value, h⟩

def replaceChars (escape : Char → List Char) (s : String) : String :=
  String.ofList (s.toList.flatMap escape)

def htmlEscape (input : String) : String :=
  replaceChars (fun c =>
    if c = '&' then "&amp;".toList
    else if c = '<' then "&lt;".toList
    else if c = '>' then "&gt;".toList
    else if c = '"' then "&quot;".toList
    else if c = APOSTROPHE then "&#x27;".toList
    else [c]) input

/-- A line break cannot end the comment the result is written into. -/
def sanitizeForComment (s : String) : String :=
  replaceChars (fun c =>
    if c = APOSTROPHE then [APOSTROPHE, APOSTROPHE]
    else if c = '\n' then ['\\', 'n']
    else [c]) s

def KARGS_BOOTLOADER_EXACT : List String :=
  ["ro", "rhgb", "quiet", "splash", "nosplash", "noplymouth"]

def KARGS_BOOTLOADER_PREFIXES : List String :=
  ["root=", "rd.lvm.lv=", "rd.luks.uuid=", "resume=", "BOOT_IMAGE=", "initrd=", "LANG=",
   "console=", "crashkernel="]

def isBootloaderKarg (karg : String) : Bool :=
  KARGS_BOOTLOADER_EXACT.contains karg || KARGS_BOOTLOADER_PREFIXES.any (Text.startsWith karg)

/-- The arguments of a kernel command line the operator set and the image can carry. -/
def operatorKargs (cmdline : String) : List String :=
  ((splitWhitespace cmdline).filter fun karg => !isBootloaderKarg karg).filter fun karg =>
    (sanitizeShellValue karg).isSome

def trimSlashes (path : String) : String := String.ofList (path.toList.dropWhile (· == '/'))

def isTrivialPiece (piece : List Char) : Bool := piece == [] || piece == ['.']

def trimTrivial (pieces : List (List Char)) : List (List Char) :=
  (pieces.reverse.dropWhile isTrivialPiece).reverse

/-- `Path::parent` as text. The first piece of an absolute path is the empty one before its
    slash. -/
def parentDir (path : String) : Option String :=
  match Text.splitChars (· == '/') path.toList with
  | [] => none
  | first :: rest =>
    match (trimTrivial rest).reverse with
    | [] => if first.isEmpty then none else some ""
    | _ :: before =>
      let parent := first :: trimTrivial before.reverse
      some (if parent = [[]] then "/" else "/".intercalate (parent.map String.ofList))

example : parentDir "/opt//app/./x/" = some "/opt//app" ∧ parentDir "/x" = some "/" ∧
    parentDir "x" = some "" ∧ parentDir "/" = none := by decide

def note (text : String) : Line := .comment (" " ++ text)

def bare (value : String) : Segment := .operand .bare value

def containerSection (header : String) (body : List Line) : List Line :=
  if body.isEmpty then [] else note ("=== " ++ header ++ " ===") :: body ++ [.blank]

end Inspectah
