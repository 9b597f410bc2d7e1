import Inspectah.Render.Safety

/-!
User accounts. The snapshot keeps users and groups as JSON records; those whose
strategy is to be created at build time become commands of the Containerfile.
-/
namespace Inspectah

open BuildScript (Line Segment)

/-- A number as an unsigned 32-bit value: cut to an integer and to the range. Digits past a
    double's are cut. -/
def u32OfLiteral (literal : String) : Nat :=
  let (mantissa, exponent) := literal.toList.span fun c => c != 'e' && c != 'E'
  let (whole, fraction) := mantissa.span (· != '.')
  let negativeExponent := exponent[1]? == some '-'
  let shift := digitsValue (exponent.filter Char.isDigit)
  let digits := digitsValue (whole ++ fraction.drop 1)
  let places := (fraction.drop 1).length + if negativeExponent then shift else 0
  if literal.toList.head? == some '-' || digits == 0 then 0
  else if negativeExponent then min U32_MAX (digits / 10 ^ places)
  else if 400 < shift then U32_MAX
  else min U32_MAX (digits * 10 ^ shift / 10 ^ places)

example : u32OfLiteral "1000" = 1000 ∧ u32OfLiteral "1.5e3" = 1500 ∧ u32OfLiteral "-1" = 0 ∧
    u32OfLiteral "4294967296" = 4294967295 := by decide

def uidField (v : Json) (key : String) : Nat :=
  match v.get key with
  | some (.num literal) => u32OfLiteral literal
  | _ => 0

def strings (v : Json) (key : String) : List String :=
  (((v.get key).bind Json.asArray).getD []).filterMap Json.asStr

def suppGroups (v : Json) : List String := strings v "supplementary_groups"

def sshKeys (v : Json) : List String := strings v "ssh_keys"

/-- A record is included unless it says otherwise. -/
def jsonIncluded (v : Json) : Bool := ((v.get "include").bind Json.asBool).getD true

def customGroups (snap : InspectionSnapshot) : List Json :=
  (rowsOf (·.groups) snap.usersGroups).filter fun g => strField g "source" == "custom" && jsonIncluded g

def includedUsers (snap : InspectionSnapshot) : List Json :=
  (rowsOf (·.users) snap.usersGroups).filter jsonIncluded

def useraddUsers (snap : InspectionSnapshot) : List Json :=
  (includedUsers snap).filter fun u => strField u "containerfile_strategy" == "useradd"

def isShellSafe (val : String) : Bool := (sanitizeShellValue val).isSome

/-- A custom group that a created user has, as primary group by number or else by name. -/
def groupaddLine (users : List Json) (g : Json) : Option Line :=
  let name := strField g "name"
  let gid := uidField g "gid"
  let primary := 0 < gid && users.any fun u => uidField u "gid" == gid
  let supplementary := users.any fun u => (suppGroups u).contains name
  if name.isEmpty || !isShellSafe name || !(primary || supplementary) then none
  else if 0 < gid then
    some (.command [.fixed ("RUN groupadd -g " ++ toString gid ++ " "), bare name])
  else some (.command [.fixed "RUN groupadd ", bare name])

def optionSegments (given : Bool) (segments : List Segment) : List Segment :=
  if given then segments else []

def useraddLine (u : Json) : Option Line :=
  let name := strField u "name"
  let uid := uidField u "uid"
  let gid := uidField u "gid"
  let groups := suppGroups u
  let shell := strField u "shell"
  let home := strField u "home"
  if name.isEmpty || !isShellSafe name then none
  else some (.command (.fixed "RUN useradd -m" ::
    optionSegments (0 < uid) [.fixed (" -u " ++ toString uid)] ++
    optionSegments (0 < gid) [.fixed (" -g " ++ toString gid)] ++
    optionSegments (!groups.isEmpty)
      (.fixed " -G " :: (groups.map bare).intersperse (.fixed ",")) ++
    optionSegments (!shell.isEmpty) [.fixed " -s ", bare shell] ++
    optionSegments (!home.isEmpty) [.fixed " -d ", bare home] ++
    [.fixed " ", bare name]))

def chpasswdEntry (u : Json) : List Segment :=
  [.operand .single (strField u "name"), .fixed ":", .operand .single (strField u "password_hash")]

def chpasswdLines (users : List Json) : List Line :=
  let withPassword := users.filter fun u => !(strField u "password_hash").isEmpty
  let entries := withPassword.filter fun u => isShellSafe (strField u "name")
  if withPassword.isEmpty then []
  else
    [note "WARNING: Embedding password hashes in a Containerfile is a security risk.",
     note "Consider using a secrets manager or deploy-time provisioning instead."] ++
    (if entries.isEmpty then []
     else [.command (.fixed "RUN echo '" ::
       ((entries.map chpasswdEntry).intersperse [.fixed "\\n"]).flatten ++
       [.fixed "' | chpasswd -e"])])

def homeOf (u : Json) : String :=
  if (strField u "home").isEmpty then "/home/" ++ strField u "name" else strField u "home"

def sshKeyLines (u : Json) : List Line :=
  let name := strField u "name"
  let uid := uidField u "uid"
  let gid := uidField u "gid"
  let home := homeOf u
  let keys : List Segment := [bare home, .fixed "/.ssh/authorized_keys"]
  if (sshKeys u).isEmpty || !isShellSafe name then []
  else
    [.command [.fixed "RUN install -d -m 700 -o ", bare name, .fixed (" -g " ++ toString gid ++ " "),
       bare home, .fixed "/.ssh"],
     .copy [.fixed "users/home/", bare name, .fixed "/.ssh/authorized_keys"] keys,
     .command (.fixed "RUN chown " :: bare name ::
       .fixed (":" ++ toString (if 0 < gid then gid else uid) ++ " ") :: keys ++
       .fixed " && chmod 600 " :: keys)]

def renderContainerfileUsers (snap : InspectionSnapshot) : List Line :=
  let users := useraddUsers snap
  if users.isEmpty then []
  else containerSection "Users and Groups"
    ((customGroups snap).filterMap (groupaddLine users) ++ users.filterMap useraddLine ++
      chpasswdLines users ++ users.flatMap sshKeyLines)

end Inspectah
