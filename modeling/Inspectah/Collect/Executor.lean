import Mathlib.Init

/-!
What the inspectors get of the host: the result of a command and the entries of a
directory.
-/
namespace Inspectah

structure ExecResult where
  stdout : String := ""
  exitCode : Int := 0

def ExecResult.success (r : ExecResult) : Bool := r.exitCode == 0

/-- The entries of a directory, or why there are none. -/
inductive DirRead where
  | entries (names : List String)
  | denied
  | missing

def DirRead.isRead : DirRead → Bool
  | entries _ => true
  | _ => false

end Inspectah
