import Inspectah.Core.Json
import Inspectah.Core.Packages
import Inspectah.Core.Text
import Inspectah.Library.TokenOrder

/-!
Comparing package versions as RPM does, and marking the packages of a host that differ from the
baseline's.
-/
namespace Inspectah

open TokenOrder

/-- `char::is_alphabetic` and `char::is_numeric`, which are those of ASCII on ASCII. -/
structure CharClasses where
  isAlphabetic : Char → Bool
  isNumeric : Char → Bool
  alphabetic_ascii : ∀ c : Char, c.toNat < 128 → isAlphabetic c = c.isAlpha
  numeric_ascii : ∀ c : Char, c.toNat < 128 → isNumeric c = c.isDigit

/-- What one turn of the loop does: it returns, or goes on with what is left of both. -/
inductive Round where
  | returns (o : Ordering)
  | again (a b : List Char)

/-- `seg.parse::<u64>().unwrap_or(0)`. -/
def segmentNumber (seg : List Char) : Nat := (parseBelow U64_RANGE (String.ofList seg)).getD 0

def collectWhile (pred : Char → Bool) (cs : List Char) : List Char × List Char :=
  (cs.takeWhile pred, cs.dropWhile pred)

namespace CharClasses

variable (cls : CharClasses)

def isAlphanumeric (c : Char) : Bool := cls.isAlphabetic c || cls.isNumeric c

def isSkipped (c : Char) : Bool := !cls.isAlphanumeric c && c != '~' && c != '^'

def collectSegment (isDigit : Bool) (cs : List Char) : List Char × List Char :=
  if isDigit then collectWhile Char.isDigit cs else collectWhile cls.isAlphabetic cs

def compareSegments (x y : Char) (a b : List Char) : Round :=
  let (segA, restA) := cls.collectSegment x.isDigit (x :: a)
  let (segB, restB) := cls.collectSegment y.isDigit (y :: b)
  let unlessEqual (o : Ordering) : Round := if o = .eq then .again restA restB else .returns o
  match x.isDigit, y.isDigit with
  | true, false => .returns .gt
  | false, true => .returns .lt
  | true, true => unlessEqual (compare (segmentNumber segA) (segmentNumber segB))
  | false, false => unlessEqual (compare segA segB)

def round (a b : List Char) : Round :=
  match a.dropWhile cls.isSkipped, b.dropWhile cls.isSkipped with
  | '~' :: a, '~' :: b => .again a b
  | '~' :: _, _ => .returns .lt
  | _, '~' :: _ => .returns .gt
  | '^' :: a, '^' :: b => .again a b
  | '^' :: _, [] => .returns .gt
  | [], '^' :: _ => .returns .lt
  | '^' :: _, _ => .returns .lt
  | _, '^' :: _ => .returns .gt
  | [], [] => .returns .eq
  | [], _ => .returns .lt
  | _, [] => .returns .gt
  | x :: a, y :: b => cls.compareSegments x y a b

def loop : Nat → List Char → List Char → Option Ordering
  | 0, _, _ => none
  | fuel + 1, a, b =>
    match cls.round a b with
    | .returns o => some o
    | .again a b => loop fuel a b

def rpmvercmp (fuel : Nat) (a b : String) : Option Ordering :=
  if a = b then some .eq else cls.loop fuel a.toList b.toList

end CharClasses

def normEpoch (e : String) : String := if e.isEmpty then "0" else e

structure ClassificationResult where
  packages : List PackageEntry
  versionChanges : List VersionChange
  deriving DecidableEq

def versionChange (pkg base : PackageEntry) (direction : VersionChangeDirection) :
    VersionChange where
  name := pkg.name
  arch := pkg.arch
  hostVersion := pkg.version ++ "-" ++ pkg.release
  baseVersion := base.version ++ "-" ++ base.release
  hostEpoch := pkg.epoch
  baseEpoch := base.epoch
  direction := direction

def includedAs (pkg : PackageEntry) (state : PackageState) : PackageEntry :=
  { pkg with state := state, disposition := .included }

/-- Where a host package goes with the base image, when the two versions differ. -/
def changeDirection (epochCmp verCmp relCmp : Ordering) : VersionChangeDirection :=
  if epochCmp ≠ .eq then (if epochCmp = .gt then .downgrade else .upgrade)
  else if verCmp ≠ .eq then (if verCmp = .gt then .downgrade else .upgrade)
  else if relCmp = .gt then .downgrade else .upgrade

namespace CharClasses

variable (cls : CharClasses) (fuel : Nat) (baseline : TextMap PackageEntry)

def classifyPackage (pkg : PackageEntry) : Option (PackageEntry × Option VersionChange) :=
  match baseline.lookup (canonicalPackageId pkg.name pkg.arch) with
  | none => some (includedAs pkg .added, none)
  | some base => do
    let epochCmp ← cls.rpmvercmp fuel (normEpoch pkg.epoch) (normEpoch base.epoch)
    let verCmp ← cls.rpmvercmp fuel pkg.version base.version
    let relCmp ← cls.rpmvercmp fuel pkg.release base.release
    if epochCmp = .eq ∧ verCmp = .eq ∧ relCmp = .eq then
      some (includedAs pkg .added, none)
    else
      some (includedAs pkg .modified,
        some (versionChange pkg base (changeDirection epochCmp verCmp relCmp)))

def classifyPackages (host : List PackageEntry) : Option ClassificationResult := do
  let classified ← host.mapM (cls.classifyPackage fuel baseline)
  some ⟨classified.map Prod.fst, classified.filterMap Prod.snd⟩

end CharClasses

/-- `~` is below everything and the end below all but that. -/
inductive VerToken where
  | tilde
  | stop
  | caret
  | letters (word : List Char)
  | digits (value : Nat)
  deriving DecidableEq

namespace VerToken

def code : VerToken → List Nat
  | tilde => [0]
  | stop => [1]
  | caret => [2]
  | letters word => 3 :: word.map Char.toNat
  | digits value => [4, value]

instance : Ord VerToken := ⟨compareOn code⟩

theorem code_injective {a b : VerToken} (same : a.code = b.code) : a = b := by
  cases a <;> cases b <;> simp [code] at same
  all_goals first | rfl | skip
  · rw [(List.map_injective_iff.mpr fun c d h => Char.toNat_inj.mp h) same]
  · rw [same]

instance : Std.TransOrd VerToken := inferInstanceAs (Std.TransCmp (compareOn code))

instance : Std.LawfulEqOrd VerToken where
  compare_self := Std.ReflOrd.compare_self
  eq_of_compare same := code_injective (Std.LawfulEqOrd.eq_of_compare same)

theorem compare_toNat (c d : Char) : compare c.toNat d.toNat = compare c d := by
  simp only [compare, compareOfLessAndEq, Char.toNat_inj]
  rfl

theorem compare_letters (u w : List Char) : compare (letters u) (letters w) = compare u w := by
  change compare (3 :: u.map Char.toNat) (3 :: w.map Char.toNat) = _
  rw [compare_cons_self]
  induction u generalizing w with
  | nil => cases w <;> rfl
  | cons c u ih =>
    cases w with
    | nil => rfl
    | cons d w =>
      rw [List.map_cons, List.map_cons, List.compare_cons_cons, List.compare_cons_cons, ih,
        compare_toNat]

theorem compare_digits (m n : Nat) : compare (digits m) (digits n) = compare m n := by
  change compare [4, m] [4, n] = _
  simp

end VerToken

/-- How a version is cut into segments. -/
structure SegmentReading where
  isLetter : Char → Bool
  isSkipped : Char → Bool
  number : List Char → Nat

/-- The token a text begins with, which begins with none that is skipped, and what is left. -/
def headToken (reading : SegmentReading) : List Char → VerToken × List Char
  | [] => (.stop, [])
  | c :: rest =>
    if c = '~' then (.tilde, rest)
    else if c = '^' then (.caret, rest)
    else if c.isDigit then
      (.digits (reading.number ((c :: rest).takeWhile Char.isDigit)),
        (c :: rest).dropWhile Char.isDigit)
    else
      (.letters ((c :: rest).takeWhile reading.isLetter), (c :: rest).dropWhile reading.isLetter)

def nextToken (reading : SegmentReading) (cs : List Char) : VerToken × List Char :=
  headToken reading (cs.dropWhile reading.isSkipped)

def librpmReading : SegmentReading where
  isLetter := Char.isAlpha
  isSkipped c := !c.isAlphanum && c != '~' && c != '^'
  number := digitsValue

def charsKey (cs : List Char) : List VerToken :=
  tokens (nextToken librpmReading) .stop (cs.length + 1) cs

def versionKey (version : String) : List VerToken := charsKey version.toList

def rpmOrder (a b : String) : Ordering := compare (versionKey a) (versionKey b)

def evrKey (pkg : PackageEntry) : List (List VerToken) :=
  [versionKey (normEpoch pkg.epoch), versionKey pkg.version, versionKey pkg.release]

def evrOrder (pkg base : PackageEntry) : Ordering := compare (evrKey pkg) (evrKey base)

example : rpmOrder "1.0~rc1" "1.0" = .lt ∧ rpmOrder "1.0^git1" "1.0" = .gt ∧
    rpmOrder "1.0a" "1.0.1" = .lt := by decide +kernel

end Inspectah
