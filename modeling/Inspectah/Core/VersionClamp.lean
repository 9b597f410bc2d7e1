import Inspectah.Core.Text
import Inspectah.Library.PaddedOrder
import Mathlib.Order.MinMax
import Mathlib.Order.WithBot

/-!
The version of a base image, raised to the least that is supported. Versions are numbers between
dots and are ordered number by number, a missing one counting as zero.
-/
namespace Inspectah

open PaddedOrder

def parseVersionParts (version : String) : Option (List Nat) :=
  if version.isEmpty then none else (Text.splitOn (· == '.') version).mapM parseU32

def clampVersion (version minimum : String) : String :=
  match parseVersionParts version, parseVersionParts minimum with
  | some v, some m =>
    if leads 0 v m (List.range (max v.length m.length)) then version else minimum
  | _, _ => minimum

structure MinimumVersion where
  text : String
  parts : List Nat
  parses : parseVersionParts text = some parts

/-- Where a version stands, one that cannot be read below all others. -/
def versionRank (version : String) : WithBot (Lex (ℕ → ℕ)) :=
  match parseVersionParts version with
  | some parts => (padded 0 parts : Lex (ℕ → ℕ))
  | none => ⊥

structure ClampsTo (minimum : MinimumVersion) (clamp : String → String) : Prop where
  chosen : ∀ version, clamp version = version ∨ clamp version = minimum.text
  kept : ∀ version, clamp version = version ↔ ∃ parts, parseVersionParts version = some parts ∧
    padded 0 minimum.parts ≤ padded 0 parts
  again : ∀ version, clamp (clamp version) = clamp version
  monotone : ∀ v w, versionRank v ≤ versionRank w → versionRank (clamp v) ≤ versionRank (clamp w)
  not_below : ∀ version, versionRank minimum.text ≤ versionRank (clamp version)

variable {minimum : MinimumVersion} {version : String}

theorem versionRank_minimum :
    versionRank minimum.text = (padded 0 minimum.parts : Lex (ℕ → ℕ)) := by
  rw [versionRank, minimum.parses]

theorem clampVersion_eq : clampVersion version minimum.text =
    if versionRank minimum.text ≤ versionRank version then version else minimum.text := by
  rw [clampVersion, versionRank_minimum, versionRank, minimum.parses]
  cases parseVersionParts version with
  | none => exact (if_neg (by simp)).symm
  | some parts => exact if_congr (leads_range.trans WithBot.coe_le_coe.symm) rfl rfl

theorem versionRank_clampVersion : versionRank (clampVersion version minimum.text) =
    max (versionRank version) (versionRank minimum.text) := by
  rw [clampVersion_eq]
  split
  · next above => rw [max_eq_left above]
  · next below => rw [max_eq_right (le_of_not_ge below)]

theorem clampVersion_kept : clampVersion version minimum.text = version ↔
    versionRank minimum.text ≤ versionRank version := by
  rw [clampVersion_eq]
  split
  · next above => exact iff_of_true rfl above
  · next below =>
    refine iff_of_false (fun same => below ?_) below
    rw [same]

theorem clampsTo_clampVersion (minimum : MinimumVersion) :
    ClampsTo minimum fun version => clampVersion version minimum.text where
  chosen version := by
    rw [clampVersion_eq]
    exact ite_eq_or_eq _ _ _
  kept version := by
    rw [clampVersion_kept, versionRank_minimum, versionRank]
    cases parseVersionParts version with
    | none => simp
    | some parts => simp
  again version := by
    rw [clampVersion_kept, versionRank_clampVersion]
    exact le_max_right _ _
  monotone v w below := by
    rw [versionRank_clampVersion, versionRank_clampVersion]
    exact max_le_max below (le_refl _)
  not_below version := by
    rw [versionRank_clampVersion]
    exact le_max_right _ _

example : clampVersion "9.6.0" "9.6" = "9.6.0" := by decide +kernel

end Inspectah
