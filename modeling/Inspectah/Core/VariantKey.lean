import Mathlib.Data.List.Sort
import Inspectah.Core.Snapshot
import Inspectah.Library.HashOrder

/-!
What tells two versions of one item apart. Digest, JSON text and the order of hash tables are
parameters.
-/
namespace Inspectah

structure Hashing where
  /-- SHA-256 of a text, in hexadecimal. -/
  digest : String → String
  /-- `serde_json::to_string` of a service list. -/
  imagesJson : List ComposeService → String
  order : HashOrder.Order

/-- The order `(name, version)` pairs are sorted in before hashing. -/
def LanguagePackage.le (a b : LanguagePackage) : Prop :=
  a.name < b.name ∨ (a.name = b.name ∧ a.version ≤ b.version)

instance : DecidableRel LanguagePackage.le := fun a b =>
  inferInstanceAs (Decidable (a.name < b.name ∨ (a.name = b.name ∧ a.version ≤ b.version)))

def NonRpmItem.variantPayload (item : NonRpmItem) : String :=
  if item.packages.isEmpty then
    item.method ++ "\n" ++ item.name ++ "\n" ++ item.version ++ "\n" ++ item.content ++ "\n"
  else
    item.method ++ "\n" ++ String.join ((item.packages.insertionSort LanguagePackage.le).map
      fun p => p.name ++ "=" ++ p.version ++ "\n")

def NonRpmItem.contentVariantKey (h : Hashing) (item : NonRpmItem) : String :=
  h.digest item.variantPayload

def ComposeFile.contentVariantKey (h : Hashing) (file : ComposeFile) : String :=
  h.digest (h.imagesJson file.images)

end Inspectah
