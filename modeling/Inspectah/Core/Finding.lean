import Mathlib.Data.List.Basic

/-!
What a scan says about one item and whether it goes into the image. A row of
any section carries a disposition; most rows also carry a lock.
-/
namespace Inspectah

inductive AdvisoryType where
  | unbackedVarDir
  | crossTreeSymlink
  | modernization
  deriving DecidableEq

inductive FindingKind where
  | actionable (incl : Bool)
  | advisory (advisoryType : AdvisoryType) (rationale : String)
  | inventory
  deriving DecidableEq

namespace FindingKind

def included : FindingKind := .actionable true
def excluded : FindingKind := .actionable false
def fromBool (incl : Bool) : FindingKind := .actionable incl

def withInclude (d : FindingKind) (val : Bool) : FindingKind :=
  match d with
  | .actionable _ => fromBool val
  | .advisory t r => .advisory t r
  | .inventory => .inventory

def isIncluded : FindingKind → Bool
  | .actionable true => true
  | _ => false

def isAdvisory : FindingKind → Bool
  | .advisory .. => true
  | _ => false

def isInventory : FindingKind → Bool
  | .inventory => true
  | _ => false

def isActionable : FindingKind → Bool
  | .actionable _ => true
  | _ => false

@[simp] theorem isIncluded_fromBool (b : Bool) : (fromBool b).isIncluded = b := by
  cases b <;> rfl

@[simp] theorem isIncluded_excluded : excluded.isIncluded = false := rfl

theorem eq_of_isIncluded {d e : FindingKind} (hd : d.isActionable) (he : e.isActionable)
    (same : d.isIncluded = e.isIncluded) : d = e := by
  cases d <;> cases e <;> simp_all [isActionable, isIncluded]
  rename_i a b
  cases a <;> cases b <;> simp_all

theorem withInclude_of_isActionable {d : FindingKind} (h : d.isActionable) (b : Bool) :
    d.withInclude b = fromBool b := by
  cases d with
  | actionable c => rfl
  | advisory t r => cases h
  | inventory => cases h

theorem withInclude_of_not_isActionable {d : FindingKind} (h : d.isActionable = false) (b : Bool) :
    d.withInclude b = d := by
  cases d with
  | actionable c => cases h
  | advisory t r => rfl
  | inventory => rfl

@[simp] theorem isActionable_withInclude (d : FindingKind) (b : Bool) :
    (d.withInclude b).isActionable = d.isActionable := by
  cases d <;> rfl

end FindingKind

inductive ShadowType where
  | dropIn
  | fullShadow
  deriving DecidableEq

inductive VariantSelection where
  | only
  | selected
  | alternative
  deriving DecidableEq

/-- `count` of `total` hosts carry the item; the aggregate fields are set for one variant of
    several. -/
structure AggregatePrevalence where
  count : Int := 0
  total : Int := 0
  hosts : List String := []
  aggregateCount : Option Int := none
  aggregateHosts : Option (List String) := none
  deriving DecidableEq

/-- A row with a disposition that can be replaced without touching the rest. -/
class FindingRow (α : Type) where
  disposition : α → FindingKind
  decide : FindingKind → α → α
  disposition_decide : ∀ d a, disposition (decide d a) = d := by intros; rfl
  decide_disposition : ∀ a, decide (disposition a) a = a := by intros; rfl
  decide_decide : ∀ d e a, decide d (decide e a) = decide d a := by intros; rfl

/-- A row whose inclusion the operator can be barred from changing. -/
class LockableRow (α : Type) extends FindingRow α where
  locked : α → Bool
  locked_decide : ∀ d a, locked (decide d a) = locked a := by intros; rfl

attribute [simp] FindingRow.disposition_decide FindingRow.decide_disposition
  FindingRow.decide_decide LockableRow.locked_decide

section Rows

variable {α : Type}

def SameItem [FindingRow α] (a b : α) : Prop := ∃ d, b = FindingRow.decide d a

theorem SameItem.refl [FindingRow α] (a : α) : SameItem a a :=
  ⟨FindingRow.disposition a, (FindingRow.decide_disposition a).symm⟩

theorem SameItem.decide [FindingRow α] (d : FindingKind) (a : α) :
    SameItem a (FindingRow.decide d a) := ⟨d, rfl⟩

def clampLocked [LockableRow α] (a : α) : α :=
  if LockableRow.locked a then FindingRow.decide .excluded a else a

theorem clampLocked_sameItem [LockableRow α] (a : α) : SameItem a (clampLocked a) := by
  unfold clampLocked
  split
  · exact SameItem.decide _ a
  · exact SameItem.refl a

@[simp] theorem locked_clampLocked [LockableRow α] (a : α) :
    LockableRow.locked (clampLocked a) = LockableRow.locked a := by
  unfold clampLocked
  split <;> simp

theorem clampLocked_of_unlocked [LockableRow α] {a : α} (h : LockableRow.locked a = false) :
    clampLocked a = a := by
  simp [clampLocked, h]

theorem clampLocked_excludes [LockableRow α] (a : α) (h : LockableRow.locked a = true) :
    (FindingRow.disposition (clampLocked a)).isIncluded = false := by
  simp [clampLocked, h]

structure Standing where
  locked : Bool
  disposition : FindingKind
  deriving DecidableEq

def standing [LockableRow α] (a : α) : Standing := ⟨LockableRow.locked a, FindingRow.disposition a⟩

def standingOf [LockableRow α] (p : α → Bool) (rows : List α) : Option Standing :=
  (rows.find? p).map standing

def Standing.decide (d : FindingKind) (s : Standing) : Standing := { s with disposition := d }

def Standing.clamp (s : Standing) : Standing := if s.locked then s.decide .excluded else s

@[simp] theorem standing_decide [LockableRow α] (d : FindingKind) (a : α) :
    standing (FindingRow.decide d a) = (standing a).decide d := by
  simp [standing, Standing.decide]

@[simp] theorem standing_clampLocked [LockableRow α] (a : α) :
    standing (clampLocked a) = (standing a).clamp := by
  unfold clampLocked Standing.clamp
  change standing (if LockableRow.locked a = true then _ else _) =
    if LockableRow.locked a = true then _ else _
  split <;> simp

theorem Standing.clamp_of_unlocked {s : Standing} (unlocked : s.locked = false) : s.clamp = s := by
  simp [Standing.clamp, unlocked]

end Rows

end Inspectah
