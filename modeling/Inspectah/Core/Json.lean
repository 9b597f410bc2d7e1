import Mathlib.Data.Finmap

/-!
`serde_json::Value` as the program reads and writes it. An object is a sorted
map, kept here as its key-ordered fields; a number is its literal.
-/
namespace Inspectah

/-- A `HashMap` with text keys, as a value: iteration order is not part of it. -/
abbrev TextMap (V : Type) := Finmap fun _ : String => V

inductive Json where
  | null
  | bool (b : Bool)
  | num (literal : String)
  | str (s : String)
  | arr (items : List Json)
  | obj (fields : List (String × Json))

namespace Json

def insertField (key : String) (value : Json) : List (String × Json) → List (String × Json)
  | [] => [(key, value)]
  | (k, v) :: rest =>
    if key < k then (key, value) :: (k, v) :: rest
    else if key = k then (key, value) :: rest
    else (k, v) :: insertField key value rest

/-- `Value::get` with a text index. -/
def get (key : String) : Json → Option Json
  | .obj fields => (fields.find? fun f => f.1 == key).map (·.2)
  | _ => none

def asStr : Json → Option String
  | .str s => some s
  | _ => none

def asBool : Json → Option Bool
  | .bool b => some b
  | _ => none

def asArray : Json → Option (List Json)
  | .arr items => some items
  | _ => none

def isObject : Json → Bool
  | .obj _ => true
  | _ => false

/-- `insert` through `as_object_mut`: a value that is no object stays as it is. -/
def insert (key : String) (value : Json) : Json → Json
  | .obj fields => .obj (insertField key value fields)
  | other => other

def remove (key : String) : Json → Json
  | .obj fields => .obj (fields.filter fun f => f.1 != key)
  | other => other

end Json

mutual

def Json.decEq : (a b : Json) → Decidable (a = b)
  | .null, b =>
    match b with
    | .null => isTrue rfl
    | .bool _ | .num _ | .str _ | .arr _ | .obj _ => isFalse nofun
  | .bool x, b =>
    match b with
    | .bool y => decidable_of_iff (x = y) (by simp)
    | .null | .num _ | .str _ | .arr _ | .obj _ => isFalse nofun
  | .num x, b =>
    match b with
    | .num y => decidable_of_iff (x = y) (by simp)
    | .null | .bool _ | .str _ | .arr _ | .obj _ => isFalse nofun
  | .str x, b =>
    match b with
    | .str y => decidable_of_iff (x = y) (by simp)
    | .null | .bool _ | .num _ | .arr _ | .obj _ => isFalse nofun
  | .arr xs, b =>
    match b with
    | .arr ys =>
      have := Json.decEqItems xs ys
      decidable_of_iff (xs = ys) (by simp)
    | .null | .bool _ | .num _ | .str _ | .obj _ => isFalse nofun
  | .obj fs, b =>
    match b with
    | .obj gs =>
      have := Json.decEqFields fs gs
      decidable_of_iff (fs = gs) (by simp)
    | .null | .bool _ | .num _ | .str _ | .arr _ => isFalse nofun

def Json.decEqItems : (as bs : List Json) → Decidable (as = bs)
  | [], [] => isTrue rfl
  | [], _ :: _ => isFalse nofun
  | _ :: _, [] => isFalse nofun
  | a :: as, b :: bs =>
    have := Json.decEq a b
    have := Json.decEqItems as bs
    decidable_of_iff (a = b ∧ as = bs) (by simp)

def Json.decEqFields : (fs gs : List (String × Json)) → Decidable (fs = gs)
  | [], [] => isTrue rfl
  | [], _ :: _ => isFalse nofun
  | _ :: _, [] => isFalse nofun
  | (k, v) :: fs, (q, w) :: gs =>
    have := Json.decEq v w
    have := Json.decEqFields fs gs
    decidable_of_iff ((k = q ∧ v = w) ∧ fs = gs) (by simp)

end

instance : DecidableEq Json := Json.decEq

section Fields

variable {key k : String} {v : Json}

theorem find_insertField_self (fields : List (String × Json)) :
    (Json.insertField k v fields).find? (fun f => f.1 == k) = some (k, v) := by
  induction fields with
  | nil => simp [Json.insertField]
  | cons f rest ih =>
    rw [Json.insertField]
    split
    · simp
    · split
      · simp
      · rename_i apart
        rw [List.find?_cons_of_neg (by simpa using Ne.symm apart), ih]

theorem find_insertField_ne (other : k ≠ key) (fields : List (String × Json)) :
    (Json.insertField k v fields).find? (fun f => f.1 == key) =
      fields.find? fun f => f.1 == key := by
  have apart : (k == key) = false := by simpa using other
  induction fields with
  | nil => simp [Json.insertField, apart]
  | cons f rest ih =>
    rw [Json.insertField]
    split
    · rw [List.find?_cons, apart]
    · split
      · rename_i same
        rw [List.find?_cons, List.find?_cons, ← same, apart]
      · rw [List.find?_cons, List.find?_cons, ih]

theorem get_insert_ne (other : k ≠ key) (j : Json) : (Json.insert k v j).get key = j.get key := by
  cases j with
  | obj fields => rw [Json.insert, Json.get, Json.get, find_insertField_ne other]
  | _ => rfl

theorem get_insert_self {j : Json} (object : j.isObject) : (Json.insert k v j).get k = some v := by
  cases j with
  | obj fields => rw [Json.insert, Json.get, find_insertField_self]; rfl
  | _ => cases object

theorem get_remove_ne {key k : String} (other : k ≠ key) (j : Json) :
    (j.remove k).get key = j.get key := by
  cases j with
  | obj fields =>
    have kept : (fun f : String × Json => decide (f.1 != k ∧ f.1 == key)) =
        fun f => f.1 == key := by
      funext f
      by_cases h : f.1 = key <;> simp [h, other.symm]
    rw [Json.remove, Json.get, Json.get, List.find?_filter, kept]
  | _ => rfl

theorem get_remove_self (k : String) (j : Json) : (j.remove k).get k = none := by
  cases j with
  | obj fields => simp [Json.remove, Json.get, List.find?_filter]
  | _ => rfl

@[simp] theorem isObject_insert (key : String) (value j : Json) :
    (Json.insert key value j).isObject = j.isObject := by
  cases j <;> rfl

@[simp] theorem isObject_remove (key : String) (j : Json) :
    (j.remove key).isObject = j.isObject := by
  cases j <;> rfl

end Fields

def strField (v : Json) (key : String) : String := ((v.get key).bind Json.asStr).getD ""

end Inspectah
