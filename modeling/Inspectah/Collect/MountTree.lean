import Inspectah.Collect.Executor
import Inspectah.Core.HostState

/-!
Mount points. `findmnt --json` prints a forest; the inspector reads its top only, and passes
over a field its target does not name.
-/
namespace Inspectah

/-- What the JSON library reads in a text, and says of a value of another shape. -/
structure JsonReader where
  fromStr : String → Except String Json
  misfit : Json → String

def textField (key : String) (fields : List (String × Json)) : Option String :=
  match fields.filter fun f => f.1 == key with
  | [(_, .str s)] => some s
  | _ => none

/-- `FindmntEntry`, which is also read from an array of its fields in order. -/
def findmntEntry : Json → Option MountPoint
  | .obj fields => do
    let target ← textField "target" fields
    let source ← textField "source" fields
    let fstype ← textField "fstype" fields
    let options ← textField "options" fields
    return { target, source, fstype, options }
  | .arr [.str target, .str source, .str fstype, .str options] =>
    some { target, source, fstype, options }
  | _ => none

/-- `FindmntOutput`. -/
def findmntOutput (json : Json) : Option (List MountPoint) :=
  match json with
  | .obj fields =>
    match fields.filter fun f => f.1 == "filesystems" with
    | [(_, .arr entries)] => entries.mapM findmntEntry
    | _ => none
  | .arr [.arr entries] => entries.mapM findmntEntry
  | _ => none

/-- `collect_findmnt`. -/
def collectFindmnt (reader : JsonReader) (result : ExecResult) :
    Except String (List MountPoint) :=
  if !result.success then
    .error ("findmnt failed with exit code " ++ toString result.exitCode)
  else
    match reader.fromStr result.stdout with
    | .error e => .error ("failed to parse findmnt JSON: " ++ e)
    | .ok json =>
      match findmntOutput json with
      | none => .error ("failed to parse findmnt JSON: " ++ reader.misfit json)
      | some mounts => .ok mounts

inductive Mount where
  | node (point : MountPoint) (children : List Mount)

namespace Mount

def point : Mount → MountPoint
  | node p _ => p

def children : Mount → List Mount
  | node _ below => below

mutual

/-- A mount without submounts is printed without the array. -/
def json : Mount → Json
  | node p below =>
    .obj ([("target", .str p.target), ("source", .str p.source), ("fstype", .str p.fstype),
      ("options", .str p.options)] ++
        if below.isEmpty then [] else [("children", .arr (jsonForest below))])

def jsonForest : List Mount → List Json
  | [] => []
  | m :: rest => m.json :: jsonForest rest

end

mutual

def points : Mount → List MountPoint
  | node p below => p :: pointsForest below

def pointsForest : List Mount → List MountPoint
  | [] => []
  | m :: rest => m.points ++ pointsForest rest

end

end Mount

def findmntJson (forest : List Mount) : Json :=
  .obj [("filesystems", .arr (Mount.jsonForest forest))]

def RecordsEveryMount (reader : JsonReader) (result : ExecResult) (forest : List Mount) : Prop :=
  ∃ mounts, collectFindmnt reader result = .ok mounts ∧ mounts.Perm (Mount.pointsForest forest)

theorem findmntEntry_json (m : Mount) : findmntEntry m.json = some m.point := by
  obtain ⟨p, below⟩ := m
  unfold Mount.json findmntEntry textField
  cases below <;> rfl

theorem mapM_jsonForest (forest : List Mount) :
    (Mount.jsonForest forest).mapM findmntEntry = some (forest.map Mount.point) := by
  induction forest with
  | nil => rfl
  | cons m rest ih =>
    rw [Mount.jsonForest, List.mapM_cons, findmntEntry_json, ih]
    rfl

theorem collectFindmnt_roots {reader : JsonReader} {result : ExecResult} {forest : List Mount}
    (ran : result.exitCode = 0) (printed : reader.fromStr result.stdout = .ok (findmntJson forest)) :
    collectFindmnt reader result = .ok (forest.map Mount.point) := by
  have read : findmntOutput (findmntJson forest) = some (forest.map Mount.point) :=
    mapM_jsonForest forest
  unfold collectFindmnt
  rw [ExecResult.success, ran, printed]
  dsimp only
  rw [read]
  rfl

theorem pointsForest_length_le (forest : List Mount) :
    forest.length ≤ (Mount.pointsForest forest).length := by
  induction forest with
  | nil => exact Nat.le_refl 0
  | cons m rest ih =>
    obtain ⟨p, below⟩ := m
    rw [Mount.pointsForest, Mount.points, List.length_append, List.length_cons, List.length_cons]
    omega

theorem leaves_of_length {forest : List Mount}
    (few : (Mount.pointsForest forest).length ≤ forest.length) :
    ∀ m ∈ forest, m.children = [] := by
  induction forest with
  | nil => simp
  | cons m rest ih =>
    obtain ⟨p, below⟩ := m
    rw [Mount.pointsForest, Mount.points, List.length_append, List.length_cons,
      List.length_cons] at few
    have below_le := pointsForest_length_le below
    have rest_le := pointsForest_length_le rest
    have leaf : below = [] := List.eq_nil_of_length_eq_zero (by omega)
    exact List.forall_mem_cons.mpr ⟨leaf, ih (by omega)⟩

theorem roots_perm_iff (forest : List Mount) :
    (forest.map Mount.point).Perm (Mount.pointsForest forest) ↔
      ∀ m ∈ forest, m.children = [] := by
  constructor
  · intro perm
    apply leaves_of_length
    rw [← perm.length_eq, List.length_map]
  · intro leaves
    suffices forest.map Mount.point = Mount.pointsForest forest from this ▸ List.Perm.refl _
    induction forest with
    | nil => rfl
    | cons m rest ih =>
      obtain ⟨p, below⟩ := m
      obtain ⟨leaf, later⟩ := List.forall_mem_cons.mp leaves
      obtain rfl : below = [] := leaf
      rw [List.map_cons, ih later]
      rfl

def rootMount : MountPoint where
  target := "/"
  source := "/dev/mapper/rhel-root"
  fstype := "xfs"
  options := "rw,relatime"

def homeMount : MountPoint where
  target := "/home"
  source := "/dev/mapper/rhel-home"
  fstype := "xfs"
  options := "rw,relatime"

def readerOf (forest : List Mount) : JsonReader where
  fromStr _ := .ok (findmntJson forest)
  misfit _ := "invalid type"

end Inspectah
