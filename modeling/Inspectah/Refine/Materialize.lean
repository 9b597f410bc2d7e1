import Inspectah.Core.VariantKey
import Inspectah.Library.FirstMatch
import Inspectah.Refine.RepoSections

/-!
Variant operations. Replaying accumulates which versions of a path were added, discarded and
selected, by path alone; materializing writes that into every section with rows there. Three
sections gain and lose rows, three only have a selection derived.
-/
namespace Inspectah

abbrev UserVariants := AList fun _ : ContentHash => String

structure VariantProjectionState where
  userVariants : KeyedMap UserVariants := ∅
  discarded : KeyedMap (List ContentHash) := ∅
  selected : KeyedMap ContentHash := ∅

def Hashing.ofContent (h : Hashing) (content : String) : ContentHash := ⟨h.digest content⟩

/-- `item_path`: the kinds that take part in variant operations. -/
def itemPath : ItemId → Option String
  | .config path => some path
  | .dropIn path => some path
  | .quadlet path => some path
  | .compose path => some path
  | .languageEnv _ path => some path
  | .unmanagedFile path => some path
  | _ => none

def hostContents (snap : InspectionSnapshot) : ItemId → List (String × String)
  | .config _ => (snap.config.map (·.files.map fun e => (e.path, e.content))).getD []
  | .dropIn _ => (snap.services.map (·.dropIns.map fun e => (e.path, e.content))).getD []
  | .quadlet _ => (snap.containers.map (·.quadletUnits.map fun e => (e.path, e.content))).getD []
  | _ => []

namespace VariantProjectionState

def isUserVariant (state : VariantProjectionState) (path : String) (hash : ContentHash) : Bool :=
  ((state.userVariants.lookup path).map fun m => (m.lookup hash).isSome).getD false

def isDiscarded (state : VariantProjectionState) (path : String) (hash : ContentHash) : Bool :=
  ((state.discarded.lookup path).map (·.contains hash)).getD false

def affectedPaths (state : VariantProjectionState) : List String :=
  (state.userVariants.keys ++ state.discarded.keys ++ state.selected.keys).dedup

end VariantProjectionState

section Accumulate

variable (h : Hashing)

def isHostVariant (snap : InspectionSnapshot) (item : ItemId) (path : String)
    (hash : ContentHash) : Bool :=
  (hostContents snap item).any fun row => row.1 == path && h.ofContent row.2 == hash

def applySelect (state : VariantProjectionState) (item : ItemId) (target : ContentHash) :
    VariantProjectionState :=
  match itemPath item with
  | none => state
  | some path => { state with selected := state.selected.insert path target }

/-- Content that exists already is selected; new content is added and selected. -/
def applyEdit (snap : InspectionSnapshot) (state : VariantProjectionState) (item : ItemId)
    (content : String) : VariantProjectionState :=
  match itemPath item with
  | none => state
  | some path =>
    let hash := h.ofContent content
    if isHostVariant h snap item path hash || state.isUserVariant path hash then
      { state with selected := state.selected.insert path hash }
    else
      { userVariants := state.userVariants.insert path
          (((state.userVariants.lookup path).getD ∅).insert hash content)
        discarded :=
          match state.discarded.lookup path with
          | none => state.discarded
          | some disc => state.discarded.insert path (disc.filter (· ≠ hash))
        selected := state.selected.insert path hash }

def applyDiscard (state : VariantProjectionState) (item : ItemId) (variant : ContentHash) :
    VariantProjectionState :=
  match itemPath item with
  | none => state
  | some path =>
    { userVariants :=
        match state.userVariants.lookup path with
        | none => state.userVariants
        | some m => state.userVariants.insert path (m.erase variant)
      discarded :=
        let disc := (state.discarded.lookup path).getD []
        state.discarded.insert path (if disc.contains variant then disc else disc ++ [variant])
      selected :=
        if state.selected.lookup path = some variant then state.selected.erase path
        else state.selected }

/-- What one operation adds to the variant state; the other kinds add nothing. -/
def accumulateVariant (snap : InspectionSnapshot) (state : VariantProjectionState) :
    RefinementOp → VariantProjectionState
  | .selectVariant item target => applySelect state item target
  | .editVariant item content _ => applyEdit h snap state item content
  | .discardVariant item variant => applyDiscard state item variant
  | _ => state

/-- `build_variant_state`: the accumulated state of a list of operations. -/
def buildVariantState (snap : InspectionSnapshot) (ops : List RefinementOp) :
    VariantProjectionState :=
  ops.foldl (accumulateVariant h snap) {}

end Accumulate

open FirstMatch

/-- A row that carries file content under a path, with a variant selection. -/
class VariantRow (α : Type) extends LockableRow α where
  path : α → String
  content : α → String
  selection : α → VariantSelection
  select : VariantSelection → α → α
  /-- The operator's version of a row: new content, no prevalence, not selected. -/
  userVariant : String → α → α
  path_decide : ∀ d a, path (decide d a) = path a
  content_decide : ∀ d a, content (decide d a) = content a
  selection_decide : ∀ d a, selection (decide d a) = selection a
  selection_select : ∀ s a, selection (select s a) = s
  select_selection : ∀ a, select (selection a) a = a
  select_select : ∀ s t a, select s (select t a) = select s a
  path_select : ∀ s a, path (select s a) = path a
  content_select : ∀ s a, content (select s a) = content a
  disposition_select : ∀ s a, disposition (select s a) = disposition a
  locked_select : ∀ s a, locked (select s a) = locked a
  path_userVariant : ∀ c a, path (userVariant c a) = path a
  content_userVariant : ∀ c a, content (userVariant c a) = c
  disposition_userVariant : ∀ c a, disposition (userVariant c a) = disposition a
  locked_userVariant : ∀ c a, locked (userVariant c a) = locked a
  selection_userVariant : ∀ c a, selection (userVariant c a) = .alternative

attribute [simp] VariantRow.path_decide VariantRow.content_decide VariantRow.selection_decide
  VariantRow.selection_select VariantRow.select_selection VariantRow.select_select
  VariantRow.path_select VariantRow.content_select VariantRow.disposition_select
  VariantRow.locked_select VariantRow.path_userVariant VariantRow.content_userVariant
  VariantRow.disposition_userVariant VariantRow.locked_userVariant VariantRow.selection_userVariant

theorem ConfigFileEntry.select_selection (e : ConfigFileEntry) :
    { e with variantSelection := e.variantSelection } = e := rfl

instance : VariantRow ConfigFileEntry where
  path := (·.path)
  content := (·.content)
  selection := (·.variantSelection)
  select s e := { e with variantSelection := s }
  userVariant c e := { e with content := c, aggregate := none, variantSelection := .alternative }
  path_decide _ _ := rfl
  content_decide _ _ := rfl
  selection_decide _ _ := rfl
  selection_select _ _ := rfl
  select_selection := ConfigFileEntry.select_selection
  select_select _ _ _ := rfl
  path_select _ _ := rfl
  content_select _ _ := rfl
  disposition_select _ _ := rfl
  locked_select _ _ := rfl
  path_userVariant _ _ := rfl
  content_userVariant _ _ := rfl
  disposition_userVariant _ _ := rfl
  locked_userVariant _ _ := rfl
  selection_userVariant _ _ := rfl

theorem SystemdDropIn.select_selection (e : SystemdDropIn) :
    { e with variantSelection := e.variantSelection } = e := rfl

instance : VariantRow SystemdDropIn where
  path := (·.path)
  content := (·.content)
  selection := (·.variantSelection)
  select s e := { e with variantSelection := s }
  userVariant c e := { e with content := c, aggregate := none, variantSelection := .alternative }
  path_decide _ _ := rfl
  content_decide _ _ := rfl
  selection_decide _ _ := rfl
  selection_select _ _ := rfl
  select_selection := SystemdDropIn.select_selection
  select_select _ _ _ := rfl
  path_select _ _ := rfl
  content_select _ _ := rfl
  disposition_select _ _ := rfl
  locked_select _ _ := rfl
  path_userVariant _ _ := rfl
  content_userVariant _ _ := rfl
  disposition_userVariant _ _ := rfl
  locked_userVariant _ _ := rfl
  selection_userVariant _ _ := rfl

theorem QuadletUnit.select_selection (e : QuadletUnit) :
    { e with variantSelection := e.variantSelection } = e := rfl

instance : VariantRow QuadletUnit where
  path := (·.path)
  content := (·.content)
  selection := (·.variantSelection)
  select s e := { e with variantSelection := s }
  userVariant c e := { e with content := c, aggregate := none, variantSelection := .alternative }
  path_decide _ _ := rfl
  content_decide _ _ := rfl
  selection_decide _ _ := rfl
  selection_select _ _ := rfl
  select_selection := QuadletUnit.select_selection
  select_select _ _ _ := rfl
  path_select _ _ := rfl
  content_select _ _ := rfl
  disposition_select _ _ := rfl
  locked_select _ _ := rfl
  path_userVariant _ _ := rfl
  content_userVariant _ _ := rfl
  disposition_userVariant _ _ := rfl
  locked_userVariant _ _ := rfl
  selection_userVariant _ _ := rfl

/-- How a section derives its selection: its variants, their contents, and the roles. -/
structure SelectRule (α : Type) where
  path : α → String
  eligible : α → Bool
  hash : α → Option ContentHash
  sole : α → α
  chosen : α → α
  other : α → α

section Select

variable {α : Type} (rule : SelectRule α) (state : VariantProjectionState)

def SelectRule.isAt (path : String) (a : α) : Bool := rule.path a == path && rule.eligible a

def SelectRule.choose (target : ContentHash) (a : α) : α :=
  match rule.hash a with
  | none => a
  | some hash => if hash = target then rule.chosen a else rule.other a

def selectAtPath (rows : List α) (path : String) : List α :=
  match rows.filter (rule.isAt path) with
  | [] => rows
  | [_] => updateWhere (rule.isAt path) rule.sole rows
  | _ =>
    match state.selected.lookup path with
    | none => rows
    | some target => updateWhere (rule.isAt path) (rule.choose target) rows

def selectVariants (order : HashOrder.Order) (rows : List α) : List α :=
  (order.iter state.affectedPaths).foldl (selectAtPath rule state) rows

end Select

section Content

variable (h : Hashing) (state : VariantProjectionState) {α : Type} [VariantRow α]

def rowHash (a : α) : ContentHash := h.ofContent (VariantRow.content a)

def contentRule : SelectRule α where
  path := VariantRow.path
  eligible _ := true
  hash a := some (rowHash h a)
  sole := VariantRow.select .only
  chosen := VariantRow.select .selected
  other := VariantRow.select .alternative

def addUserVariant (path : String) (template : α) (rows : List α)
    (variant : Sigma fun _ : ContentHash => String) : List α :=
  if state.isDiscarded path variant.1 then rows
  else if rows.any fun e => VariantRow.path e == path && rowHash h e == variant.1 then rows
  else rows ++ [VariantRow.userVariant variant.2 template]

def addUserVariantsAt (rows : List α) (entry : Sigma fun _ : String => UserVariants) : List α :=
  match rows.find? fun e => VariantRow.path e == entry.1 with
  | none => rows
  | some template =>
    (h.order.iter entry.2.entries).foldl (addUserVariant h state entry.1 template) rows

def addUserVariants (rows : List α) : List α :=
  (h.order.iter state.userVariants.entries).foldl (addUserVariantsAt h state) rows

def dropDiscardedAt (rows : List α) (entry : Sigma fun _ : String => List ContentHash) : List α :=
  rows.filter fun e => VariantRow.path e != entry.1 || !entry.2.contains (rowHash h e)

def dropDiscarded (rows : List α) : List α :=
  (h.order.iter state.discarded.entries).foldl (dropDiscardedAt h) rows

def materializeRows (rows : List α) : List α :=
  selectVariants (contentRule h) state h.order
    (dropDiscarded h state (addUserVariants h state rows))

end Content

section Members

variable (h : Hashing) (state : VariantProjectionState)

def materializeConfigVariants (snap : InspectionSnapshot) : InspectionSnapshot :=
  snap.onConfig fun c => { c with files := materializeRows h state c.files }

def materializeDropinVariants (snap : InspectionSnapshot) : InspectionSnapshot :=
  snap.onServices fun s => { s with dropIns := materializeRows h state s.dropIns }

def materializeQuadletVariants (snap : InspectionSnapshot) : InspectionSnapshot :=
  snap.onContainers fun c => { c with quadletUnits := materializeRows h state c.quadletUnits }

def composeRule : SelectRule ComposeFile where
  path := (·.path)
  eligible _ := true
  hash e := some ⟨e.contentVariantKey h⟩
  sole e := { e with variantSelection := .only }
  chosen e := { e with variantSelection := .selected }
  other e := { e with variantSelection := .alternative }

def materializeComposeVariants (snap : InspectionSnapshot) : InspectionSnapshot :=
  snap.onContainers fun c =>
    { c with composeFiles := selectVariants (composeRule h) state h.order c.composeFiles }

/-- A language environment has no selection field: choosing it includes it. -/
def languageEnvRule : SelectRule NonRpmItem where
  path := (·.path)
  eligible e := !e.method.isEmpty
  hash e := ContentHash.new (e.contentVariantKey h)
  sole e := e
  chosen e := { e with disposition := .included }
  other e := e

def materializeLanguageEnvVariants (snap : InspectionSnapshot) : InspectionSnapshot :=
  snap.onNonRpm fun n =>
    { n with items := selectVariants (languageEnvRule h) state h.order n.items }

def unmanagedRule : SelectRule UnmanagedFile where
  path := (·.path)
  eligible e := !e.contentHash.isEmpty
  hash e := ContentHash.new e.contentHash
  sole e := { e with variantSelection := .only }
  chosen e := { e with variantSelection := .selected }
  other e := { e with variantSelection := .alternative }

def materializeUnmanagedFileVariants (snap : InspectionSnapshot) : InspectionSnapshot :=
  snap.onUnmanaged fun u =>
    { u with items := selectVariants unmanagedRule state h.order u.items }

def materializeVariants (snap : InspectionSnapshot) : InspectionSnapshot :=
  if state.affectedPaths.isEmpty then snap
  else
    materializeUnmanagedFileVariants h state
      (materializeLanguageEnvVariants h state
        (materializeComposeVariants h state
          (materializeQuadletVariants h state
            (materializeDropinVariants h state (materializeConfigVariants h state snap)))))

end Members

section Validate

variable (h : Hashing) (snap : InspectionSnapshot) (state : VariantProjectionState)

/-- The paths a `SelectVariant` of this kind can name. -/
def variantPaths : ItemId → List String
  | .config _ => (snap.config.map (·.files.map (·.path))).getD []
  | .dropIn _ => (snap.services.map (·.dropIns.map (·.path))).getD []
  | .quadlet _ => (snap.containers.map (·.quadletUnits.map (·.path))).getD []
  | .compose _ => (snap.containers.map (·.composeFiles.map (·.path))).getD []
  | .languageEnv .. => (snap.nonRpmSoftware.map (·.items.map (·.path))).getD []
  | .unmanagedFile _ => (snap.unmanagedFiles.map (·.items.map (·.path))).getD []
  | _ => []

def isScannedVariant (item : ItemId) (path : String) (hash : ContentHash) : Bool :=
  match item with
  | .compose _ => ((snap.containers.map (·.composeFiles)).getD []).any fun e =>
      e.path == path && (⟨e.contentVariantKey h⟩ : ContentHash) == hash
  | .languageEnv .. => ((snap.nonRpmSoftware.map (·.items)).getD []).any fun e =>
      e.path == path && ContentHash.new (e.contentVariantKey h) == some hash
  | .unmanagedFile _ => ((snap.unmanagedFiles.map (·.items)).getD []).any fun e =>
      e.path == path && !e.contentHash.isEmpty && ContentHash.new e.contentHash == some hash
  | item => isHostVariant h snap item path hash

def validateSelect (item : ItemId) (target : ContentHash) : Except RefineError Unit :=
  match itemPath item with
  | none => .error (.badRequest
      "SelectVariant only supported for Config/DropIn/Quadlet/Compose items")
  | some path =>
    if !(variantPaths snap item).contains path then .error (.unknownTarget path)
    else if (!isScannedVariant h snap item path target && !state.isUserVariant path target) ||
        state.isDiscarded path target then
      .error (.unknownTarget ("variant hash " ++ target.hex ++ " not found for path " ++ path))
    else .ok ()

def validateDiscard (item : ItemId) (variant : ContentHash) : Except RefineError Unit :=
  match item with
  | .compose _ => .error (.badRequest
      "DiscardVariant not supported for Compose items (structured carrier)")
  | item =>
    match itemPath item with
    | none => .error (.badRequest "DiscardVariant only supported for Config/DropIn/Quadlet items")
    | some path =>
      if state.isUserVariant path variant then .ok ()
      else if isHostVariant h snap item path variant then
        .error (.badRequest ("cannot discard host-sourced variant " ++ variant.hex ++
          " for path " ++ path))
      else .error (.unknownTarget ("variant hash " ++ variant.hex ++ " not found for path " ++ path))

end Validate

end Inspectah
