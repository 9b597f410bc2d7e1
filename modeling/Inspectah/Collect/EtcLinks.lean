import Inspectah.Collect.ConfigWalk
import Inspectah.Library.Unfolding

/-!
The walk of `/etc` on a host where directories are reached through links: the calls it makes to
the host, and a file tree with links that answers them.
-/
namespace Inspectah

/-- What the walk asks of the host, by path. A link is looked at itself, not followed. -/
structure WalkExec where
  readDir : String → DirRead
  isLink : String → Bool
  resolveFinalTarget : String → Option String

def Walk.join (walks : List Walk) : Walk := walks.foldr (· ++ ·) {}

def dirPath (root rel : String) : String := if rel.isEmpty then root else root ++ "/" ++ rel

namespace WalkExec

variable (exec : WalkExec) (root : String)

def isSymlinkOutsideRoot (path : String) : Bool :=
  exec.isLink path &&
    match exec.resolveFinalTarget path with
    | some resolved => !Text.startsWith resolved root
    | none => true

/-- One entry of the directory `rel`. -/
def walkChild (recurse : String → Option Walk) (rel name : String) : Option Walk :=
  let child := childRel rel name
  let path := root ++ "/" ++ child
  match exec.readDir path with
  | .entries _ =>
    if SKIP_DIR_NAMES.contains name then some {}
    else if exec.isSymlinkOutsideRoot root path then some {}
    else recurse child
  | .denied => some { denied := [path] }
  | .missing => some { files := [child] }

def walkRecursiveInner : Nat → String → Option Walk
  | 0, _ => none
  | fuel + 1, rel =>
    match exec.readDir (dirPath root rel) with
    | .denied => some { denied := [dirPath root rel] }
    | .missing => some {}
    | .entries names =>
      if PRUNE_MARKERS.any names.contains then some {}
      else (names.mapM (exec.walkChild root (walkRecursiveInner fuel) rel)).map Walk.join

/-- Nothing found and something denied: the root itself may not be read. -/
def walkEtcWithReasons (fuel : Nat) : Option (Except (List String) Walk) :=
  (exec.walkRecursiveInner root fuel "").map fun walk =>
    if walk.files.isEmpty && !walk.denied.isEmpty then .error walk.denied else .ok walk

inductive Enters : String → Prop
  | root : Enters ""
  | child {rel name : String} {names below : List String} : Enters rel →
      exec.readDir (dirPath root rel) = .entries names →
      PRUNE_MARKERS.any names.contains = false → name ∈ names →
      exec.readDir (root ++ "/" ++ childRel rel name) = .entries below →
      SKIP_DIR_NAMES.contains name = false →
      exec.isSymlinkOutsideRoot root (root ++ "/" ++ childRel rel name) = false →
      Enters (childRel rel name)

end WalkExec

/-- A place in the tree: the names that lead there from `/`, none of them a link. -/
abbrev Place := List String

inductive LinkedEntry where
  | file
  | dir
  | link (target : Option Place)
  deriving DecidableEq

inductive EtcListing where
  | none
  | denied
  | entries (es : List (String × LinkedEntry))

def IsName (name : String) : Prop :=
  name ≠ "" ∧ name ≠ "." ∧ name ≠ ".." ∧ '/' ∉ name.toList

instance (name : String) : Decidable (IsName name) := inferInstanceAs (Decidable (_ ∧ _))

/-- What each directory holds. There are finitely many, and the names in one differ. A file holds
    nothing. -/
structure LinkedEtc where
  listing : Place → EtcListing
  places : List Place
  finite : ∀ p es, listing p = .entries es → p ∈ places
  distinct : ∀ p es, listing p = .entries es → (es.map Prod.fst).Nodup
  named : ∀ p es, listing p = .entries es → ∀ e ∈ es, IsName e.1
  plain : ∀ p es name, listing p = .entries es → (name, .file) ∈ es → listing (p ++ [name]) = .none

def placeNames (path : String) : List String :=
  (Text.splitOn (· == '/') path).filter fun name => !name.isEmpty

def placeText (p : Place) : String := "/" ++ "/".intercalate p

namespace LinkedEtc

variable (tree : LinkedEtc)

def entry (p : Place) (name : String) : Option LinkedEntry :=
  match tree.listing p with
  | .entries es => es.lookup name
  | _ => none

def step (p : Place) (name : String) : Option Place :=
  if name = "." then some p
  else if name = ".." then some p.dropLast
  else
    match tree.entry p name with
    | some (.link target) => target
    | some _ => some (p ++ [name])
    | none => none

def resolve (p : Place) (names : List String) : Option Place := names.foldlM tree.step p

def readAt (p : Place) : DirRead :=
  match tree.listing p with
  | .entries es => .entries (es.map Prod.fst)
  | .denied => .denied
  | .none => .missing

def exec : WalkExec where
  readDir path := ((tree.resolve [] (placeNames path)).map tree.readAt).getD .missing
  isLink path :=
    match (placeNames path).getLast?, tree.resolve [] (placeNames path).dropLast with
    | some name, some p => match tree.entry p name with
      | some (.link _) => true
      | _ => false
    | _, _ => false
  resolveFinalTarget path := (tree.resolve [] (placeNames path)).map placeText

/-- A directory whose entries are looked at: readable, and no checkout of a version control. -/
def Listed (p : Place) (es : List (String × LinkedEntry)) : Prop :=
  tree.listing p = .entries es ∧ PRUNE_MARKERS.any (es.map Prod.fst).contains = false

/-- A regular file, through directories that are no links, can be read, and are not passed by. -/
inductive HasFile : Place → List String → Prop
  | here {p : Place} {es : List (String × LinkedEntry)} {name : String} : tree.Listed p es →
      (name, .file) ∈ es → HasFile p [name]
  | under {p : Place} {es : List (String × LinkedEntry)} {name : String} {rest : List String} :
      tree.Listed p es → (name, .dir) ∈ es → SKIP_DIR_NAMES.contains name = false →
      HasFile (p ++ [name]) rest → HasFile p (name :: rest)

end LinkedEtc

end Inspectah
