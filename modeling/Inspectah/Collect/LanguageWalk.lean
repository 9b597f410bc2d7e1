import Inspectah.Collect.UnmanagedFiles
import Inspectah.Collect.WalkConfined
import Inspectah.Core.Text
import Inspectah.Library.JumpWalk

/-!
The walk that looks for one file name below a scan root. Links to directories below the root
are followed, each target once.
-/
namespace Inspectah

open JumpWalk Relation

/-- The paths handed to the handler so far, and the targets of links that were followed. -/
structure Finding where
  handled : List String := []
  visited : List String := []
  deriving DecidableEq

namespace WalkExec

variable (exec : WalkExec)

def shouldSkipDirectory (path scanRoot : String) (visited : List String) : Bool × List String :=
  if !exec.isLink path then (false, visited)
  else
    match exec.resolveFinalTarget path with
    | none => (true, visited)
    | some resolved =>
      if !pathStartsWith resolved scanRoot then (true, visited)
      else if visited.contains resolved then (true, visited)
      else (false, resolved :: visited)

variable (filename scanRoot : String)

/-- One entry of the directory `root`. -/
def findEntry (recurse : String → Finding → Option Finding) (root : String) (s : Finding)
    (entry : String) : Option Finding :=
  let child := root ++ "/" ++ entry
  if entry = filename then some { s with handled := s.handled ++ [child] }
  else
    match exec.readDir child with
    | .entries _ =>
      if PRUNE_DIRS.contains entry then some s
      else
        let (skip, visited) := exec.shouldSkipDirectory child scanRoot s.visited
        if skip then some { s with visited } else recurse child { s with visited }
    | _ => some s

def findFilesMatching : Nat → String → Finding → Option Finding
  | 0, _, _ => none
  | fuel + 1, root, s =>
    match exec.readDir root with
    | .entries entries =>
      entries.foldlM (exec.findEntry filename scanRoot (findFilesMatching fuel) root) s
    | _ => some s

/-- The directories the walk can be called on, whatever was visited before. -/
inductive CanEnter : String → Prop
  | root : CanEnter scanRoot
  | child {root entry : String} {entries below : List String} {visited : List String} :
      CanEnter root → exec.readDir root = .entries entries → entry ∈ entries → entry ≠ filename →
      exec.readDir (root ++ "/" ++ entry) = .entries below → PRUNE_DIRS.contains entry = false →
      (exec.shouldSkipDirectory (root ++ "/" ++ entry) scanRoot visited).1 = false →
      CanEnter (root ++ "/" ++ entry)

end WalkExec

def LinkedEntry.isLink : LinkedEntry → Bool
  | link _ => true
  | _ => false

namespace LinkedEtc

inductive IsReal (tree : LinkedEtc) : Place → Prop
  | root : IsReal tree []
  | child {p : Place} {es : List (String × LinkedEntry)} {name : String} {e : LinkedEntry} :
      IsReal tree p → tree.listing p = .entries es → (name, e) ∈ es →
      (∀ target, e ≠ .link target) → IsReal tree (p ++ [name])

variable {tree : LinkedEtc}

theorem IsReal.above {p q : Place} (real : tree.IsReal p) (above : q <+: p) : tree.IsReal q := by
  induction real with
  | root =>
    rw [List.prefix_nil.mp above]
    exact .root
  | child real listed mem plain ih =>
    rcases List.prefix_concat_iff.mp above with rfl | above
    · exact .child real listed mem plain
    · exact ih above

theorem IsReal.named {p : Place} (real : tree.IsReal p) : ∀ name ∈ p, IsName name := by
  induction real with
  | root => simp
  | child _ listed mem _ ih =>
    intro name here
    rcases List.mem_append.mp here with old | own
    · exact ih name old
    · exact List.mem_singleton.mp own ▸ tree.named _ _ listed _ mem

theorem IsReal.resolves {p : Place} (real : tree.IsReal p) : tree.resolve [] p = some p := by
  induction real with
  | root => rfl
  | @child p es name e _ listed mem plain ih =>
    have stepped := step_eq listed mem
    rw [resolve] at ih ⊢
    rw [List.foldlM_append, ih]
    cases e with
    | file | dir => simpa [LinkedEntry.leads] using stepped
    | link target => exact absurd rfl (plain target)

end LinkedEtc

/-- A tree in which links lead to places without links on the way. -/
structure LinkedHost extends LinkedEtc where
  real : ∀ p es name target, listing p = .entries es → (name, .link (some target)) ∈ es →
    toLinkedEtc.IsReal target

namespace LinkedHost

variable (host : LinkedHost)

def placeAt (path : String) : Option Place := host.resolve [] (placeNames path)

def directoryOf (path : String) : Option Place := host.resolve [] (placeNames path).dropLast

def Holds (filename : String) (p : Place) : Prop :=
  ∃ es, host.listing p = .entries es ∧ filename ∈ es.map Prod.fst

/-- The names below a directory that lead through no link and nothing pruned. -/
inductive RealBelow (r0 : Place) : List String → Prop
  | root : RealBelow r0 []
  | child {rest : List String} {es : List (String × LinkedEntry)} {name : String} :
      RealBelow r0 rest → host.listing (r0 ++ rest) = .entries es → (name, .dir) ∈ es →
      PRUNE_DIRS.contains name = false → RealBelow r0 (rest ++ [name])

variable (filename scanRoot : String)

def moveOf (p : Place) (e : String × LinkedEntry) : Option (Move Place) :=
  if e.1 = filename then some .report
  else
    match e.2.leads p e.1 with
    | none => none
    | some q =>
      if !host.isListed q || PRUNE_DIRS.contains e.1 then none
      else
        match e.2 with
        | .link _ => if pathStartsWith (placeText q) scanRoot then some (.jump q) else none
        | _ => some (.into q)

def movesOf (p : Place) : List (Move Place) :=
  match host.listing p with
  | .entries es => es.filterMap (host.moveOf filename scanRoot p)
  | _ => []

end LinkedHost

theorem pathPieces_placeText {p : Place} (named : ∀ name ∈ p, IsName name) :
    pathPieces (placeText p) = [] :: (if p = [] then [[]] else p.map String.toList) := by
  have chars : (placeText p).toList = '/' :: ['/'].intercalate (p.map String.toList) := by
    simp [placeText, String.toList_intercalate]
  rw [pathPieces, chars, Text.splitChars, if_pos (by decide)]
  split
  · next empty => subst empty; rfl
  · next filled =>
    rw [splitChars_join (by simpa using filled) ?_]
    intro piece mem
    obtain ⟨name, own, rfl⟩ := List.mem_map.mp mem
    exact (named name own).2.2.2

theorem componentOf_name {name : String} (own : IsName name) :
    componentOf name.toList = some (.normal name) := by
  have filled : name.toList ≠ [] := by simpa using own.1
  have no_dot : name.toList ≠ ['.'] := fun same => own.2.1 (String.toList_inj.mp same)
  have no_dots : name.toList ≠ ['.', '.'] := fun same => own.2.2.1 (String.toList_inj.mp same)
  rw [componentOf, if_neg (by simp [filled, no_dot]), if_neg no_dots, String.ofList_toList]

theorem components_placeText {p : Place} (named : ∀ name ∈ p, IsName name) :
    components (placeText p) = .rootDir :: p.map .normal := by
  have rooted : Text.startsWith (placeText p) "/" = true := by
    simp [Text.startsWith, placeText]
  have names : (p.map String.toList).filterMap componentOf = p.map .normal := by
    rw [List.filterMap_map, ← List.filterMap_eq_map]
    exact List.filterMap_congr fun name own => componentOf_name (named name own)
  unfold components
  rw [if_pos rooted, pathPieces_placeText named]
  split
  · next empty => subst empty; rfl
  · exact congrArg _ names

theorem placeNames_placeText {p : Place} (named : ∀ name ∈ p, IsName name) :
    placeNames (placeText p) = p := by
  have pieces := pathPieces_placeText named
  rw [pathPieces] at pieces
  rw [placeNames, Text.splitOn, pieces]
  split
  · next empty => subst empty; rfl
  · rw [List.map_cons, List.filter_cons_of_neg (by decide), List.map_map]
    have same : p.map (String.ofList ∘ String.toList) = p := by simp
    rw [same, List.filter_eq_self]
    intro name own
    simpa using (named name own).1

namespace LinkedEtc

variable {tree : LinkedEtc}

theorem IsReal.placeText_inj {p q : Place} (p_real : tree.IsReal p) (q_real : tree.IsReal q)
    (same : placeText p = placeText q) : p = q := by
  rw [← placeNames_placeText p_real.named, same, placeNames_placeText q_real.named]

theorem resolve_pieces {pieces : List (List Char)} {names : List String} (p : Place)
    (plain : pieces.filterMap componentOf = names.map .normal) :
    tree.resolve p ((pieces.map String.ofList).filter fun name => !name.isEmpty) =
      tree.resolve p names := by
  induction pieces generalizing names p with
  | nil =>
    obtain rfl : names = [] := by simpa using plain.symm
    rfl
  | cons piece rest ih =>
    rw [List.filterMap_cons] at plain
    by_cases empty : piece = []
    · subst empty
      exact ih p plain
    · have kept : ((String.ofList piece :: rest.map String.ofList).filter
          fun name => !name.isEmpty) =
          String.ofList piece :: (rest.map String.ofList).filter fun name => !name.isEmpty :=
        List.filter_cons_of_pos (by simpa using empty)
      rw [List.map_cons, kept]
      by_cases dot : piece = ['.']
      · subst dot
        rw [← ih p plain]
        rfl
      · by_cases dots : piece = ['.', '.']
        · have up : componentOf piece = some .parentDir := by
            rw [componentOf, if_neg (by simp [empty, dot]), if_pos dots]
          rw [up] at plain
          cases names <;> simp at plain
        · have head : componentOf piece = some (.normal (String.ofList piece)) := by
            rw [componentOf, if_neg (by simp [empty, dot]), if_neg dots]
          rw [head] at plain
          cases names with
          | nil => simp at plain
          | cons name names =>
            obtain ⟨own, later⟩ := List.cons.inj plain
            obtain rfl : String.ofList piece = name := Component.normal.inj own
            simp only [resolve, List.foldlM_cons] at ih ⊢
            exact bind_congr fun q => ih q later

theorem above_of_startsWith {t : Place} (real : tree.IsReal t) {root : String}
    (starts : pathStartsWith (placeText t) root = true) :
    ∃ r0, tree.resolve [] (placeNames root) = some r0 ∧ r0 <+: t := by
  rw [pathStartsWith, List.isPrefixOf_iff_prefix, components_placeText real.named] at starts
  have names : ∃ r0, r0 <+: t ∧ (pathPieces root).filterMap componentOf = r0.map .normal := by
    unfold components at starts
    split at starts
    · obtain ⟨-, rest⟩ := List.cons_prefix_cons.mp starts
      obtain ⟨r0, above, same⟩ := List.prefix_map_iff.mp rest
      exact ⟨r0, above, same⟩
    · split at starts
      · obtain ⟨head, -⟩ := List.cons_prefix_cons.mp starts
        cases head
      · cases own : (pathPieces root).filterMap componentOf with
        | nil => exact ⟨[], List.nil_prefix, rfl⟩
        | cons c rest =>
          rw [own] at starts
          obtain ⟨rfl, -⟩ := List.cons_prefix_cons.mp starts
          have mem : Component.rootDir ∈ (pathPieces root).filterMap componentOf :=
            own ▸ List.mem_cons_self
          obtain ⟨piece, -, made⟩ := List.mem_filterMap.mp mem
          unfold componentOf at made
          split at made <;> [cases made; (split at made <;> cases made)]
  obtain ⟨r0, above, plain⟩ := names
  refine ⟨r0, ?_, above⟩
  rw [← (real.above above).resolves]
  exact resolve_pieces [] plain

end LinkedEtc

namespace LinkedHost

variable {host : LinkedHost} {filename scanRoot : String}

section Entry

variable {dir name : String} {p : Place} {es : List (String × LinkedEntry)} {e : LinkedEntry}
  (there : host.placeAt dir = some p) (listed : host.listing p = .entries es)
  (mem : (name, e) ∈ es)
include listed mem

theorem placeNames_entry : placeNames (dir ++ "/" ++ name) = placeNames dir ++ [name] := by
  rw [placeNames_append, placeNames_name (LinkedEtc.own_name listed mem)]

include there

theorem placeAt_entry : host.placeAt (dir ++ "/" ++ name) = e.leads p name := by
  rw [placeAt] at there ⊢
  rw [placeNames_entry listed mem, LinkedEtc.resolve, List.foldlM_append]
  rw [LinkedEtc.resolve] at there
  rw [there, ← LinkedEtc.step_eq listed mem]
  simp

theorem directoryOf_entry : host.directoryOf (dir ++ "/" ++ name) = some p := by
  rw [directoryOf, placeNames_entry listed mem, List.dropLast_concat]
  exact there

theorem isLink_entry : host.exec.isLink (dir ++ "/" ++ name) = e.isLink := by
  rw [placeAt] at there
  simp only [LinkedEtc.exec, placeNames_entry listed mem, List.getLast?_concat,
    List.dropLast_concat, there, LinkedEtc.entry_eq listed mem]
  cases e <;> rfl

theorem readDir_entry : host.exec.readDir (dir ++ "/" ++ name) =
    ((e.leads p name).map host.readAt).getD .missing := by
  rw [← placeAt_entry there listed mem]
  rfl

theorem resolveFinalTarget_entry : host.exec.resolveFinalTarget (dir ++ "/" ++ name) =
    (e.leads p name).map placeText := by
  rw [← placeAt_entry there listed mem]
  rfl

theorem findEntry_eq (recurse : String → Finding → Option Finding) (s : Finding) :
    host.exec.findEntry filename scanRoot recurse dir s name =
      match host.moveOf filename scanRoot p (name, e) with
      | none => some s
      | some .report => some { s with handled := s.handled ++ [dir ++ "/" ++ name] }
      | some (.into _) => recurse (dir ++ "/" ++ name) s
      | some (.jump t) =>
        if placeText t ∈ s.visited then some s
        else recurse (dir ++ "/" ++ name) { s with visited := placeText t :: s.visited } := by
  have shown : ∀ q, host.isListed q = (host.readAt q).isRead := fun _ => rfl
  rw [WalkExec.findEntry, moveOf]
  dsimp only
  split
  · rfl
  · rw [readDir_entry there listed mem, WalkExec.shouldSkipDirectory,
      isLink_entry there listed mem, resolveFinalTarget_entry there listed mem]
    cases leads : e.leads p name with
    | none => rfl
    | some q =>
      simp only [Option.map_some, Option.getD_some, shown]
      cases read : host.readAt q with
      | missing | denied => rfl
      | entries below =>
        cases PRUNE_DIRS.contains name with
        | true => rfl
        | false =>
          cases e with
          | file | dir => rfl
          | link target =>
            cases starts : pathStartsWith (placeText q) scanRoot with
            | false => simp [DirRead.isRead, LinkedEntry.isLink]
            | true =>
              by_cases old : placeText q ∈ s.visited <;>
                simp [DirRead.isRead, LinkedEntry.isLink, old]

end Entry

theorem canEnter_confined {path : String} (entered : host.exec.CanEnter filename scanRoot path)
    {r0 : Place} (rooted : host.placeAt scanRoot = some r0) :
    ∃ p, host.placeAt path = some p ∧ r0 <+: p := by
  induction entered with
  | root => exact ⟨r0, rooted, List.prefix_rfl⟩
  | @child root entry entries below visited _ read mem _ _ _ kept ih =>
    obtain ⟨p, there, above⟩ := ih
    have held : (host.placeAt root).map host.readAt = some (host.readAt p) := by rw [there]; rfl
    have names : host.readAt p = .entries entries := by
      have same : host.exec.readDir root =
        ((host.placeAt root).map host.readAt).getD .missing := rfl
      rw [← read, same, held]
      rfl
    rw [LinkedEtc.readAt] at names
    split at names
    · next es listed =>
      obtain rfl := DirRead.entries.inj names
      obtain ⟨⟨_, e⟩, own, rfl⟩ := List.mem_map.mp mem
      have led := placeAt_entry there listed own
      rw [WalkExec.shouldSkipDirectory, isLink_entry there listed own,
        resolveFinalTarget_entry there listed own] at kept
      cases e with
      | file | dir => exact ⟨_, led, above.trans (List.prefix_append _ _)⟩
      | link target =>
        cases target with
        | none => simp [LinkedEntry.leads, LinkedEntry.isLink] at kept
        | some q =>
          refine ⟨q, led, ?_⟩
          have starts : pathStartsWith (placeText q) scanRoot = true := by
            cases starts : pathStartsWith (placeText q) scanRoot with
            | true => rfl
            | false => simp [LinkedEntry.leads, LinkedEntry.isLink, starts] at kept
          obtain ⟨r1, rooted', high⟩ :=
            LinkedEtc.above_of_startsWith (host.real p es _ q listed own) starts
          obtain rfl : r1 = r0 := Option.some.inj (rooted'.symm.trans rooted)
          exact high
    · cases names
    · cases names

end LinkedHost

end Inspectah
