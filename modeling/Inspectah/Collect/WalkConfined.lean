import Inspectah.Collect.EtcLinks
import Inspectah.Library.FirstKnown
import Inspectah.Library.Grouping
import Mathlib.Data.Set.Finite.Basic

/-!
Where the walk of `/etc` ends and stays below its root: where no directory it enters can be
entered again from itself, and no link leads to a place that only begins with the characters of
the root.
-/
namespace Inspectah

open Unfolding

theorem placeNames_append (path rest : String) :
    placeNames (path ++ "/" ++ rest) = placeNames path ++ placeNames rest := by
  have chars : (path ++ "/" ++ rest).toList = path.toList ++ '/' :: rest.toList := by simp
  rw [placeNames, Text.splitOn, chars, Text.splitChars_append_cut (by decide), List.map_append,
    List.filter_append]
  rfl

theorem placeNames_empty : placeNames "" = [] := by decide

theorem placeNames_name {name : String} (own : IsName name) : placeNames name = [name] := by
  have whole : Text.splitChars (· == '/') name.toList = [name.toList] :=
    splitChars_plain own.2.2.2
  have filled : name.isEmpty = false := by
    rw [← Bool.not_eq_true, String.isEmpty_iff]
    exact own.1
  simp [placeNames, Text.splitOn, whole, filled]

theorem placeNames_dirPath (root rel : String) :
    placeNames (dirPath root rel) = placeNames root ++ placeNames rel := by
  rw [dirPath]
  split
  · next empty => rw [String.isEmpty_iff.mp empty, placeNames_empty, List.append_nil]
  · exact placeNames_append root rel

theorem placeNames_childRel {rel name : String} (own : IsName name) :
    placeNames (childRel rel name) = placeNames rel ++ [name] := by
  rw [childRel]
  split
  · next empty => rw [String.isEmpty_iff.mp empty, placeNames_empty, placeNames_name own]; rfl
  · rw [placeNames_append, placeNames_name own]

def LinkedEntry.leads (p : Place) (name : String) : LinkedEntry → Option Place
  | file => some (p ++ [name])
  | dir => some (p ++ [name])
  | link target => target

def LinkedEntry.isOutside (root : String) : LinkedEntry → Bool
  | link (some target) => !Text.startsWith (placeText target) root
  | link none => true
  | _ => false

namespace LinkedEtc

variable (tree : LinkedEtc) (root : String)

/-- Where the path `rel` below the root leads. -/
def placeOf (rel : String) : Option Place := tree.resolve [] (placeNames root ++ placeNames rel)

def isListed (p : Place) : Bool := (tree.readAt p).isRead

def descends (p : Place) (e : String × LinkedEntry) : Option Place :=
  if SKIP_DIR_NAMES.contains e.1 || e.2.isOutside root then none
  else (e.2.leads p e.1).filter tree.isListed

def entered (p : Place) : List Place :=
  match tree.listing p with
  | .entries es =>
    if PRUNE_MARKERS.any (es.map Prod.fst).contains then [] else es.filterMap (tree.descends root p)
  | _ => []

variable {tree root}

theorem readDir_dirPath (rel : String) :
    tree.exec.readDir (dirPath root rel) =
      ((tree.placeOf root rel).map tree.readAt).getD .missing := by
  simp only [exec, placeOf, placeNames_dirPath]

theorem entry_eq {p : Place} {es : List (String × LinkedEntry)} {name : String} {e : LinkedEntry}
    (listed : tree.listing p = .entries es) (mem : (name, e) ∈ es) :
    tree.entry p name = some e := by
  rw [entry, listed]
  exact FirstKnown.lookup_of_mem (tree.distinct p es listed) mem

section Child

variable {rel name : String} {p : Place} {es : List (String × LinkedEntry)} {e : LinkedEntry}
  (there : tree.placeOf root rel = some p) (listed : tree.listing p = .entries es)
  (mem : (name, e) ∈ es)
include listed mem

theorem own_name : IsName name := tree.named p es listed _ mem

theorem step_eq : tree.step p name = e.leads p name := by
  have own := own_name listed mem
  rw [step, if_neg own.2.1, if_neg own.2.2.1, entry_eq listed mem]
  cases e <;> rfl

theorem childPath_names : placeNames (root ++ "/" ++ childRel rel name) =
    placeNames root ++ placeNames rel ++ [name] := by
  rw [placeNames_append, placeNames_childRel (own_name listed mem), List.append_assoc]

include there

omit listed mem in
theorem resolve_child :
    tree.resolve [] (placeNames root ++ placeNames rel ++ [name]) = tree.step p name := by
  rw [placeOf, resolve] at there
  rw [resolve, List.foldlM_append, there]
  simp

theorem placeOf_child : tree.placeOf root (childRel rel name) = tree.step p name := by
  rw [placeOf, placeNames_childRel (own_name listed mem), ← List.append_assoc]
  exact resolve_child there

theorem readDir_child : tree.exec.readDir (root ++ "/" ++ childRel rel name) =
    ((tree.step p name).map tree.readAt).getD .missing := by
  simp only [exec, childPath_names listed mem, resolve_child there]

theorem outside_child : tree.exec.isSymlinkOutsideRoot root (root ++ "/" ++ childRel rel name) =
    e.isOutside root := by
  have entry := entry_eq listed mem
  have led : tree.resolve [] (placeNames root ++ placeNames rel ++ [name]) = e.leads p name :=
    (resolve_child there).trans (step_eq listed mem)
  rw [placeOf] at there
  simp only [WalkExec.isSymlinkOutsideRoot, exec, childPath_names listed mem, List.getLast?_concat,
    List.dropLast_concat, there, entry, led]
  cases e with
  | file => rfl
  | dir => rfl
  | link target => cases target <;> rfl

theorem walkChild_eq (recurse : String → Option Walk) :
    tree.exec.walkChild root recurse rel name =
      if (tree.descends root p (name, e)).isSome then recurse (childRel rel name)
      else some (match tree.exec.readDir (root ++ "/" ++ childRel rel name) with
        | .entries _ => {}
        | .denied => { denied := [root ++ "/" ++ childRel rel name] }
        | .missing => { files := [childRel rel name] }) := by
  have shown : ∀ q, tree.isListed q = (tree.readAt q).isRead := fun _ => rfl
  rw [WalkExec.walkChild, outside_child there listed mem, readDir_child there listed mem,
    step_eq listed mem, descends]
  dsimp only
  cases SKIP_DIR_NAMES.contains name <;> cases e.isOutside root <;>
    cases e.leads p name with
    | none => simp
    | some q => cases read : tree.readAt q <;> simp [Option.filter, shown, read, DirRead.isRead]

end Child

theorem walkRecursiveInner_eq {rel : String} {p : Place} (there : tree.placeOf root rel = some p)
    (fuel : Nat) : tree.exec.walkRecursiveInner root (fuel + 1) rel =
      match tree.listing p with
      | EtcListing.none => some {}
      | .denied => some { denied := [dirPath root rel] }
      | .entries es =>
        if PRUNE_MARKERS.any (es.map Prod.fst).contains then some {}
        else ((es.map Prod.fst).mapM (tree.exec.walkChild root
          (tree.exec.walkRecursiveInner root fuel) rel)).map Walk.join := by
  rw [WalkExec.walkRecursiveInner, readDir_dirPath, there, Option.map_some, Option.getD_some,
    readAt]
  cases tree.listing p <;> rfl

theorem descends_iff {p q : Place} {e : String × LinkedEntry} :
    tree.descends root p e = some q ↔ e.2.leads p e.1 = some q ∧ tree.isListed q = true ∧
      SKIP_DIR_NAMES.contains e.1 = false ∧ e.2.isOutside root = false := by
  rw [descends]
  cases SKIP_DIR_NAMES.contains e.1 <;> cases e.2.isOutside root <;>
    simp [Option.filter_eq_some_iff]

theorem isSome_walk_iff {fuel : Nat} {rel : String} {p : Place}
    (there : tree.placeOf root rel = some p) :
    (tree.exec.walkRecursiveInner root fuel rel).isSome ↔ Settles (tree.entered root) fuel p := by
  induction fuel generalizing rel p with
  | zero => simp [WalkExec.walkRecursiveInner, Settles]
  | succ fuel ih =>
    rw [walkRecursiveInner_eq there, Settles, entered]
    cases listed : tree.listing p with
    | none => simp
    | denied => simp
    | entries es =>
      dsimp only
      split
      · simp
      · have each : ∀ e ∈ es,
            (tree.exec.walkChild root (tree.exec.walkRecursiveInner root fuel) rel e.1).isSome ↔
              ∀ q, tree.descends root p e = some q → Settles (tree.entered root) fuel q := by
          intro e mem
          rw [walkChild_eq there listed mem]
          cases goes : tree.descends root p e with
          | none => simp
          | some q =>
            have next : tree.placeOf root (childRel rel e.1) = some q := by
              rw [placeOf_child there listed mem, step_eq listed mem, (descends_iff.mp goes).1]
            simp [ih next]
        rw [Option.isSome_map, Grouping.isSome_mapM]
        simp only [List.forall_mem_map, List.mem_filterMap, forall_exists_index, and_imp]
        constructor
        · exact fun all q e mem goes => (each e mem).mp (all e mem) q goes
        · exact fun all e mem => (each e mem).mpr fun q goes => all q e mem goes

theorem mem_entered {p q : Place} : q ∈ tree.entered root p ↔
    ∃ es, tree.Listed p es ∧ ∃ e ∈ es, tree.descends root p e = some q := by
  constructor
  · intro mem
    rw [entered] at mem
    split at mem
    · next es listed =>
      split at mem
      · cases mem
      · next kept =>
        obtain ⟨e, own, goes⟩ := List.mem_filterMap.mp mem
        exact ⟨es, ⟨listed, Bool.not_eq_true _ |>.mp kept⟩, e, own, goes⟩
    · cases mem
  · rintro ⟨es, ⟨listed, kept⟩, e, own, goes⟩
    rw [entered, listed]
    dsimp only
    rw [kept]
    exact List.mem_filterMap.mpr ⟨e, own, goes⟩

theorem terminates_iff {r0 : Place} (rooted : tree.placeOf root "" = some r0) :
    (∃ fuel, (tree.exec.walkRecursiveInner root fuel "").isSome) ↔
      ∀ p, InReach (tree.entered root) r0 p → ¬OnCycle (tree.entered root) p := by
  have listed : {p | InReach (tree.entered root) r0 p} ⊆ {p | p ∈ r0 :: tree.places} := by
    intro p reach
    rcases Relation.ReflTransGen.cases_tail reach with rfl | ⟨q, -, edge⟩
    · exact List.mem_cons_self
    · obtain ⟨es, -, e, -, goes⟩ := mem_entered.mp edge
      have shown := (descends_iff.mp goes).2.1
      rw [isListed, readAt] at shown
      cases held : tree.listing p with
      | none => simp [held, DirRead.isRead] at shown
      | denied => simp [held, DirRead.isRead] at shown
      | entries es => exact List.mem_cons_of_mem _ (tree.finite p es held)
  simp only [isSome_walk_iff rooted]
  exact settles_iff ((List.finite_toSet _).subset listed)

section Entered

variable {r0 : Place} (rooted : tree.placeOf root "" = some r0)
include rooted

omit rooted in
theorem listed_of_readDir {rel : String} {p : Place} {names : List String}
    (there : tree.placeOf root rel = some p)
    (read : tree.exec.readDir (dirPath root rel) = .entries names) :
    ∃ es, tree.listing p = .entries es ∧ names = es.map Prod.fst := by
  rw [readDir_dirPath, there, Option.map_some, Option.getD_some, readAt] at read
  split at read
  · next es listed => exact ⟨es, listed, (DirRead.entries.inj read).symm⟩
  · cases read
  · cases read

theorem enters_reaches {rel : String} (enters : tree.exec.Enters root rel) :
    ∃ p, tree.placeOf root rel = some p ∧ InReach (tree.entered root) r0 p := by
  induction enters with
  | root => exact ⟨r0, rooted, .refl⟩
  | @child rel name names below _ read kept own read' unskipped inside ih =>
    obtain ⟨p, there, reach⟩ := ih
    obtain ⟨es, listed, rfl⟩ := listed_of_readDir there read
    obtain ⟨⟨own_name, e⟩, mem, same⟩ := List.mem_map.mp own
    obtain rfl : own_name = name := same
    have led := step_eq listed mem
    rw [readDir_child there listed mem, led] at read'
    rw [outside_child there listed mem] at inside
    cases leads : e.leads p own_name with
    | none =>
      rw [leads] at read'
      cases read'
    | some q =>
      rw [leads, Option.map_some, Option.getD_some] at read'
      have goes : tree.descends root p (own_name, e) = some q :=
        descends_iff.mpr ⟨leads, by rw [isListed, read']; rfl, unskipped, inside⟩
      exact ⟨q, by rw [placeOf_child there listed mem, led, leads],
        reach.tail (mem_entered.mpr ⟨es, ⟨listed, kept⟩, _, mem, goes⟩)⟩

theorem reaches_enters {p : Place} (reach : InReach (tree.entered root) r0 p) :
    ∃ rel, tree.exec.Enters root rel ∧ tree.placeOf root rel = some p := by
  induction reach with
  | refl => exact ⟨"", .root, rooted⟩
  | @tail p q _ edge ih =>
    obtain ⟨rel, enters, there⟩ := ih
    obtain ⟨es, ⟨listed, kept⟩, ⟨name, e⟩, mem, goes⟩ := mem_entered.mp edge
    obtain ⟨leads, shown, unskipped, inside⟩ := descends_iff.mp goes
    have read : tree.exec.readDir (dirPath root rel) = .entries (es.map Prod.fst) := by
      rw [readDir_dirPath, there, Option.map_some, Option.getD_some, readAt, listed]
    have read' := readDir_child there listed mem
    rw [step_eq listed mem, leads, Option.map_some, Option.getD_some] at read'
    have led := placeOf_child there listed mem
    rw [step_eq listed mem, leads] at led
    rw [isListed] at shown
    cases held : tree.readAt q with
    | denied => simp [held, DirRead.isRead] at shown
    | missing => simp [held, DirRead.isRead] at shown
    | entries below =>
      exact ⟨childRel rel name, .child enters read kept (List.mem_map_of_mem mem)
        (read'.trans held) unskipped (by rw [outside_child there listed mem, inside]), led⟩

/-- No link that is gone through leads to a place that begins with the characters of the root and
    is not below it. -/
def NoLookalike (tree : LinkedEtc) (root : String) (r0 : Place) : Prop :=
  ∀ p, InReach (tree.entered root) r0 p → ∀ es name target, tree.Listed p es →
    (name, .link (some target)) ∈ es → SKIP_DIR_NAMES.contains name = false →
      tree.isListed target = true → Text.startsWith (placeText target) root = true → r0 <+: target

omit rooted in
theorem confined_iff : (∀ p, InReach (tree.entered root) r0 p → r0 <+: p) ↔
    NoLookalike tree root r0 := by
  constructor
  · intro confined p reach es name target listed mem unskipped shown starts
    have goes : tree.descends root p (name, .link (some target)) = some target :=
      descends_iff.mpr ⟨rfl, shown, unskipped, by simp [LinkedEntry.isOutside, starts]⟩
    exact confined target (reach.tail (mem_entered.mpr ⟨es, listed, _, mem, goes⟩))
  · intro inside p reach
    induction reach with
    | refl => exact List.prefix_rfl
    | @tail p q reach edge ih =>
      obtain ⟨es, listed, ⟨name, e⟩, mem, goes⟩ := mem_entered.mp edge
      obtain ⟨leads, shown, unskipped, within⟩ := descends_iff.mp goes
      cases e with
      | file | dir =>
        rw [← Option.some.inj leads]
        exact ih.trans (List.prefix_append _ _)
      | link target =>
        obtain rfl : target = some q := leads
        exact inside p reach es name q listed mem unskipped shown
          (by simpa [LinkedEntry.isOutside] using within)

end Entered

end LinkedEtc

theorem Walk.files_join (walks : List Walk) :
    (Walk.join walks).files = walks.flatMap Walk.files := by
  induction walks with
  | nil => rfl
  | cons w walks ih =>
    rw [List.flatMap_cons, ← ih]
    rfl

theorem eq_map_of_mapM {α β : Type} {f : α → Option β} {rows : List α} {results : List β}
    (made : rows.mapM f = some results) (default : β) :
    results = rows.map fun a => (f a).getD default := by
  have each := Grouping.mapM_eq_some_iff.mp made
  clear made
  induction each with
  | nil => rfl
  | cons first _ ih => rw [List.map_cons, first, Option.getD_some, ← ih]

namespace WalkExec

variable {exec : WalkExec} {root : String}

theorem files_of_walk {fuel : Nat} {rel : String} {w : Walk}
    (walked : exec.walkRecursiveInner root (fuel + 1) rel = some w) :
    w.files = [] ∨ ∃ names, exec.readDir (dirPath root rel) = .entries names ∧
      w.files = names.flatMap fun name =>
        ((exec.walkChild root (exec.walkRecursiveInner root fuel) rel name).getD {}).files := by
  rw [walkRecursiveInner] at walked
  split at walked
  · exact .inl (Option.some.inj walked ▸ rfl)
  · exact .inl (Option.some.inj walked ▸ rfl)
  · next names read =>
    split at walked
    · exact .inl (Option.some.inj walked ▸ rfl)
    · obtain ⟨walks, made, rfl⟩ := Option.map_eq_some_iff.mp walked
      refine .inr ⟨names, read, ?_⟩
      rw [Walk.files_join, eq_map_of_mapM made {}, List.flatMap_map]

variable (exec root) in
theorem files_of_child (recurse : String → Option Walk) (rel name : String) :
    let files := ((exec.walkChild root recurse rel name).getD {}).files
    files = [] ∨ files = [childRel rel name] ∨
      ∃ w, recurse (childRel rel name) = some w ∧ files = w.files := by
  dsimp only [walkChild]
  split
  · split
    · exact .inl rfl
    · split
      · exact .inl rfl
      · cases again : recurse (childRel rel name) with
        | none => exact .inl rfl
        | some w => exact .inr (.inr ⟨w, rfl, rfl⟩)
  · exact .inl rfl
  · exact .inr (.inl rfl)

theorem mem_child {recurse : String → Option Walk} {rel name f : String}
    (mem : f ∈ ((exec.walkChild root recurse rel name).getD {}).files) :
    f = childRel rel name ∨ ∃ w, recurse (childRel rel name) = some w ∧ f ∈ w.files := by
  rcases files_of_child exec root recurse rel name with nothing | itself | ⟨w, again, deeper⟩
  · rw [nothing] at mem
    cases mem
  · rw [itself] at mem
    exact .inl (List.mem_singleton.mp mem)
  · rw [deeper] at mem
    exact .inr ⟨w, again, mem⟩

/-- The names a directory is read to hold differ, and none is empty or has a slash. -/
def NamesApart (exec : WalkExec) : Prop :=
  ∀ path names, exec.readDir path = .entries names →
    names.Nodup ∧ ∀ name ∈ names, name ≠ "" ∧ '/' ∉ name.toList

section Apart

variable (apart : exec.NamesApart)
include apart

theorem files_under {fuel : Nat} {rel f : String} {w : Walk} (below : rel ≠ "")
    (walked : exec.walkRecursiveInner root fuel rel = some w) (mem : f ∈ w.files) :
    AtOrUnder rel f := by
  induction fuel generalizing rel w with
  | zero => cases walked
  | succ fuel ih =>
    rcases files_of_walk walked with none | ⟨names, read, files⟩
    · rw [none] at mem
      cases mem
    · rw [files] at mem
      obtain ⟨name, own, here⟩ := List.mem_flatMap.mp mem
      have filled := ((apart _ _ read).2 name own).1
      rcases mem_child here with rfl | ⟨w', again, deeper⟩
      · exact childRel_under below
      · exact (childRel_under below).trans (ih (childRel_ne_empty filled) again deeper)

theorem child_under {fuel : Nat} {rel name f : String} (filled : name ≠ "")
    (mem : f ∈ ((exec.walkChild root (exec.walkRecursiveInner root fuel) rel name).getD {}).files) :
    AtOrUnder (childRel rel name) f := by
  rcases mem_child mem with rfl | ⟨w', again, deeper⟩
  · exact .inl rfl
  · exact files_under apart (childRel_ne_empty filled) again deeper

/-- Every file is found once. -/
theorem files_nodup {fuel : Nat} {rel : String} {w : Walk}
    (walked : exec.walkRecursiveInner root fuel rel = some w) : w.files.Nodup := by
  induction fuel generalizing rel w with
  | zero => cases walked
  | succ fuel ih =>
    rcases files_of_walk walked with none | ⟨names, read, files⟩
    · rw [none]
      exact List.nodup_nil
    · obtain ⟨distinct, named⟩ := apart _ _ read
      rw [files, List.nodup_flatMap]
      constructor
      · intro name _
        rcases files_of_child exec root (walkRecursiveInner exec root fuel) rel name with
          nothing | itself | ⟨w', again, deeper⟩
        · rw [nothing]
          exact List.nodup_nil
        · rw [itself]
          exact List.nodup_singleton _
        · rw [deeper]
          exact ih again
      · refine (List.Pairwise.and_mem.mp distinct).imp ?_
        rintro a b ⟨own_a, own_b, differ⟩ f in_a in_b
        have under_a := child_under apart (named a own_a).1 in_a
        have under_b := child_under apart (named b own_b).1 in_b
        exact differ (child_apart (named a own_a).2 (named b own_b).2 under_a under_b)

end Apart

end WalkExec

namespace LinkedEtc

variable {tree : LinkedEtc} {root : String}

theorem namesApart (tree : LinkedEtc) : tree.exec.NamesApart := by
  intro path names read
  simp only [exec] at read
  cases found : tree.resolve [] (placeNames path) with
  | none =>
    rw [found] at read
    cases read
  | some p =>
    rw [found, Option.map_some, Option.getD_some, readAt] at read
    split at read
    · next es listed =>
      cases read
      refine ⟨tree.distinct p es listed, fun name mem => ?_⟩
      obtain ⟨e, own, rfl⟩ := List.mem_map.mp mem
      have named := tree.named p es listed e own
      exact ⟨named.1, named.2.2.2⟩
    · cases read
    · cases read

theorem walk_of_listed {fuel : Nat} {rel : String} {p : Place} {w : Walk}
    {es : List (String × LinkedEntry)} (there : tree.placeOf root rel = some p)
    (listed : tree.Listed p es) (walked : tree.exec.walkRecursiveInner root (fuel + 1) rel = some w)
    {e : String × LinkedEntry} (mem : e ∈ es) :
    ∃ w', tree.exec.walkChild root (tree.exec.walkRecursiveInner root fuel) rel e.1 = some w' ∧
      ∀ f ∈ w'.files, f ∈ w.files := by
  obtain ⟨held, kept⟩ := listed
  rw [walkRecursiveInner_eq there, held] at walked
  dsimp only at walked
  rw [kept] at walked
  obtain ⟨walks, made, rfl⟩ := Option.map_eq_some_iff.mp walked
  have own : e.1 ∈ es.map Prod.fst := List.mem_map_of_mem mem
  have some_each := Grouping.isSome_mapM.mp (Option.isSome_of_eq_some made) e.1 own
  obtain ⟨w', child⟩ := Option.isSome_iff_exists.mp some_each
  refine ⟨w', child, fun f found => ?_⟩
  rw [Walk.files_join, eq_map_of_mapM made {}, List.flatMap_map]
  exact List.mem_flatMap.mpr ⟨e.1, own, by rw [child]; exact found⟩

theorem isListed_of_hasFile {p : Place} {names : List String} (has : tree.HasFile p names) :
    tree.isListed p = true := by
  have shown : ∀ {es}, tree.Listed p es → tree.isListed p = true := by
    rintro es ⟨held, -⟩
    rw [isListed, readAt, held]
    rfl
  cases has with
  | here listed _ => exact shown listed
  | under listed _ _ _ => exact shown listed

theorem finds_file {p : Place} {names : List String} (has : tree.HasFile p names) {fuel : Nat}
    {rel : String} {w : Walk} (there : tree.placeOf root rel = some p)
    (walked : tree.exec.walkRecursiveInner root fuel rel = some w) :
    names.foldl childRel rel ∈ w.files := by
  induction has generalizing fuel rel w with
  | @here p es name listed mem =>
    cases fuel with
    | zero => cases walked
    | succ fuel =>
      obtain ⟨w', child, kept⟩ := walk_of_listed there listed walked mem
      have read := readDir_child there listed.1 mem
      have empty : tree.readAt (p ++ [name]) = .missing := by
        rw [readAt, tree.plain p es name listed.1 mem]
      rw [step_eq listed.1 mem, LinkedEntry.leads, Option.map_some, Option.getD_some, empty] at read
      rw [WalkExec.walkChild] at child
      dsimp only at child
      rw [read] at child
      apply kept
      rw [← Option.some.inj child]
      exact List.mem_singleton_self _
  | @under p es name rest listed mem unskipped below ih =>
    cases fuel with
    | zero => cases walked
    | succ fuel =>
      obtain ⟨w', child, kept⟩ := walk_of_listed there listed walked mem
      have shown : tree.isListed (p ++ [name]) = true := isListed_of_hasFile below
      have goes : tree.descends root p (name, .dir) = some (p ++ [name]) :=
        descends_iff.mpr ⟨rfl, shown, unskipped, rfl⟩
      rw [walkChild_eq there listed.1 mem, goes] at child
      have led : tree.placeOf root (childRel rel name) = some (p ++ [name]) := by
        rw [placeOf_child there listed.1 mem, step_eq listed.1 mem, LinkedEntry.leads]
      exact kept _ (ih led child)

end LinkedEtc

def foundFiles : Except (List String) Walk → List String
  | .ok walk => walk.files
  | .error _ => []

/-- The walk ends, stays below the root, and finds every regular file there once. -/
structure WalkLawful (tree : LinkedEtc) (root : String) : Prop where
  terminates : ∃ fuel, (tree.exec.walkEtcWithReasons root fuel).isSome
  confined : ∀ r0, tree.placeOf root "" = some r0 → ∀ rel p, tree.exec.Enters root rel →
    tree.placeOf root rel = some p → r0 <+: p
  once : ∀ fuel r, tree.exec.walkEtcWithReasons root fuel = some r → (foundFiles r).Nodup
  complete : ∀ fuel r, tree.exec.walkEtcWithReasons root fuel = some r →
    ∀ r0, tree.placeOf root "" = some r0 → ∀ names, tree.HasFile r0 names →
      names.foldl childRel "" ∈ foundFiles r

theorem foundFiles_walk {exec : WalkExec} {root : String} {fuel : Nat}
    {r : Except (List String) Walk} (walked : exec.walkEtcWithReasons root fuel = some r) :
    ∃ w, exec.walkRecursiveInner root fuel "" = some w ∧ foundFiles r = w.files := by
  obtain ⟨w, inner, rfl⟩ := Option.map_eq_some_iff.mp walked
  refine ⟨w, inner, ?_⟩
  split
  · next nothing =>
    rw [Bool.and_eq_true, List.isEmpty_iff] at nothing
    exact nothing.1.symm
  · rfl

theorem walk_lawful_iff (tree : LinkedEtc) (root : String) : WalkLawful tree root ↔
    ∀ r0, tree.placeOf root "" = some r0 →
      (∀ p, InReach (tree.entered root) r0 p → ¬OnCycle (tree.entered root) p) ∧
        LinkedEtc.NoLookalike tree root r0 := by
  have ends : ∀ fuel, (tree.exec.walkEtcWithReasons root fuel).isSome =
      (tree.exec.walkRecursiveInner root fuel "").isSome := fun fuel => Option.isSome_map
  constructor
  · intro lawful r0 rooted
    constructor
    · refine (LinkedEtc.terminates_iff rooted).mp ?_
      obtain ⟨fuel, done⟩ := lawful.terminates
      exact ⟨fuel, ends fuel ▸ done⟩
    · refine LinkedEtc.confined_iff.mp fun p reach => ?_
      obtain ⟨rel, enters, there⟩ := LinkedEtc.reaches_enters rooted reach
      exact lawful.confined r0 rooted rel p enters there
  · intro fine
    refine ⟨?_, ?_, ?_, ?_⟩
    · cases rooted : tree.placeOf root "" with
      | none =>
        refine ⟨1, ?_⟩
        rw [ends, WalkExec.walkRecursiveInner, LinkedEtc.readDir_dirPath, rooted]
        rfl
      | some r0 =>
        obtain ⟨fuel, done⟩ := (LinkedEtc.terminates_iff rooted).mpr (fine r0 rooted).1
        exact ⟨fuel, (ends fuel).trans done⟩
    · intro r0 rooted rel p enters there
      obtain ⟨q, led, reach⟩ := LinkedEtc.enters_reaches rooted enters
      obtain rfl : q = p := Option.some.inj (led.symm.trans there)
      exact LinkedEtc.confined_iff.mpr (fine r0 rooted).2 q reach
    · intro fuel r walked
      obtain ⟨w, inner, files⟩ := foundFiles_walk walked
      rw [files]
      exact WalkExec.files_nodup tree.namesApart inner
    · intro fuel r walked r0 rooted names has
      obtain ⟨w, inner, files⟩ := foundFiles_walk walked
      rw [files]
      exact LinkedEtc.finds_file has rooted inner

/-- `/etc` with one link in it, and a directory `/etc-old` beside it. -/
def linkedEtc (name : String) (target : Place) (own : IsName name) : LinkedEtc where
  listing p :=
    if p = [] then .entries [("etc", .dir), ("etc-old", .dir)]
    else if p = ["etc"] then .entries [(name, .link (some target))]
    else if p = ["etc-old"] then .entries []
    else .none
  places := [[], ["etc"], ["etc-old"]]
  finite p es h := by
    split at h
    · simp [*]
    · split at h
      · simp [*]
      · split at h
        · simp [*]
        · cases h
  distinct p es h := by
    split at h
    · cases h; decide
    · split at h
      · cases h; simp
      · split at h
        · cases h; simp
        · cases h
  named p es h := by
    split at h
    · cases h; simp [IsName]
    · split at h
      · cases h; simpa using own
      · split at h
        · cases h; simp
        · cases h
  plain p es other h mem := by
    split at h
    · cases h; simp at mem
    · split at h
      · cases h; simp at mem
      · split at h
        · cases h; simp at mem
        · cases h

def selfLinked : LinkedEtc := linkedEtc "self" ["etc"] (by decide)

def besideLinked : LinkedEtc := linkedEtc "old" ["etc-old"] (by decide)

/-- A link to the root is gone through for ever, and one to `/etc-old` is gone through. -/
theorem self_and_beside_unlawful :
    ¬WalkLawful selfLinked "/etc" ∧ ¬WalkLawful besideLinked "/etc" := by
  constructor
  · intro lawful
    have rooted : selfLinked.placeOf "/etc" "" = some ["etc"] := by decide +kernel
    have edge : ["etc"] ∈ selfLinked.entered "/etc" ["etc"] := by decide +kernel
    obtain ⟨fuel, done⟩ := lawful.terminates
    rw [WalkExec.walkEtcWithReasons, Option.isSome_map] at done
    exact ((LinkedEtc.isSome_walk_iff rooted).mp done).not_onCycle (.single edge)
  · intro lawful
    have rooted : besideLinked.placeOf "/etc" "" = some ["etc"] := by decide +kernel
    have edge : ["etc-old"] ∈ besideLinked.entered "/etc" ["etc"] := by decide +kernel
    obtain ⟨rel, enters, there⟩ := LinkedEtc.reaches_enters rooted (.single edge)
    have below := lawful.confined ["etc"] rooted rel ["etc-old"] enters there
    exact absurd below (by decide)

end Inspectah
