import Inspectah.Library.LinkedTree

/-!
Trees that grow while all their links lead down. Below a directory whose links hold
steps down only, a path stays below it; a tree that grows keeps where its paths lead;
and where a path leads is said by the links alone, without the directories.
-/
namespace LinkedTree

variable {ν : Type}

def Down (steps : List (Step ν)) : Prop := ∀ s ∈ steps, s ≠ .up

theorem Down.tail {s : Step ν} {steps : List (Step ν)} (down : Down (s :: steps)) : Down steps :=
  fun s mem => down s (List.mem_cons_of_mem _ mem)

theorem Down.append {a b : List (Step ν)} (ha : Down a) (hb : Down b) : Down (a ++ b) := by
  intro s mem
  rcases List.mem_append.mp mem with first | second
  · exact ha s first
  · exact hb s second

theorem down_names (names : List ν) : Down (names.map Step.into) := by
  intro s mem
  obtain ⟨name, -, rfl⟩ := List.mem_map.mp mem
  nofun

theorem inside_child {base loc : List ν} (inside : base <+: loc) (name : ν) :
    base <+: loc ++ [name] := inside.trans (List.prefix_append _ _)

variable [DecidableEq ν]

namespace FileTree

def linkAt (t : FileTree ν) (p : List ν) : Option (List (Step ν)) :=
  match t.get p with
  | some (.link _ target) => some target
  | _ => none

/-- At and below `base`, links hold steps down from the directory they are in. -/
def Descends (t : FileTree ν) (base : List ν) : Prop :=
  ∀ p fromRoot target, base <+: p → t.get p = some (.link fromRoot target) →
    fromRoot = false ∧ Down target

/-- Nothing was removed or became something else. -/
def Extends (t t' : FileTree ν) : Prop := ∀ p n, t.get p = some n → t'.get p = some n

theorem Extends.refl (t : FileTree ν) : t.Extends t := fun _ _ found => found

theorem Extends.trans {a b c : FileTree ν} (hab : a.Extends b) (hbc : b.Extends c) : a.Extends c :=
  fun p n found => hbc p n (hab p n found)

theorem extends_set {t : FileTree ν} {p : List ν} {n : Node ν}
    (free : t.get p = none ∨ t.get p = some n) : t.Extends (t.set p n) := by
  intro q m found
  by_cases same : p = q
  · subst same
    rcases free with absent | already
    · rw [absent] at found
      cases found
    · rw [get_set_self, ← found, already]
  · rw [get_set_of_ne t n same]
    exact found

theorem Extends.isDir {t t' : FileTree ν} (ext : t.Extends t') {p : List ν}
    (dir : t.isDir p = true) : t'.isDir p = true := by
  rw [FileTree.isDir, Bool.or_eq_true, beq_iff_eq] at dir ⊢
  exact dir.imp_right (ext p .dir)

theorem linkAt_set {t : FileTree ν} {p : List ν} {n : Node ν} (plain : ∀ r target, n ≠ .link r target)
    (free : t.get p = none ∨ t.get p = some n) (q : List ν) : (t.set p n).linkAt q = t.linkAt q := by
  by_cases same : p = q
  · subst same
    cases n with
    | file => rcases free with found | found <;> simp [linkAt, found]
    | dir => rcases free with found | found <;> simp [linkAt, found]
    | link r target => exact absurd rfl (plain r target)
  · rw [linkAt, linkAt, get_set_of_ne t n same]

theorem Descends.set_plain {t : FileTree ν} {base : List ν} (descends : t.Descends base)
    {p : List ν} {n : Node ν} (plain : ∀ r target, n ≠ .link r target) :
    (t.set p n).Descends base := by
  intro q fromRoot target inside found
  by_cases same : p = q
  · subst same
    rw [get_set_self, Option.some.injEq] at found
    exact absurd found (plain _ _)
  · rw [get_set_of_ne t n same] at found
    exact descends q fromRoot target inside found

theorem Descends.set_link {t : FileTree ν} {base : List ν} (descends : t.Descends base) (p : List ν)
    {target : List (Step ν)} (down : Down target) :
    (t.set p (.link false target)).Descends base := by
  intro q fromRoot held inside found
  by_cases same : p = q
  · subst same
    rw [get_set_self, Option.some.injEq, Node.link.injEq] at found
    obtain ⟨rfl, rfl⟩ := found
    exact ⟨rfl, down⟩
  · rw [get_set_of_ne t _ same] at found
    exact descends q fromRoot held inside found

section

variable {t : FileTree ν} {base : List ν} (descends : t.Descends base)
include descends

theorem Descends.walk_inside {follow : List ν → List (Step ν) → Option (List ν)}
    (stays : ∀ loc steps there, base <+: loc → Down steps → follow loc steps = some there →
      base <+: there) {steps : List (Step ν)} {loc there : List ν} (inside : base <+: loc)
    (down : Down steps) (leads : t.walk follow loc steps = some there) : base <+: there := by
  induction steps generalizing loc with
  | nil =>
    rw [walk, Option.some.injEq] at leads
    exact leads ▸ inside
  | cons step rest ih =>
    cases step with
    | up => exact absurd rfl (down .up List.mem_cons_self)
    | into name =>
      rw [walk] at leads
      split at leads
      · rename_i fromRoot target found
        obtain ⟨rfl, target_down⟩ := descends _ _ _ (inside_child inside name) found
        exact stays _ _ _ inside (target_down.append down.tail) leads
      · split at leads
        · exact ih (inside_child inside name) down.tail leads
        · cases leads

theorem Descends.resolve_inside {links : Nat} {steps : List (Step ν)} {loc there : List ν}
    (inside : base <+: loc) (down : Down steps) (leads : t.resolve links loc steps = some there) :
    base <+: there := by
  induction links generalizing steps loc there with
  | zero => exact descends.walk_inside (by rintro _ _ _ _ _ ⟨⟩) inside down leads
  | succ links ih =>
    exact descends.walk_inside (fun _ _ _ inside down leads => ih inside down leads) inside down leads

end

theorem walk_extends {t t' : FileTree ν} (ext : t.Extends t')
    {follow follow' : List ν → List (Step ν) → Option (List ν)}
    (keeps : ∀ loc steps there, (t.get there).isSome → follow loc steps = some there →
      follow' loc steps = some there) {steps : List (Step ν)} {loc there : List ν}
    (exists_there : (t.get there).isSome) (leads : t.walk follow loc steps = some there) :
    t'.walk follow' loc steps = some there := by
  induction steps generalizing loc with
  | nil => exact leads
  | cons step rest ih =>
    cases step with
    | up =>
      rw [walk] at leads ⊢
      exact ih leads
    | into name =>
      rw [walk] at leads
      cases found : t.get (loc ++ [name]) with
      | none =>
        -- Nothing is there yet, so this is the last step, and it leads to nothing.
        rw [found] at leads
        have last : rest = [] := by
          have no_dir : t.isDir (loc ++ [name]) = false := by simp [isDir, found]
          by_contra more
          simp [no_dir, more] at leads
        subst last
        rw [List.isEmpty_nil, Bool.true_or, if_pos rfl, walk, Option.some.injEq] at leads
        rw [← leads, found] at exists_there
        cases exists_there
      | some node =>
        rw [found] at leads
        rw [walk, ext _ _ found]
        cases node with
        | link fromRoot target => exact keeps _ _ _ exists_there leads
        | file =>
          have no_dir : t.isDir (loc ++ [name]) = false := by simp [isDir, found]
          dsimp only at leads ⊢
          rw [no_dir, Bool.or_false] at leads
          split at leads
          · rename_i last
            rw [last, Bool.true_or, if_pos rfl]
            exact ih leads
          · cases leads
        | dir =>
          have is_dir : t.isDir (loc ++ [name]) = true := by simp [isDir, found]
          dsimp only at leads ⊢
          rw [is_dir, Bool.or_true, if_pos rfl] at leads
          rw [ext.isDir is_dir, Bool.or_true, if_pos rfl]
          exact ih leads

theorem resolve_extends {t t' : FileTree ν} (ext : t.Extends t') {links : Nat}
    {steps : List (Step ν)} {loc there : List ν} (exists_there : (t.get there).isSome)
    (leads : t.resolve links loc steps = some there) : t'.resolve links loc steps = some there := by
  induction links generalizing steps loc there with
  | zero => exact walk_extends ext (by rintro _ _ _ _ ⟨⟩) exists_there leads
  | succ links ih => exact walk_extends ext (fun _ _ _ is leads => ih is leads) exists_there leads

end FileTree

def followFrom (links : List ν → Option (List (Step ν)))
    (next : List ν → List (Step ν) → Option (List ν)) :
    List ν → List (Step ν) → Option (List ν)
  | loc, [] => some loc
  | loc, .up :: rest => followFrom links next loc.dropLast rest
  | loc, .into name :: rest =>
    match links (loc ++ [name]) with
    | some target => next loc (target ++ rest)
    | none => followFrom links next (loc ++ [name]) rest

def follow (links : List ν → Option (List (Step ν))) :
    Nat → List ν → List (Step ν) → Option (List ν)
  | 0 => followFrom links fun _ _ => none
  | n + 1 => followFrom links (follow links n)

section

variable {t : FileTree ν} {base : List ν} {links : List ν → Option (List (Step ν))}
    (descends : t.Descends base) (known : ∀ p, base <+: p → links p = t.linkAt p)
include descends known

theorem walk_followFrom {next next' : List ν → List (Step ν) → Option (List ν)}
    (same : ∀ loc steps there, base <+: loc → Down steps → next loc steps = some there →
      next' loc steps = some there) {steps : List (Step ν)} {loc there : List ν}
    (inside : base <+: loc) (down : Down steps) (leads : t.walk next loc steps = some there) :
    followFrom links next' loc steps = some there := by
  induction steps generalizing loc with
  | nil => exact leads
  | cons step rest ih =>
    cases step with
    | up => exact absurd rfl (down .up List.mem_cons_self)
    | into name =>
      have child := inside_child inside name
      rw [FileTree.walk] at leads
      rw [followFrom, known _ child]
      split at leads
      · rename_i fromRoot target found
        obtain ⟨rfl, target_down⟩ := descends _ _ _ child found
        simp only [FileTree.linkAt, found]
        exact same _ _ _ inside (target_down.append down.tail) leads
      · rename_i no_link
        have absent : t.linkAt (loc ++ [name]) = none := by
          rw [FileTree.linkAt]
          split
          · rename_i r target found
            exact absurd found (no_link r target)
          · rfl
        rw [absent]
        split at leads
        · exact ih child down.tail leads
        · cases leads

theorem resolve_follow {n : Nat} {steps : List (Step ν)} {loc there : List ν}
    (inside : base <+: loc) (down : Down steps) (leads : t.resolve n loc steps = some there) :
    follow links n loc steps = some there := by
  induction n generalizing steps loc there with
  | zero =>
    exact walk_followFrom descends known (by rintro _ _ _ _ _ ⟨⟩) inside down
      leads
  | succ n ih =>
    exact walk_followFrom descends known (fun _ _ _ inside down leads => ih inside down leads) inside
      down leads

end

/-- What may happen to a tree between two moments, its links staying as they are. -/
structure Grown (before after : Log ν) (base : List ν) : Prop where
  writes : ∃ made, after.writes = before.writes ++ made ∧ ∀ w ∈ made, base <+: w.1
  ext : before.tree.Extends after.tree
  linkAt : ∀ p, after.tree.linkAt p = before.tree.linkAt p
  descends : after.tree.Descends base

theorem Grown.refl {l : Log ν} {base : List ν} (descends : l.tree.Descends base) : Grown l l base :=
  ⟨⟨[], by simp, by simp⟩, FileTree.Extends.refl _, fun _ => rfl, descends⟩

theorem Grown.trans {a b c : Log ν} {base : List ν} (hab : Grown a b base) (hbc : Grown b c base) :
    Grown a c base where
  writes := by
    obtain ⟨made, first, here⟩ := hab.writes
    obtain ⟨more, second, there⟩ := hbc.writes
    refine ⟨made ++ more, by rw [second, first, List.append_assoc], ?_⟩
    intro w mem
    rcases List.mem_append.mp mem with old | new
    · exact here w old
    · exact there w new
  ext := hab.ext.trans hbc.ext
  linkAt p := (hbc.linkAt p).trans (hab.linkAt p)
  descends := hbc.descends

/-- A file or directory where there was nothing, or the same. -/
theorem Grown.write {l : Log ν} {base p : List ν} {n : Node ν} (descends : l.tree.Descends base)
    (inside : base <+: p) (plain : ∀ r target, n ≠ .link r target)
    (free : l.tree.get p = none ∨ l.tree.get p = some n) : Grown l (l.write p n) base where
  writes := ⟨[(p, n)], rfl, by simpa using inside⟩
  ext := FileTree.extends_set free
  linkAt := FileTree.linkAt_set plain free
  descends := descends.set_plain plain

theorem makeDirs_grown (links : Nat) {steps : List (Step ν)} {l : Log ν} {base loc : List ν}
    (descends : l.tree.Descends base) (inside : base <+: loc) (down : Down steps) :
    Grown l (l.makeDirs links loc steps).1 base := by
  induction steps generalizing l loc with
  | nil => exact Grown.refl descends
  | cons step rest ih =>
    cases step with
    | up => exact absurd rfl (down .up List.mem_cons_self)
    | into name =>
      have child := inside_child inside name
      rw [Log.makeDirs]
      split
      · rename_i absent
        have made := Grown.write (n := .dir) descends child (by simp) (.inl absent)
        exact made.trans (ih made.descends child down.tail)
      · exact ih descends child down.tail
      · exact Grown.refl descends
      · split
        · exact Grown.refl descends
        · rename_i there leads
          split
          · have one : Down [Step.into name] := down_names [name]
            exact ih descends (descends.resolve_inside inside one leads) down.tail
          · exact Grown.refl descends

end LinkedTree
