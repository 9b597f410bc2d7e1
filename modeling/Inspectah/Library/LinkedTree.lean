import Mathlib.Data.List.Infix

/-!
A file tree with symbolic links, and the writes a program makes in it. A write lands where its
path leads at that moment, which the log remembers.
-/
namespace LinkedTree

variable {ν : Type}

inductive Step (ν : Type) where
  | up
  | into (name : ν)
  deriving DecidableEq

inductive Node (ν : Type) where
  | file
  | dir
  | link (fromRoot : Bool) (target : List (Step ν))
  deriving DecidableEq

structure FileTree (ν : Type) where
  nodes : List (List ν × Node ν) := []

/-- The tree, and what was created or truncated, and where. -/
structure Log (ν : Type) where
  tree : FileTree ν
  writes : List (List ν × Node ν) := []

def FileTree.set (t : FileTree ν) (p : List ν) (n : Node ν) : FileTree ν := ⟨(p, n) :: t.nodes⟩

def Log.write (l : Log ν) (p : List ν) (n : Node ν) : Log ν :=
  { tree := l.tree.set p n, writes := l.writes ++ [(p, n)] }

@[simp] theorem Log.tree_write (l : Log ν) (p : List ν) (n : Node ν) :
    (l.write p n).tree = l.tree.set p n := rfl

@[simp] theorem Log.writes_write (l : Log ν) (p : List ν) (n : Node ν) :
    (l.write p n).writes = l.writes ++ [(p, n)] := rfl

variable [DecidableEq ν]

def FileTree.get (t : FileTree ν) (p : List ν) : Option (Node ν) :=
  (t.nodes.find? fun n => n.1 == p).map (·.2)

/-- The root is a directory. -/
def FileTree.isDir (t : FileTree ν) (p : List ν) : Bool := p.isEmpty || t.get p == some .dir

def FileTree.isLink (t : FileTree ν) (p : List ν) : Bool :=
  match t.get p with
  | some (.link _ _) => true
  | _ => false

/-- Walk the steps, handing the rest to `follow` at the first link; only the last leads to a
    file. -/
def FileTree.walk (t : FileTree ν) (follow : List ν → List (Step ν) → Option (List ν)) :
    List ν → List (Step ν) → Option (List ν)
  | loc, [] => some loc
  | loc, .up :: rest => t.walk follow loc.dropLast rest
  | loc, .into name :: rest =>
    match t.get (loc ++ [name]) with
    | some (.link fromRoot target) => follow (if fromRoot then [] else loc) (target ++ rest)
    | _ =>
      if rest.isEmpty || t.isDir (loc ++ [name]) then t.walk follow (loc ++ [name]) rest else none

/-- Where a path leads, through so many links at most. -/
def FileTree.resolve (t : FileTree ν) : Nat → List ν → List (Step ν) → Option (List ν)
  | 0 => t.walk fun _ _ => none
  | links + 1 => t.walk (t.resolve links)

/-- Make the directories of a path that are missing; where it leads, unless a
    step of it is in the way. -/
def Log.makeDirs (links : Nat) (l : Log ν) : List ν → List (Step ν) → Log ν × Option (List ν)
  | loc, [] => (l, some loc)
  | loc, .up :: rest => l.makeDirs links loc.dropLast rest
  | loc, .into name :: rest =>
    match l.tree.get (loc ++ [name]) with
    | none => (l.write (loc ++ [name]) .dir).makeDirs links (loc ++ [name]) rest
    | some .dir => l.makeDirs links (loc ++ [name]) rest
    | some .file => (l, none)
    | some (.link _ _) =>
      match l.tree.resolve links loc [.into name] with
      | none => (l, none)
      | some there => if l.tree.isDir there then l.makeDirs links there rest else (l, none)

def Log.createFile (links : Nat) (l : Log ν) (loc : List ν) (name : ν) : Log ν × Bool :=
  match l.tree.resolve links loc [.into name] with
  | none => (l, false)
  | some there =>
    match l.tree.get there with
    | some .file => (l.write there .file, true)
    | none => if l.tree.isDir there.dropLast then (l.write there .file, true) else (l, false)
    | _ => (l, false)

def Log.createLink (l : Log ν) (loc : List ν) (name : ν) (fromRoot : Bool)
    (target : List (Step ν)) : Log ν × Bool :=
  if (l.tree.get (loc ++ [name])).isSome then (l, false)
  else (l.write (loc ++ [name]) (.link fromRoot target), true)

@[simp] theorem FileTree.get_set_self (t : FileTree ν) (p : List ν) (n : Node ν) :
    (t.set p n).get p = some n := by
  simp [FileTree.get, FileTree.set]

theorem FileTree.get_set_of_ne (t : FileTree ν) {p q : List ν} (n : Node ν) (ne : p ≠ q) :
    (t.set p n).get q = t.get q := by
  simp [FileTree.get, FileTree.set, ne]

theorem FileTree.isLink_set_dir (t : FileTree ν) (p q : List ν) (clear : t.isLink q = false) :
    (t.set p .dir).isLink q = false := by
  by_cases same : p = q
  · simp [FileTree.isLink, same]
  · simp only [FileTree.isLink, get_set_of_ne t _ same]
    exact clear

/-- No step of the path, itself included, is a link. -/
def FileTree.Clear (t : FileTree ν) (base names : List ν) : Prop :=
  ∀ part, part <+: names → part ≠ [] → t.isLink (base ++ part) = false

instance (t : FileTree ν) (base names : List ν) : Decidable (t.Clear base names) :=
  decidable_of_iff (∀ part ∈ names.inits, part ≠ [] → t.isLink (base ++ part) = false) (by
    simp [FileTree.Clear])

theorem FileTree.Clear.head {t : FileTree ν} {base names : List ν} {name : ν}
    (clear : t.Clear base (name :: names)) : t.isLink (base ++ [name]) = false :=
  clear [name] (by simp) (by simp)

theorem FileTree.Clear.tail {t : FileTree ν} {base names : List ν} {name : ν}
    (clear : t.Clear base (name :: names)) : t.Clear (base ++ [name]) names := by
  intro part is_part some_part
  have longer := clear (name :: part) (List.cons_prefix_cons.mpr ⟨rfl, is_part⟩) (by simp)
  rwa [List.append_cons] at longer

theorem FileTree.Clear.part {t : FileTree ν} {base names shorter : List ν}
    (clear : t.Clear base names) (is_part : shorter <+: names) : t.Clear base shorter := by
  intro part inside some_part
  exact clear part (inside.trans is_part) some_part

theorem FileTree.Clear.set_dir {t : FileTree ν} {base names : List ν} (clear : t.Clear base names)
    (p : List ν) : (t.set p .dir).Clear base names := by
  intro part is_part some_part
  exact t.isLink_set_dir p _ (clear part is_part some_part)

theorem FileTree.walk_clear {t : FileTree ν} {names base there : List ν} (clear : t.Clear base names)
    {follow : List ν → List (Step ν) → Option (List ν)}
    (leads : t.walk follow base (names.map .into) = some there) : there = base ++ names := by
  induction names generalizing base with
  | nil =>
    simp only [List.map_nil, FileTree.walk, Option.some.injEq] at leads
    simp [leads]
  | cons name rest ih =>
    have head := clear.head
    rw [List.map_cons, FileTree.walk] at leads
    split at leads
    · rename_i found
      simp [FileTree.isLink, found] at head
    · split at leads
      · rw [ih clear.tail leads, List.append_assoc, List.singleton_append]
      · cases leads

theorem FileTree.resolve_clear {t : FileTree ν} {base names there : List ν} (clear : t.Clear base names)
    {links : Nat} (leads : t.resolve links base (names.map .into) = some there) :
    there = base ++ names := by
  cases links with
  | zero => exact walk_clear clear leads
  | succ links => exact walk_clear clear leads

/-- `after` made the directories of parts of the path, and nothing else. -/
structure DirsOnPath (before after : Log ν) (base names : List ν) : Prop where
  writes : ∃ made, after.writes = before.writes ++ made ∧
    ∀ w ∈ made, ∃ part, part <+: names ∧ part ≠ [] ∧ w = (base ++ part, .dir)
  links : ∀ q, before.tree.isLink q = false → after.tree.isLink q = false

omit [DecidableEq ν] in
theorem part_of_longer {base rest : List ν} {name : ν} {w : List ν × Node ν}
    (inside : ∃ part, part <+: rest ∧ part ≠ [] ∧ w = (base ++ [name] ++ part, .dir)) :
    ∃ part, part <+: name :: rest ∧ part ≠ [] ∧ w = (base ++ part, .dir) := by
  obtain ⟨part, is_part, _, rfl⟩ := inside
  exact ⟨name :: part, List.cons_prefix_cons.mpr ⟨rfl, is_part⟩, by simp, by simp⟩

/-- Along a path without links each directory is made on the path, and links stay. -/
theorem makeDirs_clear {names : List ν} (links : Nat) {l : Log ν} {base : List ν}
    (clear : l.tree.Clear base names) :
    DirsOnPath l (l.makeDirs links base (names.map .into)).1 base names ∧
    ∀ there, (l.makeDirs links base (names.map .into)).2 = some there → there = base ++ names := by
  induction names generalizing l base with
  | nil =>
    refine ⟨⟨⟨[], by simp [Log.makeDirs], by simp⟩, fun q still => still⟩, ?_⟩
    intro there same
    simpa [Log.makeDirs] using same.symm
  | cons name rest ih =>
    rw [List.map_cons, Log.makeDirs]
    split
    · -- The directory is missing and is made.
      obtain ⟨⟨⟨made, writes, parts⟩, links_same⟩, leads⟩ :=
        @ih (l.write (base ++ [name]) .dir) (base ++ [name]) (clear.tail.set_dir _)
      refine ⟨⟨⟨(base ++ [name], .dir) :: made, by rw [writes]; simp, ?_⟩, ?_⟩, ?_⟩
      · intro w mem
        rcases List.mem_cons.mp mem with rfl | later
        · exact ⟨[name], by simp, by simp, rfl⟩
        · exact part_of_longer (parts w later)
      · intro q still
        exact links_same q (l.tree.isLink_set_dir _ _ still)
      · intro there same
        rw [leads there same]
        simp
    · obtain ⟨⟨⟨made, writes, parts⟩, links_same⟩, leads⟩ := @ih l (base ++ [name]) clear.tail
      refine ⟨⟨⟨made, writes, fun w mem => part_of_longer (parts w mem)⟩, links_same⟩, ?_⟩
      intro there same
      rw [leads there same]
      simp
    · refine ⟨⟨⟨[], by simp, by simp⟩, fun q still => still⟩, ?_⟩
      intro there same
      cases same
    · rename_i found
      have head := clear.head
      simp [FileTree.isLink, found] at head

theorem createFile_clear (links : Nat) {l : Log ν} {loc : List ν} {name : ν}
    (clear : l.tree.isLink (loc ++ [name]) = false) :
    (l.createFile links loc name).1 = l ∨
      (l.createFile links loc name).1 = l.write (loc ++ [name]) .file := by
  have direct : l.tree.Clear loc [name] := by
    intro part is_part some_part
    have whole : part = [name] := by
      rcases List.prefix_cons_iff.mp is_part with rfl | ⟨more, rfl, none_left⟩
      · exact absurd rfl some_part
      · rw [List.prefix_nil.mp none_left]
    exact whole ▸ clear
  unfold Log.createFile
  split
  · exact .inl rfl
  · rename_i there leads
    have here : there = loc ++ [name] := FileTree.resolve_clear direct leads
    subst here
    split
    · exact .inr rfl
    · split
      · exact .inr rfl
      · exact .inl rfl
    · exact .inl rfl

theorem createLink_or (l : Log ν) (loc : List ν) (name : ν) (fromRoot : Bool)
    (target : List (Step ν)) :
    (l.createLink loc name fromRoot target).1 = l ∨
      (l.createLink loc name fromRoot target).1 =
        l.write (loc ++ [name]) (.link fromRoot target) := by
  unfold Log.createLink
  split
  · exact .inl rfl
  · exact .inr rfl

end LinkedTree
