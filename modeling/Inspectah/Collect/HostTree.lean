import Inspectah.Collect.ConfigWalk

/-!
A file tree as a recursive walk meets it, and what lies in it at which path.
-/
namespace Inspectah

mutual
/-- What stands at a path. A link is not looked behind, and the entries of a closed directory
    cannot be read. -/
inductive HostNode where
  | file
  | link
  | closed
  | dir (entries : HostDir)

inductive HostDir where
  | nil
  | cons (name : String) (node : HostNode) (rest : HostDir)
end

def HostDir.names : HostDir → List String
  | nil => []
  | cons name _ rest => name :: rest.names

mutual
/-- The entries of a directory have names of their own, of at least one character. -/
def HostNode.Named : HostNode → Prop
  | .file => True
  | .link => True
  | .closed => True
  | .dir entries => entries.names.Nodup ∧ entries.Named

def HostDir.Named : HostDir → Prop
  | .nil => True
  | .cons name node rest => name ≠ "" ∧ '/' ∉ name.toList ∧ node.Named ∧ rest.Named
end

inductive LeafKind where
  | file
  | link
  | closed
  deriving DecidableEq

/-- What a walk cannot go below. -/
structure Leaf where
  path : String
  kind : LeafKind
  deriving DecidableEq

mutual
def HostNode.leaves (prune : String → Bool) (name path : String) : HostNode → List Leaf
  | .file => [⟨path, .file⟩]
  | .link => [⟨path, .link⟩]
  | .closed => [⟨path, .closed⟩]
  | .dir entries => if prune name then [] else entries.leaves prune path

def HostDir.leaves (prune : String → Bool) (dir : String) : HostDir → List Leaf
  | .nil => []
  | .cons name node rest =>
    node.leaves prune name (dir ++ "/" ++ name) ++ rest.leaves prune dir
end

theorem AtOrUnder.prefix {a b : String} (under : AtOrUnder a b) : a.toList <+: b.toList := by
  rcases under with rfl | ⟨tail, whole⟩
  · exact List.prefix_rfl
  · exact ⟨_, whole.symm⟩

theorem under_child (dir name : String) : AtOrUnder dir (dir ++ "/" ++ name) :=
  .inr ⟨name.toList, by simp⟩

/-- Of two paths above a third, one is above the other. -/
theorem AtOrUnder.comparable {a b f : String} (ha : AtOrUnder a f) (hb : AtOrUnder b f) :
    AtOrUnder a b ∨ AtOrUnder b a := by
  have extend : ∀ {a b : String}, AtOrUnder a f → AtOrUnder b f →
      a.toList.length ≤ b.toList.length → AtOrUnder a b := by
    intro a b ha hb short
    obtain ⟨more, whole⟩ := List.prefix_of_prefix_length_le ha.prefix hb.prefix short
    cases more with
    | nil => exact .inl (String.toList_injective (by rw [← whole, List.append_nil]))
    | cons c more =>
      refine .inr ⟨more, ?_⟩
      have cut : c = '/' := by
        obtain ⟨last, below⟩ := hb.prefix
        rcases ha with rfl | ⟨tail, whole'⟩
        · rw [← whole, List.append_assoc] at below
          have := List.append_right_eq_self.mp below
          cases this
        · rw [← whole, whole', List.append_assoc, List.append_cancel_left_eq] at below
          exact (List.cons.inj below).1
      rw [← whole, cut]
  rcases Nat.le_total a.toList.length b.toList.length with short | short
  · exact .inl (extend ha hb short)
  · exact .inr (extend hb ha short)

theorem AtOrUnder.antisymm {a b : String} (hab : AtOrUnder a b) (hba : AtOrUnder b a) : a = b := by
  apply String.toList_injective
  exact hab.prefix.eq_of_length_le hba.prefix.length_le

theorem entry_apart {dir a b f : String} (ha : '/' ∉ a.toList) (hb : '/' ∉ b.toList)
    (under_a : AtOrUnder (dir ++ "/" ++ a) f) (under_b : AtOrUnder (dir ++ "/" ++ b) f) : a = b := by
  have split : ∀ {name : String}, AtOrUnder (dir ++ "/" ++ name) f →
      ∃ tail, f.toList = (dir ++ "/").toList ++ (name.toList ++ tail) ∧
        (tail = [] ∨ ∃ rest, tail = '/' :: rest) := by
    intro name under
    rcases under with rfl | ⟨tail, whole⟩
    · exact ⟨[], by simp, .inl rfl⟩
    · exact ⟨'/' :: tail, by rw [whole]; simp, .inr ⟨tail, rfl⟩⟩
  exact names_apart ha hb (split under_a) (split under_b)

section

variable {prune : String → Bool}

mutual
theorem HostNode.leaves_under (node : HostNode) (named : node.Named) {name path : String}
    {leaf : Leaf} (mem : leaf ∈ node.leaves prune name path) : AtOrUnder path leaf.path := by
  cases node with
  | file =>
    obtain rfl := List.mem_singleton.mp mem
    exact .inl rfl
  | link =>
    obtain rfl := List.mem_singleton.mp mem
    exact .inl rfl
  | closed =>
    obtain rfl := List.mem_singleton.mp mem
    exact .inl rfl
  | dir entries =>
    rw [HostNode.leaves] at mem
    split at mem
    · cases mem
    · obtain ⟨entry, -, under⟩ := HostDir.leaves_under entries named.2 mem
      exact (under_child path entry).trans under

theorem HostDir.leaves_under (entries : HostDir) (named : entries.Named) {dir : String}
    {leaf : Leaf} (mem : leaf ∈ entries.leaves prune dir) :
    ∃ name ∈ entries.names, AtOrUnder (dir ++ "/" ++ name) leaf.path := by
  cases entries with
  | nil => cases mem
  | cons name node rest =>
    rw [HostDir.leaves, List.mem_append] at mem
    rcases mem with here | later
    · exact ⟨name, List.mem_cons_self, HostNode.leaves_under node named.2.2.1 here⟩
    · obtain ⟨other, mem, under⟩ := HostDir.leaves_under rest named.2.2.2 later
      exact ⟨other, List.mem_cons_of_mem _ mem, under⟩
end

theorem HostDir.plain_of_named : ∀ {entries : HostDir}, entries.Named → ∀ name ∈ entries.names,
    '/' ∉ name.toList
  | .cons _ _ _, named, _, mem => by
    rcases List.mem_cons.mp mem with rfl | mem
    · exact named.2.1
    · exact HostDir.plain_of_named named.2.2.2 _ mem

def Apart (a b : Leaf) : Prop := ¬AtOrUnder a.path b.path ∧ ¬AtOrUnder b.path a.path

mutual
theorem HostNode.leaves_apart (node : HostNode) (named : node.Named) (name path : String) :
    (node.leaves prune name path).Pairwise Apart := by
  cases node with
  | file => exact List.pairwise_singleton _ _
  | link => exact List.pairwise_singleton _ _
  | closed => exact List.pairwise_singleton _ _
  | dir entries =>
    rw [HostNode.leaves]
    split
    · exact List.Pairwise.nil
    · exact HostDir.leaves_apart entries named.1 named.2 path

theorem HostDir.leaves_apart (entries : HostDir) (distinct : entries.names.Nodup)
    (named : entries.Named) (dir : String) : (entries.leaves prune dir).Pairwise Apart := by
  cases entries with
  | nil => exact List.Pairwise.nil
  | cons name node rest =>
    obtain ⟨absent, distinct⟩ := List.nodup_cons.mp distinct
    rw [HostDir.leaves, List.pairwise_append]
    refine ⟨HostNode.leaves_apart node named.2.2.1 _ _,
      HostDir.leaves_apart rest distinct named.2.2.2 dir, ?_⟩
    intro a here b there
    have under := HostNode.leaves_under node named.2.2.1 here
    obtain ⟨other, mem, under'⟩ := HostDir.leaves_under rest named.2.2.2 there
    have other_name : ¬name = other := by
      rintro rfl
      exact absent mem
    have plain := HostDir.plain_of_named named.2.2.2 _ mem
    constructor
    · intro above
      exact other_name (entry_apart named.2.1 plain (under.trans above) under')
    · intro above
      exact other_name (entry_apart named.2.1 plain under (under'.trans above))
end

end

instance : Std.Symm Apart := ⟨fun _ _ far => ⟨far.2, far.1⟩⟩

theorem eq_of_apart {leaves : List Leaf} (apart : leaves.Pairwise Apart) {a b : Leaf}
    (ha : a ∈ leaves) (hb : b ∈ leaves) (under : AtOrUnder a.path b.path) : a = b := by
  by_contra other
  exact (apart.forall ha hb other).1 under

theorem nodup_of_apart {leaves : List Leaf} (apart : leaves.Pairwise Apart) :
    (leaves.map (·.path)).Nodup := by
  rw [List.Nodup, List.pairwise_map]
  exact apart.imp fun far same => far.1 (.inl same.symm)

end Inspectah
