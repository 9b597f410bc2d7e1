import Inspectah.Collect.UnmanagedFiles

/-!
Both walks for unmanaged files, read off the leaves of the tree: a directory is skipped only where
every leaf below it would be.
-/
namespace Inspectah

theorem AtOrUnder.startsWith {a b pre : String} (under : AtOrUnder a b)
    (starts : Text.startsWith a pre = true) : Text.startsWith b pre = true := by
  rw [Text.startsWith_iff] at starts ⊢
  exact starts.trans under.prefix

theorem AtOrUnder.any_startsWith {a b : String} (under : AtOrUnder a b) {prefixes : List String}
    (starts : prefixes.any (Text.startsWith a) = true) :
    prefixes.any (Text.startsWith b) = true := by
  obtain ⟨pre, mem, pre_a⟩ := List.any_eq_true.mp starts
  exact List.any_eq_true.mpr ⟨pre, mem, under.startsWith pre_a⟩

theorem atOrUnder_iff {a b : String} :
    AtOrUnder a b ↔ b = a ∨ Text.startsWith b (a ++ "/") = true := by
  rw [Text.startsWith_iff, AtOrUnder]
  apply or_congr_right
  constructor
  · rintro ⟨tail, whole⟩
    exact ⟨tail, by rw [whole]; simp⟩
  · rintro ⟨tail, whole⟩
    exact ⟨tail, by rw [← whole]; simp⟩

namespace UnmanagedScan

variable (scan : UnmanagedScan)

/-- The tests a leaf has to pass. -/
def lists (path : String) : Bool :=
  !scan.isExcluded path && !isRpmOwnedPath scan.host path && !scan.isLanguageEnv path

def item (leaf : Leaf) : UnmanagedFile :=
  match leaf.kind with
  | .link => scan.symlinkItem leaf.path
  | _ => scan.fileItem leaf.path

@[simp] theorem item_path (leaf : Leaf) : (scan.item leaf).path = leaf.path := by
  obtain ⟨path, kind⟩ := leaf
  cases kind <;> rfl

@[simp] theorem item_size (leaf : Leaf) :
    (scan.item leaf).size = (getFileMetadata scan.host leaf.path).size := by
  obtain ⟨path, kind⟩ := leaf
  cases kind <;> rfl

theorem item_writableMount (leaf : Leaf) : (scan.item leaf).provenance.writableMount =
    isOnWritableMount scan.order leaf.path scan.mounts := by
  obtain ⟨path, kind⟩ := leaf
  cases kind <;> rfl

theorem item_serviceWorkingDir (leaf : Leaf) : (scan.item leaf).provenance.serviceWorkingDir =
    isUnderServiceWorkdir leaf.path scan.serviceWorkdirs := by
  obtain ⟨path, kind⟩ := leaf
  cases kind <;> rfl

def list (leaves : List Leaf) (inventory : Inventory) : Inventory :=
  (leaves.filter fun leaf => scan.lists leaf.path).foldl
    (fun inventory leaf => inventory.push (scan.item leaf)) inventory

theorem list_append (a b : List Leaf) (inventory : Inventory) :
    scan.list (a ++ b) inventory = scan.list b (scan.list a inventory) := by
  rw [list, List.filter_append, List.foldl_append]
  rfl

theorem list_singleton (leaf : Leaf) (inventory : Inventory) : scan.list [leaf] inventory =
    if scan.lists leaf.path then inventory.push (scan.item leaf) else inventory := by
  cases passes : scan.lists leaf.path <;> simp [list, passes]

theorem list_of_none {leaves : List Leaf} (none_passes : ∀ leaf ∈ leaves, scan.lists leaf.path = false)
    (inventory : Inventory) : scan.list leaves inventory = inventory := by
  rw [list, List.filter_eq_nil_iff.mpr fun leaf mem => by simp [none_passes leaf mem]]
  rfl

theorem lists_below_excluded {dir path : String} (under : AtOrUnder dir path)
    (excluded : scan.isExcluded dir = true) : scan.lists path = false := by
  have below : scan.isExcluded path = true := under.any_startsWith excluded
  rw [lists, below, Bool.not_true, Bool.false_and, Bool.false_and]

theorem lists_below_languageEnv {dir path : String} (under : AtOrUnder dir path)
    (language : scan.isLanguageEnv dir = true) : scan.lists path = false := by
  have below : scan.isLanguageEnv path = true := under.any_startsWith language
  rw [lists, below, Bool.not_true, Bool.and_false]

theorem push_if (path : String) (inventory : Inventory) (file : UnmanagedFile) :
    (if scan.isExcluded path then inventory
     else if isRpmOwnedPath scan.host path then inventory
     else if scan.isLanguageEnv path then inventory
     else inventory.push file) = if scan.lists path then inventory.push file else inventory := by
  rw [lists]
  cases scan.isExcluded path
  · cases isRpmOwnedPath scan.host path
    · cases scan.isLanguageEnv path <;> rfl
    · rfl
  · rfl

/-- What the loop does with one entry. -/
def entered (path name : String) (node : HostNode) (inventory : Inventory) : Inventory :=
  match node with
  | .link =>
    if scan.isExcluded path then inventory
    else if isRpmOwnedPath scan.host path then inventory
    else if scan.isLanguageEnv path then inventory
    else inventory.push (scan.symlinkItem path)
  | .dir _ =>
    if PRUNE_DIRS.contains name then inventory
    else if scan.isExcluded path then inventory
    else if scan.isLanguageEnv path then inventory
    else walkForUnmanaged scan path node inventory
  | _ =>
    if scan.isExcluded path then inventory
    else if isRpmOwnedPath scan.host path then inventory
    else if scan.isLanguageEnv path then inventory
    else inventory.push (scan.fileItem path)

theorem walkEntries_cons (dir name : String) (node : HostNode) (rest : HostDir)
    (inventory : Inventory) : walkForUnmanagedEntries scan dir (.cons name node rest) inventory =
      walkForUnmanagedEntries scan dir rest
        (scan.entered (dir ++ "/" ++ name) name node inventory) := by
  rw [walkForUnmanagedEntries.eq_def]
  cases node <;> rfl

mutual
theorem entered_eq (node : HostNode) (named : node.Named) (path name : String)
    (inventory : Inventory) : scan.entered path name node inventory =
      scan.list (node.leaves PRUNE_DIRS.contains name path) inventory := by
  cases node with
  | file =>
    rw [HostNode.leaves, list_singleton]
    exact scan.push_if path inventory (scan.fileItem path)
  | link =>
    rw [HostNode.leaves, list_singleton]
    exact scan.push_if path inventory (scan.symlinkItem path)
  | closed =>
    rw [HostNode.leaves, list_singleton]
    exact scan.push_if path inventory (scan.fileItem path)
  | dir entries =>
    have below : ∀ leaf ∈ entries.leaves PRUNE_DIRS.contains path, AtOrUnder path leaf.path := by
      intro leaf mem
      obtain ⟨entry, -, under⟩ := HostDir.leaves_under entries named.2 mem
      exact (under_child path entry).trans under
    rw [entered, HostNode.leaves]
    split
    · rfl
    · split
      · rename_i excluded
        exact (scan.list_of_none (fun leaf mem =>
          scan.lists_below_excluded (below leaf mem) excluded) inventory).symm
      · split
        · rename_i language
          exact (scan.list_of_none (fun leaf mem =>
            scan.lists_below_languageEnv (below leaf mem) language) inventory).symm
        · rw [walkForUnmanaged]
          exact walkEntries_eq entries named.2 path inventory

theorem walkEntries_eq (entries : HostDir) (named : entries.Named) (dir : String)
    (inventory : Inventory) : walkForUnmanagedEntries scan dir entries inventory =
      scan.list (entries.leaves PRUNE_DIRS.contains dir) inventory := by
  cases entries with
  | nil => rfl
  | cons name node rest =>
    rw [walkEntries_cons, HostDir.leaves, list_append, entered_eq node named.2.2.1,
      walkEntries_eq rest named.2.2.2]
end

end UnmanagedScan

def rootLeaves (host : UnmanagedHost) (root : String) : List Leaf :=
  match host.scanRoot root with
  | .dir entries => entries.leaves PRUNE_DIRS.contains root
  | _ => []

def scanLeaves (host : UnmanagedHost) : List Leaf :=
  UNMANAGED_SCAN_ROOTS.flatMap (rootLeaves host)

theorem walkForUnmanaged_eq (scan : UnmanagedScan) (root : String) (inventory : Inventory) :
    walkForUnmanaged scan root (scan.host.scanRoot root) inventory =
      scan.list (rootLeaves scan.host root) inventory := by
  have named := scan.host.scanRootNamed root
  rw [rootLeaves]
  cases node : scan.host.scanRoot root with
  | file => rfl
  | link => rfl
  | closed => rfl
  | dir entries =>
    rw [node] at named
    rw [walkForUnmanaged]
    exact scan.walkEntries_eq entries named.2 root inventory

theorem walkRoots_eq (scan : UnmanagedScan) (roots : List String) (inventory : Inventory) :
    roots.foldl (fun inventory root =>
        walkForUnmanaged scan root (scan.host.scanRoot root) inventory) inventory =
      scan.list (roots.flatMap (rootLeaves scan.host)) inventory := by
  induction roots generalizing inventory with
  | nil => rfl
  | cons root roots ih =>
    rw [List.foldl_cons, ih, walkForUnmanaged_eq, List.flatMap_cons, scan.list_append]

theorem list_items (scan : UnmanagedScan) (leaves : List Leaf) (inventory : Inventory) :
    (scan.list leaves inventory).items =
      inventory.items ++ (leaves.filter fun leaf => scan.lists leaf.path).map scan.item := by
  rw [UnmanagedScan.list]
  induction leaves.filter (fun leaf => scan.lists leaf.path) generalizing inventory with
  | nil => exact (List.append_nil _).symm
  | cons leaf rest ih =>
    rw [List.foldl_cons, ih, List.map_cons]
    simp [Inventory.push]

theorem list_totalSize (scan : UnmanagedScan) (leaves : List Leaf) (inventory : Inventory)
    (fits : inventory.totalSize < U64_RANGE) :
    (scan.list leaves inventory).totalSize = (inventory.totalSize +
      ((leaves.filter fun leaf => scan.lists leaf.path).map fun leaf =>
        (scan.item leaf).size).sum) % U64_RANGE := by
  rw [UnmanagedScan.list]
  induction leaves.filter (fun leaf => scan.lists leaf.path) generalizing inventory with
  | nil => exact (Nat.mod_eq_of_lt fits).symm
  | cons leaf rest ih =>
    rw [List.foldl_cons, ih _ (Nat.mod_lt _ (by decide)), List.map_cons, List.sum_cons]
    rw [Inventory.push, Nat.mod_add_mod, Nat.add_assoc]

/-- No two slashes together and none at the end. -/
structure Tidy (path : String) : Prop where
  single : path.toList.IsChain fun a b => ¬(a = '/' ∧ b = '/')
  last : ∀ c ∈ path.toList.getLast?, c ≠ '/'

theorem halveSlashes_eq {cs : List Char} (single : cs.IsChain fun a b => ¬(a = '/' ∧ b = '/')) :
    halveSlashes cs = cs := by
  fun_induction halveSlashes cs with
  | case1 rest ih => exact absurd ⟨rfl, rfl⟩ (List.isChain_cons_cons.mp single).1
  | case2 c rest _ ih => rw [ih single.tail]
  | case3 => rfl

theorem Tidy.normalizePath {path : String} (tidy : Tidy path) : normalizePath path = path := by
  have kept : path.toList.reverse.dropWhile (· == '/') = path.toList.reverse := by
    cases ends : path.toList.reverse with
    | nil => rfl
    | cons c rest =>
      have last : c ≠ '/' := tidy.last c (by
        rw [← List.head?_reverse, ends]
        rfl)
      rw [List.dropWhile_cons, if_neg (by simpa using last)]
  rw [Inspectah.normalizePath, kept, List.reverse_reverse, halveSlashes_eq tidy.single,
    String.ofList_toList]

theorem Tidy.child {dir name : String} (tidy : Tidy dir) (ne : name ≠ "")
    (plain : '/' ∉ name.toList) : Tidy (dir ++ "/" ++ name) := by
  have chars : (dir ++ "/" ++ name).toList = dir.toList ++ '/' :: name.toList := by simp
  have some_char : name.toList ≠ [] := fun nil => ne (String.toList_injective nil)
  have name_single : name.toList.IsChain fun a b => ¬(a = '/' ∧ b = '/') := by
    apply List.Pairwise.isChain
    refine List.pairwise_of_forall_mem_list ?_
    rintro a ha b - ⟨rfl, -⟩
    exact plain ha
  constructor
  · rw [chars, List.isChain_append]
    refine ⟨tidy.single, ?_, ?_⟩
    · cases cs : name.toList with
      | nil => exact absurd cs some_char
      | cons c rest =>
        rw [cs] at name_single plain
        refine List.isChain_cons_cons.mpr ⟨?_, name_single⟩
        rintro ⟨-, rfl⟩
        exact plain List.mem_cons_self
    · rintro a ha b - ⟨rfl, -⟩
      exact tidy.last '/' ha rfl
  · intro c last
    rw [chars, List.getLast?_append_of_ne_nil _ (List.cons_ne_nil _ _),
      List.getLast?_cons] at last
    rintro rfl
    apply plain
    cases ends : name.toList.getLast? with
    | none => exact absurd (List.getLast?_eq_none_iff.mp ends) some_char
    | some d =>
      rw [ends] at last
      obtain rfl : d = '/' := by simpa using last
      exact List.mem_of_getLast? ends

theorem tidy_usr : Tidy "/usr" := ⟨by decide, by simp⟩

mutual
theorem HostNode.leaves_tidy {prune : String → Bool} (node : HostNode) (named : node.Named)
    {name path : String} (tidy : Tidy path) {leaf : Leaf}
    (mem : leaf ∈ node.leaves prune name path) : Tidy leaf.path := by
  cases node with
  | file =>
    obtain rfl := List.mem_singleton.mp mem
    exact tidy
  | link =>
    obtain rfl := List.mem_singleton.mp mem
    exact tidy
  | closed =>
    obtain rfl := List.mem_singleton.mp mem
    exact tidy
  | dir entries =>
    rw [HostNode.leaves] at mem
    split at mem
    · cases mem
    · exact HostDir.leaves_tidy entries named.2 tidy mem

theorem HostDir.leaves_tidy {prune : String → Bool} (entries : HostDir) (named : entries.Named)
    {dir : String} (tidy : Tidy dir) {leaf : Leaf} (mem : leaf ∈ entries.leaves prune dir) :
    Tidy leaf.path := by
  cases entries with
  | nil => cases mem
  | cons name node rest =>
    rw [HostDir.leaves, List.mem_append] at mem
    rcases mem with here | later
    · exact HostNode.leaves_tidy node named.2.2.1 (tidy.child named.1 named.2.1) here
    · exact HostDir.leaves_tidy rest named.2.2.2 tidy later
end

section

variable {keep : String → Bool}

mutual
theorem walkDir_eq (upward : ∀ a b, AtOrUnder a b → keep b = true → keep a = true)
    (node : HostNode) (named : node.Named) {path : String} (tidy : Tidy path) (name : String) :
    walkDir keep path node = ((node.leaves (fun _ => false) name path).filter fun leaf =>
      leaf.kind != .closed && keep leaf.path).map (·.path) := by
  rw [walkDir.eq_def, tidy.normalizePath]
  cases kept : keep path with
  | true =>
    cases node with
    | file => simp [HostNode.leaves, kept]
    | link => simp [HostNode.leaves, kept]
    | closed => simp [HostNode.leaves]
    | dir entries =>
      rw [HostNode.leaves]
      exact walkDirEntries_eq upward entries named.2 tidy
  | false =>
    have none_kept : ∀ leaf ∈ node.leaves (fun _ => false) name path,
        ¬(leaf.kind != .closed && keep leaf.path) = true := by
      intro leaf mem passes
      have above := upward _ _ (HostNode.leaves_under node named mem)
        (Bool.and_eq_true_iff.mp passes).2
      rw [kept] at above
      cases above
    rw [List.filter_eq_nil_iff.mpr none_kept]
    rfl

theorem walkDirEntries_eq (upward : ∀ a b, AtOrUnder a b → keep b = true → keep a = true)
    (entries : HostDir) (named : entries.Named) {dir : String} (tidy : Tidy dir) :
    walkDirEntries keep dir entries = ((entries.leaves (fun _ => false) dir).filter fun leaf =>
      leaf.kind != .closed && keep leaf.path).map (·.path) := by
  cases entries with
  | nil => rfl
  | cons name node rest =>
    rw [walkDirEntries, HostDir.leaves, List.filter_append, List.map_append,
      walkDir_eq upward node named.2.2.1 (tidy.child named.1 named.2.1) name,
      walkDirEntries_eq upward rest named.2.2.2 tidy]
end

end

end Inspectah
