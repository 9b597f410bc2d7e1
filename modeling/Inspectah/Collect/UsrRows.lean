import Inspectah.Collect.UnmanagedWalk

/-!
The rows of `/usr`: files are counted in the row of their highest unowned directory, which for files
apart is the one row at or above them.
-/
namespace Inspectah

def pathParts (path : String) : List (List Char) := Text.splitChars (· == '/') path.toList

def prefixDir (path : String) (i : Nat) : String :=
  String.ofList (['/'].intercalate ((pathParts path).take i))

def isUnowned (owned : List String) (dir : String) : Bool := !dir.isEmpty && !owned.contains dir

theorem join_pathParts (path : String) : ['/'].intercalate (pathParts path) = path.toList := by
  have whole : ['/'].intercalate (path.toList.splitOn '/') = path.toList :=
    List.intercalate_splitOn '/'
  rwa [List.splitOn_eq_splitOnP, ← Text.splitChars_eq_splitOnP] at whole

theorem pathParts_ne_nil (path : String) : pathParts path ≠ [] := by
  rw [pathParts, Text.splitChars_eq_splitOnP]
  exact List.splitOnP_ne_nil _ _

theorem intercalate_append {sep : List Char} {a b : List (List Char)} (ha : a ≠ []) (hb : b ≠ []) :
    sep.intercalate (a ++ b) = sep.intercalate a ++ (sep ++ sep.intercalate b) := by
  induction a with
  | nil => exact absurd rfl ha
  | cons first rest ih =>
    cases rest with
    | nil =>
      rw [List.singleton_append, List.intercalate_cons_of_ne_nil hb, List.intercalate_singleton,
        List.append_assoc]
    | cons second rest =>
      rw [List.cons_append, List.intercalate_cons_of_ne_nil (by simp), ih (by simp),
        List.intercalate_cons_of_ne_nil (List.cons_ne_nil _ _)]
      simp only [List.append_assoc]

theorem prefixDir_above {path : String} {i : Nat} (some_name : 0 < i)
    (inside : i < (pathParts path).length) :
    ∃ tail, path.toList = (prefixDir path i).toList ++ '/' :: tail := by
  have ha : (pathParts path).take i ≠ [] := by
    intro nil
    have := congrArg List.length nil
    rw [List.length_take, List.length_nil] at this
    omega
  have hb : (pathParts path).drop i ≠ [] := by
    intro nil
    have := congrArg List.length nil
    rw [List.length_drop, List.length_nil] at this
    omega
  refine ⟨['/'].intercalate ((pathParts path).drop i), ?_⟩
  have cut := @intercalate_append ['/'] _ _ ha hb
  rw [List.take_append_drop, join_pathParts] at cut
  rw [prefixDir, String.toList_ofList, cut]
  rfl

theorem pathParts_prefixDir {path : String} {i : Nat} (some_name : 0 < i) :
    pathParts (prefixDir path i) = (pathParts path).take i := by
  rw [pathParts, prefixDir, String.toList_ofList, Text.splitChars_eq_splitOnP,
    ← List.splitOn_eq_splitOnP]
  apply List.splitOn_intercalate
  · intro piece mem slash
    have := Text.plain_of_mem_splitChars (List.mem_of_mem_take mem) slash
    simp at this
  · intro nil
    have := congrArg List.length nil
    have := List.length_pos_of_ne_nil (pathParts_ne_nil path)
    rw [List.length_take, List.length_nil] at *
    omega

theorem pathParts_below {dir path : String} {tail : List Char}
    (below : path.toList = dir.toList ++ '/' :: tail) :
    pathParts path = pathParts dir ++ Text.splitChars (· == '/') tail := by
  rw [pathParts, below]
  exact Text.splitChars_append_cut rfl tail dir.toList

section

variable {owned : List String}

theorem ancestor_eq (file : String) : findShallowestUnownedAncestor file owned =
    (((List.range' 3 ((pathParts file).length - 3)).find? fun i =>
      isUnowned owned (prefixDir file i)).map (prefixDir file)).getD file := by
  rw [findShallowestUnownedAncestor, List.find?_map]
  rfl

theorem ancestor_cases (file : String) :
    (∃ i, 3 ≤ i ∧ i < (pathParts file).length ∧ isUnowned owned (prefixDir file i) = true ∧
      (∀ j, 3 ≤ j → j < i → isUnowned owned (prefixDir file j) = false) ∧
      findShallowestUnownedAncestor file owned = prefixDir file i) ∨
    findShallowestUnownedAncestor file owned = file := by
  rw [ancestor_eq]
  cases found : (List.range' 3 ((pathParts file).length - 3)).find? fun i =>
      isUnowned owned (prefixDir file i) with
  | none => exact .inr rfl
  | some i =>
    obtain ⟨unowned, within, first⟩ := List.find?_range'_eq_some.mp found
    rw [List.mem_range'_1] at within
    refine .inl ⟨i, within.1, by omega, unowned, ?_, rfl⟩
    intro j low high
    simpa using first j low high

theorem ancestor_above (file : String) :
    AtOrUnder (findShallowestUnownedAncestor file owned) file := by
  rcases @ancestor_cases owned file with ⟨i, low, high, -, -, same⟩ | same
  · rw [same]
    exact .inr (prefixDir_above (by omega) high)
  · exact .inl same.symm

/-- The search starts below the entries of `/usr`. -/
theorem ancestor_below_entry {file name : String} (plain : '/' ∉ name.toList)
    (under : AtOrUnder ("/usr" ++ "/" ++ name) file) :
    AtOrUnder ("/usr" ++ "/" ++ name) (findShallowestUnownedAncestor file owned) := by
  rcases under.comparable (@ancestor_above owned file) with below | above
  · exact below
  · rcases @ancestor_cases owned file with ⟨i, low, high, -, -, same⟩ | same
    · rcases above with equal | ⟨tail, deeper⟩
      · exact .inl equal.symm
      · exfalso
        have entry : (pathParts ("/usr" ++ "/" ++ name)).length = 3 := by
          have chars : ("/usr" ++ "/" ++ name).toList = "/usr".toList ++ '/' :: name.toList := by
            simp
          have last : Text.splitChars (· == '/') name.toList = [name.toList] := by
            rw [Text.splitChars_eq_splitOnP, ← List.splitOn_eq_splitOnP]
            exact List.splitOn_eq_singleton plain
          have usr : (pathParts "/usr").length = 2 := by decide
          rw [pathParts_below chars, last, List.length_append, usr]
          rfl
        have parts := congrArg List.length (pathParts_below deeper)
        have more : Text.splitChars (· == '/') tail ≠ [] := by
          rw [Text.splitChars_eq_splitOnP]
          exact List.splitOnP_ne_nil _ _
        have := List.length_pos_of_ne_nil more
        rw [same, pathParts_prefixDir (by omega), List.length_append, List.length_take] at parts
        omega
    · rw [same]
      exact under

theorem ancestor_of_below {file other : String} {tail : List Char}
    (proper : findShallowestUnownedAncestor file owned ≠ file)
    (below : other.toList = (findShallowestUnownedAncestor file owned).toList ++ '/' :: tail) :
    findShallowestUnownedAncestor other owned = findShallowestUnownedAncestor file owned := by
  rcases @ancestor_cases owned file with ⟨i, low, high, unowned, first, same⟩ | same
  · rw [same] at below ⊢
    have parts := pathParts_below below
    rw [pathParts_prefixDir (by omega)] at parts
    have length_take : ((pathParts file).take i).length = i := by
      rw [List.length_take]
      omega
    have agree : ∀ j ≤ i, prefixDir other j = prefixDir file j := by
      intro j most
      rw [prefixDir, parts, List.take_append_of_le_length (by omega), List.take_take,
        Nat.min_eq_left most, prefixDir]
    have longer : i < (pathParts other).length := by
      have more : Text.splitChars (· == '/') tail ≠ [] := by
        rw [Text.splitChars_eq_splitOnP]
        exact List.splitOnP_ne_nil _ _
      have := List.length_pos_of_ne_nil more
      rw [parts, List.length_append]
      omega
    have found : (List.range' 3 ((pathParts other).length - 3)).find?
        (fun j => isUnowned owned (prefixDir other j)) = some i := by
      refine List.find?_range'_eq_some.mpr ⟨?_, ?_, ?_⟩
      · rw [agree i (Nat.le_refl i)]
        exact unowned
      · rw [List.mem_range'_1]
        omega
      · intro j least less
        rw [agree j (Nat.le_of_lt less), first j least less]
        rfl
    rw [ancestor_eq, found]
    exact agree i (Nat.le_refl i)
  · exact absurd same proper

/-- No path among these is above another. -/
def FarApart (files : List String) : Prop := ∀ a ∈ files, ∀ b ∈ files, AtOrUnder a b → a = b

theorem under_ancestor_iff {files : List String} (apart : FarApart files) {a b : String}
    (ha : a ∈ files) (hb : b ∈ files) : AtOrUnder (findShallowestUnownedAncestor a owned) b ↔
      findShallowestUnownedAncestor b owned = findShallowestUnownedAncestor a owned := by
  constructor
  · intro under
    by_cases proper : findShallowestUnownedAncestor a owned = a
    · rw [proper] at under
      rw [apart a ha b hb under]
    · rcases under with same | ⟨tail, below⟩
      · have above : AtOrUnder b a := same ▸ ancestor_above a
        rw [apart b hb a ha above]
      · exact ancestor_of_below proper below
  · intro same
    exact same ▸ ancestor_above b

instance (path : String) : DecidablePred (AtOrUnder path) := fun _ =>
  decidable_of_iff _ atOrUnder_iff.symm

def filesBelow (files : List String) (path : String) : List String :=
  files.filter fun file => decide (AtOrUnder path file)

structure CountedOnce (files : List String) (rows : List UnmanagedUsrEntry) : Prop where
  distinct : rows.Nodup
  once : ∀ file ∈ files, ∃! row, row ∈ rows ∧ AtOrUnder row.path file
  counted : ∀ row ∈ rows, row.fileCount = (filesBelow files row.path).length
  occupied : ∀ row ∈ rows, ∃ file ∈ files, AtOrUnder row.path file

variable {size : String → Nat}

def usrRowsOf (size : String → Nat) (owned files : List String) : List UnmanagedUsrEntry :=
  collapseToAncestors (files.map fun file => (file, size file)) owned

theorem mem_usrRowsOf {files : List String} {row : UnmanagedUsrEntry} : row ∈ usrRowsOf size owned files ↔
    ∃ file ∈ files, row = usrEntry (findShallowestUnownedAncestor file owned,
      Grouping.rowsAt (fun file => findShallowestUnownedAncestor file.1 owned)
        (files.map fun file => (file, size file)) (findShallowestUnownedAncestor file owned)) := by
  rw [usrRowsOf, collapseToAncestors, List.mem_map]
  constructor
  · rintro ⟨⟨path, group⟩, mem, rfl⟩
    rw [List.mem_insertionSort] at mem
    obtain ⟨⟨found, listed, same⟩, all⟩ := Grouping.mem_groupBy.mp mem
    obtain ⟨file, there, rfl⟩ := List.mem_map.mp listed
    dsimp only at same all
    subst same all
    exact ⟨file, there, rfl⟩
  · rintro ⟨file, there, rfl⟩
    refine ⟨_, (List.mem_insertionSort _).mpr (Grouping.mem_groupBy.mpr ⟨?_, rfl⟩), rfl⟩
    exact ⟨_, List.mem_map_of_mem there, rfl⟩

theorem nodup_paths_usrRowsOf (files : List String) :
    ((usrRowsOf size owned files).map (·.path)).Nodup := by
  rw [usrRowsOf, collapseToAncestors, List.map_map]
  have table : Grouping.IsTable (fun file : String × Nat => findShallowestUnownedAncestor file.1 owned)
      (files.map fun file => (file, size file)) _ := Grouping.groupBy_isTable _
  have keys := table.nodup
  exact ((List.perm_insertionSort _ _).map _).nodup_iff.mpr keys

theorem length_rowsAt {files : List String} (apart : FarApart files) {file : String}
    (mem : file ∈ files) : (Grouping.rowsAt (fun file => findShallowestUnownedAncestor file.1 owned)
      (files.map fun file => (file, size file)) (findShallowestUnownedAncestor file owned)).length =
      (filesBelow files (findShallowestUnownedAncestor file owned)).length := by
  rw [Grouping.rowsAt, List.filter_map, List.length_map, filesBelow]
  congr 1
  apply List.filter_congr
  intro other there
  exact decide_eq_decide.mpr (under_ancestor_iff apart mem there).symm

theorem rowsOf_countedOnce {files : List String} (apart : FarApart files)
    (fits : ∀ file ∈ files,
      (filesBelow files (findShallowestUnownedAncestor file owned)).length < 2 ^ 32) :
    CountedOnce files (usrRowsOf size owned files) where
  distinct := (nodup_paths_usrRowsOf files).of_map _
  once := by
    intro file mem
    refine ⟨_, ⟨mem_usrRowsOf.mpr ⟨file, mem, rfl⟩, ancestor_above file⟩, ?_⟩
    rintro row ⟨listed, above⟩
    obtain ⟨other, there, rfl⟩ := mem_usrRowsOf.mp listed
    rw [(under_ancestor_iff apart there mem).mp above]
  counted := by
    intro row listed
    obtain ⟨file, mem, rfl⟩ := mem_usrRowsOf.mp listed
    have exactly := @length_rowsAt owned size _ apart _ mem
    exact (congrArg (· % 2 ^ 32) exactly).trans (Nat.mod_eq_of_lt (fits file mem))
  occupied := by
    intro row listed
    obtain ⟨file, mem, rfl⟩ := mem_usrRowsOf.mp listed
    exact ⟨file, mem, ancestor_above file⟩

theorem countedOnce_iff {wanted found : List String} (sub : found.Sublist wanted)
    (distinct : wanted.Nodup) (apart : FarApart wanted) :
    CountedOnce wanted (usrRowsOf size owned found) ↔ found = wanted ∧
      ∀ file ∈ wanted,
        (filesBelow wanted (findShallowestUnownedAncestor file owned)).length < 2 ^ 32 := by
  have apart_found : FarApart found := fun a ha b hb => apart a (sub.subset ha) b (sub.subset hb)
  constructor
  · intro right
    have below : ∀ file ∈ found,
        filesBelow found (findShallowestUnownedAncestor file owned) =
          filesBelow wanted (findShallowestUnownedAncestor file owned) ∧
        (filesBelow wanted (findShallowestUnownedAncestor file owned)).length < 2 ^ 32 := by
      intro file mem
      have count := right.counted _ (mem_usrRowsOf.mpr ⟨file, mem, rfl⟩)
      have exactly := @length_rowsAt owned size _ apart_found _ mem
      have truncated : (filesBelow found (findShallowestUnownedAncestor file owned)).length %
          2 ^ 32 = (filesBelow wanted (findShallowestUnownedAncestor file owned)).length :=
        (congrArg (· % 2 ^ 32) exactly).symm.trans count
      have some_missing := (sub.filter fun other =>
        decide (AtOrUnder (findShallowestUnownedAncestor file owned) other)).length_le
      have part := sub.filter fun other =>
        decide (AtOrUnder (findShallowestUnownedAncestor file owned) other)
      have small := Nat.mod_lt (filesBelow found (findShallowestUnownedAncestor file owned)).length
        (show 0 < 2 ^ 32 by decide)
      have shrinks := Nat.mod_le
        (filesBelow found (findShallowestUnownedAncestor file owned)).length (2 ^ 32)
      rw [truncated] at small shrinks
      exact ⟨part.eq_of_length_le shrinks, small⟩
    have all : wanted ⊆ found := by
      intro file mem
      obtain ⟨row, ⟨listed, above⟩, -⟩ := right.once file mem
      obtain ⟨other, there, rfl⟩ := mem_usrRowsOf.mp listed
      have inside : file ∈ filesBelow wanted (findShallowestUnownedAncestor other owned) :=
        List.mem_filter.mpr ⟨mem, decide_eq_true above⟩
      rw [← (below other there).1] at inside
      exact (List.mem_filter.mp inside).1
    have same := sub.eq_of_length_le (distinct.length_le_of_subset all)
    exact ⟨same, fun file mem => (below file (same ▸ mem)).2⟩
  · rintro ⟨rfl, fits⟩
    exact rowsOf_countedOnce apart fits

end

end Inspectah
