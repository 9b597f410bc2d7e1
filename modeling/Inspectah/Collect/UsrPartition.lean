import Inspectah.Collect.UsrRows
import Mathlib.Algebra.Order.BigOperators.Group.List
import Mathlib.Algebra.Order.Group.Nat

/-!
The rows of `/usr` as a partition of the unmanaged files: no row lies in another, each file is
in one, and what they count adds up.
-/
namespace Inspectah

/-- Files below `/usr` that no package lists, each once, with their sizes. -/
structure UnmanagedUsrFiles (owned : List String) where
  files : List (String × Nat)
  distinct : (files.map (·.1)).Nodup
  unmanaged : ∀ f ∈ files, f.1 ∉ owned
  under : ∀ f ∈ files, Text.startsWith f.1 USR_PREFIX

def heldBelow (files : List (String × Nat)) (path : String) : List (String × Nat) :=
  files.filter fun f => decide (AtOrUnder path f.1)

def IsAbove (dir file : String) : Prop := AtOrUnder dir file ∧ dir ≠ file

/-- The rows divide the files among them, and a row that is a directory holds nothing of a
    package. -/
structure PartitionsUsr (owned : List String) (files : List (String × Nat))
    (rows : List UnmanagedUsrEntry) : Prop where
  apart : rows.Pairwise fun a b => ¬AtOrUnder a.path b.path ∧ ¬AtOrUnder b.path a.path
  once : ∀ f ∈ files, ∃! row, row ∈ rows ∧ AtOrUnder row.path f.1
  counts : (rows.map (·.fileCount)).sum = files.length
  sizes : (rows.map (·.totalSizeBytes)).sum = (files.map (·.2)).sum
  unmanaged : ∀ row ∈ rows, (∃ f ∈ files, IsAbove row.path f.1) → ∀ o ∈ owned,
    ¬AtOrUnder row.path o

/-- A directory with files above an owned path is listed, and what an unlisted one holds can be
    counted. -/
structure ListedUpward (owned : List String) (files : List (String × Nat)) : Prop where
  closed : ∀ f ∈ files, ∀ o ∈ owned, ∀ dir, Text.startsWith dir USR_PREFIX → IsAbove dir f.1 →
    AtOrUnder dir o → dir ∈ owned
  fits : ∀ path, Text.startsWith path USR_PREFIX → path ∉ owned →
    (heldBelow files path).length < 2 ^ 32 ∧ ((heldBelow files path).map (·.2)).sum < U64_RANGE

theorem usr_parts {path : String} (usr : Text.startsWith path USR_PREFIX = true) :
    3 ≤ (pathParts path).length := by
  obtain ⟨tail, whole⟩ := List.isPrefixOf_iff_prefix.mp usr
  have chars : path.toList = "/usr".toList ++ '/' :: tail := by
    rw [← whole]
    rfl
  have more := List.length_pos_of_ne_nil (splitChars_ne_nil (· == '/') tail)
  have top : (pathParts "/usr").length = 2 := by decide
  rw [pathParts_below chars, List.length_append, top]
  omega

theorem usr_of_parts {dir path : String} (usr : Text.startsWith path USR_PREFIX = true)
    (above : AtOrUnder dir path) (deep : 3 ≤ (pathParts dir).length) :
    Text.startsWith dir USR_PREFIX = true := by
  obtain ⟨tail, whole⟩ := List.isPrefixOf_iff_prefix.mp usr
  have top : AtOrUnder "/usr" path := .inr ⟨tail, by rw [← whole]; rfl⟩
  have two : (pathParts "/usr").length = 2 := by decide
  rcases top.comparable above with below | high
  · rcases below with same | ⟨rest, chars⟩
    · rw [same] at deep
      omega
    · exact List.isPrefixOf_iff_prefix.mpr ⟨rest, by rw [chars]; rfl⟩
  · rcases high with same | ⟨rest, chars⟩
    · rw [← same] at deep
      omega
    · have parts := congrArg List.length (pathParts_below chars)
      rw [two, List.length_append] at parts
      omega

theorem isUnowned_iff {owned : List String} {dir : String}
    (usr : Text.startsWith dir USR_PREFIX = true) : isUnowned owned dir = true ↔ dir ∉ owned := by
  have filled : dir.isEmpty = false := by
    rw [← Bool.not_eq_true, String.isEmpty_iff]
    rintro rfl
    exact absurd usr (by decide)
  simp [isUnowned, filled]

section Ancestor

variable {owned : List String} {file : String} (usr : Text.startsWith file USR_PREFIX = true)
include usr

theorem ancestor_usr : Text.startsWith (findShallowestUnownedAncestor file owned) USR_PREFIX := by
  rcases @ancestor_cases owned file with ⟨i, low, high, -, -, same⟩ | same
  · refine usr_of_parts usr (ancestor_above file) ?_
    rw [same, pathParts_prefixDir (by omega), List.length_take]
    omega
  · rw [same]
    exact usr

theorem ancestor_unowned (unmanaged : file ∉ owned) :
    findShallowestUnownedAncestor file owned ∉ owned := by
  rcases @ancestor_cases owned file with ⟨i, low, high, unowned, -, same⟩ | same
  · have within : Text.startsWith (findShallowestUnownedAncestor file owned) USR_PREFIX :=
      ancestor_usr usr
    rw [same] at within ⊢
    exact (isUnowned_iff within).mp unowned
  · rw [same]
    exact unmanaged

omit usr in
theorem ancestor_highest {dir : String} (above : AtOrUnder dir file)
    (within : Text.startsWith dir USR_PREFIX = true) (unowned : dir ∉ owned) :
    AtOrUnder (findShallowestUnownedAncestor file owned) dir := by
  rcases above with rfl | ⟨tail, below⟩
  · exact ancestor_above file
  · have deep := usr_parts within
    have parts := pathParts_below below
    have more := List.length_pos_of_ne_nil (splitChars_ne_nil (· == '/') tail)
    have own : prefixDir file (pathParts dir).length = dir := by
      rw [prefixDir, parts, List.take_left, join_pathParts, String.ofList_toList]
    have inside : (pathParts dir).length ∈ List.range' 3 ((pathParts file).length - 3) := by
      rw [List.mem_range'_1, parts, List.length_append]
      omega
    have hit : isUnowned owned (prefixDir file (pathParts dir).length) = true := by
      rw [own]
      exact (isUnowned_iff within).mpr unowned
    rw [ancestor_eq]
    cases found : (List.range' 3 ((pathParts file).length - 3)).find? fun i =>
        isUnowned owned (prefixDir file i) with
    | none => exact absurd hit (List.find?_eq_none.mp found _ inside)
    | some i =>
      obtain ⟨-, least, first⟩ := List.find?_range'_eq_some.mp found
      rw [List.mem_range'_1] at least
      have short : i ≤ (pathParts dir).length := by
        by_contra long
        have miss := first _ deep (Nat.not_le.mp long)
        rw [hit] at miss
        cases miss
      have same : prefixDir file i = prefixDir dir i := by
        rw [prefixDir, parts, List.take_append_of_le_length short, prefixDir]
      rw [Option.map_some, Option.getD_some, same]
      rcases Nat.lt_or_eq_of_le short with less | equal
      · exact .inr (prefixDir_above (by omega) less)
      · refine .inl ?_
        rw [equal, prefixDir, List.take_length, join_pathParts, String.ofList_toList]

end Ancestor

theorem sum_mod_le (sizes : List Nat) (m : Nat) : (sizes.map (· % m)).sum ≤ sizes.sum := by
  induction sizes with
  | nil => exact Nat.le_refl _
  | cons n rest ih =>
    rw [List.map_cons, List.sum_cons, List.sum_cons]
    exact Nat.add_le_add (Nat.mod_le n m) ih

theorem sum_mod_eq_iff {sizes : List Nat} {m : Nat} (positive : 0 < m) :
    (sizes.map (· % m)).sum = sizes.sum ↔ ∀ n ∈ sizes, n < m := by
  induction sizes with
  | nil => simp
  | cons n rest ih =>
    have low := sum_mod_le rest m
    rw [List.map_cons, List.sum_cons, List.sum_cons, List.forall_mem_cons, ← ih]
    constructor
    · intro same
      have part := Nat.mod_le n m
      have fits : n % m = n := by omega
      exact ⟨fits ▸ Nat.mod_lt n positive, by omega⟩
    · rintro ⟨fits, same⟩
      rw [Nat.mod_eq_of_lt fits, same]

namespace UnmanagedUsrFiles

variable {owned : List String} (list : UnmanagedUsrFiles owned)

abbrev rowOf (owned : List String) (file : String × Nat) : String :=
  findShallowestUnownedAncestor file.1 owned

abbrev groups : List (String × List (String × Nat)) := Grouping.groupBy (rowOf owned) list.files

theorem groups_perm : (list.groups.flatMap Prod.snd).Perm list.files := Grouping.groupBy_perm _

theorem perm_rows : (collapseToAncestors list.files owned).Perm (list.groups.map usrEntry) :=
  (List.perm_insertionSort _ _).map _

variable {list}

theorem above_iff {a b : String × Nat} (ha : a ∈ list.files) (hb : b ∈ list.files) :
    AtOrUnder (findShallowestUnownedAncestor a.1 owned) b.1 ↔
      findShallowestUnownedAncestor b.1 owned = findShallowestUnownedAncestor a.1 owned := by
  constructor
  · intro above
    have of_a := ancestor_highest above (ancestor_usr (list.under a ha))
      (ancestor_unowned (list.under a ha) (list.unmanaged a ha))
    have of_b := ancestor_highest (of_a.trans (ancestor_above a.1))
      (ancestor_usr (list.under b hb)) (ancestor_unowned (list.under b hb) (list.unmanaged b hb))
    exact of_a.antisymm of_b
  · intro same
    exact same ▸ ancestor_above b.1

theorem mem_groups {group : String × List (String × Nat)} : group ∈ list.groups ↔
    ∃ f ∈ list.files, group.1 = findShallowestUnownedAncestor f.1 owned ∧
      group.2 = heldBelow list.files group.1 := by
  have held : ∀ f ∈ list.files, Grouping.rowsAt (rowOf owned) list.files
        (findShallowestUnownedAncestor f.1 owned) =
      heldBelow list.files (findShallowestUnownedAncestor f.1 owned) := by
    intro f mem
    exact List.filter_congr fun g there => decide_eq_decide.mpr (above_iff mem there).symm
  rw [Grouping.mem_groupBy]
  constructor
  · rintro ⟨⟨f, mem, same⟩, all⟩
    refine ⟨f, mem, same.symm, ?_⟩
    rw [all, ← same]
    exact held f mem
  · rintro ⟨f, mem, same, all⟩
    refine ⟨⟨f, mem, same.symm⟩, ?_⟩
    rw [all, same]
    exact (held f mem).symm

theorem mem_rows {row : UnmanagedUsrEntry} : row ∈ collapseToAncestors list.files owned ↔
    ∃ f ∈ list.files, row = usrEntry (findShallowestUnownedAncestor f.1 owned,
      heldBelow list.files (findShallowestUnownedAncestor f.1 owned)) := by
  rw [list.perm_rows.mem_iff, List.mem_map]
  constructor
  · rintro ⟨⟨path, group⟩, mem, rfl⟩
    obtain ⟨f, there, same, all⟩ := mem_groups.mp mem
    dsimp only at same all
    subst same all
    exact ⟨f, there, rfl⟩
  · rintro ⟨f, there, rfl⟩
    exact ⟨_, mem_groups.mpr ⟨f, there, rfl, rfl⟩, rfl⟩

theorem rows_apart : (collapseToAncestors list.files owned).Pairwise fun a b =>
    ¬AtOrUnder a.path b.path ∧ ¬AtOrUnder b.path a.path := by
  have nested : ∀ a ∈ collapseToAncestors list.files owned,
      ∀ b ∈ collapseToAncestors list.files owned, AtOrUnder a.path b.path → a.path = b.path := by
    intro a ha b hb below
    obtain ⟨f, hf, rfl⟩ := mem_rows.mp ha
    obtain ⟨g, hg, rfl⟩ := mem_rows.mp hb
    exact ((above_iff hf hg).mp (below.trans (ancestor_above g.1))).symm
  have paths : ((collapseToAncestors list.files owned).map (·.path)).Nodup := by
    have keys : (list.groups.map Prod.fst).Nodup := (Grouping.groupBy_isTable _).nodup
    rw [(list.perm_rows.map _).nodup_iff, List.map_map]
    exact keys
  rw [List.Nodup, List.pairwise_map] at paths
  refine paths.imp_of_mem fun {a b} ha hb differ => ⟨fun below => ?_, fun below => ?_⟩
  · exact differ (nested a ha b hb below)
  · exact differ (nested b hb a ha below).symm

theorem counts_iff : ((collapseToAncestors list.files owned).map (·.fileCount)).sum =
    list.files.length ↔ ∀ group ∈ list.groups, group.2.length < 2 ^ 32 := by
  have whole : (list.groups.map fun group => group.2.length).sum = list.files.length := by
    have all := list.groups_perm.length_eq
    rwa [List.length_flatMap] at all
  have each : ((list.groups.map fun group => group.2.length).map (· % 2 ^ 32)).sum =
      (list.groups.map fun group => group.2.length).sum ↔ _ := sum_mod_eq_iff (by decide)
  rw [List.map_map, List.forall_mem_map] at each
  rw [(list.perm_rows.map _).sum_eq, List.map_map, ← whole]
  exact each

theorem sizes_iff : ((collapseToAncestors list.files owned).map (·.totalSizeBytes)).sum =
    (list.files.map (·.2)).sum ↔
      ∀ group ∈ list.groups, (group.2.map (·.2)).sum < U64_RANGE := by
  have whole : (list.groups.map fun group => (group.2.map (·.2)).sum).sum =
      (list.files.map (·.2)).sum := by
    rw [← (list.groups_perm.map (·.2)).sum_eq, List.map_flatMap, List.flatMap_def, List.sum_flatten,
      List.map_map]
    rfl
  have each : ((list.groups.map fun group => (group.2.map (·.2)).sum).map (· % U64_RANGE)).sum =
      (list.groups.map fun group => (group.2.map (·.2)).sum).sum ↔ _ :=
    sum_mod_eq_iff (by decide)
  rw [List.map_map, List.forall_mem_map] at each
  rw [(list.perm_rows.map _).sum_eq, List.map_map, ← whole]
  exact each

theorem rows_once : ∀ f ∈ list.files, ∃! row, row ∈ collapseToAncestors list.files owned ∧
    AtOrUnder row.path f.1 := by
  intro f mem
  refine ⟨_, ⟨mem_rows.mpr ⟨f, mem, rfl⟩, ancestor_above f.1⟩, ?_⟩
  rintro row ⟨listed, above⟩
  obtain ⟨g, there, rfl⟩ := mem_rows.mp listed
  rw [(above_iff there mem).mp above]

theorem rows_unmanaged_iff : (∀ row ∈ collapseToAncestors list.files owned,
      (∃ f ∈ list.files, IsAbove row.path f.1) → ∀ o ∈ owned, ¬AtOrUnder row.path o) ↔
    ∀ f ∈ list.files, ∀ o ∈ owned, ∀ dir, Text.startsWith dir USR_PREFIX → IsAbove dir f.1 →
      AtOrUnder dir o → dir ∈ owned := by
  constructor
  · intro clean f mem o ho dir usr above holds
    by_contra unlisted
    have highest := ancestor_highest above.1 usr unlisted
    refine clean _ (mem_rows.mpr ⟨f, mem, rfl⟩) ⟨f, mem, ancestor_above f.1, ?_⟩ o ho
      (highest.trans holds)
    intro itself
    have same : findShallowestUnownedAncestor f.1 owned = f.1 := itself
    rw [same] at highest
    exact above.2 (above.1.antisymm highest)
  · rintro closed row listed ⟨f, mem, above⟩ o ho holds
    obtain ⟨g, there, rfl⟩ := mem_rows.mp listed
    have usr : Text.startsWith (findShallowestUnownedAncestor g.1 owned) USR_PREFIX :=
      ancestor_usr (list.under g there)
    exact ancestor_unowned (list.under g there) (list.unmanaged g there)
      (closed f mem o ho _ usr above holds)

variable (list) in
theorem groups_fit_iff (small : List (String × Nat) → Prop) (empty : small [])
    (shrinks : ∀ {a b : List (String × Nat)}, a.Sublist b → small b → small a) :
    (∀ group ∈ list.groups, small group.2) ↔
      ∀ path, Text.startsWith path USR_PREFIX → path ∉ owned →
        small (heldBelow list.files path) := by
  constructor
  · intro fit path usr unlisted
    by_cases holds : ∃ f ∈ list.files, AtOrUnder path f.1
    · obtain ⟨f, mem, above⟩ := holds
      have highest := ancestor_highest above usr unlisted
      have group := fit (_, heldBelow list.files (rowOf owned f))
        (mem_groups.mpr ⟨f, mem, rfl, rfl⟩)
      refine shrinks (List.monotone_filter_right list.files fun g below => ?_) group
      exact decide_eq_true (highest.trans (of_decide_eq_true below))
    · have none : heldBelow list.files path = [] := List.filter_eq_nil_iff.mpr fun f mem below =>
        holds ⟨f, mem, of_decide_eq_true below⟩
      rw [none]
      exact empty
  · intro fit group listed
    obtain ⟨f, mem, row, all⟩ := mem_groups.mp listed
    rw [all, row]
    exact fit _ (ancestor_usr (list.under f mem))
      (ancestor_unowned (list.under f mem) (list.unmanaged f mem))

end UnmanagedUsrFiles

/-- The rows divide the files exactly when packages list every directory they share with them. -/
theorem partitionsUsr_iff {owned : List String} (list : UnmanagedUsrFiles owned) :
    PartitionsUsr owned list.files (collapseToAncestors list.files owned) ↔
      ListedUpward owned list.files := by
  have few := list.groups_fit_iff (fun files => files.length < 2 ^ 32) (by decide)
    fun part whole => Nat.lt_of_le_of_lt part.length_le whole
  have light := list.groups_fit_iff (fun files => (files.map (·.2)).sum < U64_RANGE) (by decide)
    fun part whole => Nat.lt_of_le_of_lt
      ((part.map _).sum_le_sum fun _ _ => Nat.zero_le _) whole
  constructor
  · intro divides
    have counted := few.mp (UnmanagedUsrFiles.counts_iff.mp divides.counts)
    have weighed := light.mp (UnmanagedUsrFiles.sizes_iff.mp divides.sizes)
    exact ⟨UnmanagedUsrFiles.rows_unmanaged_iff.mp divides.unmanaged, fun path usr unlisted =>
      ⟨counted path usr unlisted, weighed path usr unlisted⟩⟩
  · intro listed
    have counted := few.mpr fun path usr unlisted => (listed.fits path usr unlisted).1
    have weighed := light.mpr fun path usr unlisted => (listed.fits path usr unlisted).2
    exact {
      apart := UnmanagedUsrFiles.rows_apart
      once := UnmanagedUsrFiles.rows_once
      counts := UnmanagedUsrFiles.counts_iff.mpr counted
      sizes := UnmanagedUsrFiles.sizes_iff.mpr weighed
      unmanaged := UnmanagedUsrFiles.rows_unmanaged_iff.mpr listed.closed }

/-- Packages list `/usr/lib` and a file two levels down, and not the directory between. -/
def sharedVendorDir : UnmanagedUsrFiles ["/usr/lib", "/usr/lib/app/vendor.so"] where
  files := [("/usr/lib/app/local.so", 1)]
  distinct := by decide
  unmanaged := by decide
  under := by decide

theorem vendor_file_copied : ¬PartitionsUsr ["/usr/lib", "/usr/lib/app/vendor.so"]
    sharedVendorDir.files
    (collapseToAncestors sharedVendorDir.files ["/usr/lib", "/usr/lib/app/vendor.so"]) := by
  intro divides
  have row : usrEntry ("/usr/lib/app", sharedVendorDir.files) ∈
      collapseToAncestors sharedVendorDir.files ["/usr/lib", "/usr/lib/app/vendor.so"] := by
    decide +kernel
  exact divides.unmanaged _ row
    ⟨_, List.mem_singleton.mpr rfl, .inr ⟨"local.so".toList, by decide⟩, by decide⟩
    "/usr/lib/app/vendor.so" (by decide) (.inr ⟨"vendor.so".toList, by decide⟩)

end Inspectah
