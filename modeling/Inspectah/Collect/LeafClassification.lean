import Inspectah.Collect.Executor
import Inspectah.Core.Packages
import Inspectah.Core.Text
import Inspectah.Library.Reachable
import Mathlib.Data.List.Sort
import Mathlib.Data.String.Basic

/-!
Which added packages a user asked for and which came with them: the leaves, the packages
only pulled in, and for each leaf those it pulls in.
-/
namespace Inspectah

open Relation Reachable

/-- The packages the user installed, if `dnf` says. -/
def queryUserInstalled (result : ExecResult) : Option (List String) :=
  if result.success then
    some (((Text.lines result.stdout).map Text.trim).filter fun l => !l.isEmpty)
  else none

/-- The dependencies the table is over: direct ones of `rpm`, or all that `dnf` follows. -/
structure DepGraphResult where
  dependsOn : List (String × List String)
  transitive : Bool

/-- What the queries for the dependencies of the added packages give. -/
structure DepQueries where
  rpm : Option (List (String × List String))
  dnf : Option (List (String × List String))

def DepQueries.graph (queries : DepQueries) : Option DepGraphResult :=
  match queries.rpm with
  | some rpmDeps => some ⟨rpmDeps, false⟩
  | none => queries.dnf.map fun dnfDeps => ⟨dnfDeps, true⟩

structure LeafClassification where
  leafPackages : Option (List String)
  autoPackages : Option (List String)
  leafDepTree : List (String × List String)
  deriving DecidableEq

def LeafClassification.authoritative (leaf auto : List String)
    (tree : List (String × List String)) : LeafClassification := ⟨some leaf, some auto, tree⟩

def LeafClassification.unavailable : LeafClassification := ⟨none, none, []⟩

def dependedOn (addedIds : List String) (dependsOn : List (String × List String)) : List String :=
  (dependsOn.flatMap (·.2)).filter (addedIds.contains ·)

def graphBasedSplit (addedIds : List String) (dependsOn : List (String × List String)) :
    List String × List String :=
  let depended := dependedOn addedIds dependsOn
  (addedIds.filter fun p => !depended.contains p, addedIds.filter (depended.contains ·))

def usesGraph (addedIds : List String) : Option (List String) → Bool
  | some userInstalled => !(addedIds.any (userInstalled.contains ·)) && !addedIds.isEmpty
  | none => true

def splitLeaves (addedIds : List String) (userInstalled : Option (List String))
    (dependsOn : List (String × List String)) : List String × List String :=
  if usesGraph addedIds userInstalled then graphBasedSplit addedIds dependsOn
  else (addedIds.filter (userInstalled.getD []).contains,
    addedIds.filter fun p => !(userInstalled.getD []).contains p)

def sortedIds (ids : List String) : List String := ids.insertionSort (· ≤ ·)

def pulledIn (graph : DepGraphResult) (leaf : String) : List String :=
  if graph.transitive then next graph.dependsOn leaf
  else walk graph.dependsOn (next graph.dependsOn leaf) []

def addedIdsOf (packagesAdded : List PackageEntry) : List String :=
  (packagesAdded.map fun pkg => canonicalPackageId pkg.name pkg.arch).dedup

def classifyLeafAuto (queries : DepQueries) (userInstalled : Option (List String))
    (packagesAdded : List PackageEntry) (baselineNames : List String) : LeafClassification :=
  let addedIds := addedIdsOf packagesAdded
  match queries.graph with
  | none => .unavailable
  | some graph =>
    let split := splitLeaves addedIds userInstalled graph.dependsOn
    let leaf := sortedIds split.1
    let auto := sortedIds (split.2.filter fun p => !baselineNames.contains p)
    .authoritative leaf auto
      (leaf.map fun l => (l, sortedIds ((pulledIn graph l).filter (auto.contains ·))))

structure IsGraphOver (addedIds : List String) (dependsOn : List (String × List String)) : Prop where
  keys : (dependsOn.map (·.1)).Nodup
  among : ∀ row ∈ dependsOn, row.1 ∈ addedIds ∧ ∀ d ∈ row.2, d ∈ addedIds

/-- The table has all dependencies of a package, save the package itself. -/
def IsFollowed (dependsOn : List (String × List String)) : Prop :=
  ∀ a b c, Edge dependsOn a b → Edge dependsOn b c → c ≠ a → Edge dependsOn a c

structure LeavesCover (graph : DepGraphResult) (userInstalled : Option (List String))
    (addedIds baselineNames leaf auto : List String) (tree : List (String × List String)) : Prop where
  disjoint : ∀ p ∈ leaf, p ∉ auto
  cover : ∀ p, p ∈ leaf ∨ p ∈ auto ↔ p ∈ addedIds ∧ p ∉ baselineNames
  keys : tree.map (·.1) = leaf
  reached : ∀ row ∈ tree, ∀ d, d ∈ row.2 ↔ d ∈ auto ∧ TransGen (Edge graph.dependsOn) row.1 d
  rooted : usesGraph addedIds userInstalled = true →
    ∀ a ∈ auto, ∃ l ∈ leaf, TransGen (Edge graph.dependsOn) l a

def ClassificationCovers (queries : DepQueries) (userInstalled : Option (List String))
    (packagesAdded : List PackageEntry) (baselineNames : List String) : Prop :=
  ∀ graph leaf auto, queries.graph = some graph →
    (classifyLeafAuto queries userInstalled packagesAdded baselineNames).leafPackages = some leaf →
    (classifyLeafAuto queries userInstalled packagesAdded baselineNames).autoPackages = some auto →
    LeavesCover graph userInstalled (addedIdsOf packagesAdded) baselineNames leaf auto
      (classifyLeafAuto queries userInstalled packagesAdded baselineNames).leafDepTree

def IsLeafCandidate (graph : DepGraphResult) (userInstalled : Option (List String))
    (addedIds : List String) (p : String) : Prop :=
  if usesGraph addedIds userInstalled then IsRoot graph.dependsOn p
  else ∃ names ∈ userInstalled, p ∈ names

/-- No leaf is of the baseline; where the graph decides, each package of the delta is below one
    no cycle is above. -/
structure DeltaRooted (graph : DepGraphResult) (userInstalled : Option (List String))
    (addedIds baselineNames : List String) : Prop where
  outside : ∀ p ∈ addedIds, IsLeafCandidate graph userInstalled addedIds p → p ∉ baselineNames
  above : usesGraph addedIds userInstalled = true → ∀ p ∈ addedIds, p ∉ baselineNames →
    ∃ q ∈ addedIds, ReflTransGen (Edge graph.dependsOn) q p ∧
      ∀ r, ReflTransGen (Edge graph.dependsOn) r q → ¬ TransGen (Edge graph.dependsOn) r r

theorem mem_sortedIds {ids : List String} {p : String} : p ∈ sortedIds ids ↔ p ∈ ids :=
  List.mem_insertionSort _

section

variable {graph : DepGraphResult} {userInstalled : Option (List String)}
  {addedIds baselineNames : List String}

theorem mem_dependedOn (graphOver : IsGraphOver addedIds graph.dependsOn) {p : String} :
    p ∈ dependedOn addedIds graph.dependsOn ↔ ¬ IsRoot graph.dependsOn p := by
  have edges : (∃ row ∈ graph.dependsOn, p ∈ row.2) ↔ ∃ b, Edge graph.dependsOn b p := by
    constructor
    · rintro ⟨row, mem, listed⟩
      have found := FirstKnown.lookup_of_mem graphOver.keys mem
      exact ⟨row.1, by rw [Edge, next, found]; exact listed⟩
    · rintro ⟨b, edge⟩
      unfold Edge next at edge
      cases found : graph.dependsOn.lookup b with
      | none => simp [found] at edge
      | some ds =>
        exact ⟨(b, ds), FirstKnown.mem_of_lookup found, by simpa [found] using edge⟩
  have added : ∀ row ∈ graph.dependsOn, p ∈ row.2 → p ∈ addedIds := fun row mem listed =>
    (graphOver.among row mem).2 p listed
  simp only [dependedOn, List.mem_filter, List.mem_flatMap, List.contains_iff_mem, IsRoot,
    not_forall, not_not, ← edges]
  refine ⟨fun h => h.1, ?_⟩
  rintro ⟨row, mem, listed⟩
  exact ⟨⟨row, mem, listed⟩, added row mem listed⟩

theorem mem_split_leaf (graphOver : IsGraphOver addedIds graph.dependsOn) {p : String} :
    p ∈ (splitLeaves addedIds userInstalled graph.dependsOn).1 ↔
      p ∈ addedIds ∧ IsLeafCandidate graph userInstalled addedIds p := by
  unfold splitLeaves IsLeafCandidate
  split
  next =>
    simp only [graphBasedSplit, List.mem_filter, Bool.not_eq_true', List.contains_eq_mem,
      decide_eq_false_iff_not, mem_dependedOn graphOver, not_not]
  next =>
    cases userInstalled <;> simp

theorem mem_split_auto (graphOver : IsGraphOver addedIds graph.dependsOn) {p : String} :
    p ∈ (splitLeaves addedIds userInstalled graph.dependsOn).2 ↔
      p ∈ addedIds ∧ ¬ IsLeafCandidate graph userInstalled addedIds p := by
  unfold splitLeaves IsLeafCandidate
  split
  next =>
    simp only [graphBasedSplit, List.mem_filter, List.contains_iff_mem, mem_dependedOn graphOver]
  next =>
    cases userInstalled <;> simp

theorem mem_pulledIn (followed : graph.transitive = true → IsFollowed graph.dependsOn)
    {leaf d : String} (other : d ≠ leaf) :
    d ∈ pulledIn graph leaf ↔ TransGen (Edge graph.dependsOn) leaf d := by
  unfold pulledIn
  split
  next transitive =>
    constructor
    · exact fun edge => .single edge
    · intro path
      have all : ∀ {d}, TransGen (Edge graph.dependsOn) leaf d →
          d = leaf ∨ Edge graph.dependsOn leaf d := by
        intro d path
        induction path with
        | single edge => exact .inr edge
        | @tail b c _ edge ih =>
          by_cases same : c = leaf
          · exact .inl same
          · obtain rfl | known := ih
            · exact .inr edge
            · exact .inr (followed transitive _ _ _ known edge same)
      exact (all path).resolve_left other
  next => exact mem_walk_next

theorem leavesCover_iff (graphOver : IsGraphOver addedIds graph.dependsOn)
    (followed : graph.transitive = true → IsFollowed graph.dependsOn) {leaf auto : List String}
    (hleaf : leaf = sortedIds (splitLeaves addedIds userInstalled graph.dependsOn).1)
    (hauto : auto = sortedIds ((splitLeaves addedIds userInstalled graph.dependsOn).2.filter
      fun p => !baselineNames.contains p)) :
    LeavesCover graph userInstalled addedIds baselineNames leaf auto
        (leaf.map fun l => (l, sortedIds ((pulledIn graph l).filter (auto.contains ·)))) ↔
      DeltaRooted graph userInstalled addedIds baselineNames := by
  have mem_leaf : ∀ p, p ∈ leaf ↔ p ∈ addedIds ∧ IsLeafCandidate graph userInstalled addedIds p :=
    fun p => by rw [hleaf, mem_sortedIds, mem_split_leaf graphOver]
  have mem_auto : ∀ p, p ∈ auto ↔ (p ∈ addedIds ∧ ¬ IsLeafCandidate graph userInstalled addedIds p) ∧
      p ∉ baselineNames := fun p => by
    rw [hauto, mem_sortedIds, List.mem_filter, mem_split_auto graphOver]
    simp
  have key_added : ∀ {a b}, Edge graph.dependsOn a b → a ∈ addedIds := by
    intro a b edge
    obtain ⟨row, mem, rfl⟩ := List.mem_map.mp (key_of_edge edge)
    exact (graphOver.among row mem).1
  constructor
  · intro covers
    refine ⟨fun p added candidate => ?_, fun fallback p added outside => ?_⟩
    · exact ((covers.cover p).mp (.inl ((mem_leaf p).mpr ⟨added, candidate⟩))).2
    · have root_iff : ∀ q, IsLeafCandidate graph userInstalled addedIds q ↔ IsRoot graph.dependsOn q :=
        fun q => by rw [IsLeafCandidate, if_pos fallback]
      by_cases root : IsRoot graph.dependsOn p
      · exact ⟨p, added, .refl, acyclic_above_root root⟩
      · have pulled := (mem_auto p).mpr ⟨⟨added, (root_iff p).not.mpr root⟩, outside⟩
        obtain ⟨l, is_leaf, path⟩ := covers.rooted fallback p pulled
        obtain ⟨l_added, candidate⟩ := (mem_leaf l).mp is_leaf
        exact ⟨l, l_added, path.to_reflTransGen, acyclic_above_root ((root_iff l).mp candidate)⟩
  · intro rooted
    have disjoint : ∀ p ∈ leaf, p ∉ auto := fun p is_leaf is_auto =>
      ((mem_auto p).mp is_auto).1.2 ((mem_leaf p).mp is_leaf).2
    refine ⟨disjoint, fun p => ?_, ?_, fun row mem d => ?_, fun fallback a is_auto => ?_⟩
    · rw [mem_leaf, mem_auto]
      constructor
      · rintro (⟨added, candidate⟩ | ⟨⟨added, -⟩, outside⟩)
        · exact ⟨added, rooted.outside p added candidate⟩
        · exact ⟨added, outside⟩
      · rintro ⟨added, outside⟩
        by_cases candidate : IsLeafCandidate graph userInstalled addedIds p
        · exact .inl ⟨added, candidate⟩
        · exact .inr ⟨⟨added, candidate⟩, outside⟩
    · rw [List.map_map]
      exact List.map_id _
    · obtain ⟨l, is_leaf, rfl⟩ := List.mem_map.mp mem
      simp only [mem_sortedIds, List.mem_filter, List.contains_iff_mem, and_comm (b := d ∈ auto)]
      refine and_congr_right fun is_auto => mem_pulledIn followed ?_
      rintro rfl
      exact disjoint d is_leaf is_auto
    · -- Up from the package there is one without a dependent, and that one is a leaf.
      obtain ⟨⟨added, not_candidate⟩, outside⟩ := (mem_auto a).mp is_auto
      obtain ⟨q, q_added, path, acyclic⟩ := rooted.above fallback a added outside
      obtain ⟨root, is_root, up⟩ := exists_root acyclic
      have candidate : IsLeafCandidate graph userInstalled addedIds root := by
        rw [IsLeafCandidate, if_pos fallback]
        exact is_root
      have whole := up.trans path
      obtain rfl | down := reflTransGen_iff_eq_or_transGen.mp whole
      · exact absurd candidate not_candidate
      · obtain ⟨b, edge, -⟩ := TransGen.head'_iff.mp down
        exact ⟨root, (mem_leaf root).mpr ⟨key_added edge, candidate⟩, down⟩

end

/-- The leaves and what they pull in are the delta if and only if it is rooted. -/
theorem classification_covers_iff {queries : DepQueries} {userInstalled : Option (List String)}
    {packagesAdded : List PackageEntry} {baselineNames : List String}
    (graphOver : ∀ graph, queries.graph = some graph →
      IsGraphOver (addedIdsOf packagesAdded) graph.dependsOn)
    (followed : ∀ graph, queries.graph = some graph → graph.transitive = true →
      IsFollowed graph.dependsOn) :
    ClassificationCovers queries userInstalled packagesAdded baselineNames ↔
      ∀ graph, queries.graph = some graph →
        DeltaRooted graph userInstalled (addedIdsOf packagesAdded) baselineNames := by
  unfold ClassificationCovers classifyLeafAuto
  constructor
  · intro covers graph found
    have own := covers graph
    simp only [found] at own
    exact (leavesCover_iff (graphOver graph found) (followed graph found) rfl rfl).mp
      (own _ _ trivial rfl rfl)
  · intro rooted graph leaf auto found
    simp only [found]
    intro hleaf hauto
    obtain rfl := Option.some.inj hleaf
    obtain rfl := Option.some.inj hauto
    exact (leavesCover_iff (graphOver graph found) (followed graph found) rfl rfl).mpr (rooted graph found)

section

def serverWithLibrary : List PackageEntry :=
  [{ name := "nginx", arch := "x86_64" }, { name := "nginx-core", arch := "x86_64" }]

def serverNeeds : List (String × List String) :=
  [("nginx.x86_64", ["nginx-core.x86_64"]), ("nginx-core.x86_64", [])]

theorem server_covered : ClassificationCovers ⟨some serverNeeds, none⟩ none serverWithLibrary [] := by
  refine (classification_covers_iff ?_ ?_).mpr ?_
  · rintro graph found
    obtain rfl := Option.some.inj found
    exact ⟨by decide, by decide⟩
  · rintro graph found transitive
    obtain rfl := Option.some.inj found
    cases transitive
  · rintro graph found
    obtain rfl := Option.some.inj found
    have root : IsRoot serverNeeds "nginx.x86_64" := by
      intro b edge
      have key := key_of_edge edge
      have each : ∀ b ∈ serverNeeds.map (·.1), ¬ Edge serverNeeds b "nginx.x86_64" := by decide
      exact each b key edge
    refine ⟨fun _ _ _ => List.not_mem_nil, fun _ p added _ => ?_⟩
    refine ⟨"nginx.x86_64", by decide, ?_, acyclic_above_root root⟩
    have each : ∀ p ∈ addedIdsOf serverWithLibrary,
        p = "nginx.x86_64" ∨ Edge serverNeeds "nginx.x86_64" p := by decide
    obtain rfl | edge := each p added
    · exact .refl
    · exact .single edge

def pairOfPackages : List PackageEntry :=
  [{ name := "perl-libs", arch := "x86_64" }, { name := "perl-interpreter", arch := "x86_64" }]

def pairNeeds : List (String × List String) :=
  [("perl-libs.x86_64", ["perl-interpreter.x86_64"]), ("perl-interpreter.x86_64", ["perl-libs.x86_64"])]

/-- Neither is a leaf, and nothing pulls them in. -/
theorem pair_lost : ¬ ∀ queries userInstalled packagesAdded baselineNames,
    (∀ graph, DepQueries.graph queries = some graph →
      IsGraphOver (addedIdsOf packagesAdded) graph.dependsOn) →
    (∀ graph, DepQueries.graph queries = some graph → graph.transitive = true →
      IsFollowed graph.dependsOn) →
    ClassificationCovers queries userInstalled packagesAdded baselineNames := by
  intro always
  have covers := always ⟨some pairNeeds, none⟩ none pairOfPackages [] ?_ ?_
  · have own := covers ⟨pairNeeds, false⟩ [] ["perl-interpreter.x86_64", "perl-libs.x86_64"] rfl
      (by decide) (by decide)
    obtain ⟨l, none, -⟩ := own.rooted (by decide) "perl-libs.x86_64" (by decide)
    cases none
  · rintro graph found
    obtain rfl := Option.some.inj found
    exact ⟨by decide, by decide⟩
  · rintro graph found transitive
    obtain rfl := Option.some.inj found
    cases transitive

end

end Inspectah
