import Inspectah.Collect.UsrRows

/-!
What the scan for unmanaged files leaves out. Exclusions are compared as texts, and a text can
begin as a path does without being above it.
-/
namespace Inspectah

open HashOrder (Order)

def Covers (pre path : String) : Prop :=
  AtOrUnder pre path ∨ (Text.endsWith pre "/" = true ∧ Text.startsWith path pre = true)

instance (pre path : String) : Decidable (Covers pre path) := inferInstanceAs (Decidable (_ ∨ _))

theorem Covers.startsWith {pre path : String} (covers : Covers pre path) :
    Text.startsWith path pre = true := by
  rcases covers with under | ⟨-, starts⟩
  · exact Text.startsWith_iff.mpr under.prefix
  · exact starts

def LongestPrefix (mounts : List (String × Bool)) (path : String) (m : String × Bool) : Prop :=
  m ∈ mounts ∧ Text.startsWith path m.1 = true ∧
    ∀ other ∈ mounts, Text.startsWith path other.1 = true → other.1.utf8ByteSize ≤ m.1.utf8ByteSize

def WritableAt (mounts : List (String × Bool)) (path : String) : Prop :=
  ∃ m ∈ mounts, m.2 = true ∧ Covers m.1 path ∧
    ∀ other ∈ mounts, Covers other.1 path → other.1.utf8ByteSize ≤ m.1.utf8ByteSize

/-- What the loop knows after some mounts. -/
theorem betterMount_run (path : String) (mounts : List (String × Bool))
    (named : ∀ m ∈ mounts, m.1 ≠ "") :
    (mounts.foldl (betterMount path) (0, false) = (0, false) ∧
      ∀ m ∈ mounts, Text.startsWith path m.1 = false) ∨
    ∃ m, LongestPrefix mounts path m ∧
      mounts.foldl (betterMount path) (0, false) = (m.1.utf8ByteSize, m.2) := by
  induction mounts using List.reverseRecOn with
  | nil => exact .inl ⟨rfl, fun _ mem => absurd mem List.not_mem_nil⟩
  | append_singleton mounts m ih =>
    have size_pos : 0 < m.1.utf8ByteSize := by
      rw [Nat.pos_iff_ne_zero]
      exact fun zero => named m (by simp) (String.utf8ByteSize_eq_zero_iff.mp zero)
    rw [List.foldl_append, List.foldl_cons, List.foldl_nil]
    cases starts : Text.startsWith path m.1 with
    | false =>
      have kept : ∀ best, betterMount path best m = best := by
        intro best
        rw [betterMount, starts, Bool.false_and, if_neg Bool.false_ne_true]
      rw [kept]
      rcases ih fun m mem => named m (List.mem_append_left _ mem) with ⟨best, without⟩ |
        ⟨longest, ⟨mem, pre, most⟩, best⟩
      · refine .inl ⟨best, fun other mem => ?_⟩
        rcases List.mem_append.mp mem with old | new
        · exact without other old
        · exact List.mem_singleton.mp new ▸ starts
      · refine .inr ⟨longest, ⟨List.mem_append_left _ mem, pre, fun other mem other_pre => ?_⟩, best⟩
        rcases List.mem_append.mp mem with old | new
        · exact most other old other_pre
        · rw [List.mem_singleton.mp new, starts] at other_pre
          cases other_pre
    | true =>
      rcases ih fun m mem => named m (List.mem_append_left _ mem) with ⟨best, without⟩ |
        ⟨longest, ⟨mem, pre, most⟩, best⟩
      · refine .inr ⟨m, ⟨by simp, starts, fun other mem other_pre => ?_⟩, ?_⟩
        · rcases List.mem_append.mp mem with old | new
          · rw [without other old] at other_pre
            cases other_pre
          · rw [List.mem_singleton.mp new]
        · rw [best, betterMount, starts]
          simp [size_pos]
      · by_cases longer : longest.1.utf8ByteSize < m.1.utf8ByteSize
        · refine .inr ⟨m, ⟨by simp, starts, fun other mem other_pre => ?_⟩, ?_⟩
          · rcases List.mem_append.mp mem with old | new
            · exact (most other old other_pre).trans (Nat.le_of_lt longer)
            · rw [List.mem_singleton.mp new]
          · rw [best, betterMount, starts]
            simp [longer]
        · refine .inr ⟨longest, ⟨List.mem_append_left _ mem, pre, fun other mem other_pre => ?_⟩, ?_⟩
          · rcases List.mem_append.mp mem with old | new
            · exact most other old other_pre
            · rw [List.mem_singleton.mp new]
              exact Nat.not_lt.mp longer
          · rw [best, betterMount, starts]
            simp [longer]

theorem eq_of_prefix_size {a b path : String} (ha : Text.startsWith path a = true)
    (hb : Text.startsWith path b = true) (same : a.utf8ByteSize = b.utf8ByteSize) : a = b := by
  rw [Text.startsWith_iff] at ha hb
  have extend : ∀ {a b : String}, a.toList <+: b.toList → a.utf8ByteSize = b.utf8ByteSize →
      a = b := by
    rintro a b ⟨more, whole⟩ same
    have appended : b = a ++ String.ofList more := by
      apply String.toList_injective
      rw [← whole, String.toList_append, String.toList_ofList]
    rw [appended, String.utf8ByteSize_append] at same
    have nothing : String.ofList more = "" := String.utf8ByteSize_eq_zero_iff.mp (by omega)
    rw [appended, nothing, String.append_empty]
  rcases List.prefix_or_prefix_of_prefix ha hb with below | below
  · exact extend below same
  · exact (extend below same.symm).symm

theorem isOnWritableMount_iff (order : Order) (path : String) {mounts : List (String × Bool)}
    (named : ∀ m ∈ mounts, m.1 ≠ "") (distinct : (mounts.map (·.1)).Nodup) :
    isOnWritableMount order path mounts = true ↔
      ∃ m, LongestPrefix mounts path m ∧ m.2 = true := by
  have in_order : ∀ m, LongestPrefix (order.iter mounts) path m ↔ LongestPrefix mounts path m := by
    intro m
    simp only [LongestPrefix, HashOrder.mem_iter]
  rw [isOnWritableMount]
  rcases betterMount_run path (order.iter mounts) fun m mem =>
      named m ((HashOrder.mem_iter order).mp mem) with ⟨best, without⟩ | ⟨longest, is, best⟩
  · rw [best]
    constructor
    · intro no_flag
      cases no_flag
    · rintro ⟨m, ⟨mem, starts, -⟩, -⟩
      rw [without m ((HashOrder.mem_iter order).mpr mem)] at starts
      cases starts
  · rw [best]
    have is := (in_order longest).mp is
    constructor
    · intro flag
      exact ⟨longest, is, flag⟩
    · rintro ⟨m, also, flag⟩
      have same := eq_of_prefix_size is.2.1 also.2.1
        (Nat.le_antisymm (also.2.2 _ is.1 is.2.1) (is.2.2 _ also.1 also.2.1))
      rw [List.inj_on_of_nodup_map distinct is.1 also.1 same]
      exact flag

theorem insertMount_distinct {mounts : List (String × Bool)} (m : String × Bool)
    (distinct : (mounts.map (·.1)).Nodup) : ((insertMount mounts m).map (·.1)).Nodup := by
  rw [insertMount, List.map_append, List.nodup_append]
  refine ⟨distinct.sublist (List.filter_sublist.map _), List.nodup_singleton _, ?_⟩
  rintro key old _ new rfl
  obtain ⟨other, kept, rfl⟩ := List.mem_map.mp old
  rw [List.map_singleton, List.mem_singleton] at new
  have := (List.mem_filter.mp kept).2
  simp [new] at this

theorem splitWhitespace_ne_empty {line word : String} (mem : word ∈ splitWhitespace line) :
    word ≠ "" := by
  rintro rfl
  have := (List.mem_filter.mp mem).2
  simp at this

theorem parseMountRwFlags_spec (host : UnmanagedHost) :
    (∀ m ∈ parseMountRwFlags host, m.1 ≠ "") ∧ ((parseMountRwFlags host).map (·.1)).Nodup := by
  rw [parseMountRwFlags]
  split
  · exact ⟨fun _ mem => absurd mem List.not_mem_nil, List.nodup_nil⟩
  · induction Text.lines (host.run "cat" ["/proc/mounts"]).stdout using List.reverseRecOn with
    | nil => exact ⟨fun _ mem => absurd mem List.not_mem_nil, List.nodup_nil⟩
    | append_singleton lines line ih =>
      rw [List.foldl_append, List.foldl_cons, List.foldl_nil]
      split
      · rename_i device mountPoint kind options more words
        refine ⟨fun m mem => ?_, insertMount_distinct _ ih.2⟩
        rcases List.mem_append.mp mem with old | new
        · exact ih.1 m (List.mem_filter.mp old).1
        · rw [List.mem_singleton.mp new]
          exact @splitWhitespace_ne_empty line _ (by rw [words]; simp)
      · exact ih

section

variable (host : UnmanagedHost) (languageEnvPaths excludePaths : List String)

def isCovered (path : String) : Bool :=
  (excludePaths ++ languageEnvPaths).any fun pre => decide (Covers pre path)

def unmanagedLeaves : List Leaf :=
  (scanLeaves host).filter fun leaf => leaf.kind != .closed && !isRpmOwnedPath host leaf.path &&
    !isCovered languageEnvPaths excludePaths leaf.path

def usrLeaves : List Leaf := host.usr.leaves (fun _ => false) "/usr"

/-- The same in the rest of `/usr`, where whole directories and kinds of file are pruned. -/
def unmanagedUsrFiles : List String :=
  (((usrLeaves host).filter (·.kind != .closed)).map (·.path)).filter fun path =>
    !USR_PRUNE_DIRS.any (Text.startsWith path) && !isPrunedFile path &&
      !UNMANAGED_SCAN_ROOTS.any (fun root => decide (AtOrUnder root path)) &&
      !(buildRpmOwnedSet host).contains path && !isCovered languageEnvPaths excludePaths path

structure IsInventory (inventory : UnmanagedFileSection) : Prop where
  distinct : (inventory.items.map (·.path)).Nodup
  listed : ∀ path, path ∈ inventory.items.map (·.path) ↔
    path ∈ (unmanagedLeaves host languageEnvPaths excludePaths).map (·.path)
  rows : CountedOnce (unmanagedUsrFiles host languageEnvPaths excludePaths) inventory.usrEntries
  disjoint : ∀ row ∈ inventory.usrEntries, ∀ item ∈ inventory.items, ¬AtOrUnder row.path item.path
  totalSize : inventory.totalSize = (inventory.items.map (·.size)).sum
  totalCount : inventory.totalCount = inventory.items.length
  writableMount : ∀ item ∈ inventory.items,
    item.provenance.writableMount = true ↔ WritableAt (parseMountRwFlags host) item.path
  serviceWorkingDir : ∀ item ∈ inventory.items, item.provenance.serviceWorkingDir = true ↔
    ∃ dir ∈ collectServiceWorkingDirs host, Covers dir item.path

/-- No text that a path to be listed begins with is taken for a directory above it. -/
structure NoLookalike : Prop where
  closed : ∀ leaf ∈ scanLeaves host, leaf.kind = .closed →
    isRpmOwnedPath host leaf.path = true ∨
      (excludePaths ++ languageEnvPaths).any (Text.startsWith leaf.path) = true
  excluded : ∀ leaf ∈ unmanagedLeaves host languageEnvPaths excludePaths,
    ∀ pre ∈ excludePaths ++ languageEnvPaths, Text.startsWith leaf.path pre = false
  excludedUsr : ∀ path ∈ unmanagedUsrFiles host languageEnvPaths excludePaths,
    ∀ pre ∈ excludePaths ++ languageEnvPaths, Text.startsWith path pre = false
  sizes : ((unmanagedLeaves host languageEnvPaths excludePaths).map fun leaf =>
    (getFileMetadata host leaf.path).size).sum < U64_RANGE
  counts : ∀ path ∈ unmanagedUsrFiles host languageEnvPaths excludePaths,
    (filesBelow (unmanagedUsrFiles host languageEnvPaths excludePaths)
      (findShallowestUnownedAncestor path (buildRpmOwnedSet host))).length < 2 ^ 32
  mounts : ∀ leaf ∈ unmanagedLeaves host languageEnvPaths excludePaths,
    ∀ m, LongestPrefix (parseMountRwFlags host) leaf.path m →
      Covers m.1 leaf.path ∨ (m.2 = true ↔ WritableAt (parseMountRwFlags host) leaf.path)
  workingDirs : ∀ leaf ∈ unmanagedLeaves host languageEnvPaths excludePaths,
    ∀ dir ∈ collectServiceWorkingDirs host, Text.startsWith leaf.path dir = true →
      ∃ above ∈ collectServiceWorkingDirs host, Covers above leaf.path

end

theorem rootLeaves_under {host : UnmanagedHost} {root : String} {leaf : Leaf}
    (mem : leaf ∈ rootLeaves host root) : AtOrUnder root leaf.path := by
  have named := host.scanRootNamed root
  rw [rootLeaves] at mem
  cases node : host.scanRoot root with
  | dir entries =>
    rw [node] at mem named
    obtain ⟨name, -, under⟩ := HostDir.leaves_under entries named.2 mem
    exact (under_child root name).trans under
  | file => rw [node] at mem; cases mem
  | link => rw [node] at mem; cases mem
  | closed => rw [node] at mem; cases mem

theorem rootLeaves_apart (host : UnmanagedHost) (root : String) :
    (rootLeaves host root).Pairwise Apart := by
  have named := host.scanRootNamed root
  rw [rootLeaves]
  cases node : host.scanRoot root with
  | dir entries =>
    rw [node] at named
    exact HostDir.leaves_apart entries named.1 named.2 root
  | file => exact List.Pairwise.nil
  | link => exact List.Pairwise.nil
  | closed => exact List.Pairwise.nil

theorem scanLeaves_apart (host : UnmanagedHost) : (scanLeaves host).Pairwise Apart := by
  rw [scanLeaves, List.pairwise_flatMap]
  refine ⟨fun root _ => rootLeaves_apart host root, ?_⟩
  have roots : UNMANAGED_SCAN_ROOTS.Pairwise fun a b => ¬AtOrUnder a b ∧ ¬AtOrUnder b a := by decide
  refine roots.imp ?_
  intro a b far leaf here other there
  have above := rootLeaves_under here
  have above' := rootLeaves_under there
  constructor
  · intro under
    exact (above.trans under).comparable above' |>.elim far.1 far.2
  · intro under
    exact above.comparable (above'.trans under) |>.elim far.1 far.2

theorem usrLeaves_far (host : UnmanagedHost) :
    FarApart ((usrLeaves host).map (·.path)) := by
  intro a ha b hb under
  obtain ⟨leaf, mem, rfl⟩ := List.mem_map.mp ha
  obtain ⟨other, there, rfl⟩ := List.mem_map.mp hb
  have apart := @HostDir.leaves_apart (fun _ => false) host.usr host.usrDistinct
    host.usrNamed "/usr"
  rw [eq_of_apart apart mem there under]

theorem filter_names_iff {leaves : List Leaf} (distinct : (leaves.map (·.path)).Nodup)
    {p q : Leaf → Bool} :
    (∀ path, path ∈ (leaves.filter p).map (·.path) ↔ path ∈ (leaves.filter q).map (·.path)) ↔
      ∀ leaf ∈ leaves, p leaf = q leaf := by
  constructor
  · intro same leaf mem
    have passes : ∀ {r : Leaf → Bool}, leaf.path ∈ (leaves.filter r).map (·.path) ↔ r leaf = true := by
      intro r
      rw [List.mem_map]
      constructor
      · rintro ⟨other, kept, name⟩
        rw [List.mem_filter] at kept
        rw [← List.inj_on_of_nodup_map distinct kept.1 mem name]
        exact kept.2
      · intro pass
        exact ⟨leaf, List.mem_filter.mpr ⟨mem, pass⟩, rfl⟩
    rw [Bool.eq_iff_iff, ← passes, ← passes]
    exact same leaf.path
  · intro agree path
    rw [List.filter_congr agree]

section

variable (host : UnmanagedHost) (order : Order) (languageEnvPaths excludePaths : List String)

/-- What both walks are given. -/
def scanOf : UnmanagedScan :=
  { host, order, languageEnvPaths, excludePaths
    installDate := detectSystemInstallDate host
    mounts := parseMountRwFlags host
    serviceWorkdirs := collectServiceWorkingDirs host }

def listedLeaves : List Leaf :=
  (scanLeaves host).filter fun leaf =>
    (scanOf host order languageEnvPaths excludePaths).lists leaf.path

theorem scanInventory_eq : (UNMANAGED_SCAN_ROOTS.foldl (fun inventory root =>
      walkForUnmanaged (scanOf host order languageEnvPaths excludePaths) root (host.scanRoot root)
        inventory) {}) =
    (scanOf host order languageEnvPaths excludePaths).list (scanLeaves host) {} :=
  walkRoots_eq (scanOf host order languageEnvPaths excludePaths) UNMANAGED_SCAN_ROOTS {}

theorem scan_items : (scanUnmanagedFiles host order languageEnvPaths excludePaths).items =
    (listedLeaves host order languageEnvPaths excludePaths).map
      (scanOf host order languageEnvPaths excludePaths).item := by
  have items := congrArg Inventory.items (scanInventory_eq host order languageEnvPaths excludePaths)
  rw [list_items] at items
  exact items

theorem scan_totalSize : (scanUnmanagedFiles host order languageEnvPaths excludePaths).totalSize =
    ((listedLeaves host order languageEnvPaths excludePaths).map fun leaf =>
      (getFileMetadata host leaf.path).size).sum % U64_RANGE := by
  have total := congrArg Inventory.totalSize
    (scanInventory_eq host order languageEnvPaths excludePaths)
  rw [list_totalSize _ _ _ (by decide), Nat.zero_add] at total
  simp only [UnmanagedScan.item_size] at total
  exact total

theorem lists_iff (path : String) :
    (scanOf host order languageEnvPaths excludePaths).lists path =
      (!isRpmOwnedPath host path &&
        !(excludePaths ++ languageEnvPaths).any (Text.startsWith path)) := by
  have excluded : (scanOf host order languageEnvPaths excludePaths).isExcluded path =
      excludePaths.any (Text.startsWith path) := rfl
  have language : (scanOf host order languageEnvPaths excludePaths).isLanguageEnv path =
      languageEnvPaths.any (Text.startsWith path) := rfl
  rw [UnmanagedScan.lists, excluded, language, List.any_append]
  show (_ && !isRpmOwnedPath host path && _) = _
  cases excludePaths.any (Text.startsWith path) <;> cases isRpmOwnedPath host path <;>
    cases languageEnvPaths.any (Text.startsWith path) <;> rfl

variable {languageEnvPaths excludePaths}

theorem isCovered_startsWith {path : String}
    (covered : isCovered languageEnvPaths excludePaths path = true) :
    (excludePaths ++ languageEnvPaths).any (Text.startsWith path) = true := by
  obtain ⟨pre, mem, covers⟩ := List.any_eq_true.mp covered
  exact List.any_eq_true.mpr ⟨pre, mem, (of_decide_eq_true covers).startsWith⟩

variable (languageEnvPaths excludePaths)

theorem listed_iff :
    (∀ path, path ∈ (listedLeaves host order languageEnvPaths excludePaths).map (·.path) ↔
        path ∈ (unmanagedLeaves host languageEnvPaths excludePaths).map (·.path)) ↔
      (∀ leaf ∈ scanLeaves host, leaf.kind = .closed →
        isRpmOwnedPath host leaf.path = true ∨
          (excludePaths ++ languageEnvPaths).any (Text.startsWith leaf.path) = true) ∧
      (∀ leaf ∈ unmanagedLeaves host languageEnvPaths excludePaths,
        ∀ pre ∈ excludePaths ++ languageEnvPaths, Text.startsWith leaf.path pre = false) := by
  rw [listedLeaves, unmanagedLeaves, filter_names_iff (nodup_of_apart (scanLeaves_apart host))]
  constructor
  · intro agree
    constructor
    · intro leaf mem closed
      have same := agree leaf mem
      rw [lists_iff, closed] at same
      cases owned : isRpmOwnedPath host leaf.path with
      | true => exact .inl rfl
      | false =>
        have not_open : (LeafKind.closed != LeafKind.closed) = false := rfl
        rw [owned, not_open, Bool.not_false, Bool.true_and, Bool.false_and, Bool.false_and,
          Bool.not_eq_false'] at same
        exact .inr same
    · intro leaf mem pre listed
      obtain ⟨there, unmanaged⟩ := List.mem_filter.mp mem
      rw [← agree leaf there, lists_iff, Bool.and_eq_true_iff, Bool.not_eq_true',
        Bool.not_eq_true', List.any_eq_false] at unmanaged
      exact Bool.eq_false_iff.mpr (unmanaged.2 pre listed)
  · rintro ⟨closed, excluded⟩ leaf mem
    rw [lists_iff]
    cases unmanaged : (leaf.kind != .closed && !isRpmOwnedPath host leaf.path &&
        !isCovered languageEnvPaths excludePaths leaf.path) with
    | true =>
      have free := excluded leaf (List.mem_filter.mpr ⟨mem, unmanaged⟩)
      have owned : isRpmOwnedPath host leaf.path = false := by
        simp only [Bool.and_eq_true, Bool.not_eq_true'] at unmanaged
        exact unmanaged.1.2
      rw [owned, List.any_eq_false.mpr fun pre listed => by simp [free pre listed]]
      rfl
    | false =>
      cases owned : isRpmOwnedPath host leaf.path with
      | true => rfl
      | false =>
        have taken : (excludePaths ++ languageEnvPaths).any (Text.startsWith leaf.path) = true := by
          by_cases kind : leaf.kind = .closed
          · rcases closed leaf mem kind with also | taken
            · rw [owned] at also
              cases also
            · exact taken
          · apply isCovered_startsWith
            have covered : isCovered languageEnvPaths excludePaths leaf.path = true := by
              simpa [kind, owned] using unmanaged
            exact covered
        rw [taken]
        rfl

variable {host}

theorem usrLeaves_under {leaf : Leaf} (mem : leaf ∈ usrLeaves host) : ∃ name : String,
    '/' ∉ name.toList ∧ AtOrUnder ("/usr" ++ "/" ++ name) leaf.path := by
  obtain ⟨name, named, under⟩ := HostDir.leaves_under host.usr host.usrNamed mem
  exact ⟨name, HostDir.plain_of_named host.usrNamed name named, under⟩

variable (host)

theorem tier2_iff (path : String) :
    (UNMANAGED_SCAN_ROOTS.filter (Text.startsWith · USR_PREFIX)).any
        (fun root => path == root || Text.startsWith path (root ++ "/")) =
      decide (AtOrUnder "/usr/local" path) := by
  have roots : UNMANAGED_SCAN_ROOTS.filter (Text.startsWith · USR_PREFIX) = ["/usr/local"] := by
    decide
  rw [roots, List.any_cons, List.any_nil, Bool.or_false, Bool.eq_iff_iff, Bool.or_eq_true, beq_iff_eq,
    decide_eq_true_iff, atOrUnder_iff]

/-- Of the scan roots only `/usr/local` is in `/usr`. -/
theorem anyRoot_iff {path : String} (usr : AtOrUnder "/usr" path) :
    UNMANAGED_SCAN_ROOTS.any (fun root => decide (AtOrUnder root path)) =
      decide (AtOrUnder "/usr/local" path) := by
  have elsewhere : ∀ root, ¬AtOrUnder root "/usr" → ¬AtOrUnder "/usr" root → ¬AtOrUnder root path := by
    intro root up down under
    exact (under.comparable usr).elim up down
  have opt := elsewhere "/opt" (by decide) (by decide)
  have srv := elsewhere "/srv" (by decide) (by decide)
  simp [UNMANAGED_SCAN_ROOTS, opt, srv]

theorem isFiltered_eq {path : String} (usr : AtOrUnder "/usr" path) :
    (scanOf host order languageEnvPaths excludePaths).isFiltered path =
      (USR_PRUNE_DIRS.any (Text.startsWith path) ||
        UNMANAGED_SCAN_ROOTS.any (fun root => decide (AtOrUnder root path)) ||
        (excludePaths ++ languageEnvPaths).any (Text.startsWith path)) := by
  rw [UnmanagedScan.isFiltered, tier2_iff, anyRoot_iff usr, List.any_append, Bool.or_assoc]
  rfl

theorem isFiltered_below {a b : String} (under : AtOrUnder a b)
    (filtered : (scanOf host order languageEnvPaths excludePaths).isFiltered a = true) :
    (scanOf host order languageEnvPaths excludePaths).isFiltered b = true := by
  simp only [UnmanagedScan.isFiltered, tier2_iff, Bool.or_eq_true, decide_eq_true_iff] at filtered ⊢
  rcases filtered with ((noise | tier2) | excluded) | language
  · exact .inl (.inl (.inl (under.any_startsWith noise)))
  · exact .inl (.inl (.inr (tier2.trans under)))
  · exact .inl (.inr (under.any_startsWith excluded))
  · exact .inr (under.any_startsWith language)

/-- The walk finds what there is to count, less what an exclusion only looks like. -/
def countedFiles : List String :=
  (unmanagedUsrFiles host languageEnvPaths excludePaths).filter fun path =>
    !(excludePaths ++ languageEnvPaths).any (Text.startsWith path)

theorem walkDir_usr :
    (walkDir (fun path => !(scanOf host order languageEnvPaths excludePaths).isFiltered path) "/usr"
        (.dir host.usr)).map normalizePath =
      (((usrLeaves host).filter (·.kind != .closed)).map (·.path)).filter fun path =>
        !(scanOf host order languageEnvPaths excludePaths).isFiltered path := by
  have upward : ∀ a b, AtOrUnder a b →
      (!(scanOf host order languageEnvPaths excludePaths).isFiltered b) = true →
      (!(scanOf host order languageEnvPaths excludePaths).isFiltered a) = true := by
    intro a b under kept
    by_contra dropped
    rw [Bool.not_eq_true', Bool.not_eq_false] at dropped
    rw [isFiltered_below host order languageEnvPaths excludePaths under dropped] at kept
    cases kept
  rw [walkDir_eq upward (.dir host.usr) ⟨host.usrDistinct, host.usrNamed⟩ tidy_usr "usr",
    HostNode.leaves, if_neg Bool.false_ne_true, List.filter_map, List.filter_filter, List.map_map]
  have orders : (fun leaf : Leaf => leaf.kind != .closed &&
      !(scanOf host order languageEnvPaths excludePaths).isFiltered leaf.path) = fun leaf =>
      ((fun path => !(scanOf host order languageEnvPaths excludePaths).isFiltered path) ∘
        (·.path)) leaf && leaf.kind != .closed := by
    funext leaf
    exact Bool.and_comm _ _
  rw [← orders]
  apply List.map_congr_left
  intro leaf mem
  have there : leaf ∈ usrLeaves host := (List.mem_filter.mp mem).1
  exact (HostDir.leaves_tidy host.usr host.usrNamed tidy_usr there).normalizePath

theorem scan_usrEntries :
    (scanUnmanagedFiles host order languageEnvPaths excludePaths).usrEntries =
      usrRowsOf (fun path => (host.lstatSize path).getD 0) (buildRpmOwnedSet host)
        (countedFiles host languageEnvPaths excludePaths) := by
  have found : ((walkDir
      (fun path => !(scanOf host order languageEnvPaths excludePaths).isFiltered path) "/usr"
      (.dir host.usr)).map normalizePath).filter
        (fun path => !isPrunedFile path && !(buildRpmOwnedSet host).contains path) =
      countedFiles host languageEnvPaths excludePaths := by
    rw [walkDir_usr, List.filter_filter, countedFiles, unmanagedUsrFiles, List.filter_filter]
    apply List.filter_congr
    intro path mem
    obtain ⟨leaf, kept, rfl⟩ := List.mem_map.mp mem
    obtain ⟨name, -, under⟩ := usrLeaves_under (List.mem_filter.mp kept).1
    rw [isFiltered_eq host order languageEnvPaths excludePaths
      ((under_child "/usr" name).trans under)]
    have covered := @isCovered_startsWith languageEnvPaths excludePaths leaf.path
    cases begins : (excludePaths ++ languageEnvPaths).any (Text.startsWith leaf.path) with
    | true => simp
    | false =>
      have free : isCovered languageEnvPaths excludePaths leaf.path = false := by
        rw [begins] at covered
        exact Bool.eq_false_iff.mpr fun is => Bool.false_ne_true (covered is)
      rw [free]
      cases USR_PRUNE_DIRS.any (Text.startsWith leaf.path) <;>
        cases UNMANAGED_SCAN_ROOTS.any (fun root => decide (AtOrUnder root leaf.path)) <;>
        cases isPrunedFile leaf.path <;> cases (buildRpmOwnedSet host).contains leaf.path <;> rfl
  exact congrArg (usrRowsOf (fun path => (host.lstatSize path).getD 0) (buildRpmOwnedSet host)) found

/-- Rows are below entries of `/usr` other than `/usr/local`, items below the scan roots. -/
theorem row_apart {file : String} (mem : file ∈ unmanagedUsrFiles host languageEnvPaths excludePaths)
    {leaf : Leaf} (there : leaf ∈ scanLeaves host) :
    ¬AtOrUnder (findShallowestUnownedAncestor file (buildRpmOwnedSet host)) leaf.path := by
  intro above
  obtain ⟨usrLeaf, unmanaged⟩ := List.mem_filter.mp mem
  obtain ⟨below, kept, rfl⟩ := List.mem_map.mp usrLeaf
  obtain ⟨name, plain, under⟩ := usrLeaves_under (List.mem_filter.mp kept).1
  have entry : AtOrUnder ("/usr" ++ "/" ++ name) leaf.path :=
    (ancestor_below_entry plain under).trans above
  have usr := (under_child "/usr" name).trans entry
  obtain ⟨root, listed, mem_root⟩ := List.mem_flatMap.mp there
  have root_above := rootLeaves_under mem_root
  have in_usr : AtOrUnder "/usr/local" leaf.path := by
    have any : UNMANAGED_SCAN_ROOTS.any (fun root => decide (AtOrUnder root leaf.path)) = true :=
      List.any_eq_true.mpr ⟨root, listed, decide_eq_true root_above⟩
    rw [anyRoot_iff usr] at any
    exact of_decide_eq_true any
  have same : name = "local" := by
    refine entry_apart plain (by decide) entry ?_
    exact in_usr
  subst same
  have in_roots : UNMANAGED_SCAN_ROOTS.any (fun root => decide (AtOrUnder root below.path)) = true :=
    List.any_eq_true.mpr ⟨"/usr/local", by decide, decide_eq_true under⟩
  simp only [in_roots, Bool.not_true, Bool.and_false, Bool.false_and] at unmanaged
  cases unmanaged

theorem writableMount_iff (path : String) :
    (isOnWritableMount order path (parseMountRwFlags host) = true ↔
        WritableAt (parseMountRwFlags host) path) ↔
      ∀ m, LongestPrefix (parseMountRwFlags host) path m →
        Covers m.1 path ∨ (m.2 = true ↔ WritableAt (parseMountRwFlags host) path) := by
  obtain ⟨named, distinct⟩ := parseMountRwFlags_spec host
  have flag_of : ∀ m, LongestPrefix (parseMountRwFlags host) path m →
      (isOnWritableMount order path (parseMountRwFlags host) = true ↔ m.2 = true) := by
    intro m is
    rw [isOnWritableMount_iff order path named distinct]
    constructor
    · rintro ⟨other, also, flag⟩
      have same := eq_of_prefix_size is.2.1 also.2.1
        (Nat.le_antisymm (also.2.2 _ is.1 is.2.1) (is.2.2 _ also.1 also.2.1))
      rw [List.inj_on_of_nodup_map distinct is.1 also.1 same]
      exact flag
    · intro flag
      exact ⟨m, is, flag⟩
  constructor
  · intro right m is
    exact .inr ((flag_of m is).symm.trans right)
  · intro settled
    constructor
    · intro flag
      obtain ⟨m, is, writable⟩ := (isOnWritableMount_iff order path named distinct).mp flag
      rcases settled m is with covers | same
      · exact ⟨m, is.1, writable, covers, fun other mem above => is.2.2 other mem above.startsWith⟩
      · exact same.mp writable
    · rintro ⟨m, mem, writable, covers, most⟩
      have some_prefix : ∃ longest, LongestPrefix (parseMountRwFlags host) path longest := by
        rcases betterMount_run path (parseMountRwFlags host) named with ⟨-, without⟩ |
          ⟨longest, is, -⟩
        · have starts := covers.startsWith
          rw [without m mem] at starts
          cases starts
        · exact ⟨longest, is⟩
      obtain ⟨longest, is⟩ := some_prefix
      rw [flag_of longest is]
      rcases settled longest is with above | same
      · have equal := eq_of_prefix_size is.2.1 covers.startsWith
          (Nat.le_antisymm (most longest is.1 above) (is.2.2 m mem covers.startsWith))
        rw [List.inj_on_of_nodup_map distinct is.1 mem equal]
        exact writable
      · exact same.mpr ⟨m, mem, writable, covers, most⟩

theorem serviceWorkingDir_iff (path : String) (dirs : List String) :
    (isUnderServiceWorkdir path dirs = true ↔ ∃ dir ∈ dirs, Covers dir path) ↔
      ∀ dir ∈ dirs, Text.startsWith path dir = true → ∃ above ∈ dirs, Covers above path := by
  rw [isUnderServiceWorkdir, List.any_eq_true]
  constructor
  · intro right dir mem starts
    exact right.mp ⟨dir, mem, starts⟩
  · intro settled
    constructor
    · rintro ⟨dir, mem, starts⟩
      exact settled dir mem starts
    · rintro ⟨dir, mem, covers⟩
      exact ⟨dir, mem, covers.startsWith⟩

theorem countedFiles_all_iff : countedFiles host languageEnvPaths excludePaths =
    unmanagedUsrFiles host languageEnvPaths excludePaths ↔
      ∀ path ∈ unmanagedUsrFiles host languageEnvPaths excludePaths,
        ∀ pre ∈ excludePaths ++ languageEnvPaths, Text.startsWith path pre = false := by
  rw [countedFiles, List.filter_eq_self]
  simp only [Bool.not_eq_true', List.any_eq_false, Bool.not_eq_true]

theorem rows_iff : CountedOnce (unmanagedUsrFiles host languageEnvPaths excludePaths)
      (scanUnmanagedFiles host order languageEnvPaths excludePaths).usrEntries ↔
    (∀ path ∈ unmanagedUsrFiles host languageEnvPaths excludePaths,
      ∀ pre ∈ excludePaths ++ languageEnvPaths, Text.startsWith path pre = false) ∧
    ∀ path ∈ unmanagedUsrFiles host languageEnvPaths excludePaths,
      (filesBelow (unmanagedUsrFiles host languageEnvPaths excludePaths)
        (findShallowestUnownedAncestor path (buildRpmOwnedSet host))).length < 2 ^ 32 := by
  have part : (unmanagedUsrFiles host languageEnvPaths excludePaths).Sublist
      ((usrLeaves host).map (·.path)) :=
    List.filter_sublist.trans (List.filter_sublist.map _)
  have apart := @HostDir.leaves_apart (fun _ => false) host.usr host.usrDistinct
    host.usrNamed "/usr"
  have distinct := (nodup_of_apart apart).sublist part
  have far : FarApart (unmanagedUsrFiles host languageEnvPaths excludePaths) := by
    intro a ha b hb
    exact usrLeaves_far host a (part.subset ha) b (part.subset hb)
  have fewer : (countedFiles host languageEnvPaths excludePaths).Sublist
      (unmanagedUsrFiles host languageEnvPaths excludePaths) := List.filter_sublist
  rw [scan_usrEntries, countedOnce_iff fewer distinct far, countedFiles_all_iff]

theorem scan_paths : (scanUnmanagedFiles host order languageEnvPaths excludePaths).items.map
    (·.path) = (listedLeaves host order languageEnvPaths excludePaths).map (·.path) := by
  rw [scan_items, List.map_map]
  apply List.map_congr_left
  intro leaf _
  exact UnmanagedScan.item_path _ leaf

theorem scan_sizes : (scanUnmanagedFiles host order languageEnvPaths excludePaths).items.map
    (·.size) = (listedLeaves host order languageEnvPaths excludePaths).map fun leaf =>
      (getFileMetadata host leaf.path).size := by
  rw [scan_items, List.map_map]
  apply List.map_congr_left
  intro leaf _
  exact UnmanagedScan.item_size _ leaf

theorem listedLeaves_eq
    (listed : ∀ path, path ∈ (listedLeaves host order languageEnvPaths excludePaths).map (·.path) ↔
      path ∈ (unmanagedLeaves host languageEnvPaths excludePaths).map (·.path)) :
    listedLeaves host order languageEnvPaths excludePaths =
      unmanagedLeaves host languageEnvPaths excludePaths := by
  rw [listedLeaves, unmanagedLeaves] at listed ⊢
  exact List.filter_congr ((filter_names_iff (nodup_of_apart (scanLeaves_apart host))).mp listed)

theorem scan_signals : ((∀ item ∈ (scanUnmanagedFiles host order languageEnvPaths excludePaths).items,
      item.provenance.writableMount = true ↔ WritableAt (parseMountRwFlags host) item.path) ↔
    ∀ leaf ∈ listedLeaves host order languageEnvPaths excludePaths,
      ∀ m, LongestPrefix (parseMountRwFlags host) leaf.path m →
        Covers m.1 leaf.path ∨ (m.2 = true ↔ WritableAt (parseMountRwFlags host) leaf.path)) ∧
    ((∀ item ∈ (scanUnmanagedFiles host order languageEnvPaths excludePaths).items,
      item.provenance.serviceWorkingDir = true ↔
        ∃ dir ∈ collectServiceWorkingDirs host, Covers dir item.path) ↔
    ∀ leaf ∈ listedLeaves host order languageEnvPaths excludePaths,
      ∀ dir ∈ collectServiceWorkingDirs host, Text.startsWith leaf.path dir = true →
        ∃ above ∈ collectServiceWorkingDirs host, Covers above leaf.path) := by
  rw [scan_items]
  simp only [List.forall_mem_map, UnmanagedScan.item_path, UnmanagedScan.item_writableMount,
    UnmanagedScan.item_serviceWorkingDir]
  constructor
  · exact forall₂_congr fun leaf _ => writableMount_iff host order leaf.path
  · exact forall₂_congr fun leaf _ => serviceWorkingDir_iff leaf.path _

theorem unmanaged_inventory_iff (host : UnmanagedHost) (order : Order)
    (languageEnvPaths excludePaths : List String) :
    IsInventory host languageEnvPaths excludePaths
        (scanUnmanagedFiles host order languageEnvPaths excludePaths) ↔
      NoLookalike host languageEnvPaths excludePaths := by
  have paths := scan_paths host order languageEnvPaths excludePaths
  have sizes := scan_sizes host order languageEnvPaths excludePaths
  have total := scan_totalSize host order languageEnvPaths excludePaths
  obtain ⟨writable, working⟩ := scan_signals host order languageEnvPaths excludePaths
  constructor
  · intro right
    have listed := right.listed
    rw [paths] at listed
    obtain ⟨closed, excluded⟩ := (listed_iff host order languageEnvPaths excludePaths).mp listed
    obtain ⟨excludedUsr, counts⟩ := (rows_iff host order languageEnvPaths excludePaths).mp right.rows
    have whole := listedLeaves_eq host order languageEnvPaths excludePaths listed
    have mounts := writable.mp right.writableMount
    have workingDirs := working.mp right.serviceWorkingDir
    have sum := right.totalSize
    rw [sizes, total, whole] at sum
    rw [whole] at mounts workingDirs
    exact ⟨closed, excluded, excludedUsr, sum ▸ Nat.mod_lt _ (by decide), counts, mounts, workingDirs⟩
  · intro settled
    have listed := (listed_iff host order languageEnvPaths excludePaths).mpr
      ⟨settled.closed, settled.excluded⟩
    have whole := listedLeaves_eq host order languageEnvPaths excludePaths listed
    refine ⟨?_, ?_, ?_, ?_, ?_, rfl, ?_, ?_⟩
    · rw [paths]
      exact (nodup_of_apart (scanLeaves_apart host)).sublist (List.filter_sublist.map _)
    · rw [paths]
      exact listed
    · exact (rows_iff host order languageEnvPaths excludePaths).mpr
        ⟨settled.excludedUsr, settled.counts⟩
    · intro row mem item there
      rw [scan_usrEntries] at mem
      rw [scan_items] at there
      obtain ⟨file, counted, rfl⟩ := mem_usrRowsOf.mp mem
      obtain ⟨leaf, kept, rfl⟩ := List.mem_map.mp there
      rw [UnmanagedScan.item_path]
      exact row_apart host languageEnvPaths excludePaths (List.mem_filter.mp counted).1
        (List.mem_filter.mp kept).1
    · rw [total, sizes, whole]
      exact Nat.mod_eq_of_lt settled.sizes
    · rw [writable, whole]
      exact settled.mounts
    · rw [working, whole]
      exact settled.workingDirs

end

/-- `/opt/app/tool` and `/opt/application/tool`, in no package. -/
def siblingHost : UnmanagedHost where
  scanRoot root :=
    if root = "/opt" then
      .dir (.cons "app" (.dir (.cons "tool" .file .nil))
        (.cons "application" (.dir (.cons "tool" .file .nil)) .nil))
    else .closed
  usr := .nil
  run _ _ := { exitCode := 1 }
  lstatSize _ := none
  scanRootNamed root := by
    split
    · simp [HostNode.Named, HostDir.Named, HostDir.names]
    · trivial
  usrDistinct := List.nodup_nil
  usrNamed := trivial

theorem sibling_left_out : ¬IsInventory siblingHost [] ["/opt/app"]
    (scanUnmanagedFiles siblingHost .insertion [] ["/opt/app"]) := by
  intro right
  have wanted : "/opt/application/tool" ∈ (unmanagedLeaves siblingHost [] ["/opt/app"]).map
      (·.path) := by decide
  have missing : "/opt/application/tool" ∉
      (scanUnmanagedFiles siblingHost .insertion [] ["/opt/app"]).items.map (·.path) := by decide
  exact missing ((right.listed _).mpr wanted)

end Inspectah
