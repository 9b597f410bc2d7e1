import Inspectah.Collect.InstalledGroups
import Inspectah.Core.HostState
import Inspectah.Library.Fragments
import Inspectah.Library.FirstKnown
import Mathlib.Data.Prod.Lex

/-!
What is taken as proof that a `/var` directory will be made: a tmpfiles.d entry for it, a unit
that declares it, or a package that owns it.
-/
namespace Inspectah

open FirstKnown

def TMPFILES_DIRS : List String := ["/etc/tmpfiles.d", "/run/tmpfiles.d", "/usr/lib/tmpfiles.d"]

structure UnitFile where
  path : String
  content : String
  solid : ∀ c ∈ path.toList, Text.isWhitespace c = false
  filled : path ≠ ""

def EXEC_UNIT_SUFFIXES : List String := [".service", ".socket", ".mount", ".swap"]

def UnitFile.isExec (u : UnitFile) : Bool := EXEC_UNIT_SUFFIXES.any (Text.endsWith u.path)

/-- A `.conf` file in the directory of drop-ins of such a unit. -/
def UnitFile.isDropIn (u : UnitFile) : Bool :=
  Text.endsWith u.path ".conf" &&
    match (Text.splitOn (· == '/') u.path).reverse with
    | _ :: dir :: _ => EXEC_UNIT_SUFFIXES.any fun suffix => Text.endsWith dir (suffix ++ ".d")
    | _ => false

def isPathChar (c : Char) : Bool := c.isAlphanum || c == '/' || c == '-' || c == '_'

/-- `grep -E`. Plain characters, an equals sign and blanks between match as written. -/
structure ExtendedGrep where
  found : List Char → List Char → Bool
  isSpace : Char → Bool
  plain : ∀ directive relative line : List Char, directive.all Char.isAlphanum →
    relative.all isPathChar →
      (found (directive ++ "\\s*=\\s*".toList ++ relative) line ↔
        ∃ before gap gap' after,
          line = before ++ directive ++ gap ++ '=' :: gap' ++ relative ++ after ∧
            gap.all isSpace ∧ gap'.all isSpace)

structure StorageHost where
  tmpfilesDir : String → DirRead
  readFragment : String → Option String
  grep : ExtendedGrep
  units : List UnitFile
  unitsDistinct : (units.map (·.path)).Nodup
  owner : String → ExecResult

def TMPFILES_SUFFIX : String := ".conf"

def DIRECTORY_CREATING_TYPES : List Char := ['d', 'D', 'v', 'q', 'Q']

structure TmpfilesDirEntry where
  path : String
  conf : String
  line : String
  deriving DecidableEq

/-- The entry of a line that makes a directory, unless its path is known at run time only. -/
def tmpfilesEntry (conf raw : String) : Option TmpfilesDirEntry :=
  let line := Text.trim raw
  if line.isEmpty || Text.startsWith line "#" then none
  else
    match splitWhitespace line with
    | kind :: path :: _ =>
      if path.toList.contains '%' then none
      else if kind.toList.head?.any DIRECTORY_CREATING_TYPES.contains then some ⟨path, conf, line⟩
      else none
    | _ => none

def indexTmpfilesFragment (conf content : String) : List TmpfilesDirEntry :=
  (Text.lines content).filterMap (tmpfilesEntry conf)

/-- The base names claimed so far and the entries, of which the first on a path counts. -/
structure TmpfilesIndex where
  claimed : List String := []
  entries : List TmpfilesDirEntry := []

def indexBasename (host : StorageHost) (dir : String) (index : TmpfilesIndex) (basename : String) :
    TmpfilesIndex :=
  if !Text.endsWith basename TMPFILES_SUFFIX || index.claimed.contains basename then index
  else
    { claimed := basename :: index.claimed
      entries := index.entries ++
        match host.readFragment (dir ++ "/" ++ basename) with
        | some content => indexTmpfilesFragment (dir ++ "/" ++ basename) content
        | none => [] }

def indexDir (host : StorageHost) (index : TmpfilesIndex) (dir : String) : TmpfilesIndex :=
  match host.tmpfilesDir dir with
  | .entries basenames => (basenames.insertionSort (· ≤ ·)).foldl (indexBasename host dir) index
  | _ => index

def loadTmpfilesIndex (host : StorageHost) : TmpfilesIndex := TMPFILES_DIRS.foldl (indexDir host) {}

def TmpfilesIndex.get (index : TmpfilesIndex) (path : String) : Option TmpfilesDirEntry :=
  index.entries.find? (·.path == path)

inductive DirectoryDirective where
  | state
  | cache
  | logs
  deriving DecidableEq

namespace DirectoryDirective

def base : DirectoryDirective → String
  | state => "/var/lib/"
  | cache => "/var/cache/"
  | logs => "/var/log/"

def name : DirectoryDirective → String
  | state => "StateDirectory"
  | cache => "CacheDirectory"
  | logs => "LogsDirectory"

def backing : DirectoryDirective → List String → VarDirBacking
  | state => .stateDirectory
  | cache => .cacheDirectory
  | logs => .logsDirectory

end DirectoryDirective

def DIRECTORY_DIRECTIVES : List DirectoryDirective := [.state, .cache, .logs]

def directivePattern (d : DirectoryDirective) (relative : String) : String :=
  d.name ++ "\\s*=\\s*" ++ relative

def UnitFile.isFound (u : UnitFile) (grep : ExtendedGrep) (d : DirectoryDirective)
    (relative : String) : Bool :=
  (Text.lines u.content).any fun line =>
    grep.found (directivePattern d relative).toList line.toList

/-- `grep -l` over the execution units of both trees. -/
def StorageHost.grepUnits (host : StorageHost) (d : DirectoryDirective) (relative : String) :
    ExecResult :=
  let hits := host.units.filter fun u => u.isExec && u.isFound host.grep d relative
  if hits.isEmpty then { exitCode := 1 } else { stdout := unlines (hits.map (·.path)) }

def declaringUnitPaths (stdout : String) : List String :=
  ((Text.lines stdout).map Text.trim).filter fun l => !l.isEmpty

def directiveBacking (host : StorageHost) (path : String) (d : DirectoryDirective) :
    Option VarDirBacking :=
  match Text.afterPrefix path d.base with
  | none => none
  | some relative =>
    if relative.isEmpty then none
    else
      let grep := host.grepUnits d relative
      if !grep.success then none
      else
        let declaredBy := declaringUnitPaths grep.stdout
        if declaredBy.isEmpty then none else some (d.backing declaredBy)

def queryOwningPackage (host : StorageHost) (path : String) : Option String :=
  let result := host.owner path
  if result.success then ((Text.lines result.stdout).map Text.trim).find? fun l => !l.isEmpty
  else none

def detectVarDirBacking (host : StorageHost) (path : String) (rpmOwned : List String)
    (tmpfiles : TmpfilesIndex) : VarDirBacking :=
  match tmpfiles.get path with
  | some entry => .tmpfiles entry.conf entry.line
  | none =>
    match DIRECTORY_DIRECTIVES.findSome? (directiveBacking host path) with
    | some backing => backing
    | none =>
      match if rpmOwned.contains path then queryOwningPackage host path else none with
      | some package => .rpmOwned package
      | none => .unbacked

structure TmpfilesFragment where
  /-- The place of its directory among the three. -/
  rank : Nat
  name : String
  content : Option String

def TmpfilesFragment.conf (f : TmpfilesFragment) : String :=
  TMPFILES_DIRS.getD f.rank "" ++ "/" ++ f.name

def TmpfilesFragment.entries (f : TmpfilesFragment) : List TmpfilesDirEntry :=
  match f.content with
  | some content => indexTmpfilesFragment f.conf content
  | none => []

def TmpfilesFragment.entry (path : String) (f : TmpfilesFragment) : Option TmpfilesDirEntry :=
  f.entries.find? (·.path == path)

def basenamesOf (listing : DirRead) : List String :=
  match listing with
  | .entries names => (names.insertionSort (· ≤ ·)).filter (Text.endsWith · TMPFILES_SUFFIX)
  | _ => []

namespace StorageHost

def fragmentsIn (host : StorageHost) (dir : String) (rank : Nat) : List TmpfilesFragment :=
  (basenamesOf (host.tmpfilesDir dir)).map fun name =>
    ⟨rank, name, host.readFragment (dir ++ "/" ++ name)⟩

def fragmentDirs (host : StorageHost) : List (List TmpfilesFragment) :=
  TMPFILES_DIRS.zipIdx.map fun (dir, rank) => host.fragmentsIn dir rank

def fragmentsInForce (host : StorageHost) : List TmpfilesFragment :=
  Fragments.unmasked TmpfilesFragment.name host.fragmentDirs

/-- The entry systemd makes the directory from. -/
def appliedEntry (host : StorageHost) (path : String) : Option TmpfilesDirEntry :=
  (Fragments.effective TmpfilesFragment.name host.fragmentDirs).findSome? (·.entry path)

end StorageHost

/-- A line that is no comment sets the directive to a list with the path among its items. -/
def DeclaresOn (line : String) (d : DirectoryDirective) (relative : String) : Prop :=
  ¬(Text.startsWith (Text.trim line) "#" ∨ Text.startsWith (Text.trim line) ";") ∧
    ∃ key value, Text.splitOnce '=' line = some (key, value) ∧ Text.trim key = d.name ∧
      relative ∈ splitWhitespace value

def UnitFile.Declares (u : UnitFile) (d : DirectoryDirective) (relative : String) : Prop :=
  (u.isExec ∨ u.isDropIn) ∧ ∃ line ∈ Text.lines u.content, DeclaresOn line d relative

section

variable (host : StorageHost) (path : String) (rpmOwned : List String)

def backingOf : VarDirBacking := detectVarDirBacking host path rpmOwned (loadTmpfilesIndex host)

def Provides (d : DirectoryDirective) (relative : String) : Prop :=
  path = d.base ++ relative ∧ relative ≠ ""

structure BackingExact : Prop where
  tmpfiles_iff : (∃ conf line, backingOf host path rpmOwned = .tmpfiles conf line) ↔
    ∃ f ∈ host.fragmentsInForce, (f.entry path).isSome
  tmpfiles_applied : ∀ conf line, backingOf host path rpmOwned = .tmpfiles conf line →
    ∃ e, host.appliedEntry path = some e ∧ e.conf = conf ∧ e.line = line
  directive_iff : ∀ d : DirectoryDirective,
    (∃ declaredBy, backingOf host path rpmOwned = d.backing declaredBy) ↔
      (∀ f ∈ host.fragmentsInForce, f.entry path = none) ∧
        ∃ relative, Provides path d relative ∧ ∃ u ∈ host.units, u.Declares d relative
  declared_by : ∀ (d : DirectoryDirective) (relative : String) (declaredBy : List String),
    Provides path d relative → backingOf host path rpmOwned = d.backing declaredBy →
      ∀ file, file ∈ declaredBy ↔ ∃ u ∈ host.units, u.path = file ∧ u.Declares d relative

def IsFirstRead (f : TmpfilesFragment) : Prop :=
  f ∈ host.fragmentsInForce ∧ (f.entry path).isSome ∧
    ∀ g ∈ host.fragmentsInForce, (g.entry path).isSome →
      f.rank < g.rank ∨ f.rank = g.rank ∧ f.name ≤ g.name

/-- The fragment read first comes first by name; without one, the units found are those that
    declare it, and no drop-in does. -/
structure EvidenceClear : Prop where
  first_named : ∀ f, IsFirstRead host path f →
    ∀ g ∈ host.fragmentsInForce, (g.entry path).isSome → f.name ≤ g.name
  found_declared : (∀ f ∈ host.fragmentsInForce, f.entry path = none) →
    ∀ d relative, Provides path d relative → ∀ u ∈ host.units,
      (u.isExec ∧ u.isFound host.grep d relative ↔ u.Declares d relative)

end

def claimFragment (index : TmpfilesIndex) (f : TmpfilesFragment) : TmpfilesIndex :=
  if f.name ∈ index.claimed then index
  else { claimed := f.name :: index.claimed, entries := index.entries ++ f.entries }

theorem entries_claimFragment (index : TmpfilesIndex) (fragments : List TmpfilesFragment) :
    (fragments.foldl claimFragment index).entries = index.entries ++
      (Fragments.claim TmpfilesFragment.name index.claimed fragments).flatMap (·.entries) := by
  induction fragments generalizing index with
  | nil => exact (List.append_nil _).symm
  | cons f rest ih =>
    rw [List.foldl_cons, ih, Fragments.claim, claimFragment]
    split
    · rfl
    · rw [List.flatMap_cons, List.append_assoc]

theorem indexDir_eq (host : StorageHost) (index : TmpfilesIndex) {dir : String} {rank : Nat}
    (place : TMPFILES_DIRS.getD rank "" = dir) :
    indexDir host index dir = (host.fragmentsIn dir rank).foldl claimFragment index := by
  have run : ∀ (names : List String) (index : TmpfilesIndex),
      names.foldl (indexBasename host dir) index =
        ((names.filter (Text.endsWith · TMPFILES_SUFFIX)).map fun name =>
          (⟨rank, name, host.readFragment (dir ++ "/" ++ name)⟩ : TmpfilesFragment)).foldl
            claimFragment index := by
    intro names
    induction names with
    | nil => exact fun _ => rfl
    | cons name rest ih =>
      intro index
      rw [List.foldl_cons, ih, List.filter_cons, indexBasename]
      cases ends : Text.endsWith name TMPFILES_SUFFIX with
      | false => rfl
      | true =>
        rw [if_pos rfl, List.map_cons, List.foldl_cons]
        congr 1
        rw [claimFragment]
        by_cases seen : name ∈ index.claimed
        · simp [seen]
        · simp only [Bool.not_true, List.contains_eq_mem, seen, decide_false, Bool.or_false,
            Bool.false_eq_true, if_false]
          rw [TmpfilesFragment.entries, TmpfilesFragment.conf, place]
  unfold indexDir StorageHost.fragmentsIn basenamesOf
  cases host.tmpfilesDir dir with
  | entries names => exact run _ index
  | denied => rfl
  | missing => rfl

theorem loadTmpfilesIndex_eq (host : StorageHost) :
    loadTmpfilesIndex host = host.fragmentDirs.flatten.foldl claimFragment {} := by
  have dirs : host.fragmentDirs = [host.fragmentsIn "/etc/tmpfiles.d" 0,
      host.fragmentsIn "/run/tmpfiles.d" 1, host.fragmentsIn "/usr/lib/tmpfiles.d" 2] := rfl
  rw [loadTmpfilesIndex, TMPFILES_DIRS, dirs]
  simp only [List.foldl_cons, List.foldl_nil, List.flatten_cons, List.flatten_nil, List.append_nil,
    List.foldl_append]
  rw [indexDir_eq host {} (show TMPFILES_DIRS.getD 0 "" = "/etc/tmpfiles.d" from rfl),
    indexDir_eq host _ (show TMPFILES_DIRS.getD 1 "" = "/run/tmpfiles.d" from rfl),
    indexDir_eq host _ (show TMPFILES_DIRS.getD 2 "" = "/usr/lib/tmpfiles.d" from rfl)]

section

variable {host : StorageHost} {path : String}

theorem mem_fragmentDirs {dir : List TmpfilesFragment} (mem : dir ∈ host.fragmentDirs) :
    ∃ text rank, (text, rank) ∈ TMPFILES_DIRS.zipIdx ∧ dir = host.fragmentsIn text rank := by
  obtain ⟨⟨text, rank⟩, place, rfl⟩ := List.mem_map.mp mem
  exact ⟨text, rank, place, rfl⟩

theorem fragmentDirs_apart :
    ∀ dir ∈ host.fragmentDirs, Fragments.Apart TmpfilesFragment.name dir := by
  intro dir mem f hf g hg same
  obtain ⟨text, rank, -, rfl⟩ := mem_fragmentDirs mem
  obtain ⟨name, -, rfl⟩ := List.mem_map.mp hf
  obtain ⟨other, -, rfl⟩ := List.mem_map.mp hg
  cases same
  rfl

def readingKey (f : TmpfilesFragment) : Nat ×ₗ String := toLex (f.rank, f.name)

theorem readingKey_le {f g : TmpfilesFragment} :
    readingKey f ≤ readingKey g ↔ f.rank < g.rank ∨ f.rank = g.rank ∧ f.name ≤ g.name :=
  Prod.Lex.toLex_le_toLex

theorem basenamesOf_sorted (listing : DirRead) : (basenamesOf listing).Pairwise (· ≤ ·) := by
  unfold basenamesOf
  split
  · exact (List.pairwise_insertionSort _ _).filter _
  · exact List.Pairwise.nil

theorem fragmentDirs_sorted :
    host.fragmentDirs.flatten.Pairwise fun f g => readingKey f ≤ readingKey g := by
  rw [List.pairwise_flatten]
  constructor
  · intro dir mem
    obtain ⟨text, rank, -, rfl⟩ := mem_fragmentDirs mem
    refine List.pairwise_map.mpr ((basenamesOf_sorted _).imp fun le => ?_)
    exact readingKey_le.mpr (.inr ⟨rfl, le⟩)
  · refine List.pairwise_map.mpr ?_
    have ranks : TMPFILES_DIRS.zipIdx.Pairwise fun a b => a.2 < b.2 := by decide
    refine ranks.imp fun {a b} less => ?_
    intro f hf g hg
    obtain ⟨name, -, rfl⟩ := List.mem_map.mp hf
    obtain ⟨other, -, rfl⟩ := List.mem_map.mp hg
    exact readingKey_le.mpr (.inl less)

theorem mem_claimed {f : TmpfilesFragment} :
    f ∈ Fragments.claim TmpfilesFragment.name [] host.fragmentDirs.flatten ↔
      f ∈ host.fragmentsInForce := by
  rw [Fragments.mem_claim fragmentDirs_apart]
  exact and_iff_right List.not_mem_nil

theorem get_eq_some_iff {e : TmpfilesDirEntry} : (loadTmpfilesIndex host).get path = some e ↔
    ∃ f, IsFirstRead host path f ∧ f.entry path = some e := by
  have entries : (loadTmpfilesIndex host).get path =
      (Fragments.claim TmpfilesFragment.name [] host.fragmentDirs.flatten).findSome?
        (·.entry path) := by
    rw [TmpfilesIndex.get, loadTmpfilesIndex_eq, entries_claimFragment]
    exact List.find?_flatMap
  have sorted : (Fragments.claim TmpfilesFragment.name [] host.fragmentDirs.flatten).Pairwise
      fun f g => readingKey f ≤ readingKey g :=
    fragmentDirs_sorted.sublist (Fragments.claim_sublist _ _)
  have apart : Fragments.Apart readingKey
      (Fragments.claim TmpfilesFragment.name [] host.fragmentDirs.flatten) := by
    intro f hf g hg same
    have parts := Prod.mk.inj (toLex.injective same)
    exact Fragments.apart_unmasked fragmentDirs_apart f (mem_claimed.mp hf) g (mem_claimed.mp hg)
      parts.2
  rw [entries, Fragments.findSome_of_sorted sorted apart]
  simp only [mem_claimed, readingKey_le, IsFirstRead]
  constructor
  · rintro ⟨f, mem, got, first⟩
    exact ⟨f, ⟨mem, by rw [got, Option.isSome_some], first⟩, got⟩
  · rintro ⟨f, ⟨mem, -, first⟩, got⟩
    exact ⟨f, mem, got, first⟩

theorem applied_eq_some_iff {e : TmpfilesDirEntry} : host.appliedEntry path = some e ↔
    ∃ f ∈ host.fragmentsInForce, f.entry path = some e ∧
      ∀ g ∈ host.fragmentsInForce, (g.entry path).isSome → f.name ≤ g.name :=
  Fragments.findSome_effective fragmentDirs_apart

theorem conf_of_entry {f : TmpfilesFragment} {e : TmpfilesDirEntry} (h : f.entry path = some e) :
    e.conf = f.conf := by
  have mem := List.mem_of_find?_eq_some h
  unfold TmpfilesFragment.entries at mem
  split at mem
  · obtain ⟨raw, -, read⟩ := List.mem_filterMap.mp mem
    unfold tmpfilesEntry at read
    dsimp only at read
    split at read
    · cases read
    split at read
    · split at read
      · cases read
      split at read
      · cases read
        rfl
      · cases read
    · cases read
  · cases mem

theorem rank_of_inForce {f : TmpfilesFragment} (mem : f ∈ host.fragmentsInForce) : f.rank < 3 := by
  have listed := (List.Sublist.subset (Fragments.claim_sublist _ _)) (mem_claimed.mpr mem)
  obtain ⟨dir, inside, here⟩ := List.mem_flatten.mp listed
  obtain ⟨text, rank, place, rfl⟩ := mem_fragmentDirs inside
  obtain ⟨name, -, rfl⟩ := List.mem_map.mp here
  have ranks : ∀ pair ∈ TMPFILES_DIRS.zipIdx, pair.2 < 3 := by decide
  exact ranks _ place

theorem name_of_conf {f g : TmpfilesFragment} (hf : f.rank < 3) (hg : g.rank < 3)
    (same : f.conf = g.conf) : f.name = g.name := by
  have dirs : ∀ i < 3, ∀ j < 3, (TMPFILES_DIRS.getD i "").toList[1]? =
      (TMPFILES_DIRS.getD j "").toList[1]? → i = j := by decide
  have second : ∀ i < 3, ∀ name : String,
      (TMPFILES_DIRS.getD i "" ++ "/" ++ name).toList[1]? =
        (TMPFILES_DIRS.getD i "").toList[1]? := by
    intro i below name
    have long : 1 < (TMPFILES_DIRS.getD i "").toList.length := by
      have sizes : ∀ i < 3, 1 < (TMPFILES_DIRS.getD i "").toList.length := by decide
      exact sizes i below
    rw [String.toList_append, String.toList_append, List.append_assoc,
      List.getElem?_append_left long]
  have ranks : f.rank = g.rank := by
    refine dirs _ hf _ hg ?_
    rw [← second _ hf f.name, ← second _ hg g.name]
    exact congrArg (fun s => s.toList[1]?) same
  rw [TmpfilesFragment.conf, TmpfilesFragment.conf, ranks] at same
  exact String.append_right_inj _ |>.mp same

theorem get_eq_none_iff : (loadTmpfilesIndex host).get path = none ↔
    ∀ f ∈ host.fragmentsInForce, f.entry path = none := by
  constructor
  · intro none f mem
    have unlisted : ∀ g ∈ Fragments.claim TmpfilesFragment.name [] host.fragmentDirs.flatten,
        g.entry path = Option.none := by
      rw [TmpfilesIndex.get, loadTmpfilesIndex_eq, entries_claimFragment] at none
      rw [List.nil_append, List.find?_flatMap] at none
      exact List.findSome?_eq_none_iff.mp none
    exact unlisted f (mem_claimed.mpr mem)
  · intro unset
    cases got : (loadTmpfilesIndex host).get path with
    | none => rfl
    | some e =>
      obtain ⟨f, ⟨mem, -, -⟩, set⟩ := get_eq_some_iff.mp got
      rw [unset f mem] at set
      cases set

theorem declaringUnitPaths_unlines (units : List UnitFile) :
    declaringUnitPaths (unlines (units.map (·.path))) = units.map (·.path) := by
  have rows : ∀ row ∈ units.map (·.path), IsRow row := by
    intro row mem
    obtain ⟨u, -, rfl⟩ := List.mem_map.mp mem
    refine ⟨fun newline => absurd (u.solid _ newline) (by decide), fun last => ?_⟩
    exact absurd (u.solid _ (List.mem_of_getLast? last)) (by decide)
  rw [declaringUnitPaths, lines_unlines rows, List.map_map]
  have whole : units.map (Text.trim ∘ (·.path)) = units.map (·.path) := by
    refine List.map_congr_left fun u _ => ?_
    rw [Function.comp_apply, Text.trim, trimChars_plain u.solid, String.ofList_toList]
  rw [whole, List.filter_eq_self]
  intro row mem
  obtain ⟨u, -, rfl⟩ := List.mem_map.mp mem
  simp [u.filled]

def StorageHost.hits (host : StorageHost) (d : DirectoryDirective) (relative : String) :
    List UnitFile :=
  host.units.filter fun u => u.isExec && u.isFound host.grep d relative

variable (host) in
theorem grepUnits_hits (d : DirectoryDirective) (relative : String) :
    (host.hits d relative = [] ∧ (host.grepUnits d relative).success = false) ∨
      host.hits d relative ≠ [] ∧ (host.grepUnits d relative).success = true ∧
        declaringUnitPaths (host.grepUnits d relative).stdout =
          (host.hits d relative).map (·.path) := by
  unfold StorageHost.grepUnits
  dsimp only
  rw [← StorageHost.hits]
  by_cases none : host.hits d relative = []
  · rw [none]
    exact .inl ⟨rfl, rfl⟩
  · rw [if_neg (by simpa using none)]
    exact .inr ⟨none, rfl, declaringUnitPaths_unlines _⟩

theorem directiveBacking_iff {d : DirectoryDirective} {b : VarDirBacking} :
    directiveBacking host path d = some b ↔ ∃ relative, Provides path d relative ∧
      host.hits d relative ≠ [] ∧ b = d.backing ((host.hits d relative).map (·.path)) := by
  unfold directiveBacking
  cases after : Text.afterPrefix path d.base with
  | none =>
    refine iff_of_false nofun ?_
    rintro ⟨relative, ⟨rfl, -⟩, -⟩
    rw [Text.afterPrefix_append] at after
    cases after
  | some relative =>
    have whole : path = d.base ++ relative :=
      String.toList_injective (by rw [afterPrefix_some after, String.toList_append])
    have place : ∀ other, Provides path d other ↔ other = relative ∧ relative ≠ "" := by
      intro other
      constructor
      · rintro ⟨same, filled⟩
        obtain rfl := (String.append_right_inj _).mp (whole.symm.trans same)
        exact ⟨rfl, filled⟩
      · rintro ⟨rfl, filled⟩
        exact ⟨whole, filled⟩
    simp only [place, and_assoc, exists_eq_left]
    by_cases empty : relative = ""
    · subst empty
      exact iff_of_false nofun fun h => h.1 rfl
    · have filled : relative.isEmpty = false := by simpa using empty
      rw [filled, if_neg Bool.false_ne_true]
      rcases grepUnits_hits host d relative with ⟨none, failed⟩ | ⟨some, success, listed⟩
      · rw [failed]
        exact iff_of_false nofun fun h => h.2.1 none
      · rw [success, listed]
        have some' : ((host.hits d relative).map (·.path)).isEmpty = false := by simpa using some
        rw [Bool.not_true, if_neg Bool.false_ne_true, some', if_neg Bool.false_ne_true,
          Option.some.injEq]
        constructor
        · intro same
          exact ⟨empty, some, same.symm⟩
        · exact fun h => h.2.2.symm

theorem provides_unique {d e : DirectoryDirective} {relative other : String}
    (one : Provides path d relative) (two : Provides path e other) : d = e ∧ relative = other := by
  have letters : ∀ a b : DirectoryDirective, a.base.toList[6]? = b.base.toList[6]? → a = b := by
    intro a b
    cases a <;> cases b <;> decide
  have sixth : ∀ (a : DirectoryDirective) (text : String),
      (a.base ++ text).toList[6]? = a.base.toList[6]? := by
    intro a text
    have long : 6 < a.base.toList.length := by cases a <;> decide
    rw [String.toList_append, List.getElem?_append_left long]
  have same := one.1.symm.trans two.1
  obtain rfl : d = e := by
    refine letters d e ?_
    rw [← sixth d relative, ← sixth e other, same]
  exact ⟨rfl, (String.append_right_inj _).mp same⟩

theorem backing_inj {d e : DirectoryDirective} {a b : List String} (h : d.backing a = e.backing b) :
    d = e ∧ a = b := by
  cases d <;> cases e <;> cases h <;> exact ⟨rfl, rfl⟩

theorem backing_ne_tmpfiles (d : DirectoryDirective) (files : List String) (conf line : String) :
    d.backing files ≠ .tmpfiles conf line := by
  cases d <;> nofun

theorem backing_ne_rest (d : DirectoryDirective) (files : List String) :
    (∀ package, d.backing files ≠ .rpmOwned package) ∧ d.backing files ≠ .unbacked := by
  cases d <;> exact ⟨nofun, nofun⟩

theorem findSome_directives_iff {b : VarDirBacking} :
    DIRECTORY_DIRECTIVES.findSome? (directiveBacking host path) = some b ↔
      ∃ d, directiveBacking host path d = some b := by
  constructor
  · intro found
    obtain ⟨d, -, answer⟩ := List.exists_of_findSome?_eq_some found
    exact ⟨d, answer⟩
  · rintro ⟨d, answer⟩
    have listed : d ∈ DIRECTORY_DIRECTIVES := by cases d <;> decide
    cases found : DIRECTORY_DIRECTIVES.findSome? (directiveBacking host path) with
    | none =>
      rw [List.findSome?_eq_none_iff.mp found d listed] at answer
      cases answer
    | some c =>
      obtain ⟨e, -, other⟩ := List.exists_of_findSome?_eq_some found
      obtain ⟨relative, place, -⟩ := directiveBacking_iff.mp answer
      obtain ⟨relative', place', -⟩ := directiveBacking_iff.mp other
      obtain ⟨rfl, -⟩ := provides_unique place place'
      exact other.symm.trans answer

variable {rpmOwned : List String}

theorem backingOf_tmpfiles_iff {conf line : String} :
    backingOf host path rpmOwned = .tmpfiles conf line ↔
      ∃ e, (loadTmpfilesIndex host).get path = some e ∧ e.conf = conf ∧ e.line = line := by
  unfold backingOf detectVarDirBacking
  cases (loadTmpfilesIndex host).get path with
  | some e => simp
  | none =>
    refine iff_of_false ?_ (by rintro ⟨e, none, -⟩; cases none)
    dsimp only
    split
    next b found =>
      obtain ⟨d, answer⟩ := findSome_directives_iff.mp found
      obtain ⟨relative, -, -, rfl⟩ := directiveBacking_iff.mp answer
      exact backing_ne_tmpfiles d _ conf line
    next => split <;> nofun

theorem backingOf_directive_iff {d : DirectoryDirective} {files : List String} :
    backingOf host path rpmOwned = d.backing files ↔
      (loadTmpfilesIndex host).get path = none ∧
        directiveBacking host path d = some (d.backing files) := by
  unfold backingOf detectVarDirBacking
  cases (loadTmpfilesIndex host).get path with
  | some e => exact iff_of_false (backing_ne_tmpfiles d files _ _).symm fun h => nomatch h.1
  | none =>
    dsimp only
    rw [and_iff_right rfl]
    split
    next b found =>
      obtain ⟨e, answer⟩ := findSome_directives_iff.mp found
      constructor
      · rintro rfl
        obtain ⟨relative, -, -, same⟩ := directiveBacking_iff.mp answer
        obtain ⟨rfl, -⟩ := backing_inj same
        exact answer
      · intro other
        have both := findSome_directives_iff.mpr ⟨d, other⟩
        rw [found] at both
        exact Option.some.inj both
    next none =>
      refine iff_of_false ?_ fun other => ?_
      · obtain ⟨not_owned, not_unbacked⟩ := backing_ne_rest d files
        split
        · exact (not_owned _).symm
        · exact not_unbacked.symm
      · rw [findSome_directives_iff.mpr ⟨d, other⟩] at none
        cases none

theorem mem_hits {d : DirectoryDirective} {relative : String} {u : UnitFile} :
    u ∈ host.hits d relative ↔ u ∈ host.units ∧ u.isExec ∧ u.isFound host.grep d relative := by
  rw [StorageHost.hits, List.mem_filter, Bool.and_eq_true]

theorem unit_of_path {u v : UnitFile} (hu : u ∈ host.units) (hv : v ∈ host.units)
    (same : u.path = v.path) : u = v :=
  List.inj_on_of_nodup_map host.unitsDistinct hu hv same

theorem clear_of_exact (exact' : BackingExact host path rpmOwned) : EvidenceClear host path := by
  constructor
  · intro f first g mem set
    obtain ⟨e, entry⟩ := Option.isSome_iff_exists.mp first.2.1
    have got := get_eq_some_iff.mpr ⟨f, first, entry⟩
    have answer : backingOf host path rpmOwned = .tmpfiles e.conf e.line :=
      backingOf_tmpfiles_iff.mpr ⟨e, got, rfl, rfl⟩
    obtain ⟨e', applied, conf, -⟩ := exact'.tmpfiles_applied _ _ answer
    obtain ⟨f', mem', entry', least⟩ := applied_eq_some_iff.mp applied
    have name : f'.name = f.name := by
      refine name_of_conf (rank_of_inForce mem') (rank_of_inForce first.1) ?_
      rw [← conf_of_entry entry', ← conf_of_entry entry, conf]
    exact name ▸ least g mem set
  · intro unset d relative place u mem
    have none := get_eq_none_iff.mpr unset
    have listed_iff : ∀ v ∈ host.units, v ∈ host.hits d relative ↔ v.Declares d relative := by
      intro v inside
      by_cases some : host.hits d relative = []
      · have undeclared : ¬∃ w ∈ host.units, w.Declares d relative := by
          rintro ⟨w, hw, declares⟩
          obtain ⟨files, answer⟩ :=
            (exact'.directive_iff d).mpr ⟨unset, relative, place, w, hw, declares⟩
          obtain ⟨other, place', some', -⟩ :=
            directiveBacking_iff.mp (backingOf_directive_iff.mp answer).2
          obtain ⟨-, rfl⟩ := provides_unique place place'
          exact some' some
        rw [some]
        exact iff_of_false List.not_mem_nil fun declares => undeclared ⟨v, inside, declares⟩
      · have answer : backingOf host path rpmOwned =
            d.backing ((host.hits d relative).map (·.path)) :=
          backingOf_directive_iff.mpr
            ⟨none, directiveBacking_iff.mpr ⟨relative, place, some, rfl⟩⟩
        have by_path := exact'.declared_by d relative _ place answer v.path
        constructor
        · intro hit
          obtain ⟨w, hw, path, declares⟩ := by_path.mp (List.mem_map_of_mem hit)
          exact unit_of_path hw inside path ▸ declares
        · intro declares
          obtain ⟨w, hit, path⟩ := List.mem_map.mp (by_path.mpr ⟨v, inside, rfl, declares⟩)
          exact unit_of_path (mem_hits.mp hit).1 inside path ▸ hit
    rw [← listed_iff u mem, mem_hits, and_iff_right mem]

theorem exact_of_clear (clear : EvidenceClear host path) : BackingExact host path rpmOwned := by
  have hits_iff : (∀ f ∈ host.fragmentsInForce, f.entry path = none) → ∀ d relative,
      Provides path d relative → ∀ u, u ∈ host.hits d relative ↔
        u ∈ host.units ∧ u.Declares d relative := by
    intro unset d relative place u
    rw [mem_hits]
    exact and_congr_right fun mem => clear.found_declared unset d relative place u mem
  constructor
  case tmpfiles_iff =>
    constructor
    · rintro ⟨conf, line, answer⟩
      obtain ⟨e, got, -⟩ := backingOf_tmpfiles_iff.mp answer
      obtain ⟨f, ⟨mem, set, -⟩, -⟩ := get_eq_some_iff.mp got
      exact ⟨f, mem, set⟩
    · rintro ⟨f, mem, set⟩
      cases got : (loadTmpfilesIndex host).get path with
      | none =>
        rw [get_eq_none_iff.mp got f mem] at set
        cases set
      | some e => exact ⟨_, _, backingOf_tmpfiles_iff.mpr ⟨e, got, rfl, rfl⟩⟩
  case tmpfiles_applied =>
    intro conf line answer
    obtain ⟨e, got, conf', line'⟩ := backingOf_tmpfiles_iff.mp answer
    obtain ⟨f, first, entry⟩ := get_eq_some_iff.mp got
    exact ⟨e, applied_eq_some_iff.mpr ⟨f, first.1, entry, clear.first_named f first⟩, conf', line'⟩
  case directive_iff =>
    intro d
    constructor
    · rintro ⟨files, answer⟩
      obtain ⟨none, directive⟩ := backingOf_directive_iff.mp answer
      have unset := get_eq_none_iff.mp none
      obtain ⟨relative, place, some, -⟩ := directiveBacking_iff.mp directive
      obtain ⟨u, hit⟩ := List.exists_mem_of_ne_nil _ some
      exact ⟨unset, relative, place, u, (hits_iff unset d relative place u).mp hit⟩
    · rintro ⟨unset, relative, place, u, mem, declares⟩
      have hit := (hits_iff unset d relative place u).mpr ⟨mem, declares⟩
      exact ⟨_, backingOf_directive_iff.mpr ⟨get_eq_none_iff.mpr unset,
        directiveBacking_iff.mpr ⟨relative, place, List.ne_nil_of_mem hit, rfl⟩⟩⟩
  case declared_by =>
    intro d relative files place answer file
    obtain ⟨none, directive⟩ := backingOf_directive_iff.mp answer
    have unset := get_eq_none_iff.mp none
    obtain ⟨other, place', -, same⟩ := directiveBacking_iff.mp directive
    obtain ⟨-, rfl⟩ := provides_unique place place'
    obtain ⟨-, rfl⟩ := backing_inj same
    rw [List.mem_map]
    constructor
    · rintro ⟨u, hit, rfl⟩
      obtain ⟨mem, declares⟩ := (hits_iff unset d relative place u).mp hit
      exact ⟨u, mem, rfl, declares⟩
    · rintro ⟨u, mem, rfl, declares⟩
      exact ⟨u, (hits_iff unset d relative place u).mpr ⟨mem, declares⟩, rfl⟩

end

def matchesHere (isSpace : Char → Bool) (directive relative text : List Char) : Bool :=
  directive.isPrefixOf text &&
    match (text.drop directive.length).dropWhile isSpace with
    | '=' :: rest => relative.isPrefixOf (rest.dropWhile isSpace)
    | _ => false

/-- Expressions of this one form only. -/
def writtenFound (pattern line : List Char) : Bool :=
  let directive := pattern.takeWhile Char.isAlphanum
  let relative := (pattern.dropWhile Char.isAlphanum).drop 7
  line.tails.any fun text => matchesHere Text.isAsciiWhitespace directive relative text

theorem matchesHere_iff {directive relative text : List Char}
    (solid : ∀ c ∈ relative, Text.isAsciiWhitespace c = false) :
    matchesHere Text.isAsciiWhitespace directive relative text ↔
      ∃ gap gap' after, text = directive ++ gap ++ '=' :: gap' ++ relative ++ after ∧
        gap.all Text.isAsciiWhitespace ∧ gap'.all Text.isAsciiWhitespace := by
  rw [matchesHere, Bool.and_eq_true, List.isPrefixOf_iff_prefix]
  constructor
  · rintro ⟨⟨rest, rfl⟩, follows⟩
    rw [List.drop_left] at follows
    split at follows
    next tail gone =>
      obtain ⟨after, found⟩ := List.isPrefixOf_iff_prefix.mp follows
      refine ⟨rest.takeWhile Text.isAsciiWhitespace, tail.takeWhile Text.isAsciiWhitespace, after,
        ?_, List.all_takeWhile, List.all_takeWhile⟩
      have tail_eq : tail.takeWhile Text.isAsciiWhitespace ++ (relative ++ after) = tail := by
        rw [found, List.takeWhile_append_dropWhile]
      have rest_eq : rest.takeWhile Text.isAsciiWhitespace ++ '=' :: tail = rest := by
        rw [← gone, List.takeWhile_append_dropWhile]
      simp only [List.append_assoc, List.cons_append]
      rw [tail_eq, rest_eq]
    next => cases follows
  · rintro ⟨gap, gap', after, rfl, blank, blank'⟩
    have past : ∀ (blanks more : List Char), blanks.all Text.isAsciiWhitespace →
        (∀ c, more.head? = some c → Text.isAsciiWhitespace c = false) →
          (blanks ++ more).dropWhile Text.isAsciiWhitespace = more := by
      intro blanks more all first
      rw [List.dropWhile_append_of_pos fun c mem => List.all_eq_true.mp all c mem]
      cases more with
      | nil => rfl
      | cons c rest =>
        rw [List.dropWhile_cons_of_neg]
        rw [first c rfl]
        exact Bool.false_ne_true
    simp only [List.append_assoc, List.cons_append]
    refine ⟨List.prefix_append _ _, ?_⟩
    rw [List.drop_left, past gap _ blank (by rintro c ⟨⟩; decide)]
    change relative.isPrefixOf ((gap' ++ (relative ++ after)).dropWhile _) = true
    rw [List.isPrefixOf_iff_prefix]
    cases relative with
    | nil => exact List.nil_prefix
    | cons c more =>
      rw [past gap' _ blank' (by rintro e ⟨⟩; exact solid c List.mem_cons_self)]
      exact List.prefix_append _ _

theorem not_blank_of_pathChar {c : Char} (h : isPathChar c) : Text.isAsciiWhitespace c = false := by
  by_contra blank
  rw [Bool.not_eq_false, Text.isAsciiWhitespace] at blank
  simp only [Bool.or_eq_true, beq_iff_eq] at blank
  have wide : Text.isWhitespace c := by
    rcases blank with (((rfl | rfl) | rfl) | rfl) | code
    · decide
    · decide
    · decide
    · decide
    · rw [Text.isWhitespace, code]
      decide
  rw [isPathChar] at h
  simp only [Bool.or_eq_true, beq_iff_eq] at h
  rcases h with ((letter | rfl) | rfl) | rfl
  · rw [Text.isWhitespace_alphanum letter] at wide
    cases wide
  · exact absurd wide (by decide)
  · exact absurd wide (by decide)
  · exact absurd wide (by decide)

theorem directive_cut {directive : List Char} (letters : directive.all Char.isAlphanum)
    (rest : List Char) :
    (directive ++ '\\' :: rest).takeWhile Char.isAlphanum = directive ∧
      (directive ++ '\\' :: rest).dropWhile Char.isAlphanum = '\\' :: rest := by
  have all := fun c mem => List.all_eq_true.mp letters c mem
  constructor
  · rw [List.takeWhile_append_of_pos all, List.takeWhile_cons_of_neg (by decide), List.append_nil]
  · rw [List.dropWhile_append_of_pos all, List.dropWhile_cons_of_neg (by decide)]

def writtenGrep : ExtendedGrep where
  found := writtenFound
  isSpace := Text.isAsciiWhitespace
  plain := by
    intro directive relative line letters plain
    have solid : ∀ c ∈ relative, Text.isAsciiWhitespace c = false :=
      fun c mem => not_blank_of_pathChar (List.all_eq_true.mp plain c mem)
    have cut := directive_cut letters ("s*=\\s*".toList ++ relative)
    have parts : (directive ++ "\\s*=\\s*".toList ++ relative).takeWhile Char.isAlphanum =
        directive ∧
        ((directive ++ "\\s*=\\s*".toList ++ relative).dropWhile Char.isAlphanum).drop 7 =
          relative := by
      rw [List.append_assoc]
      exact ⟨cut.1, congrArg (List.drop 7) cut.2⟩
    unfold writtenFound
    dsimp only
    rw [parts.1, parts.2, List.any_eq_true]
    simp only [matchesHere_iff solid, List.mem_tails]
    constructor
    · rintro ⟨text, ⟨before, rfl⟩, gap, gap', after, rfl, blanks⟩
      exact ⟨before, gap, gap', after, by simp only [List.append_assoc], blanks⟩
    · rintro ⟨before, gap, gap', after, rfl, blanks⟩
      refine ⟨directive ++ gap ++ '=' :: gap' ++ relative ++ after, ⟨before, ?_⟩, gap, gap', after,
        rfl, blanks⟩
      simp only [List.append_assoc]

def foobarUnit : UnitFile where
  path := "/usr/lib/systemd/system/foobar.service"
  content := "[Service]\nStateDirectory=foobar\n"
  solid := by decide
  filled := by decide

def foobarHost : StorageHost where
  tmpfilesDir _ := .missing
  readFragment _ := none
  grep := writtenGrep
  units := [foobarUnit]
  unitsDistinct := List.nodup_singleton _
  owner _ := { exitCode := 1 }

end Inspectah
