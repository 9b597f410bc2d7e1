import Inspectah.Collect.InstalledGroups
import Inspectah.Core.Json
import Inspectah.Core.Text

/-!
The packages of a `package-lock.json`, by place from version 2 on and nested in version 1; and
the gems of a `Gemfile.lock`, four blanks below the `specs:` of a section.
-/
namespace Inspectah

variable (gems : List GemPackage) (g : LockedGem)

structure NpmPackage where
  name : String
  version : String
  deriving DecidableEq

def Json.asObject : Json → Option (List (String × Json))
  | .obj fields => some fields
  | _ => none

def NODE_MODULES : String := "node_modules/"

def entryVersion (value : Json) : String := ((value.get "version").bind Json.asStr).getD ""

/-- The row made of one entry of the `packages` map; the root is skipped. -/
def packageEntry (entry : String × Json) : Option NpmPackage :=
  if entry.1.isEmpty then none
  else some
    { name := (Text.afterPrefix entry.1 NODE_MODULES).getD entry.1, version := entryVersion entry.2 }

def dependencyEntry (entry : String × Json) : NpmPackage :=
  { name := entry.1, version := entryVersion entry.2 }

/-- `parse_package_lock`. -/
def parsePackageLock (fromStr : String → Except String Json) (content : String) :
    List NpmPackage :=
  match fromStr content with
  | .error _ => []
  | .ok parsed =>
    match (parsed.get "packages").bind Json.asObject with
    | some pkgs => pkgs.filterMap packageEntry
    | none =>
      match (parsed.get "dependencies").bind Json.asObject with
      | some deps => deps.map dependencyEntry
      | none => []

def afterLast (needle : List Char) : List Char → Option (List Char)
  | [] => none
  | c :: cs =>
    match afterLast needle cs with
    | some rest => some rest
    | none => if needle.isPrefixOf (c :: cs) then some ((c :: cs).drop needle.length) else none

/-- The name of the package installed at a place, which lies under `node_modules/`. -/
def installedName (location : String) : Option String :=
  (afterLast NODE_MODULES.toList location.toList).map String.ofList

def lockedVersion (entries : List (String × Json)) (value : Json) : String :=
  if value.get "link" = some (.bool true) then
    ((((value.get "resolved").bind Json.asStr).bind fun target =>
      entries.find? fun e => e.1 == target).map fun e => entryVersion e.2).getD ""
  else entryVersion value

def lockedEntry (entries : List (String × Json)) (entry : String × Json) : Option NpmPackage :=
  (installedName entry.1).map fun name =>
    { name := name, version := lockedVersion entries entry.2 }

mutual

/-- The packages in the `dependencies` field of a value, with those nested in them. -/
def Json.lockedBelow : Json → List NpmPackage
  | .obj fields => lockedField fields
  | _ => []

def lockedField : List (String × Json) → List NpmPackage
  | [] => []
  | (key, value) :: rest =>
    if key == "dependencies" then value.lockedTree else lockedField rest

def Json.lockedTree : Json → List NpmPackage
  | .obj deps => lockedRows deps
  | _ => []

def lockedRows : List (String × Json) → List NpmPackage
  | [] => []
  | (name, value) :: rest =>
    { name := name, version := entryVersion value } :: (value.lockedBelow ++ lockedRows rest)

end

/-- Every package the document installs, once for each place. -/
def lockedPackages (doc : Json) : List NpmPackage :=
  match (doc.get "packages").bind Json.asObject with
  | some entries => entries.filterMap (lockedEntry entries)
  | none => doc.lockedBelow

/-- Every place is one step below the project, and holds the version it is locked to. -/
def OneLevel (entries : List (String × Json)) : Prop :=
  ∀ e ∈ entries, e.1 = "" ∨ ∃ name, e.1 = NODE_MODULES ++ name ∧ installedName name = none ∧
    entryVersion e.2 = lockedVersion entries e.2

def nestedDependencies (value : Json) : List (String × Json) :=
  ((value.get "dependencies").bind Json.asObject).getD []

def FlatLock (doc : Json) : Prop :=
  match (doc.get "packages").bind Json.asObject with
  | some entries => OneLevel entries
  | none => ∀ e ∈ nestedDependencies doc, nestedDependencies e.2 = []

section Names

variable {needle cs rest : List Char}

theorem afterLast_none_iff (some_needle : needle ≠ []) :
    afterLast needle cs = none ↔ ¬ needle <:+: cs := by
  induction cs with
  | nil => simp [afterLast, some_needle]
  | cons c cs ih =>
    rw [afterLast, List.infix_cons_iff]
    cases found : afterLast needle cs with
    | some rest => simp [← ih, found]
    | none =>
      rw [found] at ih
      have absent : ¬ needle <:+: cs := ih.mp rfl
      by_cases here : needle.isPrefixOf (c :: cs) = true
      · simp [here, List.isPrefixOf_iff_prefix.mp here]
      · have not_here : ¬ needle <+: c :: cs := fun pre => here (List.isPrefixOf_iff_prefix.mpr pre)
        simp [here, not_here, absent]

theorem afterLast_clear (some_needle : needle ≠ []) (found : afterLast needle cs = some rest) :
    afterLast needle rest = none := by
  induction cs with
  | nil => cases found
  | cons c cs ih =>
    rw [afterLast] at found
    cases later : afterLast needle cs with
    | some rest' =>
      rw [later] at found
      cases found
      exact ih later
    | none =>
      rw [later] at found
      dsimp only at found
      split at found
      · cases found
        rw [afterLast_none_iff some_needle] at later ⊢
        cases needle with
        | nil => exact absurd rfl some_needle
        | cons n ns =>
          rw [List.length_cons, List.drop_succ_cons]
          exact fun inside => later (inside.trans (List.drop_suffix _ _).isInfix)
      · cases found

theorem afterLast_skip {n : Char} {ns lead : List Char} (plain : n ∉ lead)
    (clear : afterLast (n :: ns) cs = none) : afterLast (n :: ns) (lead ++ cs) = none := by
  induction lead with
  | nil => exact clear
  | cons c lead ih =>
    obtain ⟨other, plain⟩ := not_or.mp (List.mem_cons.not.mp plain)
    have not_here : ¬ ((n :: ns).isPrefixOf (c :: (lead ++ cs)) = true) := by
      simp [List.isPrefixOf, other]
    rw [List.cons_append, afterLast, ih plain]
    exact if_neg not_here

theorem afterLast_append {n : Char} {ns : List Char} (once : n ∉ ns)
    (clear : afterLast (n :: ns) cs = none) : afterLast (n :: ns) (n :: ns ++ cs) = some cs := by
  have here : (n :: ns).isPrefixOf (n :: ns ++ cs) = true :=
    List.isPrefixOf_iff_prefix.mpr (List.prefix_append _ _)
  rw [List.cons_append] at here ⊢
  rw [afterLast, afterLast_skip once clear, if_pos here]
  simp

end Names

theorem installedName_clear {location name : String} (found : installedName location = some name) :
    installedName name = none := by
  obtain ⟨rest, last, rfl⟩ := Option.map_eq_some_iff.mp found
  rw [installedName, String.toList_ofList, afterLast_clear (by decide) last]
  rfl

theorem installedName_step {name : String} (clear : installedName name = none) :
    installedName (NODE_MODULES ++ name) = some name := by
  have clear' : afterLast NODE_MODULES.toList name.toList = none := by
    simpa [installedName] using clear
  have once : 'n' ∉ "ode_modules/".toList := by decide
  have step : afterLast NODE_MODULES.toList (NODE_MODULES.toList ++ name.toList) =
      some name.toList := afterLast_append once clear'
  rw [installedName, String.toList_append, step, Option.map_some, String.ofList_toList]

theorem installedName_empty : installedName "" = none := by decide

theorem packageEntry_step {name : String} (value : Json) :
    packageEntry (NODE_MODULES ++ name, value) =
      some { name := name, version := entryVersion value } := by
  have some_place : (NODE_MODULES ++ name).isEmpty = false := by
    rw [Bool.eq_false_iff]
    intro empty
    have none_there := congrArg String.toList (String.isEmpty_iff.mp empty)
    rw [String.toList_append] at none_there
    cases none_there
  unfold packageEntry
  rw [some_place, Text.afterPrefix_append]
  rfl

theorem place_of_clear {entry : String × Json} {row : NpmPackage}
    (made : packageEntry entry = some row) (clear : installedName row.name = none) :
    (∃ name, entry.1 = NODE_MODULES ++ name ∧ row.name = name) ∨ installedName entry.1 = none := by
  unfold packageEntry at made
  split at made
  · cases made
  · cases made
    dsimp only at clear
    cases stepped : Text.afterPrefix entry.1 NODE_MODULES with
    | none => exact .inr (by simpa [stepped] using clear)
    | some name =>
      refine .inl ⟨name, ?_, rfl⟩
      rw [← String.toList_inj, String.toList_append]
      exact afterPrefix_some stepped

theorem countP_agree {α : Type} {p q : α → Bool} {xs : List α}
    (weaker : ∀ x ∈ xs, q x = true → p x = true) (same : xs.countP p ≤ xs.countP q) :
    ∀ x ∈ xs, p x = true → q x = true := by
  induction xs with
  | nil => simp
  | cons x xs ih =>
    obtain ⟨here, later⟩ := List.forall_mem_cons.mp weaker
    have below := List.countP_mono_left later
    rw [List.countP_cons, List.countP_cons] at same
    cases q_here : q x with
    | true =>
      rw [here q_here, q_here, if_pos rfl] at same
      exact List.forall_mem_cons.mpr ⟨fun _ => q_here, ih later (by omega)⟩
    | false =>
      rw [q_here, if_neg Bool.false_ne_true] at same
      have p_here : ¬ p x = true := fun passed => by
        rw [passed, if_pos rfl] at same
        omega
      rw [if_neg p_here] at same
      exact List.forall_mem_cons.mpr ⟨fun passed => absurd passed p_here, ih later (by omega)⟩

section Places

variable {entries : List (String × Json)}

theorem rows_of_oneLevel (flat : OneLevel entries) :
    entries.filterMap packageEntry = entries.filterMap (lockedEntry entries) := by
  refine List.filterMap_congr fun e mem => ?_
  obtain ⟨place, value⟩ := e
  rcases flat _ mem with root | ⟨name, step, clear, version⟩
  · obtain rfl : place = "" := root
    rw [lockedEntry, installedName_empty]
    rfl
  · obtain rfl : place = NODE_MODULES ++ name := step
    rw [packageEntry_step, lockedEntry, installedName_step clear, version]
    rfl

theorem installedName_of_lockedEntry {e : String × Json} {row : NpmPackage}
    (made : lockedEntry entries e = some row) :
    installedName e.1 = some row.name ∧ row.version = lockedVersion entries e.2 := by
  obtain ⟨name, named, rfl⟩ := Option.map_eq_some_iff.mp made
  exact ⟨named, rfl⟩

theorem packageEntry_isSome {e : String × Json} : (packageEntry e).isSome ↔ e.1 ≠ "" := by
  unfold packageEntry
  split
  · rename_i root
    simp [String.isEmpty_iff.mp root]
  · rename_i place
    simpa [String.isEmpty_iff] using place

theorem places_of_perm
    (perm : (entries.filterMap packageEntry).Perm (entries.filterMap (lockedEntry entries))) :
    ∀ e ∈ entries, e.1 ≠ "" → ∃ name, e.1 = NODE_MODULES ++ name ∧ installedName name = none := by
  have clear : ∀ row ∈ entries.filterMap packageEntry, installedName row.name = none := by
    intro row mem
    obtain ⟨e, -, made⟩ := List.mem_filterMap.mp (perm.mem_iff.mp mem)
    exact installedName_clear (installedName_of_lockedEntry made).1
  -- Each row is an installed package's, so every place but the root is installed at.
  have installed : ∀ e ∈ entries, (packageEntry e).isSome = true →
      (lockedEntry entries e).isSome = true := by
    apply countP_agree
    · intro e _ some_package
      obtain ⟨row, made⟩ := Option.isSome_iff_exists.mp some_package
      refine packageEntry_isSome.mpr fun root => ?_
      rw [lockedEntry, root, installedName_empty] at made
      cases made
    · have count := perm.length_eq
      rw [List.length_filterMap_eq_countP, List.length_filterMap_eq_countP] at count
      exact Nat.le_of_eq count
  intro e mem some_place
  have listed := packageEntry_isSome.mpr some_place
  obtain ⟨row, made⟩ := Option.isSome_iff_exists.mp listed
  have clear_row := clear row (List.mem_filterMap.mpr ⟨e, mem, made⟩)
  rcases place_of_clear made clear_row with ⟨name, step, named⟩ | nowhere
  · exact ⟨name, step, named ▸ clear_row⟩
  · obtain ⟨package, locked⟩ := Option.isSome_iff_exists.mp (installed e mem listed)
    rw [(installedName_of_lockedEntry locked).1] at nowhere
    cases nowhere

theorem rows_perm_iff (map : (entries.map Prod.fst).Nodup) :
    (entries.filterMap packageEntry).Perm (entries.filterMap (lockedEntry entries)) ↔
      OneLevel entries := by
  constructor
  · intro perm e mem
    by_cases root : e.1 = ""
    · exact .inl root
    obtain ⟨name, step, clear⟩ := places_of_perm perm e mem root
    obtain ⟨place, value⟩ := e
    obtain rfl : place = NODE_MODULES ++ name := step
    refine .inr ⟨name, rfl, clear, ?_⟩
    -- The row is one of an installed package; that package lies at the same place.
    have kept := perm.mem_iff.mp (List.mem_filterMap.mpr ⟨_, mem, packageEntry_step value⟩)
    obtain ⟨other, mem', locked⟩ := List.mem_filterMap.mp kept
    obtain ⟨named, version⟩ := installedName_of_lockedEntry locked
    have some_place : other.1 ≠ "" := fun empty => by
      rw [empty, installedName_empty] at named
      cases named
    obtain ⟨name', step', clear'⟩ := places_of_perm perm other mem' some_place
    rw [step', installedName_step clear', Option.some.injEq] at named
    obtain rfl : name' = name := named
    have same : other = (NODE_MODULES ++ name', value) :=
      List.inj_on_of_nodup_map map mem' mem step'
    rw [same] at version
    exact version
  · intro flat
    rw [rows_of_oneLevel flat]

end Places

theorem lockedRows_length (deps : List (String × Json)) :
    deps.length ≤ (lockedRows deps).length := by
  induction deps with
  | nil => exact Nat.le_refl 0
  | cons dep rest ih =>
    rw [lockedRows, List.length_cons, List.length_cons, List.length_append]
    omega

theorem lockedField_eq (fields : List (String × Json)) : lockedField fields =
    lockedRows ((((fields.find? fun f => f.1 == "dependencies").map (·.2)).bind
      Json.asObject).getD []) := by
  induction fields with
  | nil => rw [lockedField]; rfl
  | cons field rest ih =>
    obtain ⟨key, value⟩ := field
    rw [lockedField, List.find?_cons]
    cases key == "dependencies" with
    | true => cases value <;> rfl
    | false => exact ih

theorem lockedBelow_eq (value : Json) : value.lockedBelow = lockedRows (nestedDependencies value) := by
  cases value with
  | obj fields => exact lockedField_eq fields
  | _ => rfl

theorem flat_of_length {deps : List (String × Json)}
    (few : (lockedRows deps).length ≤ deps.length) :
    ∀ e ∈ deps, nestedDependencies e.2 = [] := by
  induction deps with
  | nil => simp
  | cons dep rest ih =>
    obtain ⟨name, value⟩ := dep
    rw [lockedRows, lockedBelow_eq, List.length_cons, List.length_cons, List.length_append] at few
    have nested_le := lockedRows_length (nestedDependencies value)
    have rest_le := lockedRows_length rest
    have leaf : nestedDependencies value = [] := List.eq_nil_of_length_eq_zero (by omega)
    exact List.forall_mem_cons.mpr ⟨leaf, ih (by omega)⟩

theorem dependencies_perm_iff (deps : List (String × Json)) :
    (deps.map dependencyEntry).Perm (lockedRows deps) ↔
      ∀ e ∈ deps, nestedDependencies e.2 = [] := by
  constructor
  · intro perm
    apply flat_of_length
    rw [← perm.length_eq, List.length_map]
  · intro flat
    suffices deps.map dependencyEntry = lockedRows deps from this ▸ List.Perm.refl _
    induction deps with
    | nil => rw [lockedRows]; rfl
    | cons dep rest ih =>
      obtain ⟨leaf, later⟩ := List.forall_mem_cons.mp flat
      obtain ⟨name, value⟩ := dep
      rw [List.map_cons, lockedRows, lockedBelow_eq, leaf, ih later, lockedRows]
      rfl

theorem parsePackageLock_perm_iff {fromStr : String → Except String Json} {content : String}
    {doc : Json} (read : fromStr content = .ok doc)
    (map : ∀ entries, (doc.get "packages").bind Json.asObject = some entries →
      (entries.map Prod.fst).Nodup) :
    (parsePackageLock fromStr content).Perm (lockedPackages doc) ↔ FlatLock doc := by
  unfold parsePackageLock lockedPackages FlatLock
  rw [read]
  dsimp only
  cases packages : (doc.get "packages").bind Json.asObject with
  | some entries => exact rows_perm_iff (map entries packages)
  | none =>
    dsimp only
    rw [lockedBelow_eq, ← dependencies_perm_iff]
    unfold nestedDependencies
    cases (doc.get "dependencies").bind Json.asObject <;> rfl

structure GemPackage where
  name : String
  version : String
  deriving DecidableEq

/-- The gems read so far, and whether the line belongs to a `specs:` block. -/
structure SpecsScan where
  gems : List GemPackage := []
  inSpecs : Bool := false

def trimStartChar (c : Char) (s : String) : String := String.ofList (s.toList.dropWhile (· == c))

def trimEndChar (c : Char) (s : String) : String :=
  String.ofList (s.toList.reverse.dropWhile (· == c)).reverse

/-- One turn of the loop of `parse_gemfile_lock`. -/
def gemLine (scan : SpecsScan) (line : String) : SpecsScan :=
  let trimmed := Text.trim line
  if trimmed = "specs:" then { scan with inSpecs := true }
  else if scan.inSpecs then
    if !Text.startsWith line "    " || Text.startsWith line "      " then
      if !trimmed.isEmpty && !Text.startsWith line " " then { scan with inSpecs := false } else scan
    else
      match Text.splitOnce ' ' trimmed with
      | some (name, version) =>
        { scan with
          gems := scan.gems ++
            [{ name := name, version := trimEndChar ')' (trimStartChar '(' version) }] }
      | none => scan
  else scan

def parseGemfileLock (content : String) : List GemPackage :=
  ((Text.lines content).foldl gemLine {}).gems

/-- A line of a section, without its indentation. -/
structure SectionRow where
  text : String
  row : IsRow text
  bare : Text.trim text ≠ "specs:"

/-- A gem of a `specs:` block and what it asks for. -/
structure LockedGem where
  name : String
  version : String
  dependencies : List SectionRow
  named : name.toList ≠ [] ∧ ∀ c ∈ name.toList, Text.isWhitespace c = false
  versioned : '\n' ∉ version.toList ∧ version.toList.head? ≠ some '(' ∧
    version.toList.getLast? ≠ some ')'

inductive SourceHeading where
  | git
  | path
  | pluginSource
  | gem

def SourceHeading.text : SourceHeading → String
  | git => "GIT"
  | path => "PATH"
  | pluginSource => "PLUGIN SOURCE"
  | gem => "GEM"

inductive ListHeading where
  | platforms
  | dependencies
  | checksums
  | rubyVersion
  | bundledWith

def ListHeading.text : ListHeading → String
  | platforms => "PLATFORMS"
  | dependencies => "DEPENDENCIES"
  | checksums => "CHECKSUMS"
  | rubyVersion => "RUBY VERSION"
  | bundledWith => "BUNDLED WITH"

inductive GemSection where
  | source (heading : SourceHeading) (options : List SectionRow) (gems : List LockedGem)
  | listing (heading : ListHeading) (rows : List SectionRow)

namespace LockedGem

def package : GemPackage := { name := g.name, version := g.version }

def spec : String := g.name ++ (" " ++ ("(" ++ g.version ++ ")"))

def rows : List String :=
  ("    " ++ g.spec) :: g.dependencies.map fun d => "      " ++ d.text

end LockedGem

namespace GemSection

def rows : GemSection → List String
  | source heading options gems =>
    heading.text :: (options.map fun o => "  " ++ o.text) ++ "  specs:" :: gems.flatMap LockedGem.rows
  | listing heading listed => heading.text :: listed.map fun r => "  " ++ r.text

def locked : GemSection → List GemPackage
  | source _ _ gems => gems.map LockedGem.package
  | listing _ _ => []

def isSource : GemSection → Bool
  | source .. => true
  | listing .. => false

end GemSection

/-- The sections one after the other, a blank line between two of them. -/
def gemLockRows : List GemSection → List String
  | [] => []
  | [last] => last.rows
  | first :: second :: rest => first.rows ++ "" :: gemLockRows (second :: rest)

def printGemLock (sections : List GemSection) : String := unlines (gemLockRows sections)

theorem trim_after_blank {lead : String} (blank : ∀ c ∈ lead.toList, Text.isWhitespace c = true)
    (text : String) : Text.trim (lead ++ text) = Text.trim text := by
  rw [Text.trim, Text.trim, Text.trimChars, Text.trimChars, String.toList_append,
    List.dropWhile_append_of_pos blank]

theorem blank_two : ∀ c ∈ "  ".toList, Text.isWhitespace c = true := Text.forall_of_all (by decide)

theorem blank_four : ∀ c ∈ "    ".toList, Text.isWhitespace c = true := Text.forall_of_all (by decide)

theorem blank_six : ∀ c ∈ "      ".toList, Text.isWhitespace c = true :=
  Text.forall_of_all (by decide)

theorem startsWith_append (pre rest : String) : Text.startsWith (pre ++ rest) pre = true :=
  Text.startsWith_iff.mpr (by rw [String.toList_append]; exact List.prefix_append _ _)

/-- Outside a block only `specs:` is read. -/
theorem gemLine_outside {gems : List GemPackage} {line : String}
    (bare : Text.trim line ≠ "specs:") : gemLine ⟨gems, false⟩ line = ⟨gems, false⟩ := by
  unfold gemLine
  dsimp only
  rw [if_neg bare, if_neg Bool.false_ne_true]

theorem gemLine_specs (scan : SpecsScan) : gemLine scan "  specs:" = { scan with inSpecs := true } := by
  have trimmed : Text.trim "  specs:" = "specs:" := by decide
  unfold gemLine
  dsimp only
  rw [if_pos trimmed]

theorem gemLine_blank (scan : SpecsScan) : gemLine scan "" = scan := by
  obtain ⟨gems, inSpecs⟩ := scan
  cases inSpecs <;> rfl

theorem gemLine_margin {line : String} (bare : Text.trim line ≠ "specs:")
    (some_text : (Text.trim line).isEmpty = false) (margin : Text.startsWith line " " = false)
    (unindented : Text.startsWith line "    " = false) (scan : SpecsScan) :
    gemLine scan line = ⟨scan.gems, false⟩ := by
  obtain ⟨gems, inSpecs⟩ := scan
  cases inSpecs with
  | false => exact gemLine_outside bare
  | true =>
    unfold gemLine
    dsimp only
    rw [if_neg bare, unindented, some_text, margin]
    rfl

theorem gemLine_dependency (d : SectionRow) :
    gemLine ⟨gems, true⟩ ("      " ++ d.text) = ⟨gems, true⟩ := by
  have trimmed : Text.trim ("      " ++ d.text) ≠ "specs:" := by
    rw [trim_after_blank blank_six]
    exact d.bare
  have margin : Text.startsWith ("      " ++ d.text) " " = true :=
    Text.startsWith_iff.mpr (by
      rw [String.toList_append]
      exact (by decide : " ".toList <+: "      ".toList).trans (List.prefix_append _ _))
  unfold gemLine
  dsimp only
  rw [if_neg trimmed, startsWith_append, margin]
  simp

theorem dropWhile_stop {c : Char} {cs : List Char} (other : cs.head? ≠ some c) :
    cs.dropWhile (· == c) = cs := by
  cases cs with
  | nil => rfl
  | cons d rest =>
    have ne : d ≠ c := fun same => other (by rw [same]; rfl)
    rw [List.dropWhile_cons_of_neg (by simpa using ne)]

theorem trimEndChar_concat {c : Char} {s : String} (last : s.toList.getLast? ≠ some c) :
    trimEndChar c (s ++ String.singleton c) = s := by
  have other : s.toList.reverse.head? ≠ some c := by rwa [List.head?_reverse]
  rw [trimEndChar, String.toList_append, String.toList_singleton, List.reverse_append,
    List.reverse_singleton, List.singleton_append, List.dropWhile_cons_of_pos (by simp),
    dropWhile_stop other, List.reverse_reverse, String.ofList_toList]

theorem trimStartChar_cons {c : Char} {s : String} (first : s.toList.head? ≠ some c) :
    trimStartChar c (String.singleton c ++ s) = s := by
  rw [trimStartChar, String.toList_append, String.toList_singleton, List.singleton_append,
    List.dropWhile_cons_of_pos (by simp), dropWhile_stop first, String.ofList_toList]

theorem version_bare (g : LockedGem) :
    trimEndChar ')' (trimStartChar '(' ("(" ++ g.version ++ ")")) = g.version := by
  obtain ⟨-, first, last⟩ := g.versioned
  have opened : "(" ++ g.version ++ ")" = String.singleton '(' ++ (g.version ++ ")") := by
    rw [String.append_assoc]
    rfl
  have first' : (g.version ++ ")").toList.head? ≠ some '(' := by
    rw [String.toList_append]
    cases text : g.version.toList with
    | nil => decide
    | cons c rest =>
      rw [text] at first
      simpa using first
  rw [opened, trimStartChar_cons first']
  exact trimEndChar_concat last

namespace LockedGem

theorem spec_chars (g : LockedGem) :
    g.spec.toList = g.name.toList ++ ' ' :: '(' :: (g.version.toList ++ [')']) := by
  simp [spec]

theorem spec_isTitle (g : LockedGem) : IsTitle g.spec := by
  obtain ⟨some_name, solid⟩ := g.named
  obtain ⟨one_line, -, -⟩ := g.versioned
  rw [IsTitle, spec_chars]
  refine ⟨by simp, ?_, ?_⟩
  · simp only [List.mem_append, List.mem_cons, List.not_mem_nil, or_false, not_or]
    exact ⟨fun mem => absurd (solid _ mem) (by decide), by decide, by decide, one_line, by decide⟩
  · rintro c (first | last)
    · rw [List.head?_append_of_ne_nil _ some_name] at first
      exact solid c (List.mem_of_head? first)
    · have whole : g.name.toList ++ ' ' :: '(' :: (g.version.toList ++ [')']) =
          (g.name.toList ++ ' ' :: '(' :: g.version.toList) ++ [')'] := by simp
      rw [whole, List.getLast?_concat] at last
      rw [← Option.some.inj last]
      decide

theorem spec_bare : g.spec ≠ "specs:" := by
  intro same
  have blank : ' ' ∈ g.spec.toList := by rw [spec_chars]; simp
  rw [same] at blank
  exact absurd blank (by decide)

theorem spec_split :
    Text.splitOnce ' ' g.spec = some (g.name, "(" ++ g.version ++ ")") :=
  splitOnce_append (fun mem => absurd (g.named.2 _ mem) (by decide)) _

theorem spec_depth (g : LockedGem) : Text.startsWith ("    " ++ g.spec) "      " = false := by
  rw [Bool.eq_false_iff]
  intro deeper
  have lead := Text.startsWith_iff.mp deeper
  rw [String.toList_append, spec_chars] at lead
  obtain ⟨some_name, solid⟩ := g.named
  cases name : g.name.toList with
  | nil => exact some_name name
  | cons c rest =>
    rw [name] at lead solid
    have first : ' ' = c := by
      have tail : "  ".toList <+: c :: rest ++ ' ' :: '(' :: (g.version.toList ++ [')']) :=
        (List.prefix_append_right_inj "    ".toList).mp lead
      exact (List.cons_prefix_cons.mp tail).1
    exact absurd (solid c List.mem_cons_self) (by rw [← first]; decide)

end LockedGem

theorem gemLine_spec :
    gemLine ⟨gems, true⟩ ("    " ++ g.spec) = ⟨gems ++ [g.package], true⟩ := by
  have trimmed := g.spec_isTitle.trim blank_four
  unfold gemLine
  dsimp only
  rw [trimmed, if_neg g.spec_bare, startsWith_append, g.spec_depth, g.spec_split]
  dsimp only
  rw [version_bare]
  rfl

theorem foldl_outside {lines : List String}
    (bare : ∀ line ∈ lines, Text.trim line ≠ "specs:") :
    lines.foldl gemLine ⟨gems, false⟩ = ⟨gems, false⟩ := by
  induction lines with
  | nil => rfl
  | cons line rest ih =>
    obtain ⟨here, later⟩ := List.forall_mem_cons.mp bare
    rw [List.foldl_cons, gemLine_outside here, ih later]

theorem foldl_dependencies (ds : List SectionRow) :
    (ds.map fun d => "      " ++ d.text).foldl gemLine ⟨gems, true⟩ = ⟨gems, true⟩ := by
  induction ds with
  | nil => rfl
  | cons d rest ih => rw [List.map_cons, List.foldl_cons, gemLine_dependency, ih]

theorem foldl_gems (locked : List LockedGem) :
    (locked.flatMap LockedGem.rows).foldl gemLine ⟨gems, true⟩ =
      ⟨gems ++ locked.map LockedGem.package, true⟩ := by
  induction locked generalizing gems with
  | nil => simp
  | cons g rest ih =>
    rw [List.flatMap_cons, List.foldl_append, LockedGem.rows, List.foldl_cons, gemLine_spec,
      foldl_dependencies, ih, List.map_cons, List.append_assoc, List.singleton_append]

theorem indented_bare (rows : List SectionRow) :
    ∀ line ∈ rows.map fun r => "  " ++ r.text, Text.trim line ≠ "specs:" := by
  intro line mem
  obtain ⟨r, -, rfl⟩ := List.mem_map.mp mem
  rw [trim_after_blank blank_two]
  exact r.bare

theorem gemLine_source (heading : SourceHeading) (scan : SpecsScan) :
    gemLine scan heading.text = ⟨scan.gems, false⟩ := by
  cases heading <;>
    exact gemLine_margin (by decide) (by decide) (by decide) (by decide) scan

theorem gemLine_listing (heading : ListHeading) (scan : SpecsScan) :
    gemLine scan heading.text = ⟨scan.gems, false⟩ := by
  cases heading <;>
    exact gemLine_margin (by decide) (by decide) (by decide) (by decide) scan

theorem foldl_section (s : GemSection) (scan : SpecsScan) :
    s.rows.foldl gemLine scan = ⟨scan.gems ++ s.locked, s.isSource⟩ := by
  cases s with
  | source heading options gems =>
    rw [GemSection.rows, List.cons_append, List.foldl_cons, gemLine_source, List.foldl_append,
      foldl_outside _ (indented_bare options), List.foldl_cons, gemLine_specs, foldl_gems]
    rfl
  | listing heading listed =>
    rw [GemSection.rows, List.foldl_cons, gemLine_listing, foldl_outside _ (indented_bare listed),
      GemSection.locked, List.append_nil]
    rfl

theorem foldl_gemLock (sections : List GemSection) (scan : SpecsScan) :
    ((gemLockRows sections).foldl gemLine scan).gems =
      scan.gems ++ sections.flatMap GemSection.locked := by
  induction sections generalizing scan with
  | nil => simp [gemLockRows]
  | cons first rest ih =>
    cases rest with
    | nil => simp [gemLockRows, foldl_section]
    | cons second rest =>
      rw [gemLockRows, List.foldl_append, List.foldl_cons, gemLine_blank, ih, foldl_section,
        List.append_assoc, ← List.flatMap_cons]

theorem indented_isRow {lead : String} (plain : '\n' ∉ lead.toList)
    (last : lead.toList.getLast? ≠ some '\r') (r : SectionRow) : IsRow (lead ++ r.text) := by
  refine ⟨?_, ?_⟩
  · rw [String.toList_append, List.mem_append]
    exact fun mem => mem.elim plain r.row.1
  · rw [String.toList_append]
    cases text : r.text.toList.getLast? with
    | none => rwa [List.getLast?_eq_none_iff.mp text, List.append_nil]
    | some c =>
      rw [List.getLast?_append, text, Option.some_or, ← text]
      exact r.row.2

theorem LockedGem.rows_isRow : ∀ row ∈ g.rows, IsRow row := by
  intro row mem
  rcases List.mem_cons.mp mem with rfl | below
  · exact g.spec_isTitle.isRow (by decide)
  · obtain ⟨d, -, rfl⟩ := List.mem_map.mp below
    exact indented_isRow (by decide) (by decide) d

theorem indented_rows (rows : List SectionRow) :
    ∀ row ∈ rows.map fun r => "  " ++ r.text, IsRow row := by
  intro row mem
  obtain ⟨r, -, rfl⟩ := List.mem_map.mp mem
  exact indented_isRow (by decide) (by decide) r

theorem GemSection.rows_isRow (s : GemSection) : ∀ row ∈ s.rows, IsRow row := by
  have plain : ∀ {text : String}, '\n' ∉ text.toList → text.toList.getLast? ≠ some '\r' →
      IsRow text := fun one_line last => ⟨one_line, last⟩
  intro row mem
  cases s with
  | source heading options gems =>
    rw [GemSection.rows, List.cons_append] at mem
    rcases List.mem_cons.mp mem with rfl | mem
    · cases heading <;> exact plain (by decide) (by decide)
    · rcases List.mem_append.mp mem with option | mem
      · exact indented_rows options row option
      · rcases List.mem_cons.mp mem with rfl | mem
        · exact plain (by decide) (by decide)
        · obtain ⟨g, -, line⟩ := List.mem_flatMap.mp mem
          exact g.rows_isRow row line
  | listing heading listed =>
    rcases List.mem_cons.mp mem with rfl | mem
    · cases heading <;> exact plain (by decide) (by decide)
    · exact indented_rows listed row mem

theorem gemLockRows_isRow (sections : List GemSection) :
    ∀ row ∈ gemLockRows sections, IsRow row := by
  induction sections with
  | nil => intro row mem; cases mem
  | cons first rest ih =>
    intro row mem
    cases rest with
    | nil => exact first.rows_isRow row mem
    | cons second rest =>
      rw [gemLockRows] at mem
      rcases List.mem_append.mp mem with here | mem
      · exact first.rows_isRow row here
      · rcases List.mem_cons.mp mem with rfl | later
        · exact ⟨by decide, by decide⟩
        · exact ih row later

theorem parseGemfileLock_print (sections : List GemSection) :
    parseGemfileLock (printGemLock sections) = sections.flatMap GemSection.locked := by
  rw [parseGemfileLock, printGemLock, lines_unlines (gemLockRows_isRow sections), foldl_gemLock,
    List.nil_append]

structure LockfilesRead (fromStr : String → Except String Json) (content : String) (doc : Json)
    (sections : List GemSection) : Prop where
  npm : (parsePackageLock fromStr content).Perm (lockedPackages doc)
  gem : parseGemfileLock (printGemLock sections) = sections.flatMap GemSection.locked

def versioned (version : String) : Json := .obj [("version", .str version)]

def packagesAt (places : List String) : Json :=
  .obj [("packages", .obj (("", .obj []) :: places.map fun place => (place, versioned "1.3.0")))]

end Inspectah
