import Inspectah.Collect.InstalledGroups
import Inspectah.Collect.LeafClassification
import Inspectah.Render.LanguagePackages

/-!
The dependencies among the added packages that `rpm` knows. Providers are asked for fifty
capabilities at a time, and an answer does not say which package provides which.
-/
namespace Inspectah

variable (p : RpmPackage)
open Words (takeWhile_run)

def RPM_REQUIRES_FORMAT : String := "@@%\x7bNAME\x7d\\n[%\x7bREQUIRENAME\x7d\\n]"

def requiresArgs (names : List String) : List String :=
  ["-q", "--queryformat", RPM_REQUIRES_FORMAT] ++ names

def whatProvidesArgs (caps : List String) : List String := ["-q", "--whatprovides"] ++ caps

/-- The name in a `name.arch`. -/
def nameFromId (id : String) : String := beforeLast '.' id

/-- The packages read, the one whose lines are being read, and its capabilities. -/
structure SentinelState where
  results : List (String × List String) := []
  currentName : Option String := none
  currentCaps : List String := []

def SentinelState.flushed (state : SentinelState) : List (String × List String) :=
  state.results ++ state.currentName.toList.map fun name =>
    (name, Grouping.distinctSorted state.currentCaps)

def capabilityOf (trimmed : String) : Option String :=
  if Text.startsWith trimmed "rpmlib(" || Text.startsWith trimmed "/" then none
  else
    let cap := (splitWhitespace trimmed).headD trimmed
    if cap.isEmpty then none else some cap

def readSentinelLine (state : SentinelState) (line : String) : SentinelState :=
  let trimmed := Text.trim line
  match Text.afterPrefix trimmed "@@" with
  | some name => { results := state.flushed, currentName := some name }
  | none =>
    if state.currentName.isSome && !trimmed.isEmpty then
      { state with currentCaps := state.currentCaps ++ (capabilityOf trimmed).toList }
    else state

def parseSentinelRequires (stdout : String) : List (String × List String) :=
  ((Text.lines stdout).foldl readSentinelLine {}).flushed

/-- The pattern `^(.+?)-\d`: the least text before a dash and a digit, at least one
    character. -/
def beforeDashDigit : List Char → Option (List Char)
  | [] => none
  | c :: rest =>
    match rest with
    | '-' :: d :: _ =>
      if d.isDigit then some [c] else (beforeDashDigit rest).map (c :: ·)
    | _ => (beforeDashDigit rest).map (c :: ·)

def providerName (row : String) : Option String :=
  match beforeDashDigit row.toList with
  | some name => some (String.ofList name)
  | none => (Text.splitOnce '-' row).map (·.1)

/-- `rsplit_once`, the text after the last dot. -/
def providerArch (row : String) : String :=
  if row.toList.contains '.' then String.ofList (row.toList.reverse.takeWhile (· != '.')).reverse
  else ""

def providerId (addedIds : List String) (line : String) : Option String :=
  let row := Text.trim line
  if row.isEmpty || Text.contains row "no package provides" then none
  else
    (providerName row).bind fun name =>
      if (addedIds.map nameFromId).contains name then
        let candidate := name ++ "." ++ providerArch row
        if addedIds.contains candidate then some candidate else none
      else none

def BATCH_SIZE : Nat := 50

section

variable (run : List String → ExecResult)

/-- What the answer for a chunk names, for each of its capabilities; a failure gives no rows. -/
def resolveChunk (addedIds chunk : List String) : List (String × List String) :=
  let result := run (whatProvidesArgs chunk)
  if !result.success then []
  else
    let providers := (Text.lines result.stdout).filterMap (providerId addedIds)
    chunk.map fun cap => (cap, providers)

def resolveAllProviders (allCaps addedIds : List String) : List (String × List String) :=
  (allCaps.toChunks BATCH_SIZE).flatMap (resolveChunk run addedIds)

/-- What the rows of the capability name. -/
def providersOf (capProviders : List (String × List String)) (cap : String) : List String :=
  (capProviders.filter (·.1 == cap)).flatMap (·.2)

def dependenciesOf (perPkgCaps capProviders : List (String × List String)) (id : String) :
    List String :=
  let caps := (perPkgCaps.filter fun row => row.1 == nameFromId id).flatMap (·.2)
  ((caps.flatMap (providersOf capProviders)).filter fun p => nameFromId p != nameFromId id).dedup

def classifyDepsRpm (addedIds : List String) : Option (List (String × List String)) :=
  if addedIds.isEmpty then some []
  else
    let packageIds := sortedIds addedIds
    let result := run (requiresArgs (packageIds.map nameFromId))
    if !result.success then none
    else
      let perPkgCaps := parseSentinelRequires result.stdout
      let allCaps := Grouping.distinctSorted (perPkgCaps.flatMap (·.2))
      let capProviders := resolveAllProviders run allCaps addedIds
      some (packageIds.map fun id => (id, dependenciesOf perPkgCaps capProviders id))

end

def IsSolid (part : String) : Prop :=
  part.toList ≠ [] ∧ ∀ c ∈ part.toList, Text.isWhitespace c = false

instance (part : String) : Decidable (IsSolid part) :=
  inferInstanceAs (Decidable (part.toList ≠ [] ∧ ∀ c ∈ part.toList, Text.isWhitespace c = false))

structure RpmPackage where
  name : String
  version : String
  release : String
  arch : String
  requires : List String
  provides : List String
  solid : ∀ part ∈ [name, version, release, arch], IsSolid part
  dotless : '.' ∉ arch.toList
  titled : ∀ row ∈ requires, IsTitle row ∧ Text.startsWith row "@@" = false

def RpmPackage.id : String := p.name ++ "." ++ p.arch

def RpmPackage.nevra : String :=
  p.name ++ "-" ++ p.version ++ "-" ++ p.release ++ "." ++ p.arch

def RpmPackage.rows : List String := ("@@" ++ p.name) :: p.requires

def RpmPackage.needs : List String :=
  (p.requires.filter fun row => !(Text.startsWith row "rpmlib(" || Text.startsWith row "/")).map
    fun row => (splitWhitespace row).headD row

structure RpmPackage.IsReadable (p : RpmPackage) : Prop where
  name : ∀ d, ['-', d] <:+: p.name.toList → d.isDigit = false
  version : ∃ d ∈ p.version.toList.head?, d.isDigit = true

def Provided (installed : List RpmPackage) (cap : String) : Prop :=
  ∃ p ∈ installed, cap ∈ p.provides

/-- rpm names each installed package that provides a capability asked about, and fails if one
    has no provider. -/
structure AnswersFrom (installed : List RpmPackage) (run : List String → ExecResult) : Prop where
  requires : ∀ names, (∀ n ∈ names, ∃ p ∈ installed, p.name = n) →
    (run (requiresArgs names)).success = true ∧
    ∃ printed : List RpmPackage, (∀ p, p ∈ printed ↔ p ∈ installed ∧ p.name ∈ names) ∧
      (run (requiresArgs names)).stdout = unlines (printed.flatMap RpmPackage.rows)
  provided : ∀ caps, (∀ c ∈ caps, Provided installed c) →
    (run (whatProvidesArgs caps)).success = true ∧
    ∃ printed : List RpmPackage, (∀ p, p ∈ printed ↔ p ∈ installed ∧ ∃ c ∈ caps, c ∈ p.provides) ∧
      (run (whatProvidesArgs caps)).stdout = unlines (printed.map RpmPackage.nevra)
  unprovided : ∀ caps c, c ∈ caps → ¬ Provided installed c →
    (run (whatProvidesArgs caps)).success = false

def neededCaps (installed : List RpmPackage) (addedIds : List String) : List String :=
  Grouping.distinctSorted
    ((installed.filter fun p => (addedIds.map nameFromId).contains p.name).flatMap RpmPackage.needs)

theorem IsTitle.trim_self {text : String} (h : IsTitle text) : Text.trim text = text := by
  have same : Text.trim ("" ++ text) = text := h.trim (by simp)
  rwa [String.empty_append] at same

theorem capabilityOf_titled {row : String} (h : IsTitle row) :
    capabilityOf row =
      if Text.startsWith row "rpmlib(" || Text.startsWith row "/" then none
      else some ((splitWhitespace row).headD row) := by
  have word : (splitWhitespace row).headD row ≠ "" := by
    cases words : splitWhitespace row with
    | nil =>
      rw [List.headD_nil]
      exact fun empty => h.1 (by rw [empty]; rfl)
    | cons first rest =>
      have listed : first ∈ splitWhitespace row := words ▸ List.mem_cons_self
      rw [splitWhitespace, List.mem_filter] at listed
      simpa using listed.2
  rw [capabilityOf]
  split
  · rfl
  · rw [if_neg (by simpa only [String.isEmpty_iff] using word)]

theorem readSentinelLine_row {row : String} (h : IsTitle row ∧ Text.startsWith row "@@" = false)
    {state : SentinelState} (reading : state.currentName.isSome = true) :
    readSentinelLine state row =
      { state with currentCaps := state.currentCaps ++ (capabilityOf row).toList } := by
  have filled : row.isEmpty = false := by
    refine Bool.eq_false_iff.mpr fun empty => h.1.1 ?_
    rw [String.isEmpty_iff.mp empty]
    rfl
  rw [readSentinelLine, h.1.trim_self, Text.afterPrefix, if_neg (by simp [h.2])]
  simp [reading, filled]

theorem needs_eq : p.needs = p.requires.filterMap capabilityOf := by
  have titled := p.titled
  rw [RpmPackage.needs]
  generalize p.requires = rows at titled
  induction rows with
  | nil => rfl
  | cons row rest ih =>
    have below := ih fun r mem => titled r (List.mem_cons_of_mem _ mem)
    rw [List.filterMap_cons, capabilityOf_titled (titled row List.mem_cons_self).1, ← below]
    by_cases skipped : (Text.startsWith row "rpmlib(" || Text.startsWith row "/") = true
    · rw [if_pos skipped, List.filter_cons_of_neg (by simp only [skipped]; decide)]
    · rw [if_neg skipped, List.filter_cons_of_pos (by simpa using skipped), List.map_cons]

theorem foldl_requires (rows : List String)
    (titled : ∀ row ∈ rows, IsTitle row ∧ Text.startsWith row "@@" = false)
    {state : SentinelState} (reading : state.currentName.isSome = true) :
    rows.foldl readSentinelLine state =
      { state with currentCaps := state.currentCaps ++ rows.filterMap capabilityOf } := by
  induction rows generalizing state with
  | nil => simp
  | cons row rest ih =>
    have later := fun r mem => titled r (List.mem_cons_of_mem row mem)
    rw [List.foldl_cons, readSentinelLine_row (titled row List.mem_cons_self) reading]
    refine (ih later ?_).trans ?_
    · exact reading
    · cases capability : capabilityOf row with
      | none => simp [capability]
      | some cap => simp [capability]

theorem IsSolid.isTitle {part : String} (h : IsSolid part) : IsTitle part := by
  refine ⟨h.1, fun newline => ?_, fun c ends => ?_⟩
  · have blank := h.2 _ newline
    exact absurd blank (by decide)
  · exact ends.elim (fun first => h.2 c (List.mem_of_head? first)) fun last =>
      h.2 c (List.mem_of_getLast? last)

theorem isTitle_header : IsTitle ("@@" ++ p.name) :=
  (p.solid p.name (by simp)).isTitle.after rfl (by decide) (by decide)

theorem foldl_package (state : SentinelState) :
    p.rows.foldl readSentinelLine state =
      { results := state.flushed, currentName := some p.name, currentCaps := p.needs } := by
  have header : readSentinelLine state ("@@" ++ p.name) =
      { results := state.flushed, currentName := some p.name } := by
    rw [readSentinelLine, (isTitle_header p).trim_self, Text.afterPrefix_append]
  rw [RpmPackage.rows, List.foldl_cons, header, foldl_requires p.requires p.titled rfl, needs_eq]
  rfl

theorem flushed_foldl (printed : List RpmPackage) (state : SentinelState) :
    ((printed.flatMap RpmPackage.rows).foldl readSentinelLine state).flushed =
      state.flushed ++ printed.map fun p => (p.name, Grouping.distinctSorted p.needs) := by
  induction printed generalizing state with
  | nil => simp
  | cons p rest ih =>
    rw [List.flatMap_cons, List.foldl_append, foldl_package, ih, List.map_cons]
    simp [SentinelState.flushed]

theorem isRow_of_mem_rows {p : RpmPackage} : ∀ row ∈ p.rows, IsRow row := by
  have alone : ∀ {text : String}, IsTitle text → IsRow text := by
    intro text title
    have row : IsRow ("" ++ text) := title.isRow (by simp)
    rwa [String.empty_append] at row
  intro row mem
  rcases List.mem_cons.mp mem with rfl | listed
  · exact alone (isTitle_header p)
  · exact alone (p.titled row listed).1

theorem parseSentinelRequires_unlines (printed : List RpmPackage) :
    parseSentinelRequires (unlines (printed.flatMap RpmPackage.rows)) =
      printed.map fun p => (p.name, Grouping.distinctSorted p.needs) := by
  have rows : ∀ row ∈ printed.flatMap RpmPackage.rows, IsRow row := by
    intro row mem
    obtain ⟨p, -, listed⟩ := List.mem_flatMap.mp mem
    exact isRow_of_mem_rows row listed
  rw [parseSentinelRequires, lines_unlines rows, flushed_foldl]
  rfl

theorem takeWhile_reverse_append {sep : Char} {tail : List Char} (plain : sep ∉ tail)
    (before : List Char) :
    (before ++ sep :: tail).reverse.takeWhile (· != sep) = tail.reverse ∧
      (before ++ sep :: tail).reverse.dropWhile (· != sep) = sep :: before.reverse := by
  have all : ∀ c ∈ tail.reverse, (c != sep) = true := fun c mem => by
    have other : c ≠ sep := fun same => plain (same ▸ List.mem_reverse.mp mem)
    simpa using other
  have reversed : (before ++ sep :: tail).reverse = tail.reverse ++ sep :: before.reverse := by simp
  rw [reversed]
  exact takeWhile_run all (by simp)

theorem nameFromId_id : nameFromId p.id = p.name := by
  have cut : p.id.toList = p.name.toList ++ '.' :: p.arch.toList := by simp [RpmPackage.id]
  rw [nameFromId, beforeLast, cut, (takeWhile_reverse_append p.dotless _).2]
  simp

theorem providerArch_nevra : providerArch p.nevra = p.arch := by
  have cut : p.nevra.toList =
      (p.name ++ "-" ++ p.version ++ "-" ++ p.release).toList ++ '.' :: p.arch.toList := by
    simp [RpmPackage.nevra]
  rw [providerArch, cut, if_pos (by simp), (takeWhile_reverse_append p.dotless _).1]
  simp

theorem beforeDashDigit_append {name : List Char} (ne : name ≠ []) {d : Char} {more : List Char}
    (plain : ∀ d, ['-', d] <:+: name → d.isDigit = false) (digit : d.isDigit = true) :
    beforeDashDigit (name ++ '-' :: d :: more) = some name := by
  induction name with
  | nil => exact absurd rfl ne
  | cons c rest ih =>
    cases rest with
    | nil => simp [beforeDashDigit, digit]
    | cons e after =>
      have below := ih (List.cons_ne_nil e after) fun x inside =>
        plain x (inside.trans (List.suffix_cons c _).isInfix)
      rw [List.cons_append] at below
      rw [List.cons_append, List.cons_append]
      unfold beforeDashDigit
      split
      · rename_i x rest' shape
        obtain ⟨rfl, tail⟩ := List.cons.inj shape
        have letter : x.isDigit = false := by
          cases after with
          | nil =>
            rw [← (List.cons.inj tail).1]
            rfl
          | cons y zs =>
            rw [← (List.cons.inj tail).1]
            exact plain y ⟨[c], zs, rfl⟩
        rw [if_neg (by simp [letter]), below]
        rfl
      · rw [below]
        rfl

theorem providerName_nevra {p : RpmPackage} (readable : p.IsReadable) :
    providerName p.nevra = some p.name := by
  obtain ⟨d, first, digit⟩ := readable.version
  obtain ⟨rest, shape⟩ : ∃ rest, p.version.toList = d :: rest := by
    cases version : p.version.toList with
    | nil => simp [version] at first
    | cons e rest =>
      rw [version, List.head?_cons, Option.mem_some_iff] at first
      exact ⟨rest, by rw [first]⟩
  have cut : p.nevra.toList =
      p.name.toList ++ '-' :: d :: (rest ++ '-' :: (p.release.toList ++ '.' :: p.arch.toList)) := by
    simp [RpmPackage.nevra, shape]
  have named := (p.solid p.name (by simp)).1
  rw [providerName, cut, beforeDashDigit_append named readable.name digit]
  simp

theorem nevra_solid : ∀ c ∈ p.nevra.toList, Text.isWhitespace c = false := by
  have part := fun s (listed : s ∈ [p.name, p.version, p.release, p.arch]) => (p.solid s listed).2
  have dash : Text.isWhitespace '-' = false := by decide
  have dot : Text.isWhitespace '.' = false := by decide
  intro c mem
  simp only [RpmPackage.nevra, String.toList_append, List.mem_append] at mem
  rcases mem with (((((name | h) | version) | h) | release) | h) | arch
  · exact part _ (by simp) c name
  · exact (List.mem_singleton.mp h) ▸ dash
  · exact part _ (by simp) c version
  · exact (List.mem_singleton.mp h) ▸ dash
  · exact part _ (by simp) c release
  · exact (List.mem_singleton.mp h) ▸ dot
  · exact part _ (by simp) c arch

theorem providerId_nevra {p : RpmPackage} (readable : p.IsReadable) (addedIds : List String) :
    providerId addedIds p.nevra = if p.id ∈ addedIds then some p.id else none := by
  have solid := nevra_solid p
  have trimmed : Text.trim p.nevra = p.nevra := by
    rw [Text.trim, trimChars_plain solid, String.ofList_toList]
  have filled : p.nevra.isEmpty = false := by
    refine Bool.eq_false_iff.mpr fun empty => ?_
    have dashed : '-' ∈ p.nevra.toList := by simp [RpmPackage.nevra]
    rw [String.isEmpty_iff.mp empty] at dashed
    cases dashed
  have answer : Text.contains p.nevra "no package provides" = false := by
    refine Bool.eq_false_iff.mpr fun inside => ?_
    have blank := solid ' ' ((containsChars_iff.mp inside).subset (by decide))
    exact absurd blank (by decide)
  have identity : p.name ++ "." ++ providerArch p.nevra = p.id := by
    rw [providerArch_nevra, RpmPackage.id]
  rw [providerId, trimmed, if_neg (by simp [filled, answer]), providerName_nevra readable,
    Option.bind_some, identity]
  by_cases added : p.id ∈ addedIds
  · have named : p.name ∈ addedIds.map nameFromId := nameFromId_id p ▸ List.mem_map_of_mem added
    rw [if_pos (by simpa using named), if_pos (by simpa using added), if_pos added]
  · rw [if_neg added]
    split
    · rw [if_neg (by simpa using added)]
    · rfl

theorem isRow_nevra : IsRow p.nevra := by
  have solid := nevra_solid p
  refine ⟨fun newline => ?_, fun last => ?_⟩
  · exact absurd (solid _ newline) (by decide)
  · exact absurd (solid _ (List.mem_of_getLast? last)) (by decide)

def ProvidesOf (installed : List RpmPackage) (chunk : List String) (id : String) : Prop :=
  ∃ r ∈ installed, r.id = id ∧ ∃ c ∈ chunk, c ∈ r.provides

section

variable {installed : List RpmPackage} {run : List String → ExecResult} {addedIds : List String}

theorem filterMap_providerId (readable : ∀ p ∈ installed, p.IsReadable) {printed : List RpmPackage}
    (listed : ∀ p ∈ printed, p ∈ installed) {id : String} :
    id ∈ (printed.map RpmPackage.nevra).filterMap (providerId addedIds) ↔
      id ∈ addedIds ∧ ∃ p ∈ printed, p.id = id := by
  rw [List.filterMap_map, List.mem_filterMap]
  constructor
  · rintro ⟨p, mem, read⟩
    rw [Function.comp_apply, providerId_nevra (readable p (listed p mem))] at read
    split at read
    next added =>
      cases read
      exact ⟨added, p, mem, rfl⟩
    · cases read
  · rintro ⟨added, p, mem, rfl⟩
    refine ⟨p, mem, ?_⟩
    rw [Function.comp_apply, providerId_nevra (readable p (listed p mem)), if_pos added]

theorem mem_resolveChunk (answers : AnswersFrom installed run)
    (readable : ∀ p ∈ installed, p.IsReadable) (chunk : List String) {cap id : String} :
    id ∈ providersOf (resolveChunk run addedIds chunk) cap ↔
      cap ∈ chunk ∧ (∀ c ∈ chunk, Provided installed c) ∧ id ∈ addedIds ∧
        ProvidesOf installed chunk id := by
  by_cases all : ∀ c ∈ chunk, Provided installed c
  · obtain ⟨success, printed, listed, stdout⟩ := answers.provided chunk all
    have rows : ∀ row ∈ printed.map RpmPackage.nevra, IsRow row := by
      intro row mem
      obtain ⟨p, -, rfl⟩ := List.mem_map.mp mem
      exact isRow_nevra p
    have named : id ∈ (printed.map RpmPackage.nevra).filterMap (providerId addedIds) ↔
        id ∈ addedIds ∧ ∃ p ∈ printed, p.id = id :=
      filterMap_providerId readable fun p mem => ((listed p).mp mem).1
    rw [resolveChunk, if_neg (by simp [success]), stdout, lines_unlines rows]
    simp only [providersOf, List.mem_flatMap, List.mem_filter, List.mem_map]
    constructor
    · rintro ⟨row, ⟨⟨c, inside, rfl⟩, key⟩, read⟩
      obtain ⟨added, p, mem, rfl⟩ := named.mp read
      obtain ⟨here, provides⟩ := (listed p).mp mem
      exact ⟨beq_iff_eq.mp key ▸ inside, all, added, p, here, rfl, provides⟩
    · rintro ⟨inside, -, added, p, here, rfl, provides⟩
      exact ⟨_, ⟨⟨cap, inside, rfl⟩, by simp⟩,
        named.mpr ⟨added, p, (listed p).mpr ⟨here, provides⟩, rfl⟩⟩
  · obtain ⟨c, inside, unprovided⟩ : ∃ c ∈ chunk, ¬ Provided installed c := by
      simpa only [not_forall, exists_prop] using all
    rw [resolveChunk, if_pos (by simp [answers.unprovided chunk c inside unprovided])]
    exact ⟨fun none => absurd none (by simp [providersOf]), fun h => absurd h.2.1 all⟩

theorem mem_resolveAllProviders (answers : AnswersFrom installed run)
    (readable : ∀ p ∈ installed, p.IsReadable) (allCaps : List String) {cap id : String} :
    id ∈ providersOf (resolveAllProviders run allCaps addedIds) cap ↔
      ∃ chunk ∈ allCaps.toChunks BATCH_SIZE, cap ∈ chunk ∧
        (∀ c ∈ chunk, Provided installed c) ∧ id ∈ addedIds ∧ ProvidesOf installed chunk id := by
  have gathered : providersOf (resolveAllProviders run allCaps addedIds) cap =
      (allCaps.toChunks BATCH_SIZE).flatMap fun chunk =>
        providersOf (resolveChunk run addedIds chunk) cap := by
    rw [providersOf, resolveAllProviders, List.filter_flatMap, List.flatMap_assoc]
    rfl
  rw [gathered, List.mem_flatMap]
  exact exists_congr fun chunk => and_congr_right fun _ => mem_resolveChunk answers readable chunk

theorem mem_dependenciesOf {printed : List RpmPackage} {capProviders : List (String × List String)}
    {id q : String} :
    q ∈ dependenciesOf (printed.map fun p => (p.name, Grouping.distinctSorted p.needs))
        capProviders id ↔
      nameFromId q ≠ nameFromId id ∧
        ∃ r ∈ printed, r.name = nameFromId id ∧ ∃ c ∈ r.needs, q ∈ providersOf capProviders c := by
  simp only [dependenciesOf, List.mem_dedup, List.mem_filter, List.mem_flatMap, List.mem_map,
    bne_iff_ne, beq_iff_eq]
  constructor
  · rintro ⟨⟨c, ⟨row, ⟨⟨r, mem, rfl⟩, name⟩, need⟩, provider⟩, other⟩
    exact ⟨other, r, mem, name, c, Grouping.mem_distinctSorted.mp need, provider⟩
  · rintro ⟨other, r, mem, name, c, need, provider⟩
    exact ⟨⟨c, ⟨_, ⟨⟨r, mem, rfl⟩, name⟩, Grouping.mem_distinctSorted.mpr need⟩, provider⟩, other⟩

theorem edge_map {f : String → List String} {ids : List String} {a b : String} :
    Reachable.Edge (ids.map fun id => (id, f id)) a b ↔ a ∈ ids ∧ b ∈ f a := by
  rw [Reachable.Edge, Reachable.next]
  induction ids with
  | nil => simp
  | cons id rest ih =>
    rw [List.map_cons, List.lookup_cons, List.mem_cons]
    by_cases here : a = id
    · subst here
      simp
    · rw [beq_false_of_ne here]
      simpa [here] using ih

theorem neededCaps_eq {printed : List RpmPackage}
    (listed : ∀ p, p ∈ printed ↔ p ∈ installed ∧ p.name ∈ (sortedIds addedIds).map nameFromId) :
    Grouping.distinctSorted ((printed.map fun p =>
      (p.name, Grouping.distinctSorted p.needs)).flatMap (·.2)) =
        neededCaps installed addedIds := by
  refine Grouping.distinctSorted_congr fun cap => ?_
  simp only [List.flatMap_map, List.mem_flatMap, Grouping.mem_distinctSorted, listed,
    List.mem_filter, List.contains_iff_mem, List.mem_map, mem_sortedIds]

theorem classifyDepsRpm_edges (answers : AnswersFrom installed run)
    (readable : ∀ p ∈ installed, p.IsReadable)
    (added : ∀ id ∈ addedIds, ∃ p ∈ installed, p.id = id) :
    ∃ graph, classifyDepsRpm run addedIds = some graph ∧
      ∀ a b, Reachable.Edge graph a b ↔ a ∈ addedIds ∧ b ∈ addedIds ∧ nameFromId b ≠ nameFromId a ∧
        ∃ chunk ∈ (neededCaps installed addedIds).toChunks BATCH_SIZE,
          (∀ c ∈ chunk, Provided installed c) ∧
          (∃ c ∈ chunk, ∃ r ∈ installed, r.name = nameFromId a ∧ c ∈ r.needs) ∧
          ProvidesOf installed chunk b := by
  by_cases none : addedIds = []
  · subst none
    exact ⟨[], rfl, fun a b => by simp [Reachable.Edge, Reachable.next]⟩
  · obtain ⟨success, printed, listed, stdout⟩ :=
      answers.requires ((sortedIds addedIds).map nameFromId) (by
        intro name mem
        obtain ⟨id, inside, rfl⟩ := List.mem_map.mp mem
        obtain ⟨p, here, rfl⟩ := added id (mem_sortedIds.mp inside)
        exact ⟨p, here, (nameFromId_id p).symm⟩)
    rw [classifyDepsRpm, if_neg (by simpa using none), if_neg (by simp [success]), stdout,
      parseSentinelRequires_unlines]
    refine ⟨_, rfl, fun a b => ?_⟩
    rw [neededCaps_eq listed, edge_map, mem_sortedIds, mem_dependenciesOf]
    simp only [mem_resolveAllProviders answers readable, listed]
    constructor
    · rintro ⟨inside, other, r, ⟨here, -⟩, name, c, need, chunk, cut, mem, all, target, provides⟩
      exact ⟨inside, target, other, chunk, cut, all, ⟨c, mem, r, here, name, need⟩, provides⟩
    · rintro ⟨inside, target, other, chunk, cut, all, ⟨c, mem, r, here, name, need⟩, provides⟩
      have asked : r.name ∈ (sortedIds addedIds).map nameFromId :=
        name ▸ List.mem_map_of_mem (mem_sortedIds.mpr inside)
      exact ⟨inside, other, r, ⟨here, asked⟩, name, c, need, chunk, cut, mem, all, target, provides⟩

end

def answerRows (known : Bool) (rows : List String) : ExecResult :=
  if known then { stdout := unlines rows } else { exitCode := 1 }

def rpmAnswer (installed : List RpmPackage) : List String → ExecResult
  | "-q" :: "--queryformat" :: _ :: names =>
    answerRows (names.all fun n => installed.any (·.name == n))
      ((installed.filter fun p => names.contains p.name).flatMap RpmPackage.rows)
  | "-q" :: "--whatprovides" :: caps =>
    answerRows (caps.all fun c => installed.any (·.provides.contains c))
      ((installed.filter fun p => caps.any (p.provides.contains ·)).map RpmPackage.nevra)
  | _ => { exitCode := 1 }

theorem rpmAnswer_answers (installed : List RpmPackage) :
    AnswersFrom installed (rpmAnswer installed) where
  requires := by
    intro names known
    have all : (names.all fun n => installed.any (·.name == n)) = true := by
      simpa using known
    have answer : ∀ rows, answerRows _ rows = { stdout := unlines rows } := fun rows => if_pos all
    refine ⟨congrArg ExecResult.success (answer _), _, fun p => ?_,
      congrArg ExecResult.stdout (answer _)⟩
    simp
  provided := by
    intro caps known
    have all : (caps.all fun c => installed.any (·.provides.contains c)) = true := by
      simpa [Provided] using known
    have answer : ∀ rows, answerRows _ rows = { stdout := unlines rows } := fun rows => if_pos all
    refine ⟨congrArg ExecResult.success (answer _), _, fun p => ?_,
      congrArg ExecResult.stdout (answer _)⟩
    simp
  unprovided := by
    intro caps c listed none
    have missing : (caps.all fun c => installed.any (·.provides.contains c)) = false := by
      refine Bool.eq_false_iff.mpr fun all => none ?_
      simpa [Provided] using List.all_eq_true.mp all c listed
    exact congrArg (fun known => (answerRows known _).success) missing

def plainPackage (name : String) (requires provides : List String) (solid : IsSolid name)
    (titled : ∀ row ∈ requires, IsSolid row ∧ Text.startsWith row "@@" = false) : RpmPackage where
  name := name
  version := "1.0"
  release := "1"
  arch := "noarch"
  requires := requires
  provides := provides
  solid := List.forall_mem_cons.mpr ⟨solid, by decide⟩
  dotless := by decide
  titled := fun row mem => ⟨(titled row mem).1.isTitle, (titled row mem).2⟩

def twoPairs : List RpmPackage :=
  [plainPackage "nginx" ["libssl"] [] (by decide) (by decide),
    plainPackage "openssl" [] ["libssl"] (by decide) (by decide),
    plainPackage "vim" ["perl-base"] [] (by decide) (by decide),
    plainPackage "perl" [] ["perl-base"] (by decide) (by decide)]

theorem twoPairs_readable : ∀ p ∈ twoPairs, p.IsReadable := by
  have checked : ∀ p ∈ twoPairs, '-' ∉ p.name.toList ∧ p.version = "1.0" := by decide
  intro p mem
  refine ⟨fun d inside => ?_, '1', ?_, rfl⟩
  · exact absurd (inside.subset List.mem_cons_self) (checked p mem).1
  · rw [(checked p mem).2]
    rfl

def ExactEdges (installed : List RpmPackage) (addedIds : List String)
    (graph : List (String × List String)) : Prop :=
  ∀ p ∈ installed, ∀ q ∈ installed, p.id ∈ addedIds → q.id ∈ addedIds → p.name ≠ q.name →
    (Reachable.Edge graph p.id q.id ↔ ∃ c ∈ p.needs, c ∈ q.provides)

/-- A package with a second capability that none provides. -/
def missingLibrary : List RpmPackage :=
  [plainPackage "nginx" ["libpcre", "libssl"] [] (by decide) (by decide),
    plainPackage "openssl" [] ["libssl"] (by decide) (by decide)]

end Inspectah
