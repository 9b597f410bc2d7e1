import Inspectah.Refine.Types
import Mathlib.Data.List.AList

/-!
The repository index of a session: which files define a section and which keys it references,
as the files say. Maps are keyed by the folded id.
-/
namespace Inspectah

/-- A `BTreeMap` with text keys; nothing below reads its order. -/
abbrev KeyedMap (V : Type) := AList fun _ : String => V

/-- `entry(key).or_default().push(value)`. -/
def pushAt {V : Type} (key : String) (value : V) (m : KeyedMap (List V)) : KeyedMap (List V) :=
  m.insert key ((m.lookup key).getD [] ++ [value])

structure RepoIndex where
  /-- Each repo's packages, with the first spelling its id was recorded in. -/
  packagesByRepo : KeyedMap (RepoId × List String) := ∅
  repoFileBySection : KeyedMap (List String) := ∅
  gpgKeysBySection : KeyedMap (List String) := ∅
  sectionsByGpgKey : KeyedMap (List String) := ∅
  provenanceMap : KeyedMap RepoProvenance := ∅

namespace RepoIndex

/-- The three maps a pass over the repo files fills, and the last definition of each id. -/
structure Sections where
  files : KeyedMap (List String) := ∅
  keys : KeyedMap (List String) := ∅
  byKey : KeyedMap (List String) := ∅
  defs : KeyedMap RepoSectionDef := ∅

def addKey (id : String) (acc : Sections) (keyPath : String) : Sections :=
  { acc with
    keys := pushAt id keyPath acc.keys
    byKey :=
      if ((acc.byKey.lookup keyPath).getD []).contains id then acc.byKey
      else pushAt keyPath id acc.byKey }

def addSection (path : String) (acc : Sections) (sec : RepoSectionDef) : Sections :=
  let id := sec.id.folded
  let acc := sec.gpgKeyPaths.foldl (addKey id) { acc with files := pushAt id path acc.files }
  { acc with defs := acc.defs.insert id sec }

def readSections (files : List RepoFile) : Sections :=
  files.foldl (fun acc f => (parseRepoSections f.content).foldl (addSection f.path) acc) {}

def addPackage (m : KeyedMap (RepoId × List String)) (p : PackageEntry) :
    KeyedMap (RepoId × List String) :=
  if p.sourceRepo.isEmpty then m
  else
    let id : RepoId := ⟨p.sourceRepo⟩
    match m.lookup id.folded with
    | none => m.insert id.folded (id, [p.name])
    | some (first, names) => m.insert id.folded (first, names ++ [p.name])

def packagesBySource (packages : List PackageEntry) : KeyedMap (RepoId × List String) :=
  packages.foldl addPackage ∅

def sectionProvenance (gpgKeys : List RepoFile) (sec : RepoSectionDef) : RepoProvenance :=
  if !sec.enabled then .disabled
  else if sec.hasSource && sec.gpgKeyPaths.all fun p => gpgKeys.any fun k => k.path == p then
    .verified
  else .incomplete

def build (snap : InspectionSnapshot) : RepoIndex :=
  match snap.rpm with
  | none => {}
  | some rpm =>
    let secs := readSections rpm.repoFiles
    let byRepo := packagesBySource rpm.packagesAdded
    let defined := secs.defs.entries.foldl
      (fun m (e : Sigma fun _ : String => RepoSectionDef) =>
        m.insert e.1 (sectionProvenance rpm.gpgKeys e.2))
      (∅ : KeyedMap RepoProvenance)
    { packagesByRepo := byRepo
      repoFileBySection := secs.files
      gpgKeysBySection := secs.keys
      sectionsByGpgKey := secs.byKey
      provenanceMap := byRepo.keys.foldl
        (fun m id => if (m.lookup id).isSome then m else m.insert id .stale) defined }

def provenance (index : RepoIndex) (id : RepoId) : RepoProvenance :=
  if id.raw.isEmpty || Text.eqIgnoreAsciiCase id.raw "@commandline" then .unknown
  else (index.provenanceMap.lookup id.folded).getD .unknown

def isDistroRepo (sectionId : String) : Bool := repoTier sectionId == .distro

def filesOf (index : RepoIndex) (id : RepoId) : List String :=
  (index.repoFileBySection.lookup id.folded).getD []

def keysOf (index : RepoIndex) (id : RepoId) : List String :=
  (index.gpgKeysBySection.lookup id.folded).getD []

end RepoIndex

def RepoFile.Defines (file : RepoFile) (id : String) : Prop :=
  ∃ sec ∈ parseRepoSections file.content, sec.id.folded = id

def RepoFile.References (file : RepoFile) (id key : String) : Prop :=
  ∃ sec ∈ parseRepoSections file.content, sec.id.folded = id ∧ key ∈ sec.gpgKeyPaths

def DefinedAt (files : List RepoFile) (path id : String) : Prop :=
  ∃ file ∈ files, file.path = path ∧ file.Defines id

def ReferencedBy (files : List RepoFile) (key id : String) : Prop :=
  ∃ file ∈ files, file.References id key

theorem mem_pushAt {V : Type} {key k : String} {value v : V} {m : KeyedMap (List V)} :
    v ∈ ((pushAt key value m).lookup k).getD [] ↔
      v ∈ (m.lookup k).getD [] ∨ k = key ∧ v = value := by
  rw [pushAt]
  by_cases same : k = key
  · subst same
    rw [AList.lookup_insert, Option.getD_some, List.mem_append, List.mem_singleton]
    simp
  · rw [AList.lookup_insert_ne same]
    simp [same]

theorem gathered_foldl {σ ι : Type} {step : σ → ι → σ} (holds : σ → Prop) (adds : ι → Prop)
    (each : ∀ s i, holds (step s i) ↔ holds s ∨ adds i) (is : List ι) (s : σ) :
    holds (is.foldl step s) ↔ holds s ∨ ∃ i ∈ is, adds i := by
  induction is generalizing s with
  | nil => simp
  | cons i is ih => rw [List.foldl_cons, ih, each, List.exists_mem_cons_iff, or_assoc]

namespace RepoIndex

section Keys

variable (id : String) (acc : Sections) (keys : List String)

theorem files_addKeys : (keys.foldl (addKey id) acc).files = acc.files := by
  induction keys generalizing acc with
  | nil => rfl
  | cons key rest ih => exact (ih _).trans rfl

theorem mem_keys_addKeys {k key : String} :
    key ∈ ((keys.foldl (addKey id) acc).keys.lookup k).getD [] ↔
      key ∈ (acc.keys.lookup k).getD [] ∨ k = id ∧ key ∈ keys := by
  rw [gathered_foldl (fun a : Sections => key ∈ (a.keys.lookup k).getD [])
    (fun added => k = id ∧ key = added) fun a added => mem_pushAt]
  simp [and_comm]

theorem mem_byKey_addKeys {k key : String} :
    k ∈ ((keys.foldl (addKey id) acc).byKey.lookup key).getD [] ↔
      k ∈ (acc.byKey.lookup key).getD [] ∨ k = id ∧ key ∈ keys := by
  rw [gathered_foldl (fun a : Sections => k ∈ (a.byKey.lookup key).getD [])
    (fun added => key = added ∧ k = id) fun a added => ?_]
  · simp [and_comm]
  · unfold addKey
    dsimp only
    split
    · rename_i known
      rw [List.contains_iff_mem] at known
      constructor
      · exact .inl
      · rintro (old | ⟨rfl, rfl⟩)
        · exact old
        · exact known
    · exact mem_pushAt

end Keys

section Read

variable (files : List RepoFile)

theorem mem_files_addSection (path : String) (acc : Sections) (sec : RepoSectionDef)
    {id file : String} :
    file ∈ ((addSection path acc sec).files.lookup id).getD [] ↔
      file ∈ (acc.files.lookup id).getD [] ∨ id = sec.id.folded ∧ file = path := by
  unfold addSection
  dsimp only
  rw [files_addKeys]
  exact mem_pushAt

theorem mem_files_readSections {id file : String} :
    file ∈ ((readSections files).files.lookup id).getD [] ↔ DefinedAt files file id := by
  rw [readSections, gathered_foldl
    (fun acc : Sections => file ∈ (acc.files.lookup id).getD [])
    (fun f : RepoFile => f.path = file ∧ f.Defines id)]
  · simp [DefinedAt]
  · intro acc f
    rw [gathered_foldl (fun a : Sections => file ∈ (a.files.lookup id).getD [])
      _ fun a sec => mem_files_addSection f.path a sec]
    apply or_congr_right
    constructor
    · rintro ⟨sec, mem, rfl, rfl⟩
      exact ⟨rfl, sec, mem, rfl⟩
    · rintro ⟨rfl, sec, mem, rfl⟩
      exact ⟨sec, mem, rfl, rfl⟩

theorem referenced_readSections {holds : Sections → Prop} {id key : String} (start : ¬ holds {})
    (each : ∀ path acc sec, holds (addSection path acc sec) ↔
      holds acc ∨ id = sec.id.folded ∧ key ∈ sec.gpgKeyPaths) :
    holds (readSections files) ↔ ReferencedBy files key id := by
  rw [readSections, gathered_foldl holds (fun f : RepoFile => f.References id key)]
  · simp [ReferencedBy, start]
  · intro acc f
    rw [gathered_foldl holds _ fun a sec => each f.path a sec]
    simp only [RepoFile.References, eq_comm]

theorem mem_keys_readSections {id key : String} :
    key ∈ ((readSections files).keys.lookup id).getD [] ↔ ReferencedBy files key id :=
  @referenced_readSections files (fun acc => key ∈ (acc.keys.lookup id).getD []) id key (by simp)
    fun _ _ _ => mem_keys_addKeys _ _ _

theorem mem_byKey_readSections {id key : String} :
    id ∈ ((readSections files).byKey.lookup key).getD [] ↔ ReferencedBy files key id :=
  @referenced_readSections files (fun acc => id ∈ (acc.byKey.lookup key).getD []) id key (by simp)
    fun _ _ _ => mem_byKey_addKeys _ _ _

end Read

end RepoIndex

end Inspectah
