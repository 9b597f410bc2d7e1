import Inspectah.Aggregate.MergeRpm
import Inspectah.Core.Text
import Inspectah.Library.Survivors

/-!
The `/var` directories of several hosts as one list. One entry stands for each path: the
first whose verdict names a creator the export can carry, or else the first of all.
-/
namespace Inspectah

open Grouping Survivors

variable (sections : List (Option StorageSection))

/-- A fragment under `/run` is generated at runtime and reaches no image. -/
def VarDirBacking.namesACarryableCreator : VarDirBacking → Bool
  | .tmpfiles conf _ => !Text.startsWith conf RUN_TMPFILES_PREFIX
  | .stateDirectory declaredBy => !declaredBy.isEmpty
  | .cacheDirectory declaredBy => !declaredBy.isEmpty
  | .logsDirectory declaredBy => !declaredBy.isEmpty
  | .rpmOwned _ => true
  | .unbacked => false

def carryable (dir : VarDirectory) : Bool := dir.backing.any (·.namesACarryableCreator)

def listedVarDirectories : List VarDirectory :=
  sections.flatMap fun sec => (sec.map (·.varDirectories)).getD []

def survivingDirectories (listed : List VarDirectory) : List VarDirectory :=
  (settleAll VarDirectory.path
    (fun survivor challenger =>
      survivor.backing.all (fun b => !b.namesACarryableCreator) &&
        challenger.backing.any (·.namesACarryableCreator))
    listed).result

/-- `var_directories` in `merge_storage_sections`. -/
def mergeVarDirectories : List VarDirectory :=
  (survivingDirectories (listedVarDirectories sections)).insertionSort fun a b => a.path ≤ b.path

def listedAt (path : String) : List VarDirectory :=
  rowsAt VarDirectory.path (listedVarDirectories sections) path

structure VarDirectoriesMerged (sections : List (Option StorageSection)) (merged : List VarDirectory) :
    Prop where
  /-- One entry a path, in the order of the paths. -/
  ordered : merged.Pairwise fun a b => a.path < b.path
  covers : ∀ path, path ∈ merged.map (·.path) ↔
    ∃ sec, some sec ∈ sections ∧ ∃ d ∈ sec.varDirectories, d.path = path
  /-- The first entry with a carryable creator, or else the first entry. -/
  survivor : ∀ d ∈ merged,
    ((listedAt sections d.path).find? carryable).or (listedAt sections d.path).head? = some d

/-- A further entry replaces a survivor only if it alone has a carryable creator. -/
def BackedStays (listed : List VarDirectory) : Prop :=
  ∀ earlier d later, listed = earlier ++ d :: later → ∀ survivor ∈ survivingDirectories earlier,
    survivor ∈ survivingDirectories (earlier ++ [d]) ∨
      (carryable survivor = false ∧ carryable d = true ∧ d.path = survivor.path ∧
        d ∈ survivingDirectories (earlier ++ [d]))

theorem beats_eq_outranks :
    (fun survivor challenger : VarDirectory =>
      survivor.backing.all (fun b => !b.namesACarryableCreator) &&
        challenger.backing.any (·.namesACarryableCreator)) = outranks carryable := by
  funext survivor challenger
  rw [outranks, carryable, carryable]
  cases survivor.backing <;> simp

theorem mem_listedVarDirectories {sections : List (Option StorageSection)} {d : VarDirectory} :
    d ∈ listedVarDirectories sections ↔ ∃ sec, some sec ∈ sections ∧ d ∈ sec.varDirectories := by
  rw [listedVarDirectories, List.mem_flatMap]
  constructor
  · rintro ⟨sec, mem, inside⟩
    cases sec with
    | none => cases inside
    | some sec => exact ⟨sec, mem, inside⟩
  · rintro ⟨sec, mem, inside⟩
    exact ⟨some sec, mem, inside⟩

theorem survivingDirectories_holds (listed : List VarDirectory) :
    ∃ places : Places String VarDirectory,
      HoldsChampions VarDirectory.path (outranks carryable) listed places ∧
      survivingDirectories listed = places.result := by
  refine ⟨_, settleAll_holds _, ?_⟩
  rw [survivingDirectories, beats_eq_outranks]

theorem mem_survivingDirectories {listed : List VarDirectory} {d : VarDirectory} :
    d ∈ survivingDirectories listed ↔
      ((rowsAt VarDirectory.path listed d.path).find? carryable).or
        (rowsAt VarDirectory.path listed d.path).head? = some d := by
  obtain ⟨places, holds, same⟩ := survivingDirectories_holds listed
  rw [same, ← champion_outranks]
  refine ⟨holds.stands d, fun stands => ?_⟩
  have occupied : rowsAt VarDirectory.path listed d.path ≠ [] := by
    intro empty
    rw [empty] at stands
    cases stands
  obtain ⟨row, mem⟩ := List.exists_mem_of_ne_nil _ occupied
  obtain ⟨inside, path⟩ := mem_rowsAt.mp mem
  obtain ⟨d', held, path'⟩ := List.mem_map.mp ((holds.covers d.path).mpr ⟨row, inside, path⟩)
  have stands' := holds.stands d' held
  rw [path', stands] at stands'
  exact Option.some.inj stands' ▸ held

theorem mergeVarDirectories_merged :
    VarDirectoriesMerged sections (mergeVarDirectories sections) := by
  obtain ⟨places, holds, same⟩ := survivingDirectories_holds (listedVarDirectories sections)
  have perm := List.perm_insertionSort (fun a b : VarDirectory => a.path ≤ b.path) places.result
  rw [mergeVarDirectories, same]
  constructor
  · have distinct : ((places.result.insertionSort fun a b => a.path ≤ b.path).map (·.path)).Nodup :=
      (perm.map _).nodup_iff.mpr holds.nodup
    have apart := List.pairwise_map.mp distinct
    exact (pairwise_sortBy VarDirectory.path places.result).imp₂
      (fun a b below ne => lt_of_le_of_ne below ne) apart
  · intro path
    rw [(perm.map _).mem_iff, holds.covers]
    simp only [mem_listedVarDirectories]
    tauto
  · intro d mem
    rw [listedAt, ← champion_outranks]
    exact holds.stands d (perm.mem_iff.mp mem)

theorem survivingDirectories_backedStays (listed : List VarDirectory) : BackedStays listed := by
  rintro earlier d later - survivor mem
  have stood := mem_survivingDirectories.mp mem
  by_cases own : d.path = survivor.path
  · have cut : rowsAt VarDirectory.path (earlier ++ [d]) survivor.path =
        rowsAt VarDirectory.path earlier survivor.path ++ [d] := by
      rw [rowsAt_concat, if_pos own]
    by_cases replaced : carryable survivor = false ∧ carryable d = true
    · refine .inr ⟨replaced.1, replaced.2, own, mem_survivingDirectories.mpr ?_⟩
      have bare : (rowsAt VarDirectory.path earlier survivor.path).find? carryable = none := by
        cases found : (rowsAt VarDirectory.path earlier survivor.path).find? carryable with
        | none => rfl
        | some a =>
          rw [found] at stood
          cases stood
          rw [List.find?_some found] at replaced
          cases replaced.1
      rw [own, cut, List.find?_append, bare, List.find?_singleton, if_pos replaced.2]
      rfl
    · refine .inl (mem_survivingDirectories.mpr ?_)
      rw [cut, List.find?_append, List.head?_append]
      cases found : (rowsAt VarDirectory.path earlier survivor.path).find? carryable with
      | some a => rwa [found] at stood
      | none =>
        rw [found, Option.none_or] at stood
        have plain : carryable survivor = false := by
          simpa using List.find?_eq_none.mp found survivor (List.mem_of_mem_head? stood)
        rw [List.find?_singleton, if_neg fun new => replaced ⟨plain, new⟩, stood]
        rfl
  · refine .inl (mem_survivingDirectories.mpr ?_)
    rwa [rowsAt_concat, if_neg own, List.append_nil]

/-- The merged list has one entry a path, and a backed entry keeps its place. -/
theorem var_directories_law :
    VarDirectoriesMerged sections (mergeVarDirectories sections) ∧
      BackedStays (listedVarDirectories sections) :=
  ⟨mergeVarDirectories_merged sections, survivingDirectories_backedStays _⟩

end Inspectah
