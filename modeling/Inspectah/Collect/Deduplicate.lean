import Inspectah.Library.BestPerKey
import Inspectah.Refine.Normalize

/-!
Deduplication of detected software. The detectors report what they find at a
path on their own; of the reports of one ecosystem at one path the first of the
highest confidence stays.
-/
namespace Inspectah

open BestPerKey

/-- `dedup_ecosystem`. -/
def dedupEcosystem (method : String) : String :=
  if method = METHOD_PIP_DIST_INFO ∨ method = METHOD_PYTHON_VENV then "pip"
  else if method = METHOD_NPM_LOCKFILE ∨ method = METHOD_NPM_MANIFEST ∨
      method = METHOD_NPM_GLOBAL then "npm"
  else if method = METHOD_GEM_LOCKFILE ∨ method = METHOD_GEM_SYSTEM then "gem"
  else "binary"

def confidenceRank (confidence : String) : Int :=
  if confidence = "high" then 2 else if confidence = "medium" then 1 else 0

def dedupKey (item : NonRpmItem) : String × String := (dedupEcosystem item.method, item.path)

structure DedupScan where
  seen : AList fun _ : String × String => Nat × Int := ∅
  order : List (String × String) := []

/-- One turn of the loop. -/
def DedupScan.note (scan : DedupScan) (entry : NonRpmItem × Nat) : DedupScan :=
  let (item, i) := entry
  let rank := confidenceRank item.confidence
  let key := dedupKey item
  match scan.seen.lookup key with
  | none => { seen := scan.seen.insert key (i, rank), order := scan.order ++ [key] }
  | some (_, existingRank) =>
    if existingRank < rank then { scan with seen := scan.seen.insert key (i, rank) } else scan

def deduplicateItems (items : List NonRpmItem) : List NonRpmItem :=
  let scan := items.zipIdx.foldl DedupScan.note {}
  scan.order.filterMap fun key => (scan.seen.lookup key).bind fun held => items[held.1]?

/-- What a report is about. -/
inductive SoftwareKind where
  | languageEnv
  | workingTree
  | binary
  deriving DecidableEq

def LANGUAGE_ENV_METHODS : List String :=
  [METHOD_PIP_DIST_INFO, METHOD_PYTHON_VENV, METHOD_NPM_LOCKFILE, METHOD_NPM_MANIFEST,
    METHOD_NPM_GLOBAL, METHOD_GEM_LOCKFILE, METHOD_GEM_SYSTEM]

def softwareKind (method : String) : SoftwareKind :=
  if LANGUAGE_ENV_METHODS.contains method then .languageEnv
  else if method = "git repo" then .workingTree
  else .binary

abbrev BestItems (items out : List NonRpmItem) : Prop :=
  BestOfEach dedupKey (fun item => confidenceRank item.confidence) items out

/-- The best item of each ecosystem and path stays, no other kind is displaced, and a second
    pass does nothing. -/
structure KeepsBest (items : List NonRpmItem) : Prop where
  best : BestItems items (deduplicateItems items)
  separate : ∀ a ∈ items, ∃ w ∈ deduplicateItems items,
    w.path = a.path ∧ softwareKind w.method = softwareKind a.method
  settled : deduplicateItems (deduplicateItems items) = deduplicateItems items

structure DedupScan.Holds (scan : DedupScan) (items : List NonRpmItem) : Prop where
  order : Grouping.FirstSeen (items.map dedupKey) scan.order
  known : ∀ key, key ∈ scan.order ↔ (scan.seen.lookup key).isSome
  best : ∀ key i rank, scan.seen.lookup key = some (i, rank) → ∃ w,
    IsBest dedupKey (fun item => confidenceRank item.confidence) items key i w ∧
      rank = confidenceRank w.confidence

theorem DedupScan.Holds.note {scan : DedupScan} {items : List NonRpmItem} (holds : scan.Holds items)
    (item : NonRpmItem) : (scan.note (item, items.length)).Holds (items ++ [item]) := by
  have among : dedupKey item ∈ items.map dedupKey ↔ (scan.seen.lookup (dedupKey item)).isSome :=
    (holds.order.covers _).symm.trans (holds.known _)
  have others : ∀ {key i rank} {v : Nat × Int}, key ≠ dedupKey item →
      (scan.seen.insert (dedupKey item) v).lookup key = some (i, rank) → ∃ w,
        IsBest dedupKey (fun item => confidenceRank item.confidence) (items ++ [item]) key i w ∧
          rank = confidenceRank w.confidence := by
    intro key i rank v other held
    rw [AList.lookup_insert_ne other] at held
    obtain ⟨w, best, ranked⟩ := holds.best key i rank held
    exact ⟨w, best.kept fun same => absurd same.symm other, ranked⟩
  unfold DedupScan.note
  dsimp only
  cases held : scan.seen.lookup (dedupKey item) with
  | none =>
    have fresh : dedupKey item ∉ items.map dedupKey := by rw [among, held]; simp
    refine ⟨?_, ?_, ?_⟩
    · rw [List.map_append]
      exact holds.order.fresh fresh
    · intro key
      by_cases same : key = dedupKey item
      · rw [same, AList.lookup_insert]
        simp
      · rw [List.mem_append, holds.known, AList.lookup_insert_ne same]
        simp [same]
    · intro key i rank found
      by_cases same : key = dedupKey item
      · subst same
        rw [AList.lookup_insert, Option.some.injEq, Prod.mk.injEq] at found
        obtain ⟨rfl, rfl⟩ := found
        exact ⟨item, IsBest.appended fun b mem keyed =>
          absurd (List.mem_map.mpr ⟨b, mem, keyed⟩) fresh, rfl⟩
      · exact others same found
  | some entry =>
    obtain ⟨place, existingRank⟩ := entry
    obtain ⟨w, best, ranked⟩ := holds.best _ _ _ held
    have known : dedupKey item ∈ items.map dedupKey := by rw [among, held]; rfl
    have order : Grouping.FirstSeen ((items ++ [item]).map dedupKey) scan.order := by
      rw [List.map_append]
      exact holds.order.known known
    dsimp only
    split
    · rename_i higher
      refine ⟨order, fun key => ?_, fun key i rank found => ?_⟩
      · by_cases same : key = dedupKey item
        · rw [holds.known, same, held, AList.lookup_insert]
          simp
        · rw [holds.known, AList.lookup_insert_ne same]
      · by_cases same : key = dedupKey item
        · subst same
          rw [AList.lookup_insert, Option.some.injEq, Prod.mk.injEq] at found
          obtain ⟨rfl, rfl⟩ := found
          refine ⟨item, IsBest.appended fun b mem keyed => ?_, rfl⟩
          have below := best.highest b mem keyed
          omega
        · exact others same found
    · rename_i behind
      refine ⟨order, holds.known, fun key i rank found => ?_⟩
      obtain ⟨v, best', ranked'⟩ := holds.best key i rank found
      refine ⟨v, best'.kept fun same => ?_, ranked'⟩
      rw [← same, held, Option.some.injEq, Prod.mk.injEq] at found
      obtain ⟨rfl, rfl⟩ := found
      omega

theorem scan_holds (items : List NonRpmItem) :
    (items.zipIdx.foldl DedupScan.note {}).Holds items := by
  induction items using List.reverseRecOn with
  | nil => exact ⟨⟨List.nodup_nil, fun _ => Iff.rfl, .nil⟩, by simp, by simp⟩
  | append_singleton items item ih =>
    rw [List.zipIdx_append, List.foldl_append]
    have step := ih.note item
    simpa using step

theorem deduplicateItems_best (items : List NonRpmItem) :
    BestItems items (deduplicateItems items) := by
  have holds := scan_holds items
  generalize made : items.zipIdx.foldl DedupScan.note {} = scan at holds
  have reads : ∀ key ∈ scan.order, ∃ i w,
      IsBest dedupKey (fun item => confidenceRank item.confidence) items key i w ∧
        ((scan.seen.lookup key).bind fun held => items[held.1]?) = some w := by
    intro key mem
    obtain ⟨⟨i, rank⟩, held⟩ := Option.isSome_iff_exists.mp ((holds.known key).mp mem)
    obtain ⟨w, best, -⟩ := holds.best key i rank held
    exact ⟨i, w, best, by rw [held]; exact best.here⟩
  have out : deduplicateItems items =
      scan.order.filterMap fun key => (scan.seen.lookup key).bind fun held => items[held.1]? := by
    rw [← made]
    rfl
  constructor
  · suffices (deduplicateItems items).map dedupKey = scan.order from this ▸ holds.order
    rw [out, List.map_filterMap]
    refine (List.filterMap_congr fun key mem => ?_).trans List.filterMap_some
    obtain ⟨i, w, best, found⟩ := reads key mem
    rw [found, Option.map_some, best.keyed]
  · intro w mem
    rw [out] at mem
    obtain ⟨key, known, found⟩ := List.mem_filterMap.mp mem
    obtain ⟨i, v, best, found'⟩ := reads key known
    obtain rfl : v = w := Option.some.inj (found'.symm.trans found)
    exact ⟨i, best.keyed ▸ best⟩

theorem deduplicateItems_settled (items : List NonRpmItem) :
    deduplicateItems (deduplicateItems items) = deduplicateItems items := by
  have apart := (deduplicateItems_best items).keys.nodup
  exact (deduplicateItems_best _).unique (bestOfEach_self apart)

theorem dedupEcosystem_binary {method : String} :
    dedupEcosystem method = "binary" ↔ softwareKind method ≠ .languageEnv := by
  have listed : LANGUAGE_ENV_METHODS.contains method = true ↔
      (method = METHOD_PIP_DIST_INFO ∨ method = METHOD_PYTHON_VENV) ∨
      (method = METHOD_NPM_LOCKFILE ∨ method = METHOD_NPM_MANIFEST ∨ method = METHOD_NPM_GLOBAL) ∨
      (method = METHOD_GEM_LOCKFILE ∨ method = METHOD_GEM_SYSTEM) := by
    simp [LANGUAGE_ENV_METHODS, or_assoc]
  unfold dedupEcosystem softwareKind
  simp only [listed]
  split
  · rename_i pip
    simp [pip]
  · rename_i pip
    split
    · rename_i npm
      simp [npm]
    · rename_i npm
      split
      · rename_i gem
        simp [gem]
      · rename_i gem
        simp only [pip, npm, gem, or_self, if_false, true_iff]
        split <;> simp

theorem softwareKind_of_dedupEcosystem {method method' : String}
    (same : dedupEcosystem method = dedupEcosystem method') :
    softwareKind method = softwareKind method' ∨
      (softwareKind method = .workingTree ∧ softwareKind method' = .binary) ∨
      (softwareKind method = .binary ∧ softwareKind method' = .workingTree) := by
  have both : softwareKind method = .languageEnv ↔ softwareKind method' = .languageEnv := by
    rw [← not_iff_not, ← Ne, ← Ne, ← dedupEcosystem_binary, ← dedupEcosystem_binary, same]
  cases one : softwareKind method <;> cases two : softwareKind method' <;> simp_all

def treeAndBinary : List NonRpmItem :=
  [{ path := "opt/tool", method := "git repo", confidence := "high" },
    { path := "opt/tool", method := "file scan", confidence := "low" }]

end Inspectah
