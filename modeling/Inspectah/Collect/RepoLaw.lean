import Inspectah.Collect.Repoless
import Mathlib.Data.List.Perm.Basic
import Mathlib.Data.List.Dedup
import Mathlib.Data.List.Infix

/-!
The law of repository attribution. The sections are looked at one by one, so an id that two
files define counts as two ids; what is attributed to it depends on how often it is there.
-/
namespace Inspectah

/-- What is said of a recorded value no section answers to. -/
def attributionOfString (recorded : String) : RepoAttribution :=
  let lower := Text.asciiLower recorded
  if lower = "@commandline" then .pseudo .commandline recorded
  else if lower = "anaconda" then .pseudo .anaconda recorded
  else if lower = "@system" then .pseudo .system recorded
  else if lower = "" then .unrecorded
  else .stale recorded

section

variable (lowercase : String → String) (recorded : String) (sections : List RepoSectionDef)

def namesakes : List RepoSectionDef :=
  sections.filter fun s => s.id.folded == RepoId.folded ⟨recorded⟩

def hits : List RepoSectionDef :=
  if recorded.isEmpty then []
  else sections.filter fun s =>
    s.enabled && Text.contains (lowercase s.id.raw) (lowercase recorded)

def IsOneId (found : List RepoSectionDef) : Prop :=
  ∃ s ∈ found, ∀ t ∈ found, t.id.folded = s.id.folded

def AreSeveralIds (found : List RepoSectionDef) : Prop :=
  ∃ s ∈ found, ∃ t ∈ found, s.id.folded ≠ t.id.folded

def IsLeastSpelling (id : RepoId) (found : List RepoSectionDef) : Prop :=
  ∀ t ∈ found, t.id.folded = id.folded → id.raw ≤ t.id.raw

structure AttributionLaw : Prop where
  exact_iff : (∃ id, classifyRecordedRepo lowercase recorded sections = .exact id) ↔
    namesakes recorded sections ≠ []
  spelling : ∀ id, classifyRecordedRepo lowercase recorded sections = .exact id →
    (∃ s ∈ namesakes recorded sections, s.id = id) ∧ IsLeastSpelling id sections
  resolved_iff : namesakes recorded sections = [] →
    ((∃ id, classifyRecordedRepo lowercase recorded sections = .resolved recorded id) ↔
      IsOneId (hits lowercase recorded sections))
  resolved_hit : ∀ id, classifyRecordedRepo lowercase recorded sections = .resolved recorded id →
    ∃ s ∈ hits lowercase recorded sections, s.id = id
  ambiguous_iff : namesakes recorded sections = [] →
    ((∃ ids, classifyRecordedRepo lowercase recorded sections = .ambiguous recorded ids) ↔
      AreSeveralIds (hits lowercase recorded sections))
  otherwise : namesakes recorded sections = [] → hits lowercase recorded sections = [] →
    classifyRecordedRepo lowercase recorded sections = attributionOfString recorded
  unordered : ∀ other, other.Perm sections →
    classifyRecordedRepo lowercase recorded other = classifyRecordedRepo lowercase recorded sections
  unrepeated : ∀ once : List RepoSectionDef, once.Nodup → (∀ s, s ∈ once ↔ s ∈ sections) →
    classifyRecordedRepo lowercase recorded once = classifyRecordedRepo lowercase recorded sections
  changed_only : ∀ pkg : PackageEntry, pkg.sourceRepo = recorded →
    (attributePackage lowercase sections pkg).sourceRepo ≠ recorded →
      (∃ id, (attributePackage lowercase sections pkg).repoAttribution = .exact id) ∨
        ∃ id, (attributePackage lowercase sections pkg).repoAttribution = .resolved recorded id
  settled : ∀ pkg : PackageEntry, pkg.sourceRepo = recorded →
    (attributePackage lowercase sections (attributePackage lowercase sections pkg)).sourceRepo =
      (attributePackage lowercase sections pkg).sourceRepo

/-- No hit comes twice or as several sections of one id, and a single one is the least section
    of its id. -/
structure HitsDistinct : Prop where
  once : (hits lowercase recorded sections).Nodup
  ids : ∀ s t, s ∈ hits lowercase recorded sections → t ∈ hits lowercase recorded sections →
    s ≠ t → AreSeveralIds (hits lowercase recorded sections)
  spelled : ∀ s, hits lowercase recorded sections = [s] → IsLeastSpelling s.id sections

variable {lowercase recorded sections}

theorem pairwise_sortIds (ids : List RepoId) : (sortIds ids).Pairwise fun a b => a.raw ≤ b.raw := by
  have total : Std.Total fun a b : RepoId => a.raw ≤ b.raw := ⟨fun a b => le_total a.raw b.raw⟩
  have trans : IsTrans RepoId fun a b => a.raw ≤ b.raw := ⟨fun _ _ _ => le_trans⟩
  exact List.pairwise_insertionSort _ _

theorem perm_sortIds (ids : List RepoId) : (sortIds ids).Perm ids := List.perm_insertionSort _ _

theorem sortIds_perm {a b : List RepoId} (perm : a.Perm b) : sortIds a = sortIds b := by
  refine List.Perm.eq_of_pairwise ?_ (pairwise_sortIds a)
    (pairwise_sortIds b) (((perm_sortIds a).trans perm).trans (perm_sortIds b).symm)
  rintro ⟨x⟩ ⟨y⟩ - - before after
  exact congrArg RepoId.mk (le_antisymm before after)

theorem head_sortIds {ids : List RepoId} {id : RepoId} (h : (sortIds ids).head? = some id) :
    id ∈ ids ∧ ∀ other ∈ ids, id.raw ≤ other.raw := by
  obtain ⟨rest, sorted⟩ : ∃ rest, sortIds ids = id :: rest := by
    cases sorted : sortIds ids with
    | nil =>
      rw [sorted] at h
      cases h
    | cons first rest =>
      rw [sorted] at h
      cases h
      exact ⟨rest, rfl⟩
  have ordered := pairwise_sortIds ids
  rw [sorted, List.pairwise_cons] at ordered
  have mem : ∀ other, other ∈ ids ↔ other = id ∨ other ∈ rest := by
    intro other
    rw [← (perm_sortIds ids).mem_iff, sorted, List.mem_cons]
  refine ⟨(mem id).mpr (.inl rfl), fun other inside => ?_⟩
  rcases (mem other).mp inside with rfl | later
  · exact le_refl _
  · exact ordered.1 other later

theorem head_sortIds_eq_none {ids : List RepoId} : (sortIds ids).head? = none ↔ ids = [] := by
  rw [List.head?_eq_none_iff]
  constructor
  · intro none
    exact List.perm_nil.mp (none ▸ (perm_sortIds ids).symm)
  · rintro rfl
    rfl

variable (lowercase) in
theorem classify_namesake (found : namesakes recorded sections ≠ []) :
    ∃ s ∈ namesakes recorded sections, (∀ t ∈ namesakes recorded sections, s.id.raw ≤ t.id.raw) ∧
      classifyRecordedRepo lowercase recorded sections = .exact s.id := by
  unfold classifyRecordedRepo
  dsimp only
  rw [← namesakes]
  split
  next id head =>
    obtain ⟨mem, least⟩ := head_sortIds head
    obtain ⟨s, inside, rfl⟩ := List.mem_map.mp mem
    exact ⟨s, inside, fun t other => least _ (List.mem_map_of_mem other), rfl⟩
  next none =>
    exact absurd (List.map_eq_nil_iff.mp (head_sortIds_eq_none.mp none)) found

theorem classify_other (missing : namesakes recorded sections = []) :
    classifyRecordedRepo lowercase recorded sections =
      match (hits lowercase recorded sections).map (·.id) with
      | [id] => .resolved recorded id
      | _ :: _ :: _ => .ambiguous recorded (sortIds ((hits lowercase recorded sections).map (·.id)))
      | [] => attributionOfString recorded := by
  unfold classifyRecordedRepo hits
  dsimp only
  rw [← namesakes, missing]
  split
  next head => cases head
  next =>
    by_cases empty : recorded.isEmpty
    · simp only [empty, if_true, List.map_nil]
      rfl
    · simp only [empty, Bool.false_eq_true, if_false]
      rfl

theorem classify_none (missing : namesakes recorded sections = [])
    (unmatched : hits lowercase recorded sections = []) :
    classifyRecordedRepo lowercase recorded sections = attributionOfString recorded := by
  rw [classify_other missing, unmatched, List.map_nil]

theorem classify_one {s : RepoSectionDef} (missing : namesakes recorded sections = [])
    (single : hits lowercase recorded sections = [s]) :
    classifyRecordedRepo lowercase recorded sections = .resolved recorded s.id := by
  rw [classify_other missing, single, List.map_singleton]

theorem classify_many (missing : namesakes recorded sections = [])
    (many : 2 ≤ (hits lowercase recorded sections).length) :
    classifyRecordedRepo lowercase recorded sections =
      .ambiguous recorded (sortIds ((hits lowercase recorded sections).map (·.id))) := by
  rw [classify_other missing]
  match found : hits lowercase recorded sections, many with
  | _ :: _ :: _, _ => rfl

theorem attributionOfString_neither (recorded : String) :
    (∀ id, attributionOfString recorded ≠ .exact id) ∧
      (∀ id, attributionOfString recorded ≠ .resolved recorded id) ∧
        (∀ ids, attributionOfString recorded ≠ .ambiguous recorded ids) ∧
          attributedRepo recorded (attributionOfString recorded) = recorded := by
  unfold attributionOfString
  dsimp only
  repeat' split
  all_goals exact ⟨nofun, nofun, nofun, rfl⟩

theorem hits_cases (found : List RepoSectionDef) :
    found = [] ∨ (∃ s, found = [s]) ∨ 2 ≤ found.length := by
  match found with
  | [] => exact .inl rfl
  | [s] => exact .inr (.inl ⟨s, rfl⟩)
  | _ :: _ :: _ => exact .inr (.inr (by simp))

theorem mem_namesakes {s : RepoSectionDef} :
    s ∈ namesakes recorded sections ↔ s ∈ sections ∧ s.id.folded = RepoId.folded ⟨recorded⟩ := by
  rw [namesakes, List.mem_filter, beq_iff_eq]

theorem namesakes_of_section {s : RepoSectionDef} (mem : s ∈ sections) :
    namesakes s.id.raw sections ≠ [] :=
  List.ne_nil_of_mem (mem_namesakes.mpr ⟨mem, rfl⟩)

theorem mem_of_hit {s : RepoSectionDef} (hit : s ∈ hits lowercase recorded sections) :
    s ∈ sections := by
  unfold hits at hit
  split at hit
  · cases hit
  · exact (List.mem_filter.mp hit).1

theorem hits_nodup {sections : List RepoSectionDef} (distinct : sections.Nodup) :
    (hits lowercase recorded sections).Nodup := by
  unfold hits
  split
  · exact List.nodup_nil
  · exact distinct.filter _

theorem hits_mem_congr {a b : List RepoSectionDef} (same : ∀ s, s ∈ a ↔ s ∈ b)
    (s : RepoSectionDef) :
    s ∈ hits lowercase recorded a ↔ s ∈ hits lowercase recorded b := by
  unfold hits
  split
  · rfl
  · rw [List.mem_filter, List.mem_filter, same]

theorem hits_perm {a b : List RepoSectionDef} (perm : a.Perm b) :
    (hits lowercase recorded a).Perm (hits lowercase recorded b) := by
  unfold hits
  split
  · rfl
  · exact perm.filter _

theorem classify_congr {a b : List RepoSectionDef} (same : ∀ s, s ∈ a ↔ s ∈ b)
    (perm : namesakes recorded b = [] →
      (hits lowercase recorded a).Perm (hits lowercase recorded b)) :
    classifyRecordedRepo lowercase recorded a = classifyRecordedRepo lowercase recorded b := by
  have members : ∀ s, s ∈ namesakes recorded a ↔ s ∈ namesakes recorded b := by
    intro s
    rw [mem_namesakes, mem_namesakes, same]
  by_cases missing : namesakes recorded b = []
  · have missing' : namesakes recorded a = [] :=
      List.eq_nil_iff_forall_not_mem.mpr fun s mem =>
        List.not_mem_nil (missing ▸ (members s).mp mem)
    have perm := perm missing
    rcases hits_cases (hits lowercase recorded b) with none | ⟨s, single⟩ | many
    · rw [classify_none missing none, classify_none missing' (List.perm_nil.mp (none ▸ perm))]
    · rw [classify_one missing single,
        classify_one missing' (List.perm_singleton.mp (single ▸ perm))]
    · rw [classify_many missing many, classify_many missing' (perm.length_eq ▸ many),
        sortIds_perm (perm.map _)]
  · obtain ⟨s, mem, least, answer⟩ := classify_namesake lowercase missing
    have missing' : namesakes recorded a ≠ [] := List.ne_nil_of_mem ((members s).mpr mem)
    obtain ⟨t, mem', least', answer'⟩ := classify_namesake lowercase missing'
    have one : t.id = s.id := by
      have raw : t.id.raw = s.id.raw :=
        le_antisymm (least' s ((members s).mpr mem)) (least t ((members t).mp mem'))
      exact congrArg RepoId.mk raw
    rw [answer, answer', one]

theorem length_of_distinct {found : List RepoSectionDef} (distinct : found.Nodup)
    (many : 2 ≤ found.length) : ∃ s t, s ∈ found ∧ t ∈ found ∧ s ≠ t := by
  match found, many with
  | s :: t :: _, _ =>
    refine ⟨s, t, List.mem_cons_self, List.mem_cons_of_mem _ List.mem_cons_self, ?_⟩
    rintro rfl
    exact (List.nodup_cons.mp distinct).1 List.mem_cons_self

theorem not_several_of_one {found : List RepoSectionDef} (one : IsOneId found) :
    ¬AreSeveralIds found := by
  rintro ⟨s, mem, t, mem', differ⟩
  obtain ⟨u, -, all⟩ := one
  exact differ ((all s mem).trans (all t mem').symm)

theorem settled_exact {s : RepoSectionDef} {pkg : PackageEntry} (mem : s ∈ sections)
    (answer : (attributePackage lowercase sections pkg).sourceRepo = s.id.raw) :
    ∃ t ∈ sections, t.id.folded = s.id.folded ∧
      (∀ u ∈ sections, u.id.folded = s.id.folded → t.id.raw ≤ u.id.raw) ∧
        (attributePackage lowercase sections
          (attributePackage lowercase sections pkg)).sourceRepo = t.id.raw := by
  obtain ⟨t, mem', least, again⟩ := classify_namesake lowercase (namesakes_of_section mem)
  obtain ⟨inside, same⟩ := mem_namesakes.mp mem'
  refine ⟨t, inside, same, fun u other alike => least u (mem_namesakes.mpr ⟨other, alike⟩), ?_⟩
  change attributedRepo _ (classifyRecordedRepo lowercase
    (attributePackage lowercase sections pkg).sourceRepo sections) = _
  rw [answer, again]
  rfl

theorem hitsDistinct_of_law (law : AttributionLaw lowercase recorded sections)
    (missing : namesakes recorded sections = []) : HitsDistinct lowercase recorded sections := by
  have once : (hits lowercase recorded sections).Nodup := by
    have members : ∀ s, s ∈ sections.dedup ↔ s ∈ sections := fun s => List.mem_dedup
    have distinct : (hits lowercase recorded sections.dedup).Nodup :=
      hits_nodup (List.nodup_dedup sections)
    have same := law.unrepeated _ (List.nodup_dedup sections) members
    have missing' : namesakes recorded sections.dedup = [] :=
      List.eq_nil_iff_forall_not_mem.mpr fun s mem => by
        obtain ⟨inside, alike⟩ := mem_namesakes.mp mem
        exact List.not_mem_nil (missing ▸ mem_namesakes.mpr ⟨(members s).mp inside, alike⟩)
    rcases hits_cases (hits lowercase recorded sections) with none | ⟨s, single⟩ | many
    · rw [none]
      exact List.nodup_nil
    · rw [single]
      exact List.nodup_singleton s
    · rw [classify_many missing many] at same
      have lengths : (hits lowercase recorded sections.dedup).length =
          (hits lowercase recorded sections).length := by
        rcases hits_cases (hits lowercase recorded sections.dedup) with none | ⟨s, single⟩ | several
        · rw [classify_none missing' none] at same
          exact absurd same ((attributionOfString_neither recorded).2.2.1 _)
        · rw [classify_one missing' single] at same
          cases same
        · rw [classify_many missing' several] at same
          have sorted := congrArg List.length (RepoAttribution.ambiguous.inj same).2
          rwa [(perm_sortIds _).length_eq, (perm_sortIds _).length_eq, List.length_map,
            List.length_map] at sorted
      have perm := (List.subperm_of_subset distinct
        fun s => (hits_mem_congr members s).mp).perm_of_length_le lengths.ge
      exact perm.nodup_iff.mp distinct
  refine ⟨once, ?_, ?_⟩
  · intro s t mem mem' differ
    rw [← law.ambiguous_iff missing]
    rcases hits_cases (hits lowercase recorded sections) with none | ⟨u, single⟩ | many
    · rw [none] at mem
      cases mem
    · rw [single, List.mem_singleton] at mem mem'
      exact absurd (mem.trans mem'.symm) differ
    · exact ⟨_, classify_many missing many⟩
  · intro s single t mem alike
    have hit : s ∈ sections := mem_of_hit (single ▸ List.mem_singleton_self s)
    have first : (attributePackage lowercase sections { sourceRepo := recorded }).sourceRepo =
        s.id.raw := by
      change attributedRepo _ (classifyRecordedRepo lowercase recorded sections) = _
      rw [classify_one missing single]
      rfl
    obtain ⟨u, -, -, least, again⟩ := settled_exact hit first
    have settled := law.settled { sourceRepo := recorded } rfl
    rw [again, first] at settled
    rw [← settled]
    exact least t mem alike

/-- How the answer comes about. -/
inductive Answered (lowercase : String → String) (recorded : String)
    (sections : List RepoSectionDef) : Prop where
  | exact (s : RepoSectionDef) (mem : s ∈ namesakes recorded sections)
      (least : ∀ t ∈ namesakes recorded sections, s.id.raw ≤ t.id.raw)
      (answer : classifyRecordedRepo lowercase recorded sections = .exact s.id)
  | none (missing : namesakes recorded sections = [])
      (unmatched : hits lowercase recorded sections = [])
      (answer : classifyRecordedRepo lowercase recorded sections = attributionOfString recorded)
  | one (s : RepoSectionDef) (missing : namesakes recorded sections = [])
      (single : hits lowercase recorded sections = [s])
      (answer : classifyRecordedRepo lowercase recorded sections = .resolved recorded s.id)
  | many (missing : namesakes recorded sections = [])
      (several : 2 ≤ (hits lowercase recorded sections).length)
      (answer : classifyRecordedRepo lowercase recorded sections =
        .ambiguous recorded (sortIds ((hits lowercase recorded sections).map (·.id))))

theorem answered (lowercase : String → String) (recorded : String)
    (sections : List RepoSectionDef) : Answered lowercase recorded sections := by
  by_cases missing : namesakes recorded sections = []
  · rcases hits_cases (hits lowercase recorded sections) with unmatched | ⟨s, single⟩ | several
    · exact .none missing unmatched (classify_none missing unmatched)
    · exact .one s missing single (classify_one missing single)
    · exact .many missing several (classify_many missing several)
  · obtain ⟨s, mem, least, answer⟩ := classify_namesake lowercase missing
    exact .exact s mem least answer

theorem HitsDistinct.isOneId_iff (clear : HitsDistinct lowercase recorded sections) :
    IsOneId (hits lowercase recorded sections) ↔ ∃ s, hits lowercase recorded sections = [s] := by
  constructor
  · intro one
    rcases hits_cases (hits lowercase recorded sections) with none | single | many
    · obtain ⟨s, mem, -⟩ := one
      rw [none] at mem
      cases mem
    · exact single
    · obtain ⟨s, t, mem, mem', differ⟩ := length_of_distinct clear.once many
      exact absurd (clear.ids s t mem mem' differ) (not_several_of_one one)
  · rintro ⟨s, single⟩
    rw [single]
    refine ⟨s, List.mem_singleton_self s, fun t mem => ?_⟩
    rw [List.mem_singleton.mp mem]

theorem HitsDistinct.several_iff (clear : HitsDistinct lowercase recorded sections) :
    AreSeveralIds (hits lowercase recorded sections) ↔
      2 ≤ (hits lowercase recorded sections).length := by
  constructor
  · rintro ⟨s, mem, t, mem', differ⟩
    rcases hits_cases (hits lowercase recorded sections) with none | ⟨u, single⟩ | many
    · rw [none] at mem
      cases mem
    · rw [single, List.mem_singleton] at mem mem'
      exact absurd (by rw [mem, mem']) differ
    · exact many
  · intro many
    obtain ⟨s, t, mem, mem', differ⟩ := length_of_distinct clear.once many
    exact clear.ids s t mem mem' differ

theorem law_of_hitsDistinct (clear : namesakes recorded sections = [] →
    HitsDistinct lowercase recorded sections) : AttributionLaw lowercase recorded sections := by
  obtain ⟨not_exact, not_resolved, not_ambiguous, kept⟩ := attributionOfString_neither recorded
  have attributed : ∀ pkg : PackageEntry, pkg.sourceRepo = recorded →
      (attributePackage lowercase sections pkg).sourceRepo =
        attributedRepo recorded (classifyRecordedRepo lowercase recorded sections) := by
    rintro pkg rfl
    rfl
  constructor
  case exact_iff =>
    cases answered lowercase recorded sections with
    | exact s mem least answer => exact iff_of_true ⟨_, answer⟩ (List.ne_nil_of_mem mem)
    | none missing unmatched answer =>
      exact iff_of_false (by rintro ⟨id, same⟩; exact not_exact id (answer ▸ same))
        (fun found => found missing)
    | one s missing single answer =>
      exact iff_of_false (by rintro ⟨id, same⟩; rw [answer] at same; cases same)
        (fun found => found missing)
    | many missing several answer =>
      exact iff_of_false (by rintro ⟨id, same⟩; rw [answer] at same; cases same)
        (fun found => found missing)
  case spelling =>
    intro id same
    cases answered lowercase recorded sections with
    | exact s mem least answer =>
      rw [answer] at same
      cases same
      refine ⟨⟨s, mem, rfl⟩, fun t inside alike => least t (mem_namesakes.mpr ⟨inside, ?_⟩)⟩
      exact alike.trans (mem_namesakes.mp mem).2
    | none missing unmatched answer => exact absurd (answer ▸ same) (not_exact id)
    | one s missing single answer =>
      rw [answer] at same
      cases same
    | many missing several answer =>
      rw [answer] at same
      cases same
  case resolved_iff =>
    intro missing
    rw [(clear missing).isOneId_iff]
    constructor
    · rintro ⟨id, same⟩
      rcases hits_cases (hits lowercase recorded sections) with unmatched | single | several
      · rw [classify_none missing unmatched] at same
        exact absurd same (not_resolved id)
      · exact single
      · rw [classify_many missing several] at same
        cases same
    · rintro ⟨s, single⟩
      exact ⟨s.id, classify_one missing single⟩
  case resolved_hit =>
    intro id same
    cases answered lowercase recorded sections with
    | exact s mem least answer =>
      rw [answer] at same
      cases same
    | none missing unmatched answer => exact absurd (answer ▸ same) (not_resolved id)
    | one s missing single answer =>
      rw [answer] at same
      cases same
      exact ⟨s, single ▸ List.mem_singleton_self s, rfl⟩
    | many missing several answer =>
      rw [answer] at same
      cases same
  case ambiguous_iff =>
    intro missing
    rw [(clear missing).several_iff]
    constructor
    · rintro ⟨ids, same⟩
      rcases hits_cases (hits lowercase recorded sections) with unmatched | ⟨s, single⟩ | several
      · rw [classify_none missing unmatched] at same
        exact absurd same (not_ambiguous ids)
      · rw [classify_one missing single] at same
        cases same
      · exact several
    · exact fun several => ⟨_, classify_many missing several⟩
  case otherwise => exact fun missing unmatched => classify_none missing unmatched
  case unordered =>
    exact fun other perm => classify_congr (fun s => perm.mem_iff) fun _ => hits_perm perm
  case unrepeated =>
    intro once distinct same
    refine classify_congr same fun missing => ?_
    exact (List.perm_ext_iff_of_nodup (hits_nodup distinct) (clear missing).once).mpr
      (hits_mem_congr same)
  case changed_only =>
    intro pkg recorded_eq changed
    rw [attributed pkg recorded_eq] at changed
    have attribution : (attributePackage lowercase sections pkg).repoAttribution =
        classifyRecordedRepo lowercase recorded sections := by
      rw [← recorded_eq]
      rfl
    rw [attribution]
    cases answered lowercase recorded sections with
    | exact s mem least answer => exact .inl ⟨_, answer⟩
    | none missing unmatched answer =>
      rw [answer, kept] at changed
      exact absurd rfl changed
    | one s missing single answer => exact .inr ⟨_, answer⟩
    | many missing several answer =>
      rw [answer] at changed
      exact absurd rfl changed
  case settled =>
    intro pkg recorded_eq
    have first := attributed pkg recorded_eq
    have unchanged : (attributePackage lowercase sections pkg).sourceRepo = recorded →
        (attributePackage lowercase sections (attributePackage lowercase sections pkg)).sourceRepo =
          (attributePackage lowercase sections pkg).sourceRepo := by
      intro same
      rw [attributed _ same, first]
    cases answered lowercase recorded sections with
    | exact s mem least answer =>
      rw [answer] at first
      obtain ⟨inside, own⟩ := mem_namesakes.mp mem
      obtain ⟨t, inside', alike, least', again⟩ := settled_exact inside first
      rw [again, first]
      exact le_antisymm (least' s inside rfl)
        (least t (mem_namesakes.mpr ⟨inside', alike.trans own⟩))
    | none missing unmatched answer =>
      rw [answer, kept] at first
      exact unchanged first
    | one s missing single answer =>
      rw [answer] at first
      have hit : s ∈ hits lowercase recorded sections := single ▸ List.mem_singleton_self s
      have inside := mem_of_hit hit
      obtain ⟨t, inside', alike, least', again⟩ := settled_exact inside first
      rw [again, first]
      exact le_antisymm (least' s inside rfl) ((clear missing).spelled s single t inside' alike)
    | many missing several answer =>
      rw [answer] at first
      exact unchanged first

theorem attribution_lawful_iff (lowercase : String → String) (recorded : String)
    (sections : List RepoSectionDef) :
    AttributionLaw lowercase recorded sections ↔
      (namesakes recorded sections = [] → HitsDistinct lowercase recorded sections) :=
  ⟨hitsDistinct_of_law, law_of_hitsDistinct⟩

end

def epelTwice : List RepoSectionDef := [{ id := ⟨"epel"⟩ }, { id := ⟨"epel"⟩, hasSource := true }]

/-- One id is taken for two. -/
theorem one_id_ambiguous :
    classifyRecordedRepo id "pel" epelTwice = .ambiguous "pel" [⟨"epel"⟩, ⟨"epel"⟩] ∧
      ¬AttributionLaw id "pel" epelTwice := by
  have answer :
      classifyRecordedRepo id "pel" epelTwice = .ambiguous "pel" [⟨"epel"⟩, ⟨"epel"⟩] := by
    decide +kernel
  refine ⟨answer, fun law => ?_⟩
  have missing : namesakes "pel" epelTwice = [] := by decide +kernel
  have one : IsOneId (hits id "pel" epelTwice) := by
    have found : hits id "pel" epelTwice = epelTwice := by decide +kernel
    rw [found]
    exact ⟨_, List.mem_cons_self, by decide⟩
  obtain ⟨id, resolved⟩ := (law.resolved_iff missing).mpr one
  rw [answer] at resolved
  cases resolved

end Inspectah
