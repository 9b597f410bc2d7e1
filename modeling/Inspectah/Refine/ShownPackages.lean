import Inspectah.Refine.Frame
import Inspectah.Refine.View

/-!
Packages as the view shows them: rows that share a name and arch stand alike, as the first of
them does.
-/
namespace Inspectah

def leadRow (rows : List PackageEntry) (p : PackageEntry) : Option PackageEntry :=
  (rows.reverse.find? fun q => packageId q == packageId p).bind fun q =>
    rows.find? fun e => e.name == q.name && e.arch == q.arch

def standAs (p : PackageEntry) : Option PackageEntry → PackageEntry
  | none => p
  | some lead =>
    { p with disposition := .fromBool lead.disposition.isIncluded, locked := lead.locked }

section Leads

variable {rows : List PackageEntry}

theorem last_of_id {p : PackageEntry} (mem : p ∈ rows) : ∃ q,
    rows.reverse.find? (fun q => packageId q == packageId p) = some q ∧ q ∈ rows ∧
      packageId q = packageId p := by
  obtain ⟨q, found⟩ := FirstMatch.exists_find (p := fun q => packageId q == packageId p)
    (List.mem_reverse.mpr mem) (by simp)
  exact ⟨q, found, List.mem_reverse.mp (List.mem_of_find?_eq_some found),
    by simpa using List.find?_some found⟩

theorem first_of_name {q : PackageEntry} (mem : q ∈ rows) : ∃ lead,
    rows.find? (fun e => e.name == q.name && e.arch == q.arch) = some lead ∧ lead ∈ rows ∧
      packageId lead = packageId q := by
  obtain ⟨lead, found⟩ := FirstMatch.exists_find
    (p := fun e => e.name == q.name && e.arch == q.arch) mem (by simp)
  have hit := List.find?_some found
  rw [Bool.and_eq_true, beq_iff_eq, beq_iff_eq] at hit
  exact ⟨lead, found, List.mem_of_find?_eq_some found,
    by rw [packageId, packageId, hit.1, hit.2]⟩

theorem leadRow_some {p : PackageEntry} (mem : p ∈ rows) : ∃ lead,
    leadRow rows p = some lead ∧ lead ∈ rows ∧ packageId lead = packageId p := by
  obtain ⟨q, last, own, same⟩ := last_of_id mem
  obtain ⟨lead, first, there, alike⟩ := first_of_name own
  exact ⟨lead, by rw [leadRow, last, Option.bind_some, first], there, alike.trans same⟩

theorem leadRow_own (once : (rows.map packageId).Nodup) {p : PackageEntry} (mem : p ∈ rows) :
    leadRow rows p = some p := by
  obtain ⟨lead, led, there, same⟩ := leadRow_some mem
  rw [led, List.inj_on_of_nodup_map once there mem same]

end Leads

def shownPackages (rows : List PackageEntry) : List PackageEntry :=
  rows.map fun p => standAs p (leadRow rows p)

structure SamePackage (p : PackageEntry) (row : Refined PackageEntry) : Prop where
  name : row.entry.name = p.name
  arch : row.entry.arch = p.arch

theorem samePackage_anaconda (ev : InstallerEvidence) {p : PackageEntry}
    {row : Refined PackageEntry} (same : SamePackage p row) :
    SamePackage p (anacondaClassification ev row) := by
  unfold anacondaClassification
  split
  · exact same
  · split
    · exact same
    · exact ⟨same.name, same.arch⟩

theorem samePackage_classified (snap : InspectionSnapshot) (rpm : RpmSection) (p : PackageEntry) :
    SamePackage p (classifyPackageRow snap rpm p) := by
  unfold classifyPackageRow
  dsimp only
  split
  · exact ⟨rfl, rfl⟩
  · split <;> exact ⟨rfl, rfl⟩

theorem samePackage_restored (rows : List PackageEntry) {p : PackageEntry}
    {row : Refined PackageEntry} (same : SamePackage p row) :
    SamePackage p (restoreDecision rows row) := by
  unfold restoreDecision
  split <;> exact ⟨same.name, same.arch⟩

/-- Triage by prevalence changes the tag only. -/
theorem entry_triagePackage (mode : RefineMode) (row : Refined PackageEntry) :
    (triagePackage mode row).entry = row.entry := by
  unfold triagePackage
  split <;> rfl

def viewRow (mode : RefineMode) (snap : InspectionSnapshot) (rpm : RpmSection) (p : PackageEntry) :
    Refined PackageEntry :=
  triagePackage mode (restoreDecision rpm.packagesAdded
    (anacondaClassification (installerEvidence snap) (classifyPackageRow snap rpm p)))

section Rows

variable (mode : RefineMode) (snap : InspectionSnapshot) (rpm : RpmSection)

theorem samePackage_viewRow (p : PackageEntry) : SamePackage p (viewRow mode snap rpm p) := by
  have same := samePackage_restored rpm.packagesAdded
    (samePackage_anaconda (installerEvidence snap) (samePackage_classified snap rpm p))
  exact ⟨(congrArg (·.name) (entry_triagePackage mode _)).trans same.name,
    (congrArg (·.arch) (entry_triagePackage mode _)).trans same.arch⟩

theorem viewRow_stands {p lead : PackageEntry}
    (first : rpm.packagesAdded.find? (fun e => e.name == p.name && e.arch == p.arch) = some lead) :
    (viewRow mode snap rpm p).entry.disposition = lead.disposition ∧
      (viewRow mode snap rpm p).entry.locked = lead.locked := by
  have same := samePackage_anaconda (installerEvidence snap) (samePackage_classified snap rpm p)
  rw [viewRow, entry_triagePackage, restoreDecision, same.name, same.arch, first]
  exact ⟨rfl, rfl⟩

theorem syncClassified_rows (found : snap.rpm = some rpm) :
    rpmPackages (syncClassified (rpm.packagesAdded.map (viewRow mode snap rpm)) snap) =
      shownPackages rpm.packagesAdded := by
  rw [syncClassified, rpmPackages, InspectionSnapshot.onRpm, found, shownPackages]
  change rpm.packagesAdded.map _ = _
  apply List.map_congr_left
  intro p mem
  have ids : ((fun c : Refined PackageEntry => packageId c.entry == packageId p) ∘
      viewRow mode snap rpm) = fun q => packageId q == packageId p := by
    funext q
    have same := samePackage_viewRow mode snap rpm q
    rw [Function.comp_apply, packageId, same.name, same.arch, ← packageId]
  rw [← List.map_reverse, List.find?_map, ids, leadRow]
  obtain ⟨q, last, own, -⟩ := last_of_id mem
  obtain ⟨lead, first, -, -⟩ := first_of_name own
  have stands := viewRow_stands mode snap rpm first
  rw [last, Option.map_some, Option.bind_some, first, standAs, ← stands.1, ← stands.2]

end Rows

theorem rpmPackages_shown (h : Hashing) (c : SessionCore) :
    rpmPackages (viewParts h c).shown = shownPackages (rpmPackages (c.projected h)) := by
  rw [viewParts]
  dsimp only
  generalize c.projected h = snap
  rw [classifyPackages]
  cases found : snap.rpm with
  | none => simp [syncClassified, InspectionSnapshot.onRpm, rpmPackages, shownPackages, found]
  | some rpm =>
    have rows : rpmPackages snap = rpm.packagesAdded := by rw [rpmPackages, found]; rfl
    rw [rows, ← syncClassified_rows c.refineMode snap rpm found]
    congr 2
    rw [List.map_map, List.map_map]
    rfl

theorem effectivePackages_shown (h : Hashing) (c : SessionCore) :
    effectivePackages (viewParts h c).shown =
      (shownPackages (rpmPackages (c.projected h))).filter isEffectiveMember := by
  rw [effectivePackages, rpmPackages_shown]

end Inspectah
