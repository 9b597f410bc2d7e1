import Inspectah.Refine.Reopen

/-!
Service rows for full shadows: a unit file under `/etc` that shadows a vendor unit is given a
row, so that it can be decided.
-/
namespace Inspectah

open FirstMatch

variable (s : ServiceSection)

def ServiceSection.units : List String := s.stateChanges.map (·.unit)

def isOrphanShadow (dropin : SystemdDropIn) : Bool :=
  dropin.shadowType == some .fullShadow && !(s.stateChanges.any fun r => r.unit == dropin.unit) &&
    (knownUnitState s dropin.unit).isSome

structure OwedRow (s : ServiceSection) (unit : String) : Prop where
  shadowed : ∃ d ∈ s.dropIns, d.unit = unit ∧ d.shadowType = some .fullShadow
  unlisted : ∀ row ∈ s.stateChanges, row.unit ≠ unit
  known : unit ∈ s.disabledUnits ∨ unit ∈ s.enabledUnits

/-- One row at most for each unit; earlier rows stay, only units that are owed one gain one, and
    a decision about a service reaches each of its rows, whatever happens to rows but to their
    units. -/
structure OneRowPerUnit (s : ServiceSection) : Prop where
  distinct : (synthesizeOrphanShadows s).units.Nodup
  added : ∃ rows, (synthesizeOrphanShadows s).stateChanges = s.stateChanges ++ rows ∧
    ∀ unit, (∃ row ∈ rows, row.unit = unit) ↔ OwedRow s unit
  governed : ∀ later : ServiceSection,
    later.units = (synthesizeOrphanShadows s).units →
    ∀ unit incl, ∀ row ∈ (setService unit incl later).stateChanges,
      row.unit = unit → row.disposition = .fromBool incl

theorem orphanShadow_isSome (d : SystemdDropIn) :
    (orphanShadow s d).isSome = isOrphanShadow s d := by
  unfold orphanShadow isOrphanShadow
  by_cases full : d.shadowType = some .fullShadow
  · cases s.stateChanges.any fun r => r.unit == d.unit <;> simp [full]
  · simp [full]

theorem knownUnitState_isSome (unit : String) :
    (knownUnitState s unit).isSome ↔ unit ∈ s.disabledUnits ∨ unit ∈ s.enabledUnits := by
  unfold knownUnitState
  by_cases off : unit ∈ s.disabledUnits
  · simp [off]
  · by_cases on : unit ∈ s.enabledUnits <;> simp [off, on]

theorem isOrphanShadow_iff {s : ServiceSection} {d : SystemdDropIn} :
    isOrphanShadow s d = true ↔ d.shadowType = some .fullShadow ∧
      (∀ row ∈ s.stateChanges, row.unit ≠ d.unit) ∧
      (d.unit ∈ s.disabledUnits ∨ d.unit ∈ s.enabledUnits) := by
  have unlisted : (s.stateChanges.any fun r => r.unit == d.unit) = false ↔
      ∀ row ∈ s.stateChanges, row.unit ≠ d.unit := by
    simp
  rw [isOrphanShadow, Bool.and_eq_true, Bool.and_eq_true, beq_iff_eq, Bool.not_eq_true', unlisted,
    knownUnitState_isSome, and_assoc]

theorem owedRow_iff {s : ServiceSection} {unit : String} :
    OwedRow s unit ↔ ∃ d ∈ s.dropIns.filter (isOrphanShadow s), d.unit = unit := by
  constructor
  · rintro ⟨⟨d, mem, rfl, full⟩, unlisted, known⟩
    exact ⟨d, List.mem_filter.mpr ⟨mem, isOrphanShadow_iff.mpr ⟨full, unlisted, known⟩⟩, rfl⟩
  · rintro ⟨d, mem, rfl⟩
    obtain ⟨mem, orphan⟩ := List.mem_filter.mp mem
    obtain ⟨full, unlisted, known⟩ := isOrphanShadow_iff.mp orphan
    exact ⟨⟨d, mem, rfl, full⟩, unlisted, known⟩

theorem synthetics_units (dropIns : List SystemdDropIn) :
    (dropIns.filterMap (orphanShadow s)).map (·.unit) =
      (dropIns.filter (isOrphanShadow s)).map (·.unit) := by
  induction dropIns with
  | nil => rfl
  | cons d rest ih =>
    have shown := orphanShadow_isSome s d
    cases made : orphanShadow s d with
    | none =>
      rw [made] at shown
      rw [List.filterMap_cons_none made, List.filter_cons_of_neg (by simp [← shown]), ih]
    | some row =>
      rw [made] at shown
      rw [List.filterMap_cons_some made, List.filter_cons_of_pos shown.symm, List.map_cons,
        List.map_cons, (orphanShadow_unowned made).2, ih]

theorem synthesize_units : (synthesizeOrphanShadows s).units =
    s.units ++ (s.dropIns.filter (isOrphanShadow s)).map (·.unit) := by
  rw [← synthetics_units]
  exact List.map_append

theorem synthesize_added (unit : String) :
    (∃ row ∈ s.dropIns.filterMap (orphanShadow s), row.unit = unit) ↔ OwedRow s unit := by
  rw [owedRow_iff]
  have same := congrArg (fun units => unit ∈ units) (synthetics_units s s.dropIns)
  simpa [List.mem_map] using same.to_iff

theorem synthesize_nodup {s : ServiceSection} (distinct : s.units.Nodup) :
    (synthesizeOrphanShadows s).units.Nodup ↔
      (s.dropIns.filter (isOrphanShadow s)).Pairwise fun d e => d.unit ≠ e.unit := by
  have apart : ∀ unit ∈ s.units,
      ∀ other ∈ (s.dropIns.filter (isOrphanShadow s)).map (·.unit), unit ≠ other := by
    rintro unit listed other shadow rfl
    obtain ⟨d, mem, rfl⟩ := List.mem_map.mp shadow
    obtain ⟨row, held, same⟩ := List.mem_map.mp listed
    exact (isOrphanShadow_iff.mp (List.mem_filter.mp mem).2).2.1 row held same
  have shape : ((s.dropIns.filter (isOrphanShadow s)).map (·.unit)).Nodup ↔
      (s.dropIns.filter (isOrphanShadow s)).Pairwise fun d e => d.unit ≠ e.unit := List.pairwise_map
  rw [synthesize_units, List.nodup_append, shape]
  exact ⟨fun h => h.2.1, fun h => ⟨distinct, h, apart⟩⟩

theorem setService_governs {s : ServiceSection} (distinct : s.units.Nodup) (unit : String)
    (incl : Bool) : ∀ row ∈ (setService unit incl s).stateChanges,
      row.unit = unit → row.disposition = .fromBool incl := by
  suffices ∀ rows : List ServiceStateChange, (rows.map (·.unit)).Nodup →
      ∀ row ∈ updateFirst (·.unit == unit) (FindingRow.decide (.fromBool incl)) rows,
        row.unit = unit → row.disposition = .fromBool incl from this s.stateChanges distinct
  intro rows nodup
  induction rows with
  | nil => intro row mem; cases mem
  | cons a rest ih =>
    obtain ⟨fresh, nodup⟩ := List.nodup_cons.mp nodup
    intro row mem named
    by_cases hit : a.unit = unit
    · rw [updateFirst, if_pos (by simpa using hit)] at mem
      cases mem with
      | head => exact FindingRow.disposition_decide (.fromBool incl) a
      | tail _ below => exact absurd (List.mem_map.mpr ⟨row, below, named.trans hit.symm⟩) fresh
    · rw [updateFirst, if_neg (by simpa using hit)] at mem
      cases mem with
      | head => exact absurd named hit
      | tail _ below => exact ih nodup row below named

/-- One row a unit, exactly when no two orphan shadows are of one unit. -/
theorem oneRowPerUnit_iff (distinct : s.units.Nodup) :
    OneRowPerUnit s ↔
      (s.dropIns.filter (isOrphanShadow s)).Pairwise fun d e => d.unit ≠ e.unit := by
  constructor
  · intro one
    exact (synthesize_nodup distinct).mp one.distinct
  · intro apart
    have nodup := (synthesize_nodup distinct).mpr apart
    refine ⟨nodup, ⟨_, rfl, synthesize_added s⟩, ?_⟩
    intro later same
    exact setService_governs (same ▸ nodup)

def shadowedUnit (path content : String) : SystemdDropIn where
  unit := "nginx.service"
  path := path
  content := content
  shadowType := some .fullShadow

/-- One file of the unit on every host, or one variant of it for each content. -/
def shadowedServices (dropIns : List SystemdDropIn) : ServiceSection where
  enabledUnits := ["nginx.service"]
  dropIns := dropIns

theorem oneRowPerUnit_single :
    OneRowPerUnit (shadowedServices [shadowedUnit "etc/systemd/system/nginx.service" "a"]) := by
  have distinct : (shadowedServices
      [shadowedUnit "etc/systemd/system/nginx.service" "a"]).units.Nodup := List.nodup_nil
  exact (oneRowPerUnit_iff _ distinct).mpr
    (List.Pairwise.filter _ (List.pairwise_singleton _ _))

theorem two_variants_two_rows :
    ¬ (∀ s : ServiceSection, s.units.Nodup → OneRowPerUnit s) := by
  intro all
  have nodup := (all (shadowedServices
    [shadowedUnit "etc/systemd/system/nginx.service" "a",
      shadowedUnit "etc/systemd/system/nginx.service" "b"]) List.nodup_nil).distinct
  revert nodup
  decide

end Inspectah
