import Inspectah.Render.Systemctl
import Inspectah.Render.UnitFiles

/-!
What becomes of each service change. One for a unit a scheduled task brings along waits for
that section; a unit two places enable is enabled twice.
-/
namespace Inspectah

variable (inputs : RenderInputs) {snap : InspectionSnapshot} {sc : ServiceStateChange}

def writableChanges (snap : InspectionSnapshot) : List ServiceStateChange :=
  (snap.stateChanges.filter (·.disposition.isIncluded)).filter fun sc =>
    (sanitizeShellValue sc.unit).isSome

/-- The action is carried out once: by the services section, or, if deferred, by the scheduled
    tasks. -/
structure CarriedOnce (inputs : RenderInputs) (snap : InspectionSnapshot) (sc : ServiceStateChange) :
    Prop where
  once : (systemctlUnits sc.impliedAction.verb false
    (renderContainerfileLines inputs snap)).count sc.unit = 1
  placed : sc.unit ∈ systemctlUnits sc.impliedAction.verb false (servicesSectionLines snap) ∨
    isDeferred snap sc ∧
      sc.unit ∈ systemctlUnits sc.impliedAction.verb false (scheduledTasksSectionLines snap)

def ReportedOmitted (snap : InspectionSnapshot) (unit : String) : Prop :=
  ∃ o ∈ (renderServiceIntent snap).omissions, o.unit = unit ∧
    (∀ p ∈ rpmPackages snap, p.name ≠ o.owningPackage) ∧
    ∃ names, snap.rpm.bind (·.baselinePackageNames) = some names ∧ o.owningPackage ∉ names

structure IntentKept (decode : String → Option String) (inputs : RenderInputs)
    (snap : InspectionSnapshot) : Prop where
  changes : ∀ sc ∈ writableChanges snap,
    CarriedOnce inputs snap sc ∨ ReportedOmitted snap sc.unit
  files : ∀ unit ∈ systemctlUnits "enable" false (scheduledTasksSectionLines snap),
    HasUnitFile decode snap unit

def isLeftOut (snap : InspectionSnapshot) (sc : ServiceStateChange) : Bool :=
  snap.rpm.any fun rpm => ((servicePresence snap rpm sc).omission sc.unit).isSome

/-- Of the changes carried out only this one is for its unit and action; a deferred unit is
    enabled once. -/
def ActsOnce (snap : InspectionSnapshot) (sc : ServiceStateChange) : Prop :=
  sc.unit ≠ "" ∧
  if isDeferred snap sc then
    (scheduledUnits snap).count sc.unit = 1 ∧ sc.unit ∉ flatpakUnits snap ++ tunedUnits snap
  else
    ((carriedChanges snap).countP fun c =>
      c.unit == sc.unit && c.impliedAction == sc.impliedAction) = 1 ∧
    (sc.impliedAction = .enable →
      sc.unit ∉ scheduledUnits snap ++ flatpakUnits snap ++ tunedUnits snap)

structure IntentClear (snap : InspectionSnapshot) : Prop where
  changes : ∀ sc ∈ writableChanges snap, isLeftOut snap sc = false →
    ActsOnce snap sc ∨ ∃ c ∈ writableChanges snap, isLeftOut snap c ∧ c.unit = sc.unit
  files : ∀ unit ∈ scheduledUnits snap, IsHarmless unit ∧ Supplied snap unit

theorem carriedChanges_eq (snap : InspectionSnapshot) :
    carriedChanges snap = (writableChanges snap).filter fun sc => !isLeftOut snap sc := by
  unfold carriedChanges writableChanges isLeftOut InspectionSnapshot.stateChanges
  cases snap.services with
  | none => rfl
  | some services =>
    cases snap.rpm with
    | none => simp [safeChanges]
    | some rpm => simp [safeChanges]

theorem mem_carriedChanges :
    sc ∈ carriedChanges snap ↔ sc ∈ writableChanges snap ∧ isLeftOut snap sc = false := by
  rw [carriedChanges_eq, List.mem_filter, Bool.not_eq_true']

theorem omission_absent {rpm : RpmSection} {sc : ServiceStateChange}
    {o : ServiceOmission} (found : (servicePresence snap rpm sc).omission sc.unit = some o) :
    o.unit = sc.unit ∧ (∀ p ∈ rpm.packagesAdded, p.name ≠ o.owningPackage) ∧
      ∃ names, rpm.baselinePackageNames = some names ∧ o.owningPackage ∉ names := by
  unfold servicePresence classifyServicePresence at found
  split at found
  · cases found
  · split at found
    · cases found
    next pkg _ =>
      simp only at found
      split at found
      · split at found
        · cases found
        · split at found <;> cases found
      next none =>
        split at found
        · cases found
        next absent =>
          split at found
          · cases found
          next known =>
            obtain rfl := Option.some.inj found
            refine ⟨rfl, ?_, ?_⟩
            · intro p hp same
              simp only [Bool.not_eq_true, Bool.not_eq_false', List.isEmpty_iff,
                List.filter_eq_nil_iff] at none
              exact absurd (beq_iff_eq.mpr same) (by simp [none p hp])
            · cases names : rpm.baselinePackageNames with
              | none => simp [names] at known
              | some names' =>
                refine ⟨names', rfl, fun mem => absent ?_⟩
                rw [List.contains_iff_mem, effectiveTargetPackages, names]
                exact List.mem_append_left _ mem

theorem reportedOmitted_iff {unit : String} :
    ReportedOmitted snap unit ↔
      ∃ c ∈ writableChanges snap, isLeftOut snap c ∧ c.unit = unit := by
  have listed : ∀ {services rpm}, snap.services = some services → snap.rpm = some rpm →
      ∀ o, o ∈ (renderServiceIntent snap).omissions ↔ ∃ c ∈ writableChanges snap,
        (servicePresence snap rpm c).omission c.unit = some o := by
    intro services rpm hs hr o
    have changes : writableChanges snap = safeChanges services := by
      simp [writableChanges, safeChanges, InspectionSnapshot.stateChanges, hs]
    rw [(renderServiceIntent_judged hs hr).2, judgedOmissions, List.mem_filterMap, changes]
  cases hs : snap.services with
  | none =>
    constructor
    · rintro ⟨o, mem, _⟩
      simp [renderServiceIntent, hs] at mem
    · rintro ⟨c, mem, _⟩
      simp [writableChanges, InspectionSnapshot.stateChanges, hs] at mem
  | some services =>
    cases hr : snap.rpm with
    | none =>
      constructor
      · rintro ⟨o, mem, _⟩
        simp [renderServiceIntent, hs, hr] at mem
      · rintro ⟨c, _, left, _⟩
        simp [isLeftOut, hr] at left
    | some rpm =>
      constructor
      · rintro ⟨o, mem, unit, _⟩
        obtain ⟨c, hc, found⟩ := (listed hs hr o).mp mem
        refine ⟨c, hc, ?_, ?_⟩
        · simp [isLeftOut, hr, found]
        · rw [← unit, (omission_absent found).1]
      · rintro ⟨c, hc, left, unit⟩
        simp only [isLeftOut, hr, Option.any_some] at left
        obtain ⟨o, found⟩ := Option.isSome_iff_exists.mp left
        obtain ⟨same, added, baseline⟩ := omission_absent found
        refine ⟨o, (listed hs hr o).mpr ⟨c, hc, found⟩, same.trans unit, ?_, ?_⟩
        · simpa [rpmPackages, hr] using added
        · simpa [hr] using baseline

theorem count_named {units : List String} {u : String} (ne : u ≠ "") :
    (named units).count u = units.count u := by
  unfold named
  rw [List.count_filter]
  simpa using ne

theorem isDeferred_congr {c sc : ServiceStateChange}
    (unit : c.unit = sc.unit) (action : c.impliedAction = sc.impliedAction) :
    isDeferred snap c = isDeferred snap sc := by
  simp [isDeferred, unit, action]

theorem count_actionUnits (snap : InspectionSnapshot) (sc : ServiceStateChange) :
    (actionUnits snap sc.impliedAction).count sc.unit =
      if isDeferred snap sc then 0
      else (carriedChanges snap).countP fun c =>
        c.unit == sc.unit && c.impliedAction == sc.impliedAction := by
  unfold actionUnits
  rw [List.count, List.countP_map, List.countP_filter]
  split
  next deferred =>
    rw [List.countP_eq_zero]
    intro c _ acts
    simp only [Function.comp_apply, Bool.and_eq_true, beq_iff_eq, Bool.not_eq_true'] at acts
    rw [isDeferred_congr acts.1 acts.2.1, deferred] at acts
    cases acts.2.2
  next carried =>
    refine List.countP_congr fun c _ => ?_
    simp only [Function.comp_apply, Bool.and_eq_true, beq_iff_eq, Bool.not_eq_true']
    constructor
    · intro acts
      exact ⟨acts.1, acts.2.1⟩
    · intro same
      rw [isDeferred_congr same.1 same.2]
      exact ⟨same.1, same.2, by simpa using carried⟩

theorem mem_carried_countP (mem : sc ∈ carriedChanges snap) :
    0 < (carriedChanges snap).countP fun c =>
      c.unit == sc.unit && c.impliedAction == sc.impliedAction :=
  List.countP_pos_iff.mpr ⟨sc, mem, by simp⟩

theorem count_containerfile (snap : InspectionSnapshot)
    {sc : ServiceStateChange} (ne : sc.unit ≠ "") :
    (systemctlUnits sc.impliedAction.verb false (renderContainerfileLines inputs snap)).count
        sc.unit =
      (actionUnits snap sc.impliedAction).count sc.unit +
        (whenEnabling sc.impliedAction
          (scheduledUnits snap ++ flatpakUnits snap ++ tunedUnits snap)).count sc.unit := by
  rw [systemctlUnits_containerfile, List.count_append, count_named ne]

theorem CarriedOnce.unit_ne {inputs : RenderInputs} {snap : InspectionSnapshot}
    {sc : ServiceStateChange} (h : CarriedOnce inputs snap sc) : sc.unit ≠ "" := by
  obtain block | ⟨-, tasks⟩ := h.placed
  · rw [(reads_services snap sc.impliedAction).units, named, List.mem_filter] at block
    simpa using block.2
  · rw [(reads_scheduled snap sc.impliedAction).units, whenEnabling] at tasks
    split at tasks
    · exact scheduledUnits_ne snap _ tasks
    · cases tasks

theorem isDeferred_enable (h : isDeferred snap sc) : sc.impliedAction = .enable := by
  simp only [isDeferred, Bool.and_eq_true, beq_iff_eq] at h
  exact h.1

theorem carriedOnce_deferred (ne : sc.unit ≠ "") (deferred : isDeferred snap sc) :
    CarriedOnce inputs snap sc ↔
      (scheduledUnits snap).count sc.unit = 1 ∧ sc.unit ∉ flatpakUnits snap ++ tunedUnits snap := by
  have enable := isDeferred_enable deferred
  have total : (systemctlUnits sc.impliedAction.verb false
      (renderContainerfileLines inputs snap)).count sc.unit =
      (scheduledUnits snap).count sc.unit + (flatpakUnits snap ++ tunedUnits snap).count sc.unit := by
    rw [count_containerfile inputs snap ne, count_actionUnits, if_pos deferred, Nat.zero_add, enable,
      whenEnabling, if_pos rfl, List.append_assoc, List.count_append]
  have here : sc.unit ∈ systemctlUnits sc.impliedAction.verb false (scheduledTasksSectionLines snap) ↔
      0 < (scheduledUnits snap).count sc.unit := by
    rw [(reads_scheduled snap sc.impliedAction).units, enable, whenEnabling, if_pos rfl,
      List.count_pos_iff]
  have notBlock : sc.unit ∉ systemctlUnits sc.impliedAction.verb false (servicesSectionLines snap) := by
    rw [(reads_services snap sc.impliedAction).units, ← List.count_eq_zero, count_named ne,
      count_actionUnits, if_pos deferred]
  rw [← List.count_eq_zero]
  constructor
  · intro ⟨once, placed⟩
    obtain block | ⟨-, tasks⟩ := placed
    · exact absurd block notBlock
    · have some := here.mp tasks
      omega
  · intro ⟨one, absent⟩
    exact ⟨by omega, .inr ⟨deferred, here.mpr (by omega)⟩⟩

theorem carriedOnce_direct (mem : sc ∈ carriedChanges snap) (ne : sc.unit ≠ "")
    (direct : isDeferred snap sc = false) :
    CarriedOnce inputs snap sc ↔
      ((carriedChanges snap).countP fun c =>
        c.unit == sc.unit && c.impliedAction == sc.impliedAction) = 1 ∧
      (sc.impliedAction = .enable →
        sc.unit ∉ scheduledUnits snap ++ flatpakUnits snap ++ tunedUnits snap) := by
  have own := mem_carried_countP mem
  have acts : (actionUnits snap sc.impliedAction).count sc.unit =
      (carriedChanges snap).countP fun c =>
        c.unit == sc.unit && c.impliedAction == sc.impliedAction := by
    rw [count_actionUnits, direct]
    rfl
  have placed : sc.unit ∈ systemctlUnits sc.impliedAction.verb false (servicesSectionLines snap) := by
    rw [(reads_services snap sc.impliedAction).units, ← List.count_pos_iff, count_named ne, acts]
    exact own
  have others : (whenEnabling sc.impliedAction
      (scheduledUnits snap ++ flatpakUnits snap ++ tunedUnits snap)).count sc.unit = 0 ↔
      (sc.impliedAction = .enable →
        sc.unit ∉ scheduledUnits snap ++ flatpakUnits snap ++ tunedUnits snap) := by
    rw [List.count_eq_zero, whenEnabling]
    split
    next enable => simp only [enable, true_implies]
    next other => simp [other]
  rw [← others]
  have total := count_containerfile inputs snap ne
  rw [acts] at total
  constructor
  · intro ⟨once, _⟩
    omega
  · intro ⟨one, absent⟩
    exact ⟨by omega, .inl placed⟩

theorem carriedOnce_iff (mem : sc ∈ carriedChanges snap) :
    CarriedOnce inputs snap sc ↔ ActsOnce snap sc := by
  unfold ActsOnce
  by_cases ne : sc.unit = ""
  · constructor
    · intro carried
      exact absurd ne carried.unit_ne
    · intro acts
      exact absurd ne acts.1
  · rw [and_iff_right ne]
    split
    next deferred => exact carriedOnce_deferred inputs ne deferred
    next direct => exact carriedOnce_direct inputs mem ne (Bool.not_eq_true _ ▸ direct)

theorem service_intent_kept_iff (decode : String → Option String) (inputs : RenderInputs)
    (snap : InspectionSnapshot) : IntentKept decode inputs snap ↔ IntentClear snap := by
  have enabled : systemctlUnits "enable" false (scheduledTasksSectionLines snap) =
      scheduledUnits snap := (reads_scheduled snap .enable).units
  have each : ∀ sc ∈ writableChanges snap,
      (CarriedOnce inputs snap sc ∨ ReportedOmitted snap sc.unit) ↔
        (isLeftOut snap sc = false →
          ActsOnce snap sc ∨ ∃ c ∈ writableChanges snap, isLeftOut snap c ∧ c.unit = sc.unit) := by
    intro sc hsc
    rw [reportedOmitted_iff]
    cases left : isLeftOut snap sc with
    | true => exact iff_of_true (.inr ⟨sc, hsc, left, rfl⟩) (by simp)
    | false =>
      rw [carriedOnce_iff inputs (mem_carriedChanges.mpr ⟨hsc, left⟩)]
      exact ⟨fun h _ => h, fun h => h rfl⟩
  constructor
  · intro ⟨changes, files⟩
    refine ⟨fun sc hsc => (each sc hsc).mp (changes sc hsc), fun unit hu => ?_⟩
    exact hasUnitFile_iff.mp (files unit (enabled ▸ hu))
  · intro ⟨changes, files⟩
    refine ⟨fun sc hsc => (each sc hsc).mpr (changes sc hsc), fun unit hu => ?_⟩
    rw [enabled] at hu
    exact hasUnitFile_iff.mpr (files unit hu)

def backupService : ServiceStateChange := { unit := "backup.service" }

def timedService : InspectionSnapshot :=
  { services := some { stateChanges := [backupService] }
    scheduledTasks := some { systemdTimers :=
      [{ name := "backup", source := "local", timerContent := "[Timer]\n",
         serviceContent := "[Service]\n" }] } }

theorem timed_service_is_lost :
    ¬ IntentKept some ⟨fun _ => "", none, none, none⟩ timedService := by
  intro kept
  have mem : backupService ∈ carriedChanges timedService := List.mem_cons_self ..
  obtain carried | omitted := kept.changes backupService (mem_carriedChanges.mp mem).1
  · have acts := (carriedOnce_iff _ mem).mp carried
    have deferred : isDeferred timedService backupService = true := by decide
    have never : (scheduledUnits timedService).count backupService.unit = 0 := by decide
    unfold ActsOnce at acts
    rw [if_pos deferred, never] at acts
    cases acts.2.1
  · obtain ⟨c, -, left, -⟩ := reportedOmitted_iff.mp omitted
    cases left

end Inspectah
