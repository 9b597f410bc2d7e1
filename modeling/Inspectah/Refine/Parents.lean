import Inspectah.Refine.ClosedForms
import Inspectah.Refine.Moves
import Inspectah.Refine.Reopen

/-!
Drop-ins and the services they belong to. Excluding a service excludes its
drop-ins, and a drop-in is not included again while its service is excluded.
-/
namespace Inspectah

open FirstMatch Runs

def DropInsAgree (snap : InspectionSnapshot) : Prop :=
  ∀ d ∈ snap.dropIns, d.disposition = .included →
    ∀ r ∈ snap.stateChanges, r.unit = d.unit → r.disposition ≠ .excluded

instance (snap : InspectionSnapshot) : Decidable (DropInsAgree snap) :=
  inferInstanceAs (Decidable (∀ d ∈ snap.dropIns, _ → ∀ r ∈ snap.stateChanges, _ → _ ≠ _))

def OpenParents (snap : InspectionSnapshot) : Prop :=
  ∀ d ∈ snap.dropIns, d.locked = false → d.disposition = .included →
    ∀ r ∈ snap.stateChanges, r.unit = d.unit → r.locked = false

instance (snap : InspectionSnapshot) : Decidable (OpenParents snap) :=
  inferInstanceAs (Decidable (∀ d ∈ snap.dropIns, _ → _ → ∀ r ∈ snap.stateChanges, _ → _))

/-- The row an inclusion decides belongs to the unit that was looked at, or to one
    without an excluded row. -/
def LooksAtParent (h : Hashing) (s : RefineSession) : RefinementOp → Prop
  | .setInclude (.dropIn path) true =>
    ∀ d, s.original.dropIns.find? (fun d => d.path == path) = some d →
      (∃ shown, (s.projected h).dropIns.find? (fun d => d.path == path) = some shown ∧
        shown.unit = d.unit) ∨
      ∀ r ∈ (s.projected h).stateChanges, r.unit = d.unit → r.disposition ≠ .excluded
  | _ => True

section Replay

def replayService (original : InspectionSnapshot) (services : Option ServiceSection) :
    RefinementOp → Option ServiceSection
  | .setInclude item incl =>
    if incl && isItemLocked original item then services
    else
      match item with
      | .service unit => services.map (setService unit incl)
      | .dropIn path => services.map fun s =>
          { s with
            dropIns := updateFirst (fun e => e.path == path)
              (FindingRow.decide (.fromBool incl)) s.dropIns }
      | _ => services
  | _ => services

variable {original : InspectionSnapshot} {index : RepoIndex} {excluded : List RepoId}

theorem services_replayOp (snap : InspectionSnapshot) (op : RefinementOp) :
    (replayOp original index excluded snap op).services =
      replayService original snap.services op := by
  cases op with
  | setInclude item incl =>
    unfold replayOp replayService setInclude
    dsimp only
    split
    · rfl
    · cases item <;> rfl
  | setPackagePin item pinned => cases item <;> rfl
  | _ => rfl

variable (original index) in
theorem services_replay (ops : List RefinementOp) :
    (replay original index ops).services = ops.foldl (replayService original) original.services := by
  have run : ∀ (excluded : List RepoId) (snap : InspectionSnapshot),
      (ops.foldl (replayOp original index excluded) snap).services =
        ops.foldl (replayService original) snap.services := by
    intro excluded
    induction ops with
    | nil => exact fun snap => rfl
    | cons op ops ih =>
      intro snap
      rw [List.foldl_cons, ih, services_replayOp, List.foldl_cons]
  exact run _ original

end Replay

section Section

def IsOn (r : ServiceStateChange) : Prop := r.locked = false ∧ r.disposition ≠ .excluded

structure ParentsOn (s : ServiceSection) : Prop where
  on : ∀ d ∈ s.dropIns, d.locked = false → d.disposition = .included →
    ∀ r ∈ s.stateChanges, r.unit = d.unit → IsOn r
  spare : s.stateChanges.Pairwise fun a b => a.unit = b.unit → IsOn b

variable {rows : List ServiceStateChange} {unit : String} {incl : Bool}

theorem spare_updateFirst (spare : rows.Pairwise fun a b => a.unit = b.unit → IsOn b) :
    (updateFirst (fun r => r.unit == unit) (FindingRow.decide (.fromBool incl)) rows).Pairwise
      fun a b => a.unit = b.unit → IsOn b := by
  induction rows with
  | nil => exact .nil
  | cons a as ih =>
    obtain ⟨first, rest⟩ := List.pairwise_cons.mp spare
    by_cases here : (a.unit == unit) = true
    · rw [updateFirst, if_pos here]
      exact List.pairwise_cons.mpr ⟨first, rest⟩
    · rw [updateFirst, if_neg here]
      refine List.pairwise_cons.mpr ⟨fun b mem same => ?_, ih rest⟩
      rcases mem_updateFirst mem with old | ⟨c, found, rfl⟩
      · exact first b old same
      · have at_unit : c.unit = unit := by simpa using List.find?_some found
        have same : a.unit = c.unit := same
        exact absurd (beq_iff_eq.mpr (same.trans at_unit)) here

theorem on_of_included (spare : rows.Pairwise fun a b => a.unit = b.unit → IsOn b)
    (unlocked : ∀ r, rows.find? (fun r => r.unit == unit) = some r → r.locked = false)
    {b : ServiceStateChange} (at_ : b.unit = unit) (mem : b ∈ updateFirst (fun r => r.unit == unit)
      (FindingRow.decide (.fromBool true)) rows) : IsOn b := by
  induction rows with
  | nil => cases mem
  | cons a as ih =>
    obtain ⟨first, rest⟩ := List.pairwise_cons.mp spare
    by_cases here : (a.unit == unit) = true
    · rw [updateFirst, if_pos here] at mem
      rcases List.mem_cons.mp mem with rfl | later
      · have open_ := unlocked a (by simp [here])
        refine ⟨open_, fun off => ?_⟩
        cases off
      · exact first b later ((beq_iff_eq.mp here).trans at_.symm)
    · rw [updateFirst, if_neg here] at mem
      simp only [List.find?_cons, here] at unlocked
      rcases List.mem_cons.mp mem with rfl | later
      · exact absurd (beq_iff_eq.mpr at_) here
      · exact ih rest unlocked later

variable {s : ServiceSection}

theorem mem_old_of_away {r : ServiceStateChange} (away : r.unit ≠ unit)
    (mem : r ∈ updateFirst (fun r => r.unit == unit) (FindingRow.decide (.fromBool incl)) rows) :
    r ∈ rows := by
  rcases mem_updateFirst mem with old | ⟨c, found, rfl⟩
  · exact old
  · have at_unit : c.unit = unit := by simpa using List.find?_some found
    exact absurd at_unit away

theorem ParentsOn.setService (parents : ParentsOn s)
    (unlocked : incl = true → ∀ r, s.stateChanges.find? (fun r => r.unit == unit) = some r →
      r.locked = false) : ParentsOn (setService unit incl s) where
  on := by
    intro d mem open_ included r hr same
    obtain ⟨d₀, mem₀, decided⟩ := List.mem_map.mp mem
    by_cases here : (d₀.unit == unit) = true
    · rw [if_pos here] at decided
      subst decided
      cases incl with
      | false => exact absurd included nofun
      | true =>
        have at_ : r.unit = unit := same.trans (beq_iff_eq.mp here)
        exact on_of_included parents.spare (unlocked rfl) at_ hr
    · rw [if_neg here] at decided
      subst decided
      have away : r.unit ≠ unit := fun at_ => here (beq_iff_eq.mpr (same.symm.trans at_))
      exact parents.on d₀ mem₀ open_ included r (mem_old_of_away away hr) same
  spare := spare_updateFirst parents.spare

theorem ParentsOn.setDropIn (parents : ParentsOn s) {path : String}
    (looked : incl = true → ∀ d, s.dropIns.find? (fun d => d.path == path) = some d →
      ∀ r ∈ s.stateChanges, r.unit = d.unit → IsOn r) :
    ParentsOn { s with
      dropIns := updateFirst (fun e => e.path == path) (FindingRow.decide (.fromBool incl))
        s.dropIns } where
  on := by
    intro d mem open_ included r hr same
    rcases mem_updateFirst mem with old | ⟨first, found, rfl⟩
    · exact parents.on d old open_ included r hr same
    · cases incl with
      | false => exact absurd included nofun
      | true => exact looked rfl first found r hr same
  spare := parents.spare

end Section

section Projected

variable {h : Hashing} {original : InspectionSnapshot} {index : RepoIndex}

theorem isOn_of_clamped {r : ServiceStateChange}
    (shown : (clampLocked r).disposition ≠ .excluded) : IsOn r := by
  cases locked : r.locked with
  | true =>
    have clamped : clampLocked r = FindingRow.decide .excluded r := if_pos locked
    rw [clamped] at shown
    exact absurd rfl shown
  | false =>
    have clamped : clampLocked r = r := clampLocked_of_unlocked locked
    rw [clamped] at shown
    exact ⟨locked, shown⟩

theorem clamped_of_isOn {r : ServiceStateChange} (on : IsOn r) :
    (clampLocked r).disposition ≠ .excluded := by
  have clamped : clampLocked r = r := clampLocked_of_unlocked on.1
  rw [clamped]
  exact on.2

theorem mem_materialized_dropIns {state : VariantProjectionState} (hashed : WellHashed h state)
    {rows : List SystemdDropIn} {d : SystemdDropIn} (mem : d ∈ materializeRows h state rows) :
    ∃ d₀ ∈ rows, d.unit = d₀.unit ∧ d.locked = d₀.locked ∧ d.disposition = d₀.disposition := by
  rw [materializeRows_eq hashed] at mem
  obtain ⟨a, ha, rfl⟩ := List.mem_map.mp mem
  obtain ⟨mark, marked⟩ := settle_reselected h state (shownRows h state rows) a
  rw [marked]
  rcases List.mem_append.mp ha with kept | gained
  · exact ⟨a, List.mem_of_mem_filter kept, rfl, rfl, rfl⟩
  · obtain ⟨entry, _, piece⟩ := List.mem_flatMap.mp gained
    unfold gainedAt at piece
    split at piece
    · cases piece
    · rename_i template found
      obtain ⟨v, _, rfl⟩ := List.mem_map.mp piece
      exact ⟨template, List.mem_of_find?_eq_some found, rfl, rfl, rfl⟩

theorem mem_section {s : ServiceSection} (sec : original.services = some s) :
    original.dropIns = s.dropIns ∧ original.stateChanges = s.stateChanges := by
  unfold InspectionSnapshot.dropIns InspectionSnapshot.stateChanges
  rw [sec]
  exact ⟨rfl, rfl⟩

theorem dropInsAgree_projected {active : List TimelineEntry}
    (parents : ∀ s ∈ (timelineOps active).foldl (replayService original) original.services,
      ParentsOn s) : DropInsAgree (projectSnapshot h original index active) := by
  rw [← services_replay original index] at parents
  unfold projectSnapshot
  intro d hd included r hr same
  rw [dropIns_finishProjection] at hd
  rw [stateChanges_finishProjection] at hr
  obtain ⟨m, hm, rfl⟩ := List.mem_map.mp hd
  obtain ⟨row, hrow, rfl⟩ := List.mem_map.mp hr
  have open_ : m.locked = false := by
    cases locked : m.locked with
    | false => rfl
    | true =>
      have clamped : clampLocked m = FindingRow.decide .excluded m := if_pos locked
      rw [clamped] at included
      exact absurd included nofun
  have kept : clampLocked m = m := clampLocked_of_unlocked open_
  rw [kept] at included same
  obtain ⟨d₀, hd₀, unit, locked, decision⟩ := mem_materialized_dropIns
    (buildVariantState_wellHashed _) hm
  have same_unit : (clampLocked row).unit = row.unit := by
    unfold clampLocked
    split <;> rfl
  cases sec : (replay original index (timelineOps active)).services with
  | none =>
    unfold InspectionSnapshot.dropIns at hd₀
    rw [sec] at hd₀
    cases hd₀
  | some s =>
    rw [(mem_section sec).1] at hd₀
    rw [(mem_section sec).2] at hrow
    exact clamped_of_isOn ((parents s sec).on d₀ hd₀ (locked.symm.trans open_)
      (decision.symm.trans included) row hrow (same_unit.symm.trans (same.trans unit)))

theorem not_excluded_of_allowed {snap : InspectionSnapshot} {path : String}
    (allowed : parentExcluded snap path = false) {shown : SystemdDropIn}
    (found : snap.dropIns.find? (fun d => d.path == path) = some shown) :
    ∀ r ∈ snap.stateChanges, r.unit = shown.unit → r.disposition ≠ .excluded := by
  unfold InspectionSnapshot.dropIns at found
  unfold InspectionSnapshot.stateChanges
  unfold parentExcluded at allowed
  cases sec : snap.services with
  | none =>
    rw [sec] at found
    cases found
  | some s =>
    rw [sec] at found allowed
    have found : s.dropIns.find? (fun d => d.path == path) = some shown := found
    dsimp only at allowed
    rw [found] at allowed
    dsimp only at allowed
    intro r mem same excluded
    refine List.any_eq_false.mp allowed r mem ?_
    rw [Bool.and_eq_true, beq_iff_eq, beq_iff_eq]
    exact ⟨same, excluded⟩

end Projected

section Session

theorem isItemLocked_service (snap : InspectionSnapshot) (unit : String) :
    isItemLocked snap (.service unit) =
      ((snap.stateChanges.find? fun r => r.unit == unit).map (·.locked)).getD false := by
  unfold isItemLocked InspectionSnapshot.stateChanges
  cases snap.services <;> rfl

variable {env : Env} {s opened : RefineSession}

theorem dropIn_allowed {h : Hashing} {c : SessionCore} {path : String}
    (valid : validateTarget h c (.setInclude (.dropIn path) true) = .ok ()) :
    parentExcluded (c.projected h) path = false := by
  have checked : validateDropIn h c path true = .ok () := valid
  unfold validateDropIn at checked
  split at checked
  · cases checked
  · split at checked
    · cases checked
    · rename_i allowed
      simpa using allowed

def KeepsParents (original : InspectionSnapshot) (ops : List RefinementOp) : Prop :=
  ∀ s ∈ ops.foldl (replayService original) original.services, ParentsOn s

theorem KeepsParents.grow (every : EveryPrefix (KeepsParents opened.original) opened s)
    {op : RefinementOp} (valid : validateTarget env.toHashing s.toSessionCore op = .ok ())
    (looks : LooksAtParent env.toHashing s op) :
    KeepsParents opened.original (s.activeOps ++ [op]) := by
  have parents := every.active
  unfold KeepsParents at parents ⊢
  rw [List.foldl_append, List.foldl_cons, List.foldl_nil]
  have replayed := services_replay s.original s.repoIndex s.activeOps
  have frame := @replay_frame s.original s.repoIndex s.activeOps
  rw [← every.original] at parents ⊢
  rw [← replayed] at parents ⊢
  cases sec : (replay s.original s.repoIndex s.activeOps).services with
  | none =>
    have gone : replayService s.original none op = none := by
      unfold replayService
      split
      · split
        · rfl
        · split <;> rfl
      · rfl
    rw [gone]
    nofun
  | some old =>
    have kept := parents old sec
    obtain ⟨rows, changes⟩ := mem_section sec
    intro t step
    unfold replayService at step
    split at step
    · rename_i item incl
      split at step
      · cases step
        exact kept
      · rename_i free
        split at step
        · rename_i unit
          cases step
          refine kept.setService fun included r found => ?_
          rw [← changes] at found
          subst included
          rw [Bool.true_and, Bool.not_eq_true, isItemLocked_service] at free
          have first := find_related Redecided (fun r => r.unit == unit) (fun r => r.unit == unit)
            (by rintro a b ⟨_, rfl, _⟩; rfl) frame.stateChanges
          rw [found] at first
          cases scanned : s.original.stateChanges.find? fun r => r.unit == unit with
          | none =>
            rw [scanned] at first
            cases first
          | some r₀ =>
            rw [scanned] at first free
            cases first with
            | some ab =>
              obtain ⟨d, rfl, _⟩ := ab
              exact free
        · rename_i path
          cases step
          refine kept.setDropIn fun included d found r mem same => ?_
          subst included
          rw [← rows] at found
          rw [← changes] at mem
          have first := find_related Redecided (fun d => d.path == path) (fun d => d.path == path)
            (by rintro a b ⟨_, rfl, _⟩; rfl) frame.dropIns
          rw [found] at first
          cases scanned : s.original.dropIns.find? fun d => d.path == path with
          | none =>
            rw [scanned] at first
            cases first
          | some d₀ =>
            rw [scanned] at first
            cases first with
            | some ab =>
              have unit : d.unit = d₀.unit := by
                obtain ⟨_, rfl, _⟩ := ab
                rfl
              have clean : ∀ row ∈ (s.projected env.toHashing).stateChanges, row.unit = d₀.unit →
                  row.disposition ≠ .excluded := by
                rcases looks d₀ scanned with ⟨shown, seen, same⟩ | clean
                · rw [← same]
                  exact not_excluded_of_allowed (dropIn_allowed valid) seen
                · exact clean
              refine isOn_of_clamped (clean (clampLocked r) ?_ ?_)
              · rw [SessionCore.projected, projectSnapshot, stateChanges_finishProjection]
                exact List.mem_map_of_mem mem
              · rw [← unit, ← same]
                unfold clampLocked
                split <;> rfl
        · cases step
          exact kept
    · cases step
      exact kept

theorem keepsParents_opened {snap : InspectionSnapshot}
    (distinct : (snap.stateChanges.map (·.unit)).Nodup) (agree : DropInsAgree snap)
    (open_ : OpenParents snap) : KeepsParents (normalizeSnapshot snap) [] := by
  intro s sec
  rw [List.foldl_nil, normalizeSnapshot_eq] at sec
  obtain ⟨scanned, known, rfl⟩ := Option.map_eq_some_iff.mp sec
  obtain ⟨rows, changes⟩ := mem_section known
  rw [DropInsAgree, rows, changes] at agree
  rw [OpenParents, rows, changes] at open_
  rw [changes] at distinct
  have shadow : ∀ r ∈ scanned.dropIns.filterMap (orphanShadow scanned), IsOn r := by
    intro r mem
    obtain ⟨d, _, made⟩ := List.mem_filterMap.mp mem
    unfold orphanShadow at made
    split at made
    · obtain ⟨state, _, rfl⟩ := Option.map_eq_some_iff.mp made
      exact ⟨rfl, nofun⟩
    · cases made
  constructor
  · intro d mem unlocked included r hr same
    rcases List.mem_append.mp hr with old | new
    · exact ⟨open_ d mem unlocked included r old same, agree d mem included r old same⟩
    · exact shadow r new
  · refine List.pairwise_append.mpr ⟨?_, ?_, fun a _ b new _ => shadow b new⟩
    · exact (List.pairwise_map.mp distinct).imp fun apart same => absurd same apart
    · exact List.pairwise_of_forall_mem_list fun a _ b new _ => shadow b new

end Session

/-- No run shows an included drop-in of an excluded service, if none starts so and inclusions
    look at the parent. -/
theorem dropIns_never_contradict (env : Env) (disk : Disk) (snap : InspectionSnapshot)
    (distinct : (snap.stateChanges.map (·.unit)).Nodup) (agree : DropInsAgree snap)
    (open_ : OpenParents snap) (moves : List Moved)
    (looks : Along (play env) (Fits env (LooksAtParent env.toHashing))
      (RefineSession.new env disk snap) moves) :
    ∀ s ∈ visited (play env) (RefineSession.new env disk snap) moves,
      DropInsAgree (s.projected env.toHashing) := by
  have start : KeepsParents (RefineSession.new env disk snap).original [] :=
    keepsParents_opened distinct agree open_
  have run := run_prefixes (fun s op every valid _ looks => KeepsParents.grow every valid looks)
    (everyPrefix_new start env disk snap) looks
  intro s mem
  have every := run s mem
  rw [SessionCore.projected]
  apply dropInsAgree_projected
  rw [every.original]
  exact every.active

def webHost : InspectionSnapshot :=
  { services := some
      { stateChanges := [{ unit := "web.service" }]
        dropIns := [{ unit := "web.service", path := "/etc/systemd/system/web.service.d/a.conf" }] } }

def excludeWeb : Moved := (sampleDisk, .apply (.setInclude (.service "web.service") false))

def includeWebDropIn : Moved :=
  (sampleDisk, .apply (.setInclude (.dropIn "/etc/systemd/system/web.service.d/a.conf") true))

/-- Excluding the service, then asking for its drop-in and undoing the exclusion. -/
theorem dropIns_never_contradict_webHost :
    DropInsAgree ((play sampleEnv (sampleDisk, .undo) (play sampleEnv includeWebDropIn
      (play sampleEnv excludeWeb (RefineSession.new sampleEnv sampleDisk webHost)))).projected
        sampleEnv.toHashing) := by
  refine dropIns_never_contradict sampleEnv sampleDisk webHost ?_ ?_ ?_
    [excludeWeb, includeWebDropIn, (sampleDisk, .undo)] ⟨?_, ?_, ?_, trivial⟩ _
    (List.mem_cons_of_mem _ (List.mem_cons_of_mem _ (List.mem_cons_of_mem _ List.mem_cons_self)))
  · decide
  · decide
  · decide
  · intro op same _
    cases same
    trivial
  · intro op same accepted
    cases same
    cases accepted
  · intro op same
    cases same

def lockedWebHost : InspectionSnapshot :=
  { services := some
      { stateChanges := [{ unit := "web.service", locked := true }]
        dropIns := [{ unit := "web.service", path := "/etc/systemd/system/web.service.d/a.conf" }] } }

/-- The clamp excludes the locked service and leaves its drop-in included. -/
theorem locked_service_keeps_its_dropIn :
    (lockedWebHost.stateChanges.map (·.unit)).Nodup ∧ DropInsAgree lockedWebHost ∧
      ¬ DropInsAgree ((RefineSession.new sampleEnv sampleDisk lockedWebHost).projected
        sampleEnv.toHashing) := by
  refine ⟨by decide, by decide, ?_⟩
  decide

end Inspectah
