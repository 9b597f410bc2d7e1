import Inspectah.Library.LastWriter
import Inspectah.Refine.SessionLaws
import Inspectah.Refine.ShownPackages

/-!
Group states. A group's state is read off the rows the view shows for its
members, the last timeline entry that toggles the group, and the member toggles
after it.
-/
namespace Inspectah

open LastWriter

def groupToggle (name : String) : RefinementOp → Option Bool
  | .setInclude (.group n) incl => if n == name then some incl else none
  | _ => none

/-- The most recent toggle of the group, operations of a batch in their order. -/
def lastDirection (name : String) (ops : List RefinementOp) : Option Bool :=
  (lastOf (fun op => (groupToggle name op).isSome) ops).bind (groupToggle name)

/-- The group whose state the render context keeps under a name. -/
def recordedGroup (original : InspectionSnapshot) (name : String) : Option InstalledGroup :=
  original.installedGroups.reverse.find? (·.name == name)

/-- Overridden only by a member that stands against the last toggle; and as the toggle says when
    each member is one row that stands so. -/
structure GroupReflects (active : List TimelineEntry) (members : List PackageEntry)
    (group : InstalledGroup) (state : GroupRenderState) : Prop where
  overridden : state = .degraded .memberOverridden →
    ∃ incl, lastDirection group.name (timelineOps active) = some incl ∧
      ∃ p ∈ members, p.disposition.isIncluded ≠ incl
  settled : ∀ incl, lastDirection group.name (timelineOps active) = some incl →
    SessionCore.isUngrouped active group.name = false → members ≠ [] →
    (members.map (·.name)).Nodup → (∀ p ∈ members, p.disposition.isIncluded = incl) →
    state = if incl then .renderable else .excluded

def GroupStatesReflect (h : Hashing) (disk : Disk) (c : SessionCore) : Prop :=
  ∀ name group state, recordedGroup c.original name = some group →
    (computeRenderContext h disk c).groupStates.lookup name = some state →
    GroupReflects c.history.active
      (effectiveMembers (rpmPackages (c.projected h)) group.members) group state

def rowsNamed (pool : List PackageEntry) (member : String) : List PackageEntry :=
  pool.filter fun p => p.name == member

section Walk

variable (pool : List PackageEntry) (overrides : List String)

def OverrideMet (members : List String) : Prop :=
  ∃ before m after, members = before ++ m :: after ∧
    (∀ m' ∈ before, (rowsNamed pool m').length ≤ 1) ∧
    (rowsNamed pool m).length = 1 ∧ m ∈ overrides

structure WalkPasses (members : List String) : Prop where
  single : ∀ m ∈ members, (rowsNamed pool m).length ≤ 1
  free : ∀ m ∈ members, (rowsNamed pool m).length = 1 → m ∉ overrides

variable {pool overrides}

theorem overrideMet_cons {m : String} {members : List String} :
    OverrideMet pool overrides (m :: members) ↔ (rowsNamed pool m).length ≤ 1 ∧
      ((rowsNamed pool m).length = 1 ∧ m ∈ overrides ∨ OverrideMet pool overrides members) := by
  constructor
  · rintro ⟨before, m', after, split, quiet, one, named⟩
    cases before with
    | nil =>
      obtain ⟨rfl, rfl⟩ := List.cons.inj split
      exact ⟨by omega, .inl ⟨one, named⟩⟩
    | cons first before =>
      obtain ⟨rfl, rfl⟩ := List.cons.inj split
      exact ⟨quiet m List.mem_cons_self, .inr ⟨before, m', after, rfl,
        fun q mem => quiet q (List.mem_cons_of_mem m mem), one, named⟩⟩
  · rintro ⟨few, ⟨one, named⟩ | ⟨before, m', after, rfl, quiet, one, named⟩⟩
    · exact ⟨[], m, members, rfl, by simp, one, named⟩
    · refine ⟨m :: before, m', after, rfl, ?_, one, named⟩
      intro q mem
      rcases List.mem_cons.mp mem with rfl | mem
      · exact few
      · exact quiet q mem

theorem walkPasses_cons {m : String} {members : List String} :
    WalkPasses pool overrides (m :: members) ↔ (rowsNamed pool m).length ≤ 1 ∧
      ((rowsNamed pool m).length = 1 → m ∉ overrides) ∧ WalkPasses pool overrides members := by
  constructor
  · intro passes
    exact ⟨passes.single m List.mem_cons_self, passes.free m List.mem_cons_self,
      fun q mem => passes.single q (List.mem_cons_of_mem m mem),
      fun q mem => passes.free q (List.mem_cons_of_mem m mem)⟩
  · rintro ⟨few, free, rest⟩
    constructor
    · intro q mem
      rcases List.mem_cons.mp mem with rfl | mem
      · exact few
      · exact rest.single q mem
    · intro q mem
      rcases List.mem_cons.mp mem with rfl | mem
      · exact free
      · exact rest.free q mem

def MemberScan.seen (scan : MemberScan) (rows : List PackageEntry) : MemberScan :=
  { anyExcluded := scan.anyExcluded || rows.any fun p => !p.disposition.isIncluded
    allExcluded := scan.allExcluded && rows.all fun p => !p.disposition.isIncluded
    hasMember := scan.hasMember || !rows.isEmpty }

theorem MemberScan.seen_append (scan : MemberScan) (rows rows' : List PackageEntry) :
    scan.seen (rows ++ rows') = (scan.seen rows).seen rows' := by
  cases rows <;> simp [MemberScan.seen, Bool.or_assoc, Bool.and_assoc]

theorem scanMember_eq (unlocked : ∀ p ∈ pool, p.locked = false) (m : String) (scan : MemberScan) :
    scanMember pool overrides m scan =
      if (rowsNamed pool m).length ≤ 1 then
        if (rowsNamed pool m).length = 1 ∧ m ∈ overrides then .error .memberOverridden
        else .ok (scan.seen (rowsNamed pool m))
      else .error .multilibConflict := by
  have member : ∀ p ∈ rowsNamed pool m, p.locked = false ∧ p.name = m := by
    intro p mem
    obtain ⟨mem, named⟩ := List.mem_filter.mp mem
    exact ⟨unlocked p mem, by simpa using named⟩
  have named : (pool.filter fun p => p.name == m) = rowsNamed pool m := rfl
  rw [scanMember, named]
  cases rows : rowsNamed pool m with
  | nil => simp [MemberScan.seen]
  | cons p rest =>
    cases rest with
    | nil =>
      obtain ⟨free, named⟩ := member p (by rw [rows]; exact List.mem_singleton_self p)
      dsimp only
      rw [free, if_neg Bool.false_ne_true, named]
      by_cases overridden : m ∈ overrides
      · simp [overridden]
      · cases incl : p.disposition.isIncluded <;> simp [overridden, MemberScan.seen, incl]
    | cons q rest => simp

theorem scanMembers_eq_overridden_iff (unlocked : ∀ p ∈ pool, p.locked = false)
    (members : List String) (scan : MemberScan) :
    scanMembers pool overrides members scan = .error .memberOverridden ↔
      OverrideMet pool overrides members := by
  induction members generalizing scan with
  | nil => simp [scanMembers, OverrideMet]
  | cons m rest ih =>
    rw [scanMembers, scanMember_eq unlocked, overrideMet_cons]
    by_cases few : (rowsNamed pool m).length ≤ 1
    · rw [if_pos few]
      by_cases hit : (rowsNamed pool m).length = 1 ∧ m ∈ overrides
      · simp [hit]
      · rw [if_neg hit]
        dsimp only
        rw [ih]
        simp [few, hit]
    · rw [if_neg few]
      simp [few]

theorem scanMembers_eq_ok_iff (unlocked : ∀ p ∈ pool, p.locked = false) (members : List String)
    (scan after : MemberScan) :
    scanMembers pool overrides members scan = .ok after ↔
      WalkPasses pool overrides members ∧ after = scan.seen (members.flatMap (rowsNamed pool)) := by
  induction members generalizing scan with
  | nil =>
    have passes : WalkPasses pool overrides [] := ⟨by simp, by simp⟩
    simp [scanMembers, MemberScan.seen, passes, eq_comm]
  | cons m rest ih =>
    rw [scanMembers, scanMember_eq unlocked, walkPasses_cons, List.flatMap_cons,
      MemberScan.seen_append]
    by_cases few : (rowsNamed pool m).length ≤ 1
    · rw [if_pos few]
      by_cases hit : (rowsNamed pool m).length = 1 ∧ m ∈ overrides
      · simp [hit]
      · rw [if_neg hit]
        dsimp only
        rw [ih]
        have free : (rowsNamed pool m).length = 1 → m ∉ overrides :=
          fun one named => hit ⟨one, named⟩
        constructor
        · rintro ⟨passes, same⟩
          exact ⟨⟨few, free, passes⟩, same⟩
        · rintro ⟨⟨_, _, passes⟩, same⟩
          exact ⟨passes, same⟩
    · rw [if_neg few]
      simp [few]

end Walk

/-- A row or none for each member, none overridden, some shown, all standing that way. -/
structure ShowsGroup (pool : List PackageEntry) (overrides members : List String)
    (incl : Bool) : Prop extends WalkPasses pool overrides members where
  present : members.flatMap (rowsNamed pool) ≠ []
  settled : ∀ p ∈ members.flatMap (rowsNamed pool), p.disposition.isIncluded = incl

section State

variable {pool : List PackageEntry} {members overrides : List String} {groupExcluded : Bool}

theorem state_eq_overridden_iff (unlocked : ∀ p ∈ pool, p.locked = false) :
    deriveGroupState members pool false groupExcluded overrides = .degraded .memberOverridden ↔
      OverrideMet pool overrides members := by
  rw [← scanMembers_eq_overridden_iff unlocked members {}, deriveGroupState,
    if_neg Bool.false_ne_true]
  cases scanMembers pool overrides members {} with
  | error reason => simp
  | ok scan =>
    dsimp only
    split
    · simp
    · split
      · simp
      · split <;> simp

/-- The state a direction calls for. An exclusion also needs the group itself to count as
    excluded. -/
theorem state_eq_direction_iff (unlocked : ∀ p ∈ pool, p.locked = false) (incl : Bool) :
    (deriveGroupState members pool false groupExcluded overrides =
        if incl then .renderable else .excluded) ↔
      ShowsGroup pool overrides members incl ∧ (incl = false → groupExcluded = true) := by
  have outcome := @scanMembers_eq_ok_iff pool overrides unlocked members {}
  rw [deriveGroupState, if_neg Bool.false_ne_true]
  cases walked : scanMembers pool overrides members {} with
  | error reason =>
    have stops : ¬ WalkPasses pool overrides members := by
      intro passes
      have reached := (outcome _).mpr ⟨passes, rfl⟩
      rw [walked] at reached
      cases reached
    have apart : ¬ ShowsGroup pool overrides members incl := fun shows => stops shows.toWalkPasses
    cases incl <;> simp [apart]
  | ok scan =>
    obtain ⟨passes, rfl⟩ := (outcome scan).mp walked
    have shows : ShowsGroup pool overrides members incl ↔
        members.flatMap (rowsNamed pool) ≠ [] ∧
          ∀ p ∈ members.flatMap (rowsNamed pool), p.disposition.isIncluded = incl :=
      ⟨fun shows => ⟨shows.present, shows.settled⟩, fun seen => ⟨passes, seen.1, seen.2⟩⟩
    rw [shows]
    generalize members.flatMap (rowsNamed pool) = rows
    cases rows with
    | nil => cases incl <;> simp [MemberScan.seen]
    | cons p rest =>
      dsimp only [MemberScan.seen]
      have all_in : ((p :: rest).any fun p => !p.disposition.isIncluded) = false ↔
          ∀ q ∈ p :: rest, q.disposition.isIncluded = true := by simp
      have all_out : ((p :: rest).all fun p => !p.disposition.isIncluded) = true ↔
          ∀ q ∈ p :: rest, q.disposition.isIncluded = false := by simp
      have some_out : ((p :: rest).all fun p => !p.disposition.isIncluded) = true →
          ((p :: rest).any fun p => !p.disposition.isIncluded) = true := by
        intro all
        have first := List.all_eq_true.mp all p List.mem_cons_self
        exact List.any_eq_true.mpr ⟨p, List.mem_cons_self, first⟩
      generalize ((p :: rest).any fun p => !p.disposition.isIncluded) = out at all_in some_out ⊢
      generalize ((p :: rest).all fun p => !p.disposition.isIncluded) = allOut at all_out some_out ⊢
      cases incl with
      | true =>
        rw [← all_in]
        cases out <;> cases allOut <;> cases groupExcluded <;> simp_all
      | false =>
        rw [← all_out]
        cases out <;> cases allOut <;> cases groupExcluded <;> simp_all

end State

theorem lookup_groupStates (c : SessionCore) (pool : List PackageEntry) (name : String) :
    (groupStates c pool).lookup name =
      (recordedGroup c.original name).map (groupState c.history.active pool) := by
  rw [groupStates, recordedGroup]
  induction c.original.installedGroups using List.reverseRecOn with
  | nil => rfl
  | append_singleton groups g ih =>
    rw [List.foldl_concat, List.reverse_concat, List.find?_cons]
    by_cases same : g.name = name
    · subst same
      rw [Finmap.lookup_insert, beq_self_eq_true]
      rfl
    · rw [Finmap.lookup_insert_of_ne _ (Ne.symm same), ih]
      have miss : (g.name == name) = false := by simpa using same
      rw [miss]

def countsExcluded (name : String) (active : List TimelineEntry) : Bool :=
  (lastGroupOp name active).any fun o => !o.1

/-- When every effective member stands as its last toggle says, no earlier mention gets in the
    way. -/
structure NetOnly (active : List TimelineEntry) (rows : List PackageEntry)
    (group : InstalledGroup) (incl : Bool) : Prop where
  quiet : ¬ OverrideMet ((shownPackages rows).filter isEffectiveMember)
    (divergentOverrides group.members (lastGroupOp group.name active)) group.members
  shown : effectiveMembers rows group.members ≠ [] →
    ((effectiveMembers rows group.members).map (·.name)).Nodup →
    ShowsGroup ((shownPackages rows).filter isEffectiveMember)
      (divergentOverrides group.members (lastGroupOp group.name active)) group.members incl ∧
    (incl = false → countsExcluded group.name active = true)

section Reflects

variable (active : List TimelineEntry) (rows : List PackageEntry) (group : InstalledGroup)

theorem lastDirection_of_lastGroupOp {name : String} {active : List TimelineEntry}
    (known : lastGroupOp name active ≠ none) :
    ∃ incl, lastDirection name (timelineOps active) = some incl := by
  have toggled : ∃ op ∈ timelineOps active, (groupToggle name op).isSome := by
    induction active with
    | nil => exact absurd rfl known
    | cons entry rest ih =>
      rw [timelineOps, List.flatMap_cons]
      cases later : lastGroupOp name rest with
      | some found =>
        obtain ⟨op, mem, toggles⟩ := ih (by simp [later])
        exact ⟨op, List.mem_append_right _ mem, toggles⟩
      | none =>
        rw [lastGroupOp, later] at known
        obtain ⟨incl, found⟩ := Option.ne_none_iff_exists'.mp
          fun none_here => known (congrArg (Option.map fun incl => (incl, rest)) none_here)
        obtain ⟨op, mem, toggles⟩ := List.exists_of_findSome?_eq_some found
        exact ⟨op, List.mem_append_left _ mem, Option.isSome_iff_exists.mpr ⟨incl, toggles⟩⟩
  obtain ⟨op, mem, toggles⟩ := toggled
  have some_last : lastOf (fun op => (groupToggle name op).isSome) (timelineOps active) ≠ none := by
    rw [Ne, lastOf_eq_none_iff]
    intro silent
    exact absurd toggles (by simp [silent op mem])
  obtain ⟨last, found⟩ := Option.ne_none_iff_exists'.mp some_last
  obtain ⟨incl, direction⟩ := Option.isSome_iff_exists.mp (writes_of_lastOf found).2
  exact ⟨incl, by rw [lastDirection, found, Option.bind_some, direction]⟩

theorem unlocked_shown : ∀ p ∈ (shownPackages rows).filter isEffectiveMember, p.locked = false := by
  intro p mem
  have effective := (List.mem_filter.mp mem).2
  rw [isEffectiveMember, Bool.and_eq_true] at effective
  simpa using effective.2

theorem groupReflects_iff :
    GroupReflects active (effectiveMembers rows group.members) group
        (groupState active ((shownPackages rows).filter isEffectiveMember) group) ↔
      ∀ incl, lastDirection group.name (timelineOps active) = some incl →
        SessionCore.isUngrouped active group.name = false →
        (∀ p ∈ effectiveMembers rows group.members, p.disposition.isIncluded = incl) →
        NetOnly active rows group incl := by
  have unlocked := unlocked_shown rows
  constructor
  · intro reflects incl last grouped stands
    have state : groupState active ((shownPackages rows).filter isEffectiveMember) group =
        deriveGroupState group.members ((shownPackages rows).filter isEffectiveMember) false
          (countsExcluded group.name active)
          (divergentOverrides group.members (lastGroupOp group.name active)) := by
      rw [groupState, grouped]
      rfl
    constructor
    · intro met
      obtain ⟨incl', last', p, mem, against⟩ := reflects.overridden
        (state.trans ((state_eq_overridden_iff unlocked).mpr met))
      rw [last] at last'
      exact against ((stands p mem).trans (Option.some.inj last'))
    · intro present single
      have called := reflects.settled incl last grouped present single stands
      exact (state_eq_direction_iff unlocked incl).mp (state.symm.trans called)
  · intro net
    constructor
    · intro overridden
      cases grouped : SessionCore.isUngrouped active group.name with
      | true =>
        rw [groupState, grouped] at overridden
        cases overridden
      | false =>
        rw [groupState, grouped] at overridden
        have met := (state_eq_overridden_iff unlocked).mp overridden
        obtain ⟨incl, last⟩ : ∃ incl,
            lastDirection group.name (timelineOps active) = some incl := by
          apply lastDirection_of_lastGroupOp
          intro unknown
          obtain ⟨_, m, _, _, _, _, named⟩ := met
          rw [unknown] at named
          cases named
        by_cases against : ∃ p ∈ effectiveMembers rows group.members,
            p.disposition.isIncluded ≠ incl
        · exact ⟨incl, last, against⟩
        · have stands : ∀ p ∈ effectiveMembers rows group.members,
              p.disposition.isIncluded = incl := by
            intro p mem
            by_contra other
            exact against ⟨p, mem, other⟩
          exact absurd met (net incl last grouped stands).quiet
    · intro incl last grouped present single stands
      rw [groupState, grouped]
      exact (state_eq_direction_iff unlocked incl).mpr
        ((net incl last grouped stands).shown present single)

end Reflects

theorem group_states_reflect_iff (h : Hashing) (disk : Disk) (c : SessionCore) :
    GroupStatesReflect h disk c ↔
      ∀ name group incl, recordedGroup c.original name = some group →
        lastDirection group.name c.activeOps = some incl →
        SessionCore.isUngrouped c.history.active group.name = false →
        (∀ p ∈ effectiveMembers (rpmPackages (c.projected h)) group.members,
          p.disposition.isIncluded = incl) →
        NetOnly c.history.active (rpmPackages (c.projected h)) group incl := by
  have context : (computeRenderContext h disk c).groupStates =
      groupStates c ((shownPackages (rpmPackages (c.projected h))).filter isEffectiveMember) := by
    rw [computeRenderContext]
    dsimp only
    rw [effectivePackages_shown]
  rw [GroupStatesReflect, context]
  constructor
  · intro reflects name group incl known
    have state := reflects name group _ known (by rw [lookup_groupStates, known, Option.map_some])
    exact (groupReflects_iff _ _ group).mp state incl
  · intro net name group state known found
    rw [lookup_groupStates, known, Option.map_some, Option.some.injEq] at found
    rw [← found]
    exact (groupReflects_iff _ _ group).mpr fun incl => net name group incl known

def toolsHost : InspectionSnapshot :=
  { rpm := some
      { packagesAdded := [{ name := "gcc", arch := "x86_64", sourceRepo := "appstream" }]
        installedGroups := some [{ name := "Tools", members := ["gcc"] }] } }

def toggled (host : InspectionSnapshot) (toggles : List (ItemId × Bool)) : RefineSession :=
  toggles.foldl
    (fun s t => (s.apply sampleEnv sampleDisk (.setInclude t.1 t.2)).session)
    (.new sampleEnv sampleDisk host)

/-- The group is included, and its member excluded and included again. -/
def backAndForth : RefineSession :=
  toggled toolsHost [(.group "Tools", true), (.package "gcc" "x86_64", false),
    (.package "gcc" "x86_64", true)]

/-- Every member stands as the group was last toggled, and the group is degraded. -/
theorem away_and_back_degrades :
    ¬ GroupStatesReflect sampleEnv.toHashing sampleDisk backAndForth.toSessionCore := by
  intro reflects
  have group := reflects "Tools" { name := "Tools", members := ["gcc"] }
    (.degraded .memberOverridden) (by decide +kernel) (by decide +kernel)
  obtain ⟨incl, last, p, mem, against⟩ := group.overridden rfl
  have direction : lastDirection "Tools" backAndForth.activeOps = some true := by decide +kernel
  have stands : ∀ p ∈ effectiveMembers
      (rpmPackages (backAndForth.projected sampleEnv.toHashing)) ["gcc"],
      p.disposition.isIncluded = true := by decide +kernel
  rw [SessionCore.activeOps] at direction
  rw [direction, Option.some.injEq] at last
  exact against ((stands p mem).trans last)

end Inspectah
