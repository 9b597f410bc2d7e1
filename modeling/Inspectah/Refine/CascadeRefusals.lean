import Inspectah.Library.Observation
import Inspectah.Refine.GroupStates
import Inspectah.Refine.Toggle
import Inspectah.Refine.UndoRedo

/-!
Refusals of repository and group toggles. A group is checked against the
projection; a repository against the counts of the view, where rows that share a
name and arch stand as the first of them.
-/
namespace Inspectah

open FirstMatch

/-- The two items that stand for many packages. -/
inductive Cascade where
  | repo (path : String)
  | group (name : String)

def Cascade.item : Cascade → ItemId
  | .repo path => .repo path
  | .group name => .group name

def Cascade.holds (original : InspectionSnapshot) (cascade : Cascade) (p : PackageEntry) : Bool :=
  match cascade with
  | .repo path => Text.eqIgnoreAsciiCase p.sourceRepo path
  | .group name => (groupMembers original name).contains p.name

def Cascade.members (original : InspectionSnapshot) (cascade : Cascade)
    (rows : List PackageEntry) : List PackageEntry :=
  (rows.filter (cascade.holds original)).filter isEffectiveMember

def AllStand (rows : List PackageEntry) (incl : Bool) : Prop :=
  ∀ p ∈ rows, p.disposition.isIncluded = incl

def RefinedView.repoCounts (view : RefinedView) (path : String) : RepoEffective :=
  (view.repoEffective.lookup (RepoId.folded ⟨path⟩)).getD {}

/-- A toggle is refused exactly when it changes no effective member; accepted, it decides each,
    and is counted so. -/
structure RefusalsExact (env : Env) (disk : Disk) (s : RefineSession) (cascade : Cascade)
    (incl : Bool) : Prop where
  refused : (∃ message, (s.apply env disk (.setInclude cascade.item incl)).result =
      .error (.noopTarget message)) ↔
    AllStand (cascade.members s.original (rpmPackages (s.projected env.toHashing))) incl
  decided : (s.apply env disk (.setInclude cascade.item incl)).result = .ok () →
    AllStand (cascade.members s.original (rpmPackages
      ((s.apply env disk (.setInclude cascade.item incl)).session.projected env.toHashing))) incl
  counted : ∀ path, cascade = .repo path →
    (s.apply env disk (.setInclude cascade.item incl)).result = .ok () →
    ((s.apply env disk (.setInclude cascade.item incl)).session.cachedView.repoCounts
        path).included =
      if incl then
        ((s.apply env disk (.setInclude cascade.item incl)).session.cachedView.repoCounts
          path).memberCount
      else 0

def LedOtherwise (rows : List PackageEntry) (path : String) (incl : Bool) (p lead : PackageEntry) :
    Prop :=
  p ∈ rows ∧ p.sourceRepo ≠ "" ∧ Text.eqIgnoreAsciiCase p.sourceRepo path ∧
    leadRow rows p = some lead ∧ lead.locked = false ∧ lead.disposition.isIncluded ≠ incl

/-- The rows that lead those of a repository stand otherwise exactly when an effective member
    does, and then lead its own. -/
structure LeadsAgree (original : InspectionSnapshot) (rows : List PackageEntry) (path : String)
    (incl : Bool) : Prop where
  refuses : (∃ p lead, LedOtherwise rows path incl p lead) ↔
    ¬ AllStand ((Cascade.repo path).members original rows) incl
  follows : ¬ AllStand ((Cascade.repo path).members original rows) incl →
    ∀ p lead, LedOtherwise rows path incl p lead → Text.eqIgnoreAsciiCase lead.sourceRepo path

section Counts

def attributed (id : String) (p : PackageEntry) : Bool :=
  !p.sourceRepo.isEmpty && RepoId.folded ⟨p.sourceRepo⟩ == id

theorem counts_foldl (visible : List String) (id : String) (rows : List PackageEntry)
    (m : KeyedMap RepoEffective) :
    (((rows.foldl (countMember visible) m).lookup id).getD {}).memberCount =
        ((m.lookup id).getD {}).memberCount + rows.countP (attributed id) ∧
      (((rows.foldl (countMember visible) m).lookup id).getD {}).included =
        ((m.lookup id).getD {}).included +
          rows.countP (fun p => attributed id p && p.disposition.isIncluded) := by
  induction rows generalizing m with
  | nil => simp
  | cons p rest ih =>
    rw [List.foldl_cons, (ih _).1, (ih _).2, List.countP_cons, List.countP_cons, countMember,
      attributed]
    by_cases bare : p.sourceRepo.isEmpty = true
    · simp [bare]
    · rw [if_neg bare]
      by_cases here : RepoId.folded ⟨p.sourceRepo⟩ = id
      · subst here
        rw [AList.lookup_insert]
        cases p.disposition.isIncluded <;> simp [bare] <;> omega
      · rw [AList.lookup_insert_ne (Ne.symm here)]
        simp [here]

theorem countP_and_eq_iff {α : Type} (p q : α → Bool) (rows : List α) :
    rows.countP (fun a => p a && q a) = rows.countP p ↔ ∀ a ∈ rows, p a → q a := by
  have same : rows.countP (fun a => p a && q a) = (rows.filter p).countP q := by
    rw [List.countP_filter]
    simp only [Bool.and_comm]
  rw [same, List.countP_eq_length_filter (p := p), List.countP_eq_length]
  simp [List.mem_filter]

end Counts

/-- One operation on the package rows. Which sections the timeline leaves excluded does
    not come into it. -/
def replayPackages (original : InspectionSnapshot) (rows : List PackageEntry) :
    RefinementOp → List PackageEntry
  | .setInclude item incl =>
    if incl && isItemLocked original item then rows
    else
      match item with
      | .package name arch =>
        updateFirst (fun e => e.name == name && e.arch == arch)
          (FindingRow.decide (.fromBool incl)) rows
      | .repo path =>
        updateWhere (fun p => Text.eqIgnoreAsciiCase p.sourceRepo path && !p.locked)
          (FindingRow.decide (.fromBool incl)) rows
      | .group name =>
        updateWhere (fun p => (groupMembers original name).contains p.name && !(incl && p.locked))
          (FindingRow.decide (.fromBool incl)) rows
      | _ => rows
  | _ => rows

section Replay

variable (original : InspectionSnapshot) (index : RepoIndex) (excluded : List RepoId)

theorem rpmPackages_replayOp (snap : InspectionSnapshot) (op : RefinementOp) :
    rpmPackages (replayOp original index excluded snap op) =
      replayPackages original (rpmPackages snap) op := by
  cases op with
  | setInclude item incl =>
    unfold replayOp setInclude replayPackages
    dsimp only
    split
    · rfl
    · cases item with
      | package name arch =>
        exact rpmPackages_onRpm
          (updateFirst_nil (fun e : PackageEntry => e.name == name && e.arch == arch) _)
          fun rpm => rfl
      | repo path =>
        refine rpmPackages_onRpm (updateWhere_nil (fun p : PackageEntry =>
          Text.eqIgnoreAsciiCase p.sourceRepo path && !p.locked) _) fun rpm => ?_
        cases incl with
        | true => exact packagesAdded_includeRepo index path rpm
        | false => exact packagesAdded_excludeRepo index excluded path rpm
      | group name =>
        exact rpmPackages_onRpm (updateWhere_nil (fun p : PackageEntry =>
          (groupMembers original name).contains p.name && !(incl && p.locked)) _) fun rpm => rfl
      | _ => rfl
  | setPackagePin item pinned => cases item <;> rfl
  | _ => rfl

theorem rpmPackages_foldl (ops : List RefinementOp) (snap : InspectionSnapshot) :
    rpmPackages (ops.foldl (replayOp original index excluded) snap) =
      ops.foldl (replayPackages original) (rpmPackages snap) := by
  induction ops generalizing snap with
  | nil => rfl
  | cons op rest ih => rw [List.foldl_cons, ih, rpmPackages_replayOp, List.foldl_cons]

/-- One more operation takes the replayed packages one step further. -/
theorem rpmPackages_replay_concat (ops : List RefinementOp) (op : RefinementOp) :
    rpmPackages (replay original index (ops ++ [op])) =
      replayPackages original (rpmPackages (replay original index ops)) op := by
  rw [replay, rpmPackages_foldl, replay, rpmPackages_foldl, List.foldl_concat]

end Replay

/-- What toggles and checks read of a package. -/
structure PackageStand where
  name : String
  arch : String
  sourceRepo : String
  locked : Bool
  disposition : FindingKind

def packageStand (p : PackageEntry) : PackageStand :=
  ⟨p.name, p.arch, p.sourceRepo, p.locked, p.disposition⟩

theorem packageStand_finished (h : Hashing) (original : InspectionSnapshot)
    (state : VariantProjectionState) (snap : InspectionSnapshot) :
    (rpmPackages (finishProjection h original state snap)).map packageStand =
      (rpmPackages snap).map fun p => packageStand (clampLocked p) := by
  obtain ⟨rpm, rows⟩ := rpmPackages_finishProjection h original state snap
  rw [rows, List.map_map, List.map_map]
  apply List.map_congr_left
  intro p _
  obtain ⟨note, demoted⟩ := demotePackage_eq rpm (clampLocked p)
  rw [Function.comp_apply, Function.comp_apply, demoted]
  rfl

def Cascade.decide (original : InspectionSnapshot) (cascade : Cascade) (incl : Bool)
    (p : PackageEntry) : PackageEntry :=
  if cascade.holds original p && !p.locked then FindingRow.decide (.fromBool incl) p else p

/-- Two packages, before and after the toggle. -/
def DecidedPair (original : InspectionSnapshot) (cascade : Cascade) (incl : Bool)
    (p p' : PackageEntry) : Prop :=
  packageStand p' = packageStand (cascade.decide original incl p)

section Pairs

variable {original : InspectionSnapshot} {cascade : Cascade} {incl : Bool}

theorem decide_eq (p : PackageEntry) : cascade.decide original incl p =
    { p with
      disposition := if cascade.holds original p && !p.locked then .fromBool incl
        else p.disposition } := by
  unfold Cascade.decide
  split <;> rfl

theorem holds_congr {p q : PackageEntry} (same : packageStand p = packageStand q) :
    cascade.holds original p = cascade.holds original q := by
  have name := congrArg PackageStand.name same
  have source := congrArg PackageStand.sourceRepo same
  cases cascade with
  | repo path => exact congrArg (fun r => Text.eqIgnoreAsciiCase r path) source
  | group n => exact congrArg (fun m => (groupMembers original n).contains m) name

theorem stand_decide_congr {p q : PackageEntry} (same : packageStand p = packageStand q) :
    packageStand (cascade.decide original incl p) =
      packageStand (cascade.decide original incl q) := by
  rw [decide_eq, decide_eq, holds_congr same]
  simp only [packageStand, PackageStand.mk.injEq] at same ⊢
  obtain ⟨name, arch, source, locked, disposition⟩ := same
  simp [name, arch, source, locked, disposition]

theorem stand_updated (cascade : Cascade) (p : PackageEntry) {test : Bool}
    (reaches : p.locked = false → test = cascade.holds original p) :
    packageStand (clampLocked (if test then FindingRow.decide (.fromBool incl) p else p)) =
      packageStand (cascade.decide original incl (clampLocked p)) := by
  cases locked : p.locked with
  | true =>
    have clamped : ∀ q : PackageEntry, q.locked = true →
        packageStand (clampLocked q) = ⟨q.name, q.arch, q.sourceRepo, true, .excluded⟩ := by
      intro q held
      rw [clampLocked, if_pos (show LockableRow.locked q = true from held), packageStand, ← held]
      rfl
    have still : (clampLocked p).locked = true := (locked_clampLocked p).trans locked
    rw [Cascade.decide, still, Bool.not_true, Bool.and_false, if_neg Bool.false_ne_true,
      clamped p locked]
    cases test with
    | true => exact clamped (FindingRow.decide (.fromBool incl) p) locked
    | false => exact clamped p locked
  | false =>
    have free : clampLocked p = p := clampLocked_of_unlocked locked
    rw [free, reaches locked, Cascade.decide, locked, Bool.not_false, Bool.and_true]
    split
    · rw [clampLocked_of_unlocked]
      exact locked
    · rw [free]

theorem decided_pairs (h : Hashing) (original : InspectionSnapshot) (index : RepoIndex)
    (cascade : Cascade) (incl : Bool) (active : List TimelineEntry) :
    List.Forall₂ (DecidedPair original cascade incl)
      (rpmPackages (projectSnapshot h original index active))
      (rpmPackages (projectSnapshot h original index
        (active ++ [.op (.setInclude cascade.item incl)]))) := by
  have before := packageStand_finished h original
    (buildVariantState h original (timelineOps active))
    (replay original index (timelineOps active))
  have after := packageStand_finished h original
    (buildVariantState h original (timelineOps (active ++ [.op (.setInclude cascade.item incl)])))
    (replay original index (timelineOps (active ++ [.op (.setInclude cascade.item incl)])))
  have ops : timelineOps (active ++ [.op (.setInclude cascade.item incl)]) =
      timelineOps active ++ [.setInclude cascade.item incl] := by simp [TimelineEntry.ops]
  rw [ops, rpmPackages_replay_concat] at after
  generalize rpmPackages (replay original index (timelineOps active)) = rows at before after
  have step : (replayPackages original rows (.setInclude cascade.item incl)).map
      (fun p => packageStand (clampLocked p)) =
      rows.map fun p => packageStand (cascade.decide original incl (clampLocked p)) := by
    cases cascade with
    | repo path =>
      simp only [replayPackages, Cascade.item, isItemLocked, Bool.and_false, Bool.false_eq_true,
        if_false, updateWhere, List.map_map]
      apply List.map_congr_left
      intro p _
      exact stand_updated (.repo path) p fun free => by simp [free, Cascade.holds]
    | group name =>
      simp only [replayPackages, Cascade.item, isItemLocked, Bool.and_false, Bool.false_eq_true,
        if_false, updateWhere, List.map_map]
      apply List.map_congr_left
      intro p _
      exact stand_updated (.group name) p fun free => by simp [free, Cascade.holds]
  have paired : (rpmPackages (projectSnapshot h original index active)).map
      (fun p => packageStand (cascade.decide original incl p)) =
      (rpmPackages (projectSnapshot h original index
        (active ++ [.op (.setInclude cascade.item incl)]))).map packageStand := by
    have clamped : rows.map (fun p => packageStand (clampLocked p)) =
        (rows.map clampLocked).map packageStand := by
      rw [List.map_map]
      rfl
    have related := Observation.map_eq_iff.mp (before.trans clamped)
    have same : (rpmPackages (projectSnapshot h original index active)).map
        (fun p => packageStand (cascade.decide original incl p)) =
        (rows.map clampLocked).map fun p => packageStand (cascade.decide original incl p) :=
      Observation.map_eq_iff.mpr (related.imp fun p q pq => stand_decide_congr pq)
    rw [same, List.map_map, projectSnapshot, ops]
    exact (after.trans step).symm
  rw [← List.forall₂_eq_eq_eq, List.forall₂_map_left_iff, List.forall₂_map_right_iff] at paired
  exact paired.imp fun _ _ same => same.symm

end Pairs

section Leads

variable {original : InspectionSnapshot} {rows rows' : List PackageEntry} {path : String}
variable {incl : Bool}

theorem attributed_iff (q : PackageEntry) : attributed (RepoId.folded ⟨path⟩) q = true ↔
    q.sourceRepo ≠ "" ∧ Text.eqIgnoreAsciiCase q.sourceRepo path = true := by
  rw [attributed, Bool.and_eq_true, beq_iff_eq, Text.asciiLower_eq_of_eqIgnoreAsciiCase]
  simp [RepoId.folded]

theorem shown_stand_iff :
    (∀ q ∈ (shownPackages rows).filter isEffectiveMember,
        attributed (RepoId.folded ⟨path⟩) q = true → q.disposition.isIncluded = incl) ↔
      ¬ ∃ p lead, LedOtherwise rows path incl p lead := by
  constructor
  · rintro all ⟨p, lead, mem, named, here, led, free, against⟩
    apply against
    have shown : standAs p (some lead) ∈ (shownPackages rows).filter isEffectiveMember := by
      rw [List.mem_filter]
      refine ⟨List.mem_map.mpr ⟨p, mem, by rw [led]⟩, ?_⟩
      simp [isEffectiveMember, standAs, free, FindingKind.isActionable, FindingKind.fromBool]
    have stands := all _ shown ((attributed_iff _).mpr ⟨named, here⟩)
    simpa [standAs] using stands
  · intro none_led q mem here
    obtain ⟨source, effective⟩ := List.mem_filter.mp mem
    obtain ⟨p, own, rfl⟩ := List.mem_map.mp source
    obtain ⟨lead, led, -, -⟩ := leadRow_some own
    rw [led] at effective here ⊢
    have free : lead.locked = false := by
      rw [isEffectiveMember, Bool.and_eq_true] at effective
      simpa [standAs] using effective.2
    obtain ⟨named, here⟩ := (attributed_iff _).mp here
    by_contra against
    exact none_led ⟨p, lead, own, named, here, led, free, by simpa [standAs] using against⟩

theorem leadRow_pairs {cascade : Cascade}
    (pairs : List.Forall₂ (DecidedPair original cascade incl) rows rows') {p p' : PackageEntry}
    (pair : DecidedPair original cascade incl p p') :
    Option.Rel (DecidedPair original cascade incl) (leadRow rows p) (leadRow rows' p') := by
  have names : ∀ {a b : PackageEntry}, DecidedPair original cascade incl a b →
      b.name = a.name ∧ b.arch = a.arch := by
    intro a b ab
    rw [DecidedPair, decide_eq] at ab
    exact ⟨congrArg PackageStand.name ab, congrArg PackageStand.arch ab⟩
  have reversed : List.Forall₂ (DecidedPair original cascade incl) rows.reverse rows'.reverse :=
    List.rel_reverse pairs
  have last := find_related (DecidedPair original cascade incl)
    (fun q => packageId q == packageId p) (fun q => packageId q == packageId p')
    (fun a b ab => by
      rw [packageId, packageId, packageId, packageId, (names ab).1, (names ab).2,
        (names pair).1, (names pair).2]) reversed
  rw [leadRow, leadRow]
  generalize rows.reverse.find? (fun q => packageId q == packageId p) = x at last ⊢
  generalize rows'.reverse.find? (fun q => packageId q == packageId p') = y at last ⊢
  cases last with
  | none => exact .none
  | some ab =>
    rename_i a b
    exact find_related (DecidedPair original cascade incl)
      (fun e => e.name == a.name && e.arch == a.arch)
      (fun e => e.name == b.name && e.arch == b.arch)
      (fun c d cd => by rw [(names cd).1, (names cd).2, (names ab).1, (names ab).2]) pairs

theorem led_after_iff
    (pairs : List.Forall₂ (DecidedPair original (.repo path) incl) rows rows') :
    (∃ p lead, LedOtherwise rows' path incl p lead) ↔
      ∃ p lead, LedOtherwise rows path incl p lead ∧
        Text.eqIgnoreAsciiCase lead.sourceRepo path = false := by
  have fields : ∀ {a b : PackageEntry}, DecidedPair original (.repo path) incl a b →
      b.sourceRepo = a.sourceRepo ∧ b.locked = a.locked ∧
        b.disposition.isIncluded =
          (if Text.eqIgnoreAsciiCase a.sourceRepo path && !a.locked then incl
          else a.disposition.isIncluded) := by
    intro a b ab
    rw [DecidedPair, decide_eq] at ab
    refine ⟨congrArg PackageStand.sourceRepo ab, congrArg PackageStand.locked ab, ?_⟩
    have decided : b.disposition =
        if Text.eqIgnoreAsciiCase a.sourceRepo path && !a.locked then .fromBool incl
        else a.disposition := congrArg PackageStand.disposition ab
    rw [decided]
    split
    · exact FindingKind.isIncluded_fromBool incl
    · rfl
  have led : ∀ {p p' lead lead' : PackageEntry}, DecidedPair original (.repo path) incl p p' →
      DecidedPair original (.repo path) incl lead lead' → leadRow rows p = some lead →
      leadRow rows' p' = some lead' → p ∈ rows → p' ∈ rows' →
      (LedOtherwise rows' path incl p' lead' ↔ LedOtherwise rows path incl p lead ∧
        Text.eqIgnoreAsciiCase lead.sourceRepo path = false) := by
    intro p p' lead lead' pair leads before after mem mem'
    obtain ⟨source, -, -⟩ := fields pair
    obtain ⟨-, locked, stands⟩ := fields leads
    rw [LedOtherwise, LedOtherwise, source, locked, stands]
    cases own : Text.eqIgnoreAsciiCase lead.sourceRepo path <;> cases free : lead.locked <;>
      simp [before, after, mem, mem']
  constructor
  · rintro ⟨p', lead', otherwise⟩
    obtain ⟨p, mem, pair⟩ := mem_related pairs otherwise.1
    obtain ⟨lead, before, -, -⟩ := leadRow_some mem
    have leads := leadRow_pairs pairs pair
    rw [before, otherwise.2.2.2.1] at leads
    cases leads with
    | some leads =>
      exact ⟨p, lead, (led pair leads before otherwise.2.2.2.1 mem otherwise.1).mp otherwise⟩
  · rintro ⟨p, lead, otherwise, foreign⟩
    obtain ⟨p', mem', pair⟩ := related_mem pairs otherwise.1
    obtain ⟨lead', after, -, -⟩ := leadRow_some mem'
    have leads := leadRow_pairs pairs pair
    rw [otherwise.2.2.2.1, after] at leads
    cases leads with
    | some leads =>
      exact ⟨p', lead', (led pair leads otherwise.2.2.2.1 after otherwise.1 mem').mpr
        ⟨otherwise, foreign⟩⟩

end Leads

section Checks

variable {env : Env} {disk : Disk} {s : RefineSession}

theorem repoEffective_of_recomputed (fresh : Recomputed env s) : s.cachedView.repoEffective =
    computeRepoEffective (viewParts env.toHashing s.toSessionCore) := by
  obtain ⟨_, _, _, _, same⟩ := fresh
  rw [same]
  rfl

theorem Reachable.repoEffective (reached : Reachable env s) : s.cachedView.repoEffective =
    computeRepoEffective (viewParts env.toHashing s.toSessionCore) := by
  induction reached with
  | opened disk snap => exact repoEffective_of_recomputed (recomputed_view env disk _)
  | resumed disk snap tarball timeline cursor =>
    apply repoEffective_of_recomputed
    obtain ⟨degraded, saved⟩ := tryAutosave_eq disk.autosaveFails _
    exact ⟨disk, _, _, degraded, saved⟩
  | tarball path earlier ih => exact ih
  | uploadDir dir earlier ih => exact ih
  | @served s served earlier ih =>
    rcases serve_effect env s served with
      ⟨_, after, _⟩ | ⟨_, fresh, _⟩ | ⟨_, _, _, _, _, _, _, after⟩
    · rw [after]
      exact ih
    · exact repoEffective_of_recomputed fresh
    · rw [after]
      exact ih

theorem apply_cascade (cascade : Cascade) (incl : Bool)
    (valid : validateTarget env.toHashing s.toSessionCore (.setInclude cascade.item incl) =
      .ok ()) :
    (s.apply env disk (.setInclude cascade.item incl)).result =
        checkNoop env.toHashing s.toSessionCore s.cachedView (.setInclude cascade.item incl) ∧
      ((s.apply env disk (.setInclude cascade.item incl)).result = .ok () →
        (s.apply env disk (.setInclude cascade.item incl)).session =
          s.record env disk (.op (.setInclude cascade.item incl))) := by
  have unlocked : isLockedInclusion s.original (.setInclude cascade.item incl) = false := by
    cases cascade <;> cases incl <;> rfl
  have decides : isOpNoop env.toHashing s.toSessionCore (.setInclude cascade.item incl) =
      false := by
    cases cascade <;> rfl
  rw [RefineSession.apply, valid]
  dsimp only
  rw [unlocked, decides]
  cases checkNoop env.toHashing s.toSessionCore s.cachedView (.setInclude cascade.item incl) with
  | error e => exact ⟨rfl, nofun⟩
  | ok _ => exact ⟨rfl, fun _ => rfl⟩

variable {incl : Bool}

theorem checkGroupNoop_iff {h : Hashing} {c : SessionCore} {name : String} {group : InstalledGroup}
    (found : c.original.installedGroups.find? (fun g => g.name == name) = some group) :
    (∃ message, checkGroupNoop h c name incl = .error (.noopTarget message)) ↔
      AllStand ((Cascade.group name).members c.original (rpmPackages (c.projected h))) incl := by
  have members : (Cascade.group name).members c.original (rpmPackages (c.projected h)) =
      effectiveMembers (rpmPackages (c.projected h)) group.members := by
    have own : groupMembers c.original name = group.members := by
      rw [groupMembers, found]
      rfl
    rw [Cascade.members, effectiveMembers, ← own]
    rfl
  rw [members, checkGroupNoop, found]
  dsimp only
  generalize effectiveMembers (rpmPackages (c.projected h)) group.members = effective
  by_cases bare : effective = []
  · rw [if_pos (by simp [bare]), bare]
    apply iff_of_true
    · exact ⟨_, by rw [nothingToDecide]⟩
    · intro p mem
      cases mem
  · rw [if_neg (by simpa using bare)]
    by_cases all : (effective.all fun p => p.disposition.isIncluded == incl) = true
    · rw [if_pos all]
      apply iff_of_true
      · exact ⟨_, by rw [alreadyAt]⟩
      · intro q mem
        simpa using List.all_eq_true.mp all q mem
    · rw [if_neg all]
      apply iff_of_false
      · rintro ⟨_, refused⟩
        cases refused
      · intro stand
        exact all (List.all_eq_true.mpr fun q mem => by simpa using stand q mem)

section Repo

variable (h : Hashing) (c : SessionCore) (path : String) (incl)

def repoCountsOf : RepoEffective :=
  ((computeRepoEffective (viewParts h c)).lookup (RepoId.folded ⟨path⟩)).getD {}

theorem repoCounts_record (disk : Disk) (entry : TimelineEntry) :
    (s.record env disk entry).cachedView.repoCounts path =
      repoCountsOf env.toHashing (s.record env disk entry).toSessionCore path := by
  have current : Recomputed env (s.record env disk entry) := by
    obtain ⟨degraded, moved⟩ := moveTo_eq env disk s (s.history.record entry)
    exact ⟨disk, _, _, degraded, moved⟩
  rw [RefinedView.repoCounts, repoEffective_of_recomputed current, repoCountsOf]

theorem repoCountsOf_eq :
    (repoCountsOf h c path).memberCount =
        ((shownPackages (rpmPackages (c.projected h))).filter isEffectiveMember).countP
          (attributed (RepoId.folded ⟨path⟩)) ∧
      (repoCountsOf h c path).included =
        ((shownPackages (rpmPackages (c.projected h))).filter isEffectiveMember).countP
          fun p => attributed (RepoId.folded ⟨path⟩) p && p.disposition.isIncluded := by
  rw [repoCountsOf, computeRepoEffective, effectivePackages_shown]
  obtain ⟨members, included⟩ := counts_foldl
    ((viewParts h c).packages.map fun p => packageId p.entry) (RepoId.folded ⟨path⟩)
    ((shownPackages (rpmPackages (c.projected h))).filter isEffectiveMember) ∅
  rw [members, included, AList.lookup_empty]
  simp

theorem counted_iff : (repoCountsOf h c path).included =
      (if incl then (repoCountsOf h c path).memberCount else 0) ↔
    ¬ ∃ p lead, LedOtherwise (rpmPackages (c.projected h)) path incl p lead := by
  obtain ⟨members, included⟩ := repoCountsOf_eq h c path
  rw [members, included, ← shown_stand_iff]
  cases incl with
  | true =>
    rw [if_pos rfl, countP_and_eq_iff]
  | false =>
    rw [if_neg Bool.false_ne_true, List.countP_eq_zero]
    simp

theorem checkRepoNoop_iff {view : RefinedView}
    (current : view.repoEffective = computeRepoEffective (viewParts h c)) :
    (∃ message, checkRepoNoop h c view path incl = .error (.noopTarget message)) ↔
      ¬ ∃ p lead, LedOtherwise (rpmPackages (c.projected h)) path incl p lead := by
  have few : (repoCountsOf h c path).included ≤ (repoCountsOf h c path).memberCount := by
    obtain ⟨members, included⟩ := repoCountsOf_eq h c path
    rw [members, included]
    exact List.countP_mono_left fun p _ both => (Bool.and_eq_true _ _ ▸ both).1
  rw [← counted_iff, checkRepoNoop, current, ← repoCountsOf]
  by_cases bare : (repoCountsOf h c path).memberCount = 0
  · rw [if_pos bare]
    apply iff_of_true
    · exact ⟨_, by rw [nothingToDecide]⟩
    · cases incl <;> simp <;> omega
  · rw [if_neg bare]
    by_cases stands : (repoCountsOf h c path).included =
        if incl then (repoCountsOf h c path).memberCount else 0
    · rw [if_pos (by cases incl <;> simpa using stands)]
      exact iff_of_true ⟨_, by rw [alreadyAt]⟩ stands
    · rw [if_neg (by cases incl <;> simpa using stands)]
      apply iff_of_false
      · rintro ⟨_, refused⟩
        cases refused
      · exact stands

end Repo

theorem checkNoop_ok_iff (cascade : Cascade) :
    checkNoop env.toHashing s.toSessionCore s.cachedView (.setInclude cascade.item incl) = .ok () ↔
      ¬ ∃ message, checkNoop env.toHashing s.toSessionCore s.cachedView
        (.setInclude cascade.item incl) = .error (.noopTarget message) := by
  have only : checkNoop env.toHashing s.toSessionCore s.cachedView
        (.setInclude cascade.item incl) = .ok () ∨
      ∃ message, checkNoop env.toHashing s.toSessionCore s.cachedView
        (.setInclude cascade.item incl) = .error (.noopTarget message) := by
    cases cascade with
    | repo path =>
      rw [Cascade.item, checkNoop, checkRepoNoop, nothingToDecide, alreadyAt]
      split
      · exact .inr ⟨_, rfl⟩
      · split
        · exact .inr ⟨_, rfl⟩
        · exact .inl rfl
    | group name =>
      rw [Cascade.item, checkNoop, checkGroupNoop]
      split
      · exact .inl rfl
      · dsimp only
        rw [nothingToDecide, alreadyAt]
        split
        · exact .inr ⟨_, rfl⟩
        · split
          · exact .inr ⟨_, rfl⟩
          · exact .inl rfl
  constructor
  · rintro passed ⟨message, refused⟩
    rw [passed] at refused
    cases refused
  · exact only.resolve_right

theorem group_refused_iff {name : String}
    (valid : validateTarget env.toHashing s.toSessionCore (.setInclude (.group name) incl) =
      .ok ()) :
    (∃ message, checkNoop env.toHashing s.toSessionCore s.cachedView
        (.setInclude (.group name) incl) = .error (.noopTarget message)) ↔
      AllStand ((Cascade.group name).members s.original
        (rpmPackages (s.projected env.toHashing))) incl := by
  obtain ⟨group, found⟩ : ∃ group,
      s.original.installedGroups.find? (fun g => g.name == name) = some group := by
    rw [← Option.isSome_iff_exists, List.find?_isSome, ← List.any_eq_true]
    change required _ name = _ at valid
    rw [required] at valid
    split at valid
    · assumption
    · cases valid
  exact checkGroupNoop_iff found

theorem holds_decide (cascade : Cascade) (p : PackageEntry) :
    cascade.holds s.original (cascade.decide s.original incl p) = cascade.holds s.original p := by
  rw [decide_eq]
  cases cascade <;> rfl

theorem stands_after {cascade : Cascade} {rows rows' : List PackageEntry}
    (pairs : List.Forall₂ (DecidedPair s.original cascade incl) rows rows') :
    AllStand (cascade.members s.original rows') incl := by
  intro p' mem
  rw [Cascade.members, List.mem_filter, List.mem_filter] at mem
  obtain ⟨⟨mem, held⟩, effective⟩ := mem
  rw [isEffectiveMember, Bool.and_eq_true, Bool.not_eq_true'] at effective
  obtain ⟨p, -, pair⟩ := mem_related pairs mem
  have holds : cascade.holds s.original p' = cascade.holds s.original p :=
    (holds_congr pair).trans (holds_decide cascade p)
  rw [DecidedPair, decide_eq] at pair
  have locked : p'.locked = p.locked := congrArg PackageStand.locked pair
  have decided : p'.disposition = if cascade.holds s.original p && !p.locked then .fromBool incl
      else p.disposition := congrArg PackageStand.disposition pair
  rw [decided, ← holds, ← locked, held, effective.2]
  exact FindingKind.isIncluded_fromBool incl

theorem leadsAgree_iff {original : InspectionSnapshot} {path : String}
    {rows rows' : List PackageEntry}
    (pairs : List.Forall₂ (DecidedPair original (.repo path) incl) rows rows') :
    LeadsAgree original rows path incl ↔
      ((¬ ∃ p lead, LedOtherwise rows path incl p lead) ↔
        AllStand ((Cascade.repo path).members original rows) incl) ∧
      ((∃ p lead, LedOtherwise rows path incl p lead) →
        ¬ ∃ p lead, LedOtherwise rows' path incl p lead) := by
  rw [led_after_iff pairs]
  constructor
  · intro agree
    refine ⟨by rw [agree.refuses, not_not], ?_⟩
    rintro some_led ⟨p, lead, otherwise, foreign⟩
    have own := agree.follows (agree.refuses.mp some_led) p lead otherwise
    rw [foreign] at own
    cases own
  · rintro ⟨refused, counted⟩
    have refuses : (∃ p lead, LedOtherwise rows path incl p lead) ↔
        ¬ AllStand ((Cascade.repo path).members original rows) incl := by
      rw [← refused, not_not]
    refine ⟨refuses, fun some_stands p lead otherwise => ?_⟩
    by_contra foreign
    exact counted (refuses.mpr some_stands) ⟨p, lead, otherwise, by simpa using foreign⟩

end Checks

theorem refusals_exact_iff (env : Env) (disk : Disk) (s : RefineSession) (cascade : Cascade)
    (incl : Bool) (reached : Reachable env s)
    (valid : validateTarget env.toHashing s.toSessionCore (.setInclude cascade.item incl) =
      .ok ()) :
    RefusalsExact env disk s cascade incl ↔ ∀ path, cascade = .repo path →
      LeadsAgree s.original (rpmPackages (s.projected env.toHashing)) path incl := by
  have passes := @checkNoop_ok_iff env s incl cascade
  let after := s.record env disk (.op (.setInclude cascade.item incl))
  obtain ⟨answer, arrived⟩ := @apply_cascade env disk s cascade incl valid
  change _ → _ = after at arrived
  have pairs : List.Forall₂ (DecidedPair s.original cascade incl)
      (rpmPackages (s.projected env.toHashing)) (rpmPackages (after.projected env.toHashing)) := by
    rw [projected_record]
    exact decided_pairs env.toHashing s.original s.repoIndex cascade incl s.history.active
  have decided : (s.apply env disk (.setInclude cascade.item incl)).result = .ok () →
      AllStand (cascade.members s.original (rpmPackages
        ((s.apply env disk (.setInclude cascade.item incl)).session.projected env.toHashing)))
        incl := by
    intro accepted
    rw [arrived accepted]
    exact stands_after pairs
  cases cascade with
  | group name =>
    apply iff_of_true
    · refine ⟨?_, decided, nofun⟩
      rw [answer]
      exact group_refused_iff valid
    · exact nofun
  | repo path =>
    have only : (∀ path', Cascade.repo path = .repo path' → LeadsAgree s.original
        (rpmPackages (s.projected env.toHashing)) path' incl) ↔
        LeadsAgree s.original (rpmPackages (s.projected env.toHashing)) path incl := by
      constructor
      · exact fun all => all path rfl
      · rintro agree _ ⟨⟩
        exact agree
    have refused := checkRepoNoop_iff incl env.toHashing s.toSessionCore path reached.repoEffective
    have accepted : (s.apply env disk (.setInclude (Cascade.repo path).item incl)).result = .ok () ↔
        ∃ p lead, LedOtherwise (rpmPackages (s.projected env.toHashing)) path incl p lead := by
      rw [← not_not (a := ∃ p lead, LedOtherwise _ path incl p lead), ← refused, answer]
      exact passes
    have counts : after.cachedView.repoCounts path =
        repoCountsOf env.toHashing after.toSessionCore path := repoCounts_record path disk _
    rw [only, leadsAgree_iff pairs, ← refused]
    constructor
    · intro exactly
      constructor
      · rw [← exactly.refused, answer]
        rfl
      · intro some_led
        have ok := accepted.mpr some_led
        have counted := exactly.counted path rfl ok
        rw [arrived ok, counts] at counted
        exact (counted_iff incl env.toHashing after.toSessionCore path).mp counted
    · rintro ⟨refuses, settled⟩
      refine ⟨?_, decided, ?_⟩
      · rw [answer]
        exact refuses
      · rintro _ ⟨⟩ ok
        rw [arrived ok, counts]
        exact (counted_iff incl env.toHashing after.toSessionCore path).mpr
          (settled (accepted.mp ok))

theorem reachable_toggled (host : InspectionSnapshot) (toggles : List (ItemId × Bool)) :
    Reachable sampleEnv (toggled host toggles) := by
  rw [toggled]
  induction toggles using List.reverseRecOn with
  | nil => exact .opened sampleDisk host
  | append_singleton rest t ih =>
    rw [List.foldl_concat]
    exact ih.served (sampleDisk, .apply (.setInclude t.1 t.2))

theorem tools_refusals_exact :
    RefusalsExact sampleEnv sampleDisk backAndForth (.group "Tools") true :=
  (refusals_exact_iff sampleEnv sampleDisk backAndForth (.group "Tools") true
    (reachable_toggled toolsHost _) (by decide +kernel)).mpr nofun

def kernelHost : InspectionSnapshot :=
  { rpm := some
      { packagesAdded :=
          [{ name := "kernel-ml", version := "6.8.0", arch := "x86_64", sourceRepo := "elrepo" },
            { name := "kernel-ml", version := "6.9.1", arch := "x86_64", sourceRepo := "elrepo" }]
        repoFiles :=
          [{ path := "/etc/yum.repos.d/elrepo.repo"
             content := "[elrepo]\nbaseurl=https://mirror/elrepo\ngpgcheck=0\n" }] } }

def firstKernelIn : RefineSession := toggled kernelHost [(.package "kernel-ml" "x86_64", true)]

/-- The second kernel is still excluded, and including the repository is refused. -/
theorem second_kernel_refused : Reachable sampleEnv firstKernelIn ∧
    validateTarget sampleEnv.toHashing firstKernelIn.toSessionCore
      (.setInclude (Cascade.repo "elrepo").item true) = .ok () ∧
    ¬ RefusalsExact sampleEnv sampleDisk firstKernelIn (.repo "elrepo") true := by
  refine ⟨reachable_toggled kernelHost _, by decide +kernel, ?_⟩
  intro exactly
  have stands : AllStand ((Cascade.repo "elrepo").members firstKernelIn.original
      (rpmPackages (firstKernelIn.projected sampleEnv.toHashing))) true :=
    exactly.refused.mp ⟨"all 2 effective members of 'elrepo' are already included",
      by decide +kernel⟩
  rw [AllStand] at stands
  revert stands
  decide +kernel

end Inspectah
