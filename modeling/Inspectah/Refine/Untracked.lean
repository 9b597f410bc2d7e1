import Inspectah.Library.Observation
import Inspectah.Refine.Projection

/-!
What pending changes do not look at. Everything of a clamped snapshot but its
packages and configuration files; every operation of the replay respects that
part of the snapshot.
-/
namespace Inspectah

open FirstMatch Observation

section Rows

variable {α : Type} [LockableRow α]

theorem clampLocked_blind {p : α → Bool} (blind : ∀ d a, p (FindingRow.decide d a) = p a) (a b : α)
    (same : clampLocked a = clampLocked b) : p a = p b := by
  have kept : ∀ a, p (clampLocked a) = p a := by
    intro a
    unfold clampLocked
    split
    · exact blind _ a
    · rfl
  rw [← kept a, same, kept b]

theorem decide_respects (d : FindingKind) :
    Respects clampLocked (FindingRow.decide d : α → α) := by
  intro a b same
  have locks : LockableRow.locked a = LockableRow.locked b := by
    rw [← locked_clampLocked a, same, locked_clampLocked]
  unfold clampLocked at same ⊢
  rw [LockableRow.locked_decide, LockableRow.locked_decide]
  rw [locks] at same ⊢
  split
  · rename_i locked
    rw [if_pos locked, if_pos locked] at same
    rw [FindingRow.decide_decide, FindingRow.decide_decide, same]
  · rename_i unlocked
    rw [if_neg unlocked, if_neg unlocked] at same
    rw [same]

theorem decideFirst_respects {p : α → Bool} (blind : ∀ d a, p (FindingRow.decide d a) = p a)
    (d : FindingKind) : Respects (List.map clampLocked) (updateFirst p (FindingRow.decide d)) :=
  (decide_respects d).updateFirst (clampLocked_blind blind)

theorem decideWhere_respects {p : α → Bool} (blind : ∀ d a, p (FindingRow.decide d a) = p a)
    (d : FindingKind) : Respects (List.map clampLocked) (updateWhere p (FindingRow.decide d)) :=
  (decide_respects d).updateWhere (clampLocked_blind blind)

end Rows

def untrackedRpm (rpm : RpmSection) : RpmSection := { clampRpm rpm with packagesAdded := [] }

def clampKernelBoot (k : KernelBootSection) : KernelBootSection :=
  { k with sysctlOverrides := k.sysctlOverrides.map clampLocked }

def clampNonRpm (n : NonRpmSoftwareSection) : NonRpmSoftwareSection :=
  { n with items := n.items.map clampLocked }

def untracked (snap : InspectionSnapshot) : InspectionSnapshot :=
  { clampLockedItems snap with rpm := snap.rpm.map untrackedRpm, config := none }

section Sections

theorem onRpm_respects {f : RpmSection → RpmSection} (respects : Respects untrackedRpm f) :
    Respects untracked (InspectionSnapshot.onRpm f) :=
  .part (·.rpm) (fun seen part => { seen with rpm := part })
    (fun _ _ same => congrArg (·.rpm) same) respects.option fun _ => rfl

theorem onServices_respects {f : ServiceSection → ServiceSection} (respects : Respects clampServices f) :
    Respects untracked (InspectionSnapshot.onServices f) :=
  .part (·.services) (fun seen part => { seen with services := part })
    (fun _ _ same => congrArg (·.services) same) respects.option fun _ => rfl

theorem onContainers_respects {f : ContainerSection → ContainerSection} (respects : Respects clampContainers f) :
    Respects untracked (InspectionSnapshot.onContainers f) :=
  .part (·.containers) (fun seen part => { seen with containers := part })
    (fun _ _ same => congrArg (·.containers) same) respects.option fun _ => rfl

theorem onKernelBoot_respects {f : KernelBootSection → KernelBootSection} (respects : Respects clampKernelBoot f) :
    Respects untracked (InspectionSnapshot.onKernelBoot f) :=
  .part (·.kernelBoot) (fun seen part => { seen with kernelBoot := part })
    (fun _ _ same => congrArg (·.kernelBoot) same) respects.option fun _ => rfl

theorem onNonRpm_respects {f : NonRpmSoftwareSection → NonRpmSoftwareSection} (respects : Respects clampNonRpm f) :
    Respects untracked (InspectionSnapshot.onNonRpm f) :=
  .part (·.nonRpmSoftware) (fun seen part => { seen with nonRpmSoftware := part })
    (fun _ _ same => congrArg (·.nonRpmSoftware) same) respects.option fun _ => rfl

theorem onUsersGroups_respects (f : UserGroupSection → UserGroupSection) :
    Respects untracked (InspectionSnapshot.onUsersGroups f) :=
  .part (·.usersGroups) (fun seen part => { seen with usersGroups := part })
    (fun _ _ same => congrArg (·.usersGroups) same)
    (.whole (Option.map f)) fun _ => rfl

end Sections

section Operations

theorem decideRepoFile_respects (path : String) (d : FindingKind) :
    Respects untrackedRpm (decideRepoFile path d) :=
  .part (·.repoFiles) (fun seen part => { seen with repoFiles := part })
    (fun _ _ same => congrArg (·.repoFiles) same)
    (decideFirst_respects (p := fun f : RepoFile => f.path == path) (fun _ _ => rfl) d)
    fun _ => rfl

theorem decideGpgKey_respects (path : String) (d : FindingKind) :
    Respects untrackedRpm (decideGpgKey path d) :=
  .part (·.gpgKeys) (fun seen part => { seen with gpgKeys := part })
    (fun _ _ same => congrArg (·.gpgKeys) same)
    (.whole (updateFirst (·.path == path) (FindingRow.decide d))) fun _ => rfl

theorem includeRepo_respects (index : RepoIndex) (sectionId : String) :
    Respects untrackedRpm (includeRepo index sectionId) :=
  ((Respects.foldl (fun key => decideGpgKey_respects key .included) _).comp
    (Respects.foldl (fun file => decideRepoFile_respects file .included) _)).comp
      (.of_unseen fun _ => rfl)

theorem excludeRepo_respects (index : RepoIndex) (excluded : List RepoId) (sectionId : String) :
    Respects untrackedRpm (excludeRepo index excluded sectionId) := by
  refine ((Respects.foldl (fun key => ?_) _).comp (Respects.foldl (fun file => ?_) _)).comp
    (.of_unseen fun _ => rfl)
  · split
    · exact decideGpgKey_respects key .excluded
    · exact Respects.keep
  · split
    · exact decideRepoFile_respects file .excluded
    · exact Respects.keep

theorem setStateChanges_respects {f : List ServiceStateChange → List ServiceStateChange}
    (respects : Respects (List.map clampLocked) f) :
    Respects clampServices fun s => { s with stateChanges := f s.stateChanges } :=
  .part (·.stateChanges) (fun seen part => { seen with stateChanges := part })
    (fun _ _ same => congrArg (·.stateChanges) same) respects fun _ => rfl

theorem setDropIns_respects {f : List SystemdDropIn → List SystemdDropIn}
    (respects : Respects (List.map clampLocked) f) :
    Respects clampServices fun s => { s with dropIns := f s.dropIns } :=
  .part (·.dropIns) (fun seen part => { seen with dropIns := part })
    (fun _ _ same => congrArg (·.dropIns) same) respects fun _ => rfl

theorem setQuadlets_respects {f : List QuadletUnit → List QuadletUnit}
    (respects : Respects (List.map clampLocked) f) :
    Respects clampContainers fun s => { s with quadletUnits := f s.quadletUnits } :=
  .part (·.quadletUnits) (fun seen part => { seen with quadletUnits := part })
    (fun _ _ same => congrArg (·.quadletUnits) same) respects fun _ => rfl

theorem setFlatpaks_respects {f : List FlatpakApp → List FlatpakApp}
    (respects : Respects (List.map clampLocked) f) :
    Respects clampContainers fun s => { s with flatpakApps := f s.flatpakApps } :=
  .part (·.flatpakApps) (fun seen part => { seen with flatpakApps := part })
    (fun _ _ same => congrArg (·.flatpakApps) same) respects fun _ => rfl

theorem setSysctls_respects {f : List SysctlOverride → List SysctlOverride}
    (respects : Respects (List.map clampLocked) f) :
    Respects clampKernelBoot fun s => { s with sysctlOverrides := f s.sysctlOverrides } :=
  .part (·.sysctlOverrides) (fun seen part => { seen with sysctlOverrides := part })
    (fun _ _ same => congrArg (·.sysctlOverrides) same) respects fun _ => rfl

theorem setService_respects (unit : String) (incl : Bool) :
    Respects clampServices (setService unit incl) :=
  (setDropIns_respects (decideWhere_respects (fun _ _ => rfl) (.fromBool incl))).comp
    (setStateChanges_respects (decideFirst_respects (fun _ _ => rfl) (.fromBool incl)))

theorem setTuned_respects (profile : String) (d : FindingKind) : Respects clampKernelBoot fun k =>
    if k.tunedActive == profile then { k with tunedDisposition := d } else k := by
  intro a b same
  have active : (clampKernelBoot a).tunedActive = (clampKernelBoot b).tunedActive := by rw [same]
  have hit : (a.tunedActive == profile) = (b.tunedActive == profile) :=
    congrArg (· == profile) active
  dsimp only
  rw [hit]
  split
  · have onto : ∀ x : KernelBootSection, clampKernelBoot { x with tunedDisposition := d } =
        { clampKernelBoot x with tunedDisposition := d } := fun _ => rfl
    rw [onto, onto, same]
  · exact same

theorem pinPackages_respects (f : List LanguagePackage → List LanguagePackage)
    (ecosystem envPath : String) : Respects untracked (pinPackages f ecosystem envPath) := by
  refine onNonRpm_respects fun a b same => ?_
  let repin (item : NonRpmItem) : NonRpmItem := { item with packages := f item.packages }
  have through : ∀ item : NonRpmItem, clampLocked (repin item) = repin (clampLocked item) := by
    intro item
    change (if item.locked = true then _ else _) = repin (if item.locked = true then _ else _)
    split <;> rfl
  have items := Respects.updateFirst (f := repin)
    (clampLocked_blind (p := isEnv ecosystem envPath) fun _ _ => rfl)
    (fun x y xy => by rw [through, through, xy]) a.items b.items
    (congrArg NonRpmSoftwareSection.items same)
  have onto : ∀ x : NonRpmSoftwareSection,
      clampNonRpm { x with items := updateFirst (isEnv ecosystem envPath) repin x.items } =
        { clampNonRpm x with
          items := (updateFirst (isEnv ecosystem envPath) repin x.items).map clampLocked } :=
    fun _ => rfl
  exact (onto a).trans (by rw [same, items]; exact (onto b).symm)

variable (original : InspectionSnapshot) (index : RepoIndex) (excluded : List RepoId)

theorem setInclude_respects (item : ItemId) (incl : Bool) :
    Respects untracked (setInclude original index excluded item incl) := by
  unfold setInclude
  split
  · exact Respects.keep
  · cases item with
    | package name arch => exact onRpm_respects (.of_unseen fun _ => rfl)
    | config path => exact .of_unseen fun _ => rfl
    | repo path =>
      refine onRpm_respects ?_
      split
      · exact includeRepo_respects index path
      · exact excludeRepo_respects index excluded path
    | service unit => exact onServices_respects (setService_respects unit incl)
    | dropIn path =>
      exact onServices_respects
        (setDropIns_respects (decideFirst_respects (fun _ _ => rfl) (.fromBool incl)))
    | quadlet path =>
      exact onContainers_respects
        (setQuadlets_respects (decideFirst_respects (fun _ _ => rfl) (.fromBool incl)))
    | flatpak appId remote branch =>
      exact onContainers_respects
        (setFlatpaks_respects (decideFirst_respects (fun _ _ => rfl) (.fromBool incl)))
    | sysctl key =>
      exact onKernelBoot_respects
        (setSysctls_respects (decideFirst_respects (fun _ _ => rfl) (.fromBool incl)))
    | tunedSelection profile => exact onKernelBoot_respects (setTuned_respects profile _)
    | group name => exact onRpm_respects (.of_unseen fun _ => rfl)
    | _ => exact Respects.keep

theorem replayOp_respects (op : RefinementOp) :
    Respects untracked fun snap => replayOp original index excluded snap op := by
  cases op with
  | setInclude item incl => exact setInclude_respects original index excluded item incl
  | userStrategy username strategy => exact onUsersGroups_respects _
  | userPassword p => exact onUsersGroups_respects _
  | setPackagePin item pinned =>
    cases item with
    | languagePackage ecosystem envPath package => exact pinPackages_respects _ _ _
    | _ => exact Respects.keep
  | setBulkPackagePin ecosystem envPath pinned => exact pinPackages_respects _ _ _
  | _ => exact Respects.keep

end Operations

end Inspectah
