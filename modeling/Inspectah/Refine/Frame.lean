import Inspectah.Refine.Projection
import Inspectah.Refine.VariantLaws

/-!
What a projection leaves alone. Replaying operations makes decisions again and
edits user records and pins; finishing moves selections, clamps locks and
annotates packages. Everything else of a section is the opened snapshot's.
-/
namespace Inspectah

open FirstMatch

section Untouched

variable {h : Hashing} {state : VariantProjectionState} (none : state.affectedPaths = [])
include none

theorem selectVariants_untouched {α : Type} (rule : SelectRule α) (order : HashOrder.Order)
    (rows : List α) : selectVariants rule state order rows = rows := by
  rw [selectVariants, none, HashOrder.iter_nil, List.foldl_nil]

theorem entries_untouched : state.userVariants.entries = [] ∧ state.discarded.entries = [] := by
  have keys : state.userVariants.keys ++ state.discarded.keys ++ state.selected.keys = [] := by
    apply List.eq_nil_iff_forall_not_mem.mpr
    intro path mem
    have mem' : path ∈ state.affectedPaths := List.mem_dedup.mpr mem
    rw [none] at mem'
    cases mem'
  simp only [List.append_eq_nil_iff] at keys
  exact ⟨List.map_eq_nil_iff.mp keys.1.1, List.map_eq_nil_iff.mp keys.1.2⟩

theorem materializeRows_untouched {α : Type} [VariantRow α] (rows : List α) :
    materializeRows h state rows = rows := by
  obtain ⟨user, discarded⟩ := entries_untouched none
  rw [materializeRows, addUserVariants, dropDiscarded, user, discarded, HashOrder.iter_nil,
    HashOrder.iter_nil, List.foldl_nil, List.foldl_nil, selectVariants_untouched none]

end Untouched

section Finish

variable (h : Hashing) (original : InspectionSnapshot) (state : VariantProjectionState)
variable (snap : InspectionSnapshot)

def materializeContainers (c : ContainerSection) : ContainerSection :=
  { c with
    quadletUnits := materializeRows h state c.quadletUnits
    composeFiles := selectVariants (composeRule h) state h.order c.composeFiles }

theorem materializeVariants_eq : materializeVariants h state snap =
    { snap with
      config := snap.config.map fun c => { c with files := materializeRows h state c.files }
      services := snap.services.map fun s => { s with dropIns := materializeRows h state s.dropIns }
      containers := snap.containers.map (materializeContainers h state)
      nonRpmSoftware := snap.nonRpmSoftware.map fun n =>
        { n with items := selectVariants (languageEnvRule h) state h.order n.items }
      unmanagedFiles := snap.unmanagedFiles.map fun u =>
        { u with items := selectVariants unmanagedRule state h.order u.items } } := by
  unfold materializeVariants
  split
  · rename_i none
    rw [List.isEmpty_iff] at none
    have containers : materializeContainers h state = id := by
      funext c
      simp [materializeContainers, materializeRows_untouched none, selectVariants_untouched none]
    simp [containers, materializeRows_untouched none, selectVariants_untouched none]
  · simp [materializeConfigVariants, materializeDropinVariants, materializeQuadletVariants,
      materializeComposeVariants, materializeLanguageEnvVariants, materializeUnmanagedFileVariants,
      InspectionSnapshot.onConfig, InspectionSnapshot.onServices, InspectionSnapshot.onContainers,
      InspectionSnapshot.onNonRpm, InspectionSnapshot.onUnmanaged, Function.comp_def]
    rfl

theorem raiseSensitivity_eq : ∃ sensitive redaction, raiseSensitivity original snap =
    { snap with sensitiveSnapshot := sensitive, redactionState := redaction } := by
  unfold raiseSensitivity
  split
  · exact ⟨_, _, rfl⟩
  · exact ⟨snap.sensitiveSnapshot, snap.redactionState, rfl⟩

def demoteRpm (rpm : RpmSection) : RpmSection :=
  { rpm with packagesAdded := rpm.packagesAdded.map (demotePackage rpm) }

theorem finishProjection_eq : ∃ sensitive redaction, finishProjection h original state snap =
    { snap with
      rpm := snap.rpm.map fun rpm => demoteRpm (clampRpm rpm)
      config := snap.config.map fun c =>
        { c with files := (materializeRows h state c.files).map clampLocked }
      services := snap.services.map fun s =>
        clampServices { s with dropIns := materializeRows h state s.dropIns }
      containers := snap.containers.map fun c => clampContainers (materializeContainers h state c)
      storage := snap.storage.map fun s => { s with fstabEntries := s.fstabEntries.map clampLocked }
      kernelBoot := snap.kernelBoot.map fun k =>
        { k with sysctlOverrides := k.sysctlOverrides.map clampLocked }
      network := snap.network.map clampNetwork
      scheduledTasks := snap.scheduledTasks.map clampScheduled
      selinux := snap.selinux.map fun s => { s with portLabels := s.portLabels.map clampLocked }
      nonRpmSoftware := snap.nonRpmSoftware.map fun n =>
        { n with
          items := (selectVariants (languageEnvRule h) state h.order n.items).map clampLocked }
      unmanagedFiles := snap.unmanagedFiles.map fun u =>
        { u with items := selectVariants unmanagedRule state h.order u.items }
      sensitiveSnapshot := sensitive
      redactionState := redaction } := by
  obtain ⟨sensitive, redaction, raised⟩ :=
    raiseSensitivity_eq original (materializeVariants h state snap)
  refine ⟨sensitive, redaction, ?_⟩
  rw [finishProjection, raised, materializeVariants_eq]
  simp [demoteUnservedRepoEnabling, InspectionSnapshot.onRpm, clampLockedItems, demoteRpm,
    Function.comp_def]

theorem demotePackage_eq (rpm : RpmSection) (p : PackageEntry) :
    ∃ annotation, demotePackage rpm p = { p with repolessAnnotation := annotation } := by
  unfold demotePackage
  split
  · split
    · exact ⟨_, rfl⟩
    · exact ⟨p.repolessAnnotation, rfl⟩
    · exact ⟨p.repolessAnnotation, rfl⟩
  · exact ⟨p.repolessAnnotation, rfl⟩

/-! Its rows, where they are decided. -/

theorem rows_finish {σ α : Type} {finish : σ → σ} (rows : σ → List α) (change : List α → List α)
    (empty : change [] = []) (commutes : ∀ x, rows (finish x) = change (rows x)) (sec : Option σ) :
    ((sec.map finish).map rows).getD [] = change ((sec.map rows).getD []) := by
  cases sec with
  | none => exact empty.symm
  | some x => exact commutes x

@[simp] theorem configFiles_finishProjection :
    (finishProjection h original state snap).configFiles =
      (materializeRows h state snap.configFiles).map clampLocked := by
  obtain ⟨_, _, finished⟩ := finishProjection_eq h original state snap
  rw [finished]
  exact rows_finish ConfigSection.files (fun rows => (materializeRows h state rows).map clampLocked)
    (by simp) (fun _ => rfl) snap.config

@[simp] theorem stateChanges_finishProjection :
    (finishProjection h original state snap).stateChanges = snap.stateChanges.map clampLocked := by
  obtain ⟨_, _, finished⟩ := finishProjection_eq h original state snap
  rw [finished]
  exact rows_finish ServiceSection.stateChanges (List.map clampLocked) rfl (fun _ => rfl)
    snap.services

@[simp] theorem dropIns_finishProjection :
    (finishProjection h original state snap).dropIns =
      (materializeRows h state snap.dropIns).map clampLocked := by
  obtain ⟨_, _, finished⟩ := finishProjection_eq h original state snap
  rw [finished]
  exact rows_finish ServiceSection.dropIns
    (fun rows => (materializeRows h state rows).map clampLocked) (by simp) (fun _ => rfl)
    snap.services

@[simp] theorem quadletUnits_finishProjection :
    (finishProjection h original state snap).quadletUnits =
      (materializeRows h state snap.quadletUnits).map clampLocked := by
  obtain ⟨_, _, finished⟩ := finishProjection_eq h original state snap
  rw [finished]
  exact rows_finish ContainerSection.quadletUnits
    (fun rows => (materializeRows h state rows).map clampLocked) (by simp) (fun _ => rfl)
    snap.containers

@[simp] theorem flatpakApps_finishProjection :
    (finishProjection h original state snap).flatpakApps = snap.flatpakApps.map clampLocked := by
  obtain ⟨_, _, finished⟩ := finishProjection_eq h original state snap
  rw [finished]
  exact rows_finish ContainerSection.flatpakApps (List.map clampLocked) rfl (fun _ => rfl)
    snap.containers

@[simp] theorem sysctlOverrides_finishProjection :
    (finishProjection h original state snap).sysctlOverrides =
      snap.sysctlOverrides.map clampLocked := by
  obtain ⟨_, _, finished⟩ := finishProjection_eq h original state snap
  rw [finished]
  exact rows_finish KernelBootSection.sysctlOverrides (List.map clampLocked) rfl (fun _ => rfl)
    snap.kernelBoot

theorem rpmPackages_finishProjection : ∃ rpm : RpmSection,
    rpmPackages (finishProjection h original state snap) =
      ((rpmPackages snap).map clampLocked).map (demotePackage rpm) := by
  obtain ⟨_, _, finished⟩ := finishProjection_eq h original state snap
  rw [finished]
  cases sec : snap.rpm with
  | none => exact ⟨{}, by simp [rpmPackages, sec]⟩
  | some rpm => exact ⟨clampRpm rpm, by simp [rpmPackages, sec, demoteRpm, clampRpm]⟩

theorem kernelBoot_finishProjection :
    (finishProjection h original state snap).kernelBoot = snap.kernelBoot.map fun k =>
      { k with sysctlOverrides := k.sysctlOverrides.map clampLocked } := by
  obtain ⟨_, _, finished⟩ := finishProjection_eq h original state snap
  rw [finished]

end Finish

/-- The same row with its decision made again: what was open to one stays so. -/
def Redecided {α : Type} [FindingRow α] (a b : α) : Prop :=
  ∃ d, b = FindingRow.decide d a ∧ ((FindingRow.disposition a).isActionable → d.isActionable)

section Redecided

variable {α : Type} [FindingRow α] {a b : α}

theorem Redecided.refl (a : α) : Redecided a a :=
  ⟨FindingRow.disposition a, (FindingRow.decide_disposition a).symm, id⟩

theorem Redecided.again (ab : Redecided a b) {d : FindingKind}
    (open_ : (FindingRow.disposition b).isActionable → d.isActionable) :
    Redecided a (FindingRow.decide d b) := by
  obtain ⟨e, rfl, kept⟩ := ab
  refine ⟨d, FindingRow.decide_decide d e a, fun act => open_ ?_⟩
  rw [FindingRow.disposition_decide]
  exact kept act

theorem Redecided.decideBool (ab : Redecided a b) (incl : Bool) :
    Redecided a (FindingRow.decide (.fromBool incl) b) := ab.again fun _ => rfl

theorem Redecided.isActionable (ab : Redecided a b) (act : (FindingRow.disposition a).isActionable) :
    (FindingRow.disposition b).isActionable := by
  obtain ⟨d, rfl, kept⟩ := ab
  rw [FindingRow.disposition_decide]
  exact kept act

/-- A test that does not read the decision answers alike on both rows. -/
theorem Redecided.agree {p : α → Bool} (blind : ∀ d a, p (FindingRow.decide d a) = p a)
    (ab : Redecided a b) : p a = p b := by
  obtain ⟨d, rfl, _⟩ := ab
  exact (blind d a).symm

/-- The same row, with a decision it has to make possibly made again. -/
def Reconsidered (a b : α) : Prop :=
  b = a ∨ (FindingRow.disposition a).isActionable ∧
    ∃ incl, b = FindingRow.decide (.fromBool incl) a

theorem Reconsidered.withInclude (ab : Reconsidered a b) (incl : Bool) :
    Reconsidered a (FindingRow.decide ((FindingRow.disposition b).withInclude incl) b) := by
  rcases ab with rfl | ⟨act, decided, rfl⟩
  · cases act : (FindingRow.disposition b).isActionable with
    | true =>
      rw [FindingKind.withInclude_of_isActionable act]
      exact .inr ⟨act, incl, rfl⟩
    | false =>
      left
      rw [FindingKind.withInclude_of_not_isActionable act, FindingRow.decide_disposition]
  · rw [FindingRow.disposition_decide, FindingRow.decide_decide]
    exact .inr ⟨act, incl, rfl⟩

theorem Reconsidered.redecided (ab : Reconsidered a b) : Redecided a b := by
  rcases ab with rfl | ⟨_, incl, rfl⟩
  · exact Redecided.refl b
  · exact (Redecided.refl a).decideBool incl

end Redecided

theorem rel_map {α β : Type} {R : α → β → Prop} {f : β → β} (change : ∀ a b, R a b → R a (f b))
    {x : Option α} {y : Option β} (rel : Option.Rel R x y) : Option.Rel R x (y.map f) := by
  cases rel with
  | none => exact .none
  | some ab => exact .some (change _ _ ab)

theorem rel_refl {α : Type} {R : α → α → Prop} (refl : ∀ a, R a a) (x : Option α) :
    Option.Rel R x x := by
  cases x with
  | none => exact .none
  | some a => exact .some (refl a)

theorem redecided_refl {α : Type} [FindingRow α] (rows : List α) :
    List.Forall₂ Redecided rows rows := List.forall₂_same.mpr fun a _ => Redecided.refl a

theorem redecided_first {α : Type} [FindingRow α] {rows rows' : List α} (p : α → Bool) (incl : Bool)
    (rel : List.Forall₂ Redecided rows rows') :
    List.Forall₂ Redecided rows (updateFirst p (FindingRow.decide (.fromBool incl)) rows') :=
  forall_updateFirst _ _ _ (fun _ _ ab _ => ab.decideBool incl) rel

theorem redecided_where {α : Type} [FindingRow α] {rows rows' : List α} (p : α → Bool) (incl : Bool)
    (rel : List.Forall₂ Redecided rows rows') :
    List.Forall₂ Redecided rows (updateWhere p (FindingRow.decide (.fromBool incl)) rows') :=
  forall_updateWhere _ _ _ (fun _ _ ab _ => ab.decideBool incl) rel

structure RpmFrame (a b : RpmSection) : Prop where
  packages : List.Forall₂ Redecided a.packagesAdded b.packagesAdded
  repoFiles : List.Forall₂ Redecided a.repoFiles b.repoFiles
  gpgKeys : List.Forall₂ Redecided a.gpgKeys b.gpgKeys
  rest : b =
    { a with packagesAdded := b.packagesAdded, repoFiles := b.repoFiles, gpgKeys := b.gpgKeys }

structure ConfigFrame (a b : ConfigSection) : Prop where
  files : List.Forall₂ Reconsidered a.files b.files

structure ServiceFrame (a b : ServiceSection) : Prop where
  stateChanges : List.Forall₂ Redecided a.stateChanges b.stateChanges
  dropIns : List.Forall₂ Redecided a.dropIns b.dropIns
  rest : b = { a with stateChanges := b.stateChanges, dropIns := b.dropIns }

structure ContainerFrame (a b : ContainerSection) : Prop where
  quadletUnits : List.Forall₂ Redecided a.quadletUnits b.quadletUnits
  flatpakApps : List.Forall₂ Redecided a.flatpakApps b.flatpakApps
  rest : b = { a with quadletUnits := b.quadletUnits, flatpakApps := b.flatpakApps }

structure KernelBootFrame (a b : KernelBootSection) : Prop where
  sysctlOverrides : List.Forall₂ Redecided a.sysctlOverrides b.sysctlOverrides
  tunedDisposition : a.tunedDisposition.isActionable → b.tunedDisposition.isActionable
  rest : b =
    { a with sysctlOverrides := b.sysctlOverrides, tunedDisposition := b.tunedDisposition }

structure UserGroupFrame (a b : UserGroupSection) : Prop where
  rest : b = { a with users := b.users }

def Repinned (a b : NonRpmItem) : Prop := ∃ packages, b = { a with packages := packages }

structure NonRpmFrame (a b : NonRpmSoftwareSection) : Prop where
  items : List.Forall₂ Repinned a.items b.items
  rest : b = { a with items := b.items }

/-- What replaying operations over the opened snapshot `a` can have made of it. -/
structure ReplayFrame (a b : InspectionSnapshot) : Prop where
  rpm : Option.Rel RpmFrame a.rpm b.rpm
  config : Option.Rel ConfigFrame a.config b.config
  services : Option.Rel ServiceFrame a.services b.services
  containers : Option.Rel ContainerFrame a.containers b.containers
  kernelBoot : Option.Rel KernelBootFrame a.kernelBoot b.kernelBoot
  usersGroups : Option.Rel UserGroupFrame a.usersGroups b.usersGroups
  nonRpmSoftware : Option.Rel NonRpmFrame a.nonRpmSoftware b.nonRpmSoftware
  rest : b =
    { a with
      rpm := b.rpm
      config := b.config
      services := b.services
      containers := b.containers
      kernelBoot := b.kernelBoot
      usersGroups := b.usersGroups
      nonRpmSoftware := b.nonRpmSoftware }

theorem ReplayFrame.refl (a : InspectionSnapshot) : ReplayFrame a a where
  rpm := rel_refl (fun _ => ⟨redecided_refl _, redecided_refl _, redecided_refl _, rfl⟩) _
  config := rel_refl (fun _ => ⟨List.forall₂_same.mpr fun _ _ => .inl rfl⟩) _
  services := rel_refl (fun _ => ⟨redecided_refl _, redecided_refl _, rfl⟩) _
  containers := rel_refl (fun _ => ⟨redecided_refl _, redecided_refl _, rfl⟩) _
  kernelBoot := rel_refl (fun _ => ⟨redecided_refl _, id, rfl⟩) _
  usersGroups := rel_refl (fun _ => ⟨rfl⟩) _
  nonRpmSoftware := rel_refl
    (fun _ => ⟨List.forall₂_same.mpr fun item _ => ⟨item.packages, rfl⟩, rfl⟩) _
  rest := rfl

section Steps

variable {a b : InspectionSnapshot} (frame : ReplayFrame a b)
include frame

theorem ReplayFrame.onRpm {f : RpmSection → RpmSection}
    (change : ∀ x y, RpmFrame x y → RpmFrame x (f y)) : ReplayFrame a (b.onRpm f) :=
  { frame with
    rpm := rel_map change frame.rpm
    rest := by rw [InspectionSnapshot.onRpm, frame.rest] }

theorem ReplayFrame.onConfig {f : ConfigSection → ConfigSection}
    (change : ∀ x y, ConfigFrame x y → ConfigFrame x (f y)) : ReplayFrame a (b.onConfig f) :=
  { frame with
    config := rel_map change frame.config
    rest := by rw [InspectionSnapshot.onConfig, frame.rest] }

theorem ReplayFrame.onServices {f : ServiceSection → ServiceSection}
    (change : ∀ x y, ServiceFrame x y → ServiceFrame x (f y)) : ReplayFrame a (b.onServices f) :=
  { frame with
    services := rel_map change frame.services
    rest := by rw [InspectionSnapshot.onServices, frame.rest] }

theorem ReplayFrame.onContainers {f : ContainerSection → ContainerSection}
    (change : ∀ x y, ContainerFrame x y → ContainerFrame x (f y)) :
    ReplayFrame a (b.onContainers f) :=
  { frame with
    containers := rel_map change frame.containers
    rest := by rw [InspectionSnapshot.onContainers, frame.rest] }

theorem ReplayFrame.onKernelBoot {f : KernelBootSection → KernelBootSection}
    (change : ∀ x y, KernelBootFrame x y → KernelBootFrame x (f y)) :
    ReplayFrame a (b.onKernelBoot f) :=
  { frame with
    kernelBoot := rel_map change frame.kernelBoot
    rest := by rw [InspectionSnapshot.onKernelBoot, frame.rest] }

theorem ReplayFrame.onUsersGroups {f : UserGroupSection → UserGroupSection}
    (change : ∀ x y, UserGroupFrame x y → UserGroupFrame x (f y)) :
    ReplayFrame a (b.onUsersGroups f) :=
  { frame with
    usersGroups := rel_map change frame.usersGroups
    rest := by rw [InspectionSnapshot.onUsersGroups, frame.rest] }

theorem ReplayFrame.onNonRpm {f : NonRpmSoftwareSection → NonRpmSoftwareSection}
    (change : ∀ x y, NonRpmFrame x y → NonRpmFrame x (f y)) : ReplayFrame a (b.onNonRpm f) :=
  { frame with
    nonRpmSoftware := rel_map change frame.nonRpmSoftware
    rest := by rw [InspectionSnapshot.onNonRpm, frame.rest] }

end Steps

/-! One lemma for each section an operation edits. -/

section Rpm

variable {a b : RpmSection}

theorem RpmFrame.withPackages (frame : RpmFrame a b) {packages : List PackageEntry}
    (rel : List.Forall₂ Redecided a.packagesAdded packages) :
    RpmFrame a { b with packagesAdded := packages } :=
  { frame with packages := rel, rest := by rw [frame.rest] }

theorem RpmFrame.decideRepoFile (frame : RpmFrame a b) (path : String) (incl : Bool) :
    RpmFrame a (decideRepoFile path (.fromBool incl) b) :=
  { frame with
    repoFiles := redecided_first _ incl frame.repoFiles
    rest := by rw [Inspectah.decideRepoFile, frame.rest] }

theorem RpmFrame.decideGpgKey (frame : RpmFrame a b) (path : String) (incl : Bool) :
    RpmFrame a (decideGpgKey path (.fromBool incl) b) :=
  { frame with
    gpgKeys := redecided_first _ incl frame.gpgKeys
    rest := by rw [Inspectah.decideGpgKey, frame.rest] }

theorem RpmFrame.cascade (frame : RpmFrame a b) (sectionId : String) (incl : Bool) :
    RpmFrame a (cascadeRepoPackages sectionId incl b) :=
  frame.withPackages (redecided_where _ incl frame.packages)

theorem RpmFrame.foldl {step : RpmSection → String → RpmSection}
    (change : ∀ b x, RpmFrame a b → RpmFrame a (step b x)) (frame : RpmFrame a b)
    (paths : List String) : RpmFrame a (paths.foldl step b) := by
  induction paths generalizing b with
  | nil => exact frame
  | cons path paths ih => exact ih (change b path frame)

theorem RpmFrame.excludeRepo (index : RepoIndex) (excluded : List RepoId) (sectionId : String)
    (frame : RpmFrame a b) : RpmFrame a (excludeRepo index excluded sectionId b) := by
  refine RpmFrame.foldl (fun b key frame => ?_)
    (RpmFrame.foldl (fun b file frame => ?_) (frame.cascade sectionId false) _) _
  · split
    · exact frame.decideGpgKey key false
    · exact frame
  · split
    · exact frame.decideRepoFile file false
    · exact frame

theorem RpmFrame.includeRepo (index : RepoIndex) (sectionId : String) (frame : RpmFrame a b) :
    RpmFrame a (includeRepo index sectionId b) :=
  RpmFrame.foldl (fun _ key frame => frame.decideGpgKey key true)
    (RpmFrame.foldl (fun _ file frame => frame.decideRepoFile file true)
      (frame.cascade sectionId true) _) _

end Rpm

theorem ServiceFrame.setService {a b : ServiceSection} (frame : ServiceFrame a b) (unit : String)
    (incl : Bool) : ServiceFrame a (setService unit incl b) where
  stateChanges := redecided_first _ incl frame.stateChanges
  dropIns := redecided_where _ incl frame.dropIns
  rest := by rw [Inspectah.setService, frame.rest]

theorem NonRpmFrame.updateEnv {a b : NonRpmSoftwareSection} (frame : NonRpmFrame a b)
    (p : NonRpmItem → Bool) (f : List LanguagePackage → List LanguagePackage) :
    NonRpmFrame a
      { b with items := updateFirst p (fun item => { item with packages := f item.packages }) b.items } where
  items := forall_updateFirst _ _ _ (by rintro x y ⟨packages, rfl⟩ _; exact ⟨_, rfl⟩) frame.items
  rest := by rw [frame.rest]

theorem pinPackages_frame {a b : InspectionSnapshot} (frame : ReplayFrame a b)
    (f : List LanguagePackage → List LanguagePackage) (ecosystem envPath : String) :
    ReplayFrame a (pinPackages f ecosystem envPath b) :=
  frame.onNonRpm fun _ _ inner => inner.updateEnv _ f

theorem updateUser_frame {a b : InspectionSnapshot} (frame : ReplayFrame a b) (username : String)
    (f : Json → Json) : ReplayFrame a (updateUser username f b) :=
  frame.onUsersGroups fun _ _ inner => ⟨by rw [inner.rest]⟩

/-! The rows of a replayed snapshot, paired with the opened snapshot's. -/

section Rows

theorem rows_related {σ α : Type} {R : σ → σ → Prop} {S : α → α → Prop} (rows : σ → List α)
    (inner : ∀ x y, R x y → List.Forall₂ S (rows x) (rows y)) {x y : Option σ}
    (rel : Option.Rel R x y) : List.Forall₂ S ((x.map rows).getD []) ((y.map rows).getD []) := by
  cases rel with
  | none => exact .nil
  | some xy => exact inner _ _ xy

variable {a b : InspectionSnapshot} (frame : ReplayFrame a b)
include frame

theorem ReplayFrame.packages : List.Forall₂ Redecided (rpmPackages a) (rpmPackages b) :=
  rows_related _ (fun _ _ inner => inner.packages) frame.rpm

theorem ReplayFrame.reconsidered : List.Forall₂ Reconsidered a.configFiles b.configFiles :=
  rows_related _ (fun _ _ inner => inner.files) frame.config

theorem ReplayFrame.configFiles : List.Forall₂ Redecided a.configFiles b.configFiles :=
  frame.reconsidered.imp fun _ _ => Reconsidered.redecided

theorem ReplayFrame.stateChanges : List.Forall₂ Redecided a.stateChanges b.stateChanges :=
  rows_related _ (fun _ _ inner => inner.stateChanges) frame.services

theorem ReplayFrame.dropIns : List.Forall₂ Redecided a.dropIns b.dropIns :=
  rows_related _ (fun _ _ inner => inner.dropIns) frame.services

theorem ReplayFrame.quadletUnits : List.Forall₂ Redecided a.quadletUnits b.quadletUnits :=
  rows_related _ (fun _ _ inner => inner.quadletUnits) frame.containers

theorem ReplayFrame.flatpakApps : List.Forall₂ Redecided a.flatpakApps b.flatpakApps :=
  rows_related _ (fun _ _ inner => inner.flatpakApps) frame.containers

theorem ReplayFrame.sysctlOverrides : List.Forall₂ Redecided a.sysctlOverrides b.sysctlOverrides :=
  rows_related _ (fun _ _ inner => inner.sysctlOverrides) frame.kernelBoot

end Rows

section Replay

variable {original snap : InspectionSnapshot} {index : RepoIndex} {excluded : List RepoId}

theorem setInclude_frame (frame : ReplayFrame original snap) (item : ItemId) (incl : Bool) :
    ReplayFrame original (setInclude original index excluded item incl snap) := by
  unfold setInclude
  split
  · exact frame
  · cases item with
    | package name arch =>
      exact frame.onRpm fun _ _ inner => inner.withPackages (redecided_first _ incl inner.packages)
    | config path =>
      exact frame.onConfig fun _ _ inner =>
        ⟨forall_updateFirst _ _ _ (fun _ _ xy _ => xy.withInclude incl) inner.files⟩
    | repo path =>
      refine frame.onRpm fun x y inner => ?_
      split
      · exact inner.includeRepo index path
      · exact inner.excludeRepo index excluded path
    | service unit => exact frame.onServices fun _ _ inner => inner.setService unit incl
    | dropIn path =>
      exact frame.onServices fun _ _ inner =>
        ⟨inner.stateChanges, redecided_first _ incl inner.dropIns, by rw [inner.rest]⟩
    | quadlet path =>
      exact frame.onContainers fun _ _ inner =>
        ⟨redecided_first _ incl inner.quadletUnits, inner.flatpakApps, by rw [inner.rest]⟩
    | flatpak appId remote branch =>
      exact frame.onContainers fun _ _ inner =>
        ⟨inner.quadletUnits, redecided_first _ incl inner.flatpakApps, by rw [inner.rest]⟩
    | sysctl key =>
      exact frame.onKernelBoot fun _ _ inner =>
        ⟨redecided_first _ incl inner.sysctlOverrides, inner.tunedDisposition, by rw [inner.rest]⟩
    | tunedSelection profile =>
      refine frame.onKernelBoot fun _ _ inner => ?_
      split
      · exact ⟨inner.sysctlOverrides, fun _ => rfl, by rw [inner.rest]⟩
      · exact inner
    | group name =>
      exact frame.onRpm fun _ _ inner => inner.withPackages (redecided_where _ incl inner.packages)
    | _ => exact frame

theorem replayOp_frame (frame : ReplayFrame original snap) (op : RefinementOp) :
    ReplayFrame original (replayOp original index excluded snap op) := by
  cases op with
  | setInclude item incl => exact setInclude_frame frame item incl
  | userStrategy username strategy => exact updateUser_frame frame _ _
  | userPassword p => exact updateUser_frame frame _ _
  | setPackagePin item pinned =>
    cases item with
    | languagePackage ecosystem envPath package => exact pinPackages_frame frame _ _ _
    | _ => exact frame
  | setBulkPackagePin ecosystem envPath pinned => exact pinPackages_frame frame _ _ _
  | _ => exact frame

theorem replayOps_frame (frame : ReplayFrame original snap) (ops : List RefinementOp) :
    ReplayFrame original (ops.foldl (replayOp original index excluded) snap) := by
  induction ops generalizing snap with
  | nil => exact frame
  | cons op ops ih => exact ih (replayOp_frame frame op)

theorem replay_frame (ops : List RefinementOp) : ReplayFrame original (replay original index ops) :=
  replayOps_frame (ReplayFrame.refl original) ops

end Replay

end Inspectah
