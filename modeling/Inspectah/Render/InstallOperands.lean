import Inspectah.Render.PackageLines
import Inspectah.Render.PayloadLines

/-!
Which packages the section names in an install: those that pass its filters, less the
members of the groups it installs and the names that cannot be written.
-/
namespace Inspectah

variable {rpm : RpmSection} {orig : Option (TextMap Bool)} {ctx : Option RenderContext}
variable {pkg : PackageEntry}

def suppressedMembers (rpm : RpmSection) (ctx : Option RenderContext) : List String :=
  (renderableGroups rpm ctx).flatMap (·.members)

/-- What decides of a package alone whether it is installed by name, besides where it comes
    from. -/
structure PassesOwnFilters (rpm : RpmSection) (orig : Option (TextMap Bool)) (pkg : PackageEntry) :
    Prop where
  included : pkg.disposition.isIncluded
  not_baseline : canonicalPackageId pkg.name pkg.arch ∉ rpm.baselineSuppressed.getD []
  leaf : passesLeafFilter rpm orig pkg
  writable : (sanitizeShellValue (installNameForPackage (installablePackages rpm orig) pkg)).isSome

structure PassesFilters (rpm : RpmSection) (orig : Option (TextMap Bool))
    (ctx : Option RenderContext) (pkg : PackageEntry) : Prop extends PassesOwnFilters rpm orig pkg where
  not_member : pkg.name ∉ suppressedMembers rpm ctx

def operandPackages (rpm : RpmSection) (orig : Option (TextMap Bool)) (ctx : Option RenderContext) :
    List PackageEntry := (namedPackages rpm orig ctx).map (·.1)

/-- The packages a repository they bring along serves, which are installed first. -/
def servedOperands (rpm : RpmSection) (orig : Option (TextMap Bool)) (ctx : Option RenderContext) :
    List PackageEntry := (servedPackages rpm (namedPackages rpm orig ctx)).map (·.1)

/-- The packages the `Packages` transaction names. -/
def ordinaryOperands (rpm : RpmSection) (orig : Option (TextMap Bool))
    (ctx : Option RenderContext) : List PackageEntry :=
  (operandPackages rpm orig ctx).filter fun pkg => pkg.repoEnablingFrom.isEmpty

theorem mem_installablePackages : pkg ∈ installablePackages rpm orig ↔
    pkg ∈ rpm.packagesAdded ∧ isPackageInstallable pkg ∧ pkg.disposition.isIncluded ∧
      canonicalPackageId pkg.name pkg.arch ∉ rpm.baselineSuppressed.getD [] ∧
      passesLeafFilter rpm orig pkg := by
  simp only [installablePackages, List.mem_filter, Bool.not_eq_true', ← Bool.not_eq_true,
    List.contains_iff_mem]
  constructor
  · rintro ⟨⟨⟨⟨mem, included⟩, installable⟩, baseline⟩, leaf⟩
    exact ⟨mem, installable, included, baseline, leaf⟩
  · rintro ⟨mem, installable, included, baseline, leaf⟩
    exact ⟨⟨⟨⟨mem, included⟩, installable⟩, baseline⟩, leaf⟩

theorem mem_operandPackages : pkg ∈ operandPackages rpm orig ctx ↔
    pkg ∈ rpm.packagesAdded ∧ isPackageInstallable pkg ∧ PassesFilters rpm orig ctx pkg := by
  simp only [operandPackages, namedPackages, List.mem_map, List.mem_filter, Prod.exists,
    Prod.mk.injEq, Bool.not_eq_true', ← Bool.not_eq_true, List.contains_iff_mem, mem_installablePackages]
  constructor
  · rintro ⟨_, _, ⟨⟨_, ⟨⟨mem, installable, included, baseline, leaf⟩, member⟩, rfl, rfl⟩, safe⟩, rfl⟩
    exact ⟨mem, installable, ⟨included, baseline, leaf, safe⟩, member⟩
  · rintro ⟨mem, installable, passes⟩
    exact ⟨_, _, ⟨⟨_, ⟨⟨mem, installable, passes.included, passes.not_baseline, passes.leaf⟩,
      passes.not_member⟩, rfl, rfl⟩, passes.writable⟩, rfl⟩

theorem repoEnablingExport_notEnabling :
    (match repoEnablingExport rpm pkg with | .notEnabling => true | _ => false) =
      pkg.repoEnablingFrom.isEmpty := by
  unfold repoEnablingExport
  cases pkg.repoEnablingFrom with
  | nil => rfl
  | cons first rest =>
    dsimp only
    cases droppedOwnedPath rpm pkg with
    | some dropped => rfl
    | none =>
      dsimp only
      cases (first :: rest).any (sectionSurvives rpm) <;> rfl

theorem ordinaryNames_eq : ordinaryNames rpm (namedPackages rpm orig ctx) =
    (ordinaryOperands rpm orig ctx).map (installNameForPackage (installablePackages rpm orig)) := by
  have own : ∀ named ∈ namedPackages rpm orig ctx,
      named.2 = installNameForPackage (installablePackages rpm orig) named.1 := by
    intro named mem
    obtain ⟨pkg, -, rfl⟩ := List.mem_map.mp (List.mem_filter.mp mem).1
    rfl
  have kept : ordinaryNames rpm (namedPackages rpm orig ctx) =
      ((namedPackages rpm orig ctx).filter fun named => named.1.repoEnablingFrom.isEmpty).map (·.2) :=
    congrArg (List.map _) (List.filter_congr fun _ _ => repoEnablingExport_notEnabling)
  rw [kept, ordinaryOperands, operandPackages, List.filter_map, List.map_map]
  exact List.map_congr_left fun named mem => own named (List.mem_filter.mp mem).1

theorem mem_ordinaryOperands : pkg ∈ ordinaryOperands rpm orig ctx ↔
    pkg ∈ rpm.packagesAdded ∧ isPackageInstallable pkg ∧ PassesFilters rpm orig ctx pkg ∧
      pkg.repoEnablingFrom = [] := by
  rw [ordinaryOperands, List.mem_filter, mem_operandPackages, List.isEmpty_iff, and_assoc, and_assoc]

theorem mem_servedOperands : pkg ∈ servedOperands rpm orig ctx ↔
    pkg ∈ operandPackages rpm orig ctx ∧ repoEnablingExport rpm pkg = .served := by
  rw [servedOperands, operandPackages, servedPackages]
  constructor
  · intro mem
    obtain ⟨named, found, rfl⟩ := List.mem_map.mp mem
    obtain ⟨listed, served⟩ := List.mem_filter.mp found
    refine ⟨List.mem_map_of_mem listed, ?_⟩
    cases enabling : repoEnablingExport rpm named.1 <;> simp [enabling] at served ⊢
  · rintro ⟨mem, served⟩
    obtain ⟨named, listed, rfl⟩ := List.mem_map.mp mem
    exact List.mem_map_of_mem (List.mem_filter.mpr ⟨listed, by simp [served]⟩)

def NamedInInstall (rpm : RpmSection) (orig : Option (TextMap Bool)) (ctx : Option RenderContext)
    (pkg : PackageEntry) : Prop :=
  pkg ∈ servedOperands rpm orig ctx ∨ pkg ∈ ordinaryOperands rpm orig ctx

def IsLost (rpm : RpmSection) (pkg : PackageEntry) : Prop :=
  ∃ loss, repoEnablingExport rpm pkg = .lost loss

theorem notEnabling_iff : repoEnablingExport rpm pkg = .notEnabling ↔ pkg.repoEnablingFrom = [] := by
  rw [← List.isEmpty_iff, ← @repoEnablingExport_notEnabling rpm pkg]
  cases repoEnablingExport rpm pkg <;> simp

theorem namedInInstall_iff : NamedInInstall rpm orig ctx pkg ↔
    pkg ∈ rpm.packagesAdded ∧ isPackageInstallable pkg ∧ PassesFilters rpm orig ctx pkg ∧
      ¬IsLost rpm pkg := by
  rw [NamedInInstall, mem_servedOperands, mem_ordinaryOperands, mem_operandPackages,
    ← @notEnabling_iff rpm pkg, IsLost]
  cases repoEnablingExport rpm pkg <;> simp

end Inspectah
