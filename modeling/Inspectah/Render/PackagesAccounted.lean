import Inspectah.Collect.GroupMembers

/-!
What becomes of an included package: dnf is given its name in one of two transactions, a
group that is installed brings it, or the Containerfile says what is left to do by hand.
-/
namespace Inspectah

open BuildScript (Line Segment)

structure BuildHost where
  arch : String
  writable : (sanitizeShellValue arch).isSome

/-- The architectures dnf takes when it is given a name alone. -/
def BuildHost.Default (host : BuildHost) (arch : String) : Prop :=
  arch = host.arch ∨ arch = "noarch" ∨ arch = ""

def BuildHost.GroupInstalls (host : BuildHost) (g : InstalledGroup) (pkg : PackageEntry) : Prop :=
  pkg.name ∈ g.members ∧ pkg.name ∉ g.optionalInstalled ∧ host.Default pkg.arch

structure InstallOperand where
  name : String
  arch : Option String

def InstallOperand.text (op : InstallOperand) : String :=
  match op.arch with
  | some arch => canonicalPackageId op.name arch
  | none => op.name

def InstallOperand.Selects (host : BuildHost) (op : InstallOperand) (pkg : PackageEntry) : Prop :=
  op.name = pkg.name ∧
    match op.arch with
    | some arch => pkg.arch = arch
    | none => host.Default pkg.arch

/-- What is written for a package; `installNameForPackage` is its text. -/
def installOperand (installable : List PackageEntry) (pkg : PackageEntry) : InstallOperand where
  name := pkg.name
  arch := if 1 < nameCount installable pkg.name ∧ pkg.arch ≠ "" then some pkg.arch else none

variable {host : BuildHost} {rpm : RpmSection} {orig : Option (TextMap Bool)}
variable {ctx : Option RenderContext} {pkg p q : PackageEntry} {packages : List PackageEntry}

def servedTransaction (rpm : RpmSection) (orig : Option (TextMap Bool))
    (ctx : Option RenderContext) : List InstallOperand :=
  (servedOperands rpm orig ctx).map (installOperand (installablePackages rpm orig))

def ordinaryTransaction (rpm : RpmSection) (orig : Option (TextMap Bool))
    (ctx : Option RenderContext) : List InstallOperand :=
  (ordinaryOperands rpm orig ctx).map (installOperand (installablePackages rpm orig))

def SelectedIn (host : BuildHost) (transaction : List InstallOperand) (pkg : PackageEntry) : Prop :=
  ∃ op ∈ transaction, op.Selects host pkg

structure IsWanted (rpm : RpmSection) (orig : Option (TextMap Bool)) (pkg : PackageEntry) :
    Prop where
  included : pkg.disposition.isIncluded
  not_baseline : canonicalPackageId pkg.name pkg.arch ∉ rpm.baselineSuppressed.getD []
  leaf : passesLeafFilter rpm orig pkg

inductive Account (host : BuildHost) (rpm : RpmSection) (orig : Option (TextMap Bool))
    (ctx : Option RenderContext) (pkg : PackageEntry) : Prop where
  | served (selected : SelectedIn host (servedTransaction rpm orig ctx) pkg)
      (alone : ¬SelectedIn host (ordinaryTransaction rpm orig ctx) pkg)
  | ordinary (selected : SelectedIn host (ordinaryTransaction rpm orig ctx) pkg)
      (alone : ¬SelectedIn host (servedTransaction rpm orig ctx) pkg)
  | grouped (brought : ∃ g ∈ renderableGroups rpm ctx, host.GroupInstalls g pkg)
  | demoted (fixme : ∃ loss, (pkg, loss) ∈ lostPackages rpm (namedPackages rpm orig ctx))
  | followUp (line : (manualFollowUpLine pkg).isSome)
  | repoless (block : pkg.repolessAnnotation.isEmpty = false)

structure PackagesAccounted (host : BuildHost) (rpm : RpmSection) (orig : Option (TextMap Bool))
    (ctx : Option RenderContext) : Prop where
  accounted : ∀ pkg ∈ rpm.packagesAdded, IsWanted rpm orig pkg → Account host rpm orig ctx pkg
  once : ∀ pkg ∈ rpm.packagesAdded, ¬(SelectedIn host (servedTransaction rpm orig ctx) pkg ∧
    SelectedIn host (ordinaryTransaction rpm orig ctx) pkg)
  included : ∀ op ∈ servedTransaction rpm orig ctx ++ ordinaryTransaction rpm orig ctx,
    ∀ pkg ∈ rpm.packagesAdded, op.Selects host pkg → ∃ own ∈ rpm.packagesAdded,
      own.disposition.isIncluded ∧ own.name = pkg.name ∧ own.arch = pkg.arch

/-- Its repository serves it, and neither its own name nor a group keeps it out. -/
structure IsNamed (rpm : RpmSection) (orig : Option (TextMap Bool)) (ctx : Option RenderContext)
    (pkg : PackageEntry) : Prop where
  listed : pkg ∈ rpm.packagesAdded
  installable : isPackageInstallable pkg
  passes : PassesFilters rpm orig ctx pkg
  not_lost : ¬IsLost rpm pkg

def SharesName (rpm : RpmSection) (orig : Option (TextMap Bool)) (pkg : PackageEntry) : Prop :=
  1 < nameCount (installablePackages rpm orig) pkg.name

/-- Names can be written; a name alone means the entry's architecture, and nothing excluded;
    groups keep out only what they bring; repository packages are their own. -/
structure OperandsFit (host : BuildHost) (rpm : RpmSection) (orig : Option (TextMap Bool))
    (ctx : Option RenderContext) : Prop where
  reached : ∀ pkg ∈ rpm.packagesAdded, IsWanted rpm orig pkg → isPackageInstallable pkg →
    pkg.repolessAnnotation.isEmpty → (∃ g ∈ renderableGroups rpm ctx, host.GroupInstalls g pkg) ∨
      PassesFilters rpm orig ctx pkg ∧
        (IsLost rpm pkg ∨ host.Default pkg.arch ∨ SharesName rpm orig pkg)
  apart : ∀ p q, IsNamed rpm orig ctx p → IsNamed rpm orig ctx q → p.repoEnablingFrom ≠ [] →
    q.repoEnablingFrom = [] → p.name = q.name →
      p.arch ≠ q.arch ∧ (p.arch = "" → ¬host.Default q.arch) ∧ (q.arch = "" → ¬host.Default p.arch)
  bare : ∀ p, IsNamed rpm orig ctx p → ¬SharesName rpm orig p ∨ p.arch = "" →
    ∀ pkg ∈ rpm.packagesAdded, pkg.name = p.name → host.Default pkg.arch →
      ∃ own ∈ rpm.packagesAdded, own.disposition.isIncluded ∧ own.name = pkg.name ∧
        own.arch = pkg.arch

theorem installOperand_text :
    (installOperand packages pkg).text = installNameForPackage packages pkg := by
  unfold installOperand InstallOperand.text installNameForPackage
  by_cases shared : 1 < nameCount packages pkg.name ∧ pkg.arch ≠ ""
  · rw [if_pos shared, if_pos shared]
  · rw [if_neg shared, if_neg shared]

/-- The names of the `Packages` transaction are written from its operands. -/
theorem ordinaryTransaction_text : ordinaryNames rpm (namedPackages rpm orig ctx) =
    (ordinaryTransaction rpm orig ctx).map InstallOperand.text := by
  rw [ordinaryNames_eq, ordinaryTransaction, List.map_map]
  exact List.map_congr_left fun _ _ => installOperand_text.symm

theorem servedTransaction_text : (servedPackages rpm (namedPackages rpm orig ctx)).map (·.2) =
    (servedTransaction rpm orig ctx).map InstallOperand.text := by
  rw [servedTransaction, servedOperands, List.map_map, List.map_map]
  refine List.map_congr_left fun named mem => ?_
  obtain ⟨own, -, rfl⟩ := List.mem_map.mp (List.mem_filter.mp (List.mem_filter.mp mem).1).1
  exact installOperand_text.symm

theorem mem_filledSection {header : String} {body : List Line} {l : Line} (mem : l ∈ body) :
    l ∈ containerSection header body := by
  have filled : body.isEmpty = false := by
    cases body with
    | nil => exact absurd mem List.not_mem_nil
    | cons => rfl
  simp [containerSection, filled, mem]

theorem operand_line {names : List String} {name : String} {flags : List Segment}
    (mem : name ∈ names) :
    .command [.fixed "    ", bare name, .fixed " \\"] ∈ dnfInstallLines (sortStrings names) flags :=
  .tail _ (List.mem_append_left _ (List.mem_map_of_mem (List.mem_insertionSort _ |>.mpr mem)))

theorem operand_written {snap : InspectionSnapshot} {op : InstallOperand}
    (mem : op ∈ servedTransaction rpm orig ctx ++ ordinaryTransaction rpm orig ctx) :
    .command [.fixed "    ", bare op.text, .fixed " \\"] ∈ rpmLines snap rpm orig ctx := by
  simp only [rpmLines, List.mem_append]
  obtain served | ordinary := List.mem_append.mp mem
  · have text : op.text ∈ (servedPackages rpm (namedPackages rpm orig ctx)).map (·.2) :=
      servedTransaction_text ▸ List.mem_map_of_mem served
    have filled : servedPackages rpm (namedPackages rpm orig ctx) ≠ [] := by
      rintro none
      rw [none] at text
      exact List.not_mem_nil text
    have counted := List.length_pos_of_ne_nil filled
    refine .inl (.inl (.inl (.inr ?_)))
    rw [repoEnablingSection, if_neg (by omega)]
    refine mem_filledSection (List.mem_append_right _ ?_)
    rw [if_neg (by simpa using filled)]
    exact List.mem_append_right _ (operand_line text)
  · have text : op.text ∈ ordinaryNames rpm (namedPackages rpm orig ctx) :=
      ordinaryTransaction_text ▸ List.mem_map_of_mem ordinary
    refine .inl (.inl (.inr ?_))
    rw [packageInstallSection, if_neg (by simpa using List.ne_nil_of_mem text)]
    exact mem_filledSection (List.mem_append_right _ (operand_line text))

theorem fixme_written {snap : InspectionSnapshot} {loss : ServingLoss}
    (mem : (pkg, loss) ∈ lostPackages rpm (namedPackages rpm orig ctx)) :
    demotionFixme pkg loss ∈ rpmLines snap rpm orig ctx := by
  have counted := List.length_pos_of_mem mem
  simp only [rpmLines, List.mem_append]
  refine .inl (.inl (.inl (.inr ?_)))
  rw [repoEnablingSection, if_neg (by omega)]
  refine mem_filledSection (List.mem_append_left _ (List.mem_append_right _ ?_))
  exact List.mem_map.mpr ⟨_, mem, rfl⟩

theorem followUp_written {snap : InspectionSnapshot} {l : Line} (listed : pkg ∈ rpm.packagesAdded)
    (line : manualFollowUpLine pkg = some l) : l ∈ rpmLines snap rpm orig ctx := by
  have mem : l ∈ rpm.packagesAdded.filterMap manualFollowUpLine :=
    List.mem_filterMap.mpr ⟨pkg, listed, line⟩
  simp only [rpmLines, List.mem_append]
  refine .inl (.inr ?_)
  rw [followUpLines, if_neg (by simpa using List.ne_nil_of_mem mem)]
  exact .tail _ (mem_filledSection mem)

theorem group_written {snap : InspectionSnapshot} {g : InstalledGroup}
    (mem : g ∈ renderableGroups rpm ctx) :
    .command [.fixed "    \"", .operand .double g.name, .fixed "\" \\"] ∈
      rpmLines snap rpm orig ctx := by
  simp only [rpmLines, List.mem_append]
  refine .inl (.inl (.inl (.inl (.inl (.inr ?_)))))
  rw [groupSection, if_neg (by simpa using List.ne_nil_of_mem mem)]
  refine mem_filledSection (List.mem_append_left _ (List.mem_append_right _ (.tail _ ?_)))
  exact List.mem_map.mpr ⟨g, mem, rfl⟩

/-- A line of the Containerfile that is there for the package. -/
inductive IsLineFor (host : BuildHost) (pkg : PackageEntry) : Line → Prop where
  | operand {op : InstallOperand} (selects : op.Selects host pkg) :
      IsLineFor host pkg (.command [.fixed "    ", bare op.text, .fixed " \\"])
  | group {g : InstalledGroup} (brings : host.GroupInstalls g pkg) :
      IsLineFor host pkg (.command [.fixed "    \"", .operand .double g.name, .fixed "\" \\"])
  | demoted (loss : ServingLoss) : IsLineFor host pkg (demotionFixme pkg loss)
  | followUp {l : Line} (line : manualFollowUpLine pkg = some l) : IsLineFor host pkg l

theorem account_written {snap : InspectionSnapshot} (listed : pkg ∈ rpm.packagesAdded)
    (plain : pkg.repolessAnnotation.isEmpty) (account : Account host rpm orig ctx pkg) :
    ∃ l ∈ rpmLines snap rpm orig ctx, IsLineFor host pkg l := by
  cases account with
  | served selected =>
    obtain ⟨op, mem, selects⟩ := selected
    exact ⟨_, operand_written (List.mem_append_left _ mem), .operand selects⟩
  | ordinary selected =>
    obtain ⟨op, mem, selects⟩ := selected
    exact ⟨_, operand_written (List.mem_append_right _ mem), .operand selects⟩
  | grouped brought =>
    obtain ⟨g, mem, brings⟩ := brought
    exact ⟨_, group_written mem, .group brings⟩
  | demoted fixme =>
    obtain ⟨loss, mem⟩ := fixme
    exact ⟨_, fixme_written mem, .demoted loss⟩
  | followUp line =>
    obtain ⟨l, line⟩ := Option.isSome_iff_exists.mp line
    exact ⟨l, followUp_written listed line, .followUp line⟩
  | repoless block =>
    rw [plain] at block
    cases block

theorem one_of_name (hp : p ∈ packages) (hq : q ∈ packages) (same : p.name = q.name)
    (alone : ¬1 < nameCount packages p.name) : p = q := by
  have first : p ∈ packages.filter fun r => r.name == p.name :=
    List.mem_filter.mpr ⟨hp, beq_self_eq_true _⟩
  have second : q ∈ packages.filter fun r => r.name == p.name :=
    List.mem_filter.mpr ⟨hq, beq_iff_eq.mpr same.symm⟩
  unfold nameCount at alone
  cases rows : packages.filter fun r => r.name == p.name with
  | nil => exact absurd (rows ▸ first) List.not_mem_nil
  | cons only rest =>
    cases rest with
    | nil =>
      rw [rows] at first second
      rw [List.mem_singleton.mp first, List.mem_singleton.mp second]
    | cons second rest => simp [rows] at alone

theorem sanitized_iff {value : String} :
    (sanitizeShellValue value).isSome ↔ ∀ c ∈ value.toList, isShellUnsafe c = false := by
  unfold sanitizeShellValue
  cases special : value.toList.any isShellUnsafe with
  | true => simpa using special
  | false => simpa using special

theorem canonical_writable {name arch : String} :
    (sanitizeShellValue (canonicalPackageId name arch)).isSome ↔
      (sanitizeShellValue name).isSome ∧ (sanitizeShellValue arch).isSome := by
  have dot : isShellUnsafe '.' = false := by decide
  simp [sanitized_iff, canonicalPackageId, or_imp, forall_and, dot]

theorem default_writable {arch : String} (default : host.Default arch) :
    (sanitizeShellValue arch).isSome := by
  obtain rfl | rfl | rfl := default
  · exact host.writable
  · decide
  · decide

theorem selects_alone (alone : ¬1 < nameCount packages p.name) :
    (installOperand packages p).Selects host pkg ↔ p.name = pkg.name ∧ host.Default pkg.arch := by
  have written : (installOperand packages p).arch = none := if_neg fun both => alone both.1
  rw [InstallOperand.Selects, written]
  rfl

theorem selects_shared (shared : 1 < nameCount packages p.name) :
    (installOperand packages p).Selects host pkg ↔
      p.name = pkg.name ∧ (p.arch = pkg.arch ∨ p.arch = "" ∧ host.Default pkg.arch) := by
  by_cases empty : p.arch = ""
  · have written : (installOperand packages p).arch = none := if_neg fun both => both.2 empty
    have kept : host.Default "" := .inr (.inr rfl)
    rw [InstallOperand.Selects, written, empty]
    refine and_congr_right fun _ => ⟨fun default => .inr ⟨rfl, default⟩, ?_⟩
    rintro (same | ⟨-, default⟩)
    · exact same ▸ kept
    · exact default
  · have written : (installOperand packages p).arch = some p.arch := if_pos ⟨shared, empty⟩
    rw [InstallOperand.Selects, written]
    exact and_congr_right fun _ => ⟨fun same => .inl same.symm, fun same =>
      (same.resolve_right fun both => empty both.1).symm⟩

theorem served_iff : repoEnablingExport rpm pkg = .served ↔
    pkg.repoEnablingFrom ≠ [] ∧ ¬IsLost rpm pkg := by
  rw [Ne, ← @notEnabling_iff rpm pkg, IsLost]
  cases repoEnablingExport rpm pkg <;> simp

theorem not_lost_of_plain (plain : pkg.repoEnablingFrom = []) : ¬IsLost rpm pkg := by
  rintro ⟨loss, lost⟩
  rw [notEnabling_iff.mpr plain] at lost
  exact RepoEnablingExport.noConfusion lost

theorem selectedIn_served : SelectedIn host (servedTransaction rpm orig ctx) pkg ↔
    ∃ p, IsNamed rpm orig ctx p ∧ p.repoEnablingFrom ≠ [] ∧
      (installOperand (installablePackages rpm orig) p).Selects host pkg := by
  simp only [SelectedIn, servedTransaction, List.mem_map, exists_exists_and_eq_and,
    mem_servedOperands, mem_operandPackages, served_iff]
  refine exists_congr fun p => ⟨?_, ?_⟩
  · rintro ⟨⟨⟨listed, installable, passes⟩, enabling, kept⟩, selects⟩
    exact ⟨⟨listed, installable, passes, kept⟩, enabling, selects⟩
  · rintro ⟨named, enabling, selects⟩
    exact ⟨⟨⟨named.listed, named.installable, named.passes⟩, enabling, named.not_lost⟩, selects⟩

theorem selectedIn_ordinary : SelectedIn host (ordinaryTransaction rpm orig ctx) pkg ↔
    ∃ p, IsNamed rpm orig ctx p ∧ p.repoEnablingFrom = [] ∧
      (installOperand (installablePackages rpm orig) p).Selects host pkg := by
  simp only [SelectedIn, ordinaryTransaction, List.mem_map, exists_exists_and_eq_and,
    mem_ordinaryOperands]
  refine exists_congr fun p => ⟨?_, ?_⟩
  · rintro ⟨⟨listed, installable, passes, plain⟩, selects⟩
    exact ⟨⟨listed, installable, passes, not_lost_of_plain plain⟩, plain, selects⟩
  · rintro ⟨named, plain, selects⟩
    exact ⟨⟨named.listed, named.installable, named.passes, plain⟩, selects⟩

theorem demoted_iff : (∃ loss, (pkg, loss) ∈ lostPackages rpm (namedPackages rpm orig ctx)) ↔
    pkg ∈ operandPackages rpm orig ctx ∧ IsLost rpm pkg := by
  simp only [lostPackages, List.mem_filterMap, operandPackages, List.mem_map, IsLost]
  constructor
  · rintro ⟨loss, named, mem, found⟩
    cases kind : repoEnablingExport rpm named.1 with
    | lost own =>
      obtain ⟨rfl, rfl⟩ : named.1 = pkg ∧ own = loss := by simpa [kind] using found
      exact ⟨⟨named, mem, rfl⟩, own, kind⟩
    | notEnabling => simp [kind] at found
    | served => simp [kind] at found
  · rintro ⟨⟨named, mem, rfl⟩, loss, lost⟩
    exact ⟨loss, named, mem, by rw [lost]⟩

theorem IsNamed.mem_installable (named : IsNamed rpm orig ctx p) :
    p ∈ installablePackages rpm orig :=
  mem_installablePackages.mpr ⟨named.listed, named.installable, named.passes.included,
    named.passes.not_baseline, named.passes.leaf⟩

theorem IsWanted.mem_installable (wanted : IsWanted rpm orig pkg) (listed : pkg ∈ rpm.packagesAdded)
    (installable : isPackageInstallable pkg) : pkg ∈ installablePackages rpm orig :=
  mem_installablePackages.mpr
    ⟨listed, installable, wanted.included, wanted.not_baseline, wanted.leaf⟩

theorem installName_writable : (sanitizeShellValue (installNameForPackage packages pkg)).isSome ↔
    (sanitizeShellValue pkg.name).isSome ∧
      (1 < nameCount packages pkg.name ∧ pkg.arch ≠ "" → (sanitizeShellValue pkg.arch).isSome) := by
  unfold installNameForPackage
  by_cases both : 1 < nameCount packages pkg.name ∧ pkg.arch ≠ ""
  · rw [if_pos both, canonical_writable]
    exact and_congr_right fun _ => ⟨fun arch _ => arch, fun arch => arch both⟩
  · rw [if_neg both]
    exact (and_iff_left fun own => absurd own both).symm

theorem passes_of_selected (wanted : IsWanted rpm orig pkg)
    (mem : pkg ∈ installablePackages rpm orig) (named : IsNamed rpm orig ctx p)
    (selects : (installOperand (installablePackages rpm orig) p).Selects host pkg) :
    PassesFilters rpm orig ctx pkg ∧ (host.Default pkg.arch ∨ SharesName rpm orig pkg) := by
  by_cases shared : 1 < nameCount (installablePackages rpm orig) p.name
  · obtain ⟨name, arch⟩ := (selects_shared shared).mp selects
    obtain ⟨name_safe, arch_safe⟩ := installName_writable.mp named.passes.writable
    have own : SharesName rpm orig pkg := by rwa [SharesName, ← name]
    refine ⟨⟨⟨wanted.included, wanted.not_baseline, wanted.leaf, ?_⟩,
      name ▸ named.passes.not_member⟩, .inr own⟩
    refine installName_writable.mpr ⟨name ▸ name_safe, fun both => ?_⟩
    obtain same | ⟨-, default⟩ := arch
    · exact same ▸ arch_safe ⟨shared, same ▸ both.2⟩
    · exact default_writable default
  · obtain ⟨name, default⟩ := (selects_alone shared).mp selects
    obtain rfl := one_of_name named.mem_installable mem name shared
    exact ⟨named.passes, .inl default⟩

theorem reached_of_account (wanted : IsWanted rpm orig pkg) (listed : pkg ∈ rpm.packagesAdded)
    (installable : isPackageInstallable pkg) (unmarked : pkg.repolessAnnotation.isEmpty)
    (account : Account host rpm orig ctx pkg) :
    (∃ g ∈ renderableGroups rpm ctx, host.GroupInstalls g pkg) ∨ PassesFilters rpm orig ctx pkg ∧
      (IsLost rpm pkg ∨ host.Default pkg.arch ∨ SharesName rpm orig pkg) := by
  have mem := wanted.mem_installable listed installable
  cases account with
  | served selected =>
    obtain ⟨p, named, -, selects⟩ := selectedIn_served.mp selected
    obtain ⟨passes, reads⟩ := passes_of_selected wanted mem named selects
    exact .inr ⟨passes, .inr reads⟩
  | ordinary selected =>
    obtain ⟨p, named, -, selects⟩ := selectedIn_ordinary.mp selected
    obtain ⟨passes, reads⟩ := passes_of_selected wanted mem named selects
    exact .inr ⟨passes, .inr reads⟩
  | grouped brought => exact .inl brought
  | demoted fixme =>
    obtain ⟨operand, lost⟩ := demoted_iff.mp fixme
    exact .inr ⟨(mem_operandPackages.mp operand).2.2, .inl lost⟩
  | followUp line =>
    rw [isPackageInstallable, Option.isNone_iff_eq_none] at installable
    simp [manualFollowUpLine, installable] at line
  | repoless block => exact absurd unmarked (by simp [block])

theorem selects_self : (installOperand packages pkg).Selects host pkg ↔
    host.Default pkg.arch ∨ 1 < nameCount packages pkg.name := by
  by_cases shared : 1 < nameCount packages pkg.name
  · exact iff_of_true ((selects_shared shared).mpr ⟨rfl, .inl rfl⟩) (.inr shared)
  · rw [selects_alone shared, or_iff_left shared]
    exact and_iff_right rfl

theorem account_of_reached (listed : pkg ∈ rpm.packagesAdded)
    (once : ¬(SelectedIn host (servedTransaction rpm orig ctx) pkg ∧
      SelectedIn host (ordinaryTransaction rpm orig ctx) pkg))
    (reached : isPackageInstallable pkg → pkg.repolessAnnotation.isEmpty →
      (∃ g ∈ renderableGroups rpm ctx, host.GroupInstalls g pkg) ∨ PassesFilters rpm orig ctx pkg ∧
        (IsLost rpm pkg ∨ host.Default pkg.arch ∨ SharesName rpm orig pkg)) :
    Account host rpm orig ctx pkg := by
  by_cases installable : isPackageInstallable pkg
  case neg =>
    refine .followUp ?_
    simpa [manualFollowUpLine, isPackageInstallable, Option.isSome_iff_ne_none] using installable
  by_cases unmarked : pkg.repolessAnnotation.isEmpty
  case neg => exact .repoless (Bool.not_eq_true _ ▸ unmarked)
  obtain brought | ⟨passes, reads⟩ := reached installable unmarked
  · exact .grouped brought
  by_cases lost : IsLost rpm pkg
  · exact .demoted (demoted_iff.mpr ⟨mem_operandPackages.mpr ⟨listed, installable, passes⟩, lost⟩)
  have named : IsNamed rpm orig ctx pkg := ⟨listed, installable, passes, lost⟩
  have own := (@selects_self host pkg (installablePackages rpm orig)).mpr
    (reads.resolve_left lost)
  by_cases plain : pkg.repoEnablingFrom = []
  · have selected := selectedIn_ordinary.mpr ⟨pkg, named, plain, own⟩
    exact .ordinary selected fun served => once ⟨served, selected⟩
  · have selected := selectedIn_served.mpr ⟨pkg, named, plain, own⟩
    exact .served selected fun ordinary => once ⟨selected, ordinary⟩

theorem shares_of_kinds (hp : IsNamed rpm orig ctx p) (hq : IsNamed rpm orig ctx q)
    (enabling : p.repoEnablingFrom ≠ []) (plain : q.repoEnablingFrom = [])
    (name : p.name = q.name) : 1 < nameCount (installablePackages rpm orig) p.name := by
  by_contra alone
  obtain rfl := one_of_name hp.mem_installable hq.mem_installable name alone
  exact enabling plain

theorem apart_of_once (once : ∀ pkg ∈ rpm.packagesAdded,
      ¬(SelectedIn host (servedTransaction rpm orig ctx) pkg ∧
        SelectedIn host (ordinaryTransaction rpm orig ctx) pkg))
    (hp : IsNamed rpm orig ctx p) (hq : IsNamed rpm orig ctx q) (enabling : p.repoEnablingFrom ≠ [])
    (plain : q.repoEnablingFrom = []) (name : p.name = q.name) :
    p.arch ≠ q.arch ∧ (p.arch = "" → ¬host.Default q.arch) ∧
      (q.arch = "" → ¬host.Default p.arch) := by
  have first := shares_of_kinds hp hq enabling plain name
  have second : 1 < nameCount (installablePackages rpm orig) q.name := name ▸ first
  have both : ∀ pkg ∈ rpm.packagesAdded, p.name = pkg.name →
      (p.arch = pkg.arch ∨ p.arch = "" ∧ host.Default pkg.arch) →
      ¬(q.arch = pkg.arch ∨ q.arch = "" ∧ host.Default pkg.arch) := by
    intro pkg listed own served ordinary
    refine once pkg listed ⟨selectedIn_served.mpr ⟨p, hp, enabling, ?_⟩,
      selectedIn_ordinary.mpr ⟨q, hq, plain, ?_⟩⟩
    · exact (selects_shared first).mpr ⟨own, served⟩
    · exact (selects_shared second).mpr ⟨name ▸ own, ordinary⟩
  refine ⟨fun same => ?_, fun unknown default => ?_, fun unknown default => ?_⟩
  · exact both p hp.listed rfl (.inl rfl) (.inl same.symm)
  · exact both q hq.listed name (.inr ⟨unknown, default⟩) (.inl rfl)
  · exact both p hp.listed rfl (.inl rfl) (.inr ⟨unknown, default⟩)

theorem once_of_apart (fit : OperandsFit host rpm orig ctx) :
    ¬(SelectedIn host (servedTransaction rpm orig ctx) pkg ∧
      SelectedIn host (ordinaryTransaction rpm orig ctx) pkg) := by
  rintro ⟨served, ordinary⟩
  obtain ⟨p, hp, enabling, first⟩ := selectedIn_served.mp served
  obtain ⟨q, hq, plain, second⟩ := selectedIn_ordinary.mp ordinary
  have name : p.name = q.name := first.1.trans second.1.symm
  have shared := shares_of_kinds hp hq enabling plain name
  obtain ⟨differ, unknown_p, unknown_q⟩ := fit.apart p q hp hq enabling plain name
  obtain ⟨-, arch_p⟩ := (selects_shared shared).mp first
  obtain ⟨-, arch_q⟩ := (selects_shared (name ▸ shared)).mp second
  obtain same_p | ⟨empty_p, default⟩ := arch_p
  · obtain same_q | ⟨empty_q, default⟩ := arch_q
    · exact differ (same_p.trans same_q.symm)
    · exact unknown_q empty_q (same_p ▸ default)
  · obtain same_q | ⟨empty_q, -⟩ := arch_q
    · exact unknown_p empty_p (same_q ▸ default)
    · exact differ (empty_p.trans empty_q.symm)

theorem mem_transactions {op : InstallOperand} :
    op ∈ servedTransaction rpm orig ctx ++ ordinaryTransaction rpm orig ctx ↔
      ∃ p, IsNamed rpm orig ctx p ∧ installOperand (installablePackages rpm orig) p = op := by
  have named : ∀ p, (p ∈ servedOperands rpm orig ctx ∨ p ∈ ordinaryOperands rpm orig ctx) ↔
      IsNamed rpm orig ctx p := by
    intro p
    rw [← NamedInInstall, namedInInstall_iff]
    constructor
    · rintro ⟨listed, installable, passes, kept⟩
      exact ⟨listed, installable, passes, kept⟩
    · intro h
      exact ⟨h.listed, h.installable, h.passes, h.not_lost⟩
  simp only [servedTransaction, ordinaryTransaction, List.mem_append, List.mem_map, ← named,
    or_and_right, exists_or]

theorem bare_iff : (∀ op ∈ servedTransaction rpm orig ctx ++ ordinaryTransaction rpm orig ctx,
      ∀ pkg ∈ rpm.packagesAdded, op.Selects host pkg → ∃ own ∈ rpm.packagesAdded,
        own.disposition.isIncluded ∧ own.name = pkg.name ∧ own.arch = pkg.arch) ↔
    ∀ p, IsNamed rpm orig ctx p → ¬SharesName rpm orig p ∨ p.arch = "" →
      ∀ pkg ∈ rpm.packagesAdded, pkg.name = p.name → host.Default pkg.arch →
        ∃ own ∈ rpm.packagesAdded, own.disposition.isIncluded ∧ own.name = pkg.name ∧
          own.arch = pkg.arch := by
  constructor
  · intro included p named alone pkg listed name default
    refine included _ (mem_transactions.mpr ⟨p, named, rfl⟩) pkg listed ?_
    by_cases shared : SharesName rpm orig p
    · exact (selects_shared shared).mpr
        ⟨name.symm, .inr ⟨alone.resolve_left (not_not_intro shared), default⟩⟩
    · exact (selects_alone shared).mpr ⟨name.symm, default⟩
  · intro bare op mem pkg listed selects
    obtain ⟨p, named, rfl⟩ := mem_transactions.mp mem
    by_cases shared : SharesName rpm orig p
    · obtain ⟨name, same | ⟨unknown, default⟩⟩ := (selects_shared shared).mp selects
      · exact ⟨p, named.listed, named.passes.included, name, same⟩
      · exact bare p named (.inr unknown) pkg listed name.symm default
    · obtain ⟨name, default⟩ := (selects_alone shared).mp selects
      exact bare p named (.inl shared) pkg listed name.symm default

/-- The packages are accounted for exactly when the operands fit them. -/
theorem packages_accounted_iff (host : BuildHost) (rpm : RpmSection) (orig : Option (TextMap Bool))
    (ctx : Option RenderContext) :
    PackagesAccounted host rpm orig ctx ↔ OperandsFit host rpm orig ctx := by
  constructor
  · intro all
    refine ⟨?_, fun p q hp hq => apart_of_once all.once hp hq, bare_iff.mp all.included⟩
    intro pkg listed wanted installable unmarked
    exact reached_of_account wanted listed installable unmarked (all.accounted pkg listed wanted)
  · intro fit
    have once := fun pkg => @once_of_apart host rpm orig ctx pkg fit
    refine ⟨fun pkg listed wanted => ?_, fun pkg _ => once pkg, bare_iff.mpr fit.bare⟩
    exact account_of_reached listed (once pkg) (fit.reached pkg listed wanted)

def x86Host : BuildHost := ⟨"x86_64", by decide⟩

def localTool : PackageEntry := { name := "tool", arch := "x86_64", state := .localInstall }

theorem account_written_local : ∃ l ∈ rpmLines {} { packagesAdded := [localTool] } none none,
    IsLineFor x86Host localTool l :=
  account_written (List.mem_singleton_self _) rfl (.followUp rfl)

def unwritableTool : PackageEntry :=
  { name := "tool$x", arch := "x86_64", sourceRepo := "internal" }

def unwritableSection : RpmSection := { packagesAdded := [unwritableTool] }

/-- The 32-bit library was added to a base image that has the other. -/
def secondGlibc : PackageEntry := { name := "glibc", arch := "i686", sourceRepo := "baseos" }

def legacyGroup : InstalledGroup := { name := "Legacy", members := ["glibc"] }

def multilibSection : RpmSection :=
  { packagesAdded := [secondGlibc], installedGroups := some [legacyGroup] }

def legacyContext : RenderContext where
  groupStates := Finmap.singleton "Legacy" .renderable
  verifiedUploads := ∅

/-- Nowhere is the unwritable name spoken of, or the architecture the group does not bring. -/
theorem unwritable_name_vanishes : ¬PackagesAccounted x86Host unwritableSection none none ∧
    ¬PackagesAccounted x86Host multilibSection none (some legacyContext) := by
  constructor
  · intro all
    have wanted : IsWanted unwritableSection none unwritableTool := ⟨rfl, by decide, by decide⟩
    have listed : unwritableTool ∈ unwritableSection.packagesAdded := List.mem_singleton_self _
    obtain ⟨g, mem, -⟩ | ⟨passes, -⟩ := reached_of_account wanted listed (by decide) rfl
      (all.accounted _ listed wanted)
    · exact absurd (mem_renderableGroups.mp mem).1 List.not_mem_nil
    · exact absurd passes.writable (by decide)
  · intro all
    have wanted : IsWanted multilibSection none secondGlibc := ⟨rfl, by decide, by decide⟩
    have listed : secondGlibc ∈ multilibSection.packagesAdded := List.mem_singleton_self _
    have suppressed : "glibc" ∈ suppressedMembers multilibSection (some legacyContext) :=
      List.mem_flatMap.mpr ⟨legacyGroup,
        mem_renderableGroups.mpr ⟨List.mem_singleton_self _, Finmap.lookup_singleton_eq⟩, by decide⟩
    obtain ⟨g, -, -, -, default⟩ | ⟨passes, -⟩ := reached_of_account wanted listed (by decide) rfl
      (all.accounted _ listed wanted)
    · obtain own | noarch | empty := default
      · exact absurd own (by decide)
      · exact absurd noarch (by decide)
      · exact absurd empty (by decide)
    · exact passes.not_member suppressed

end Inspectah
