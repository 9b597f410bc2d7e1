import Inspectah.Render.Containerfile

/-!
A Containerfile reads of a package's disposition only whether the package is included. Two
snapshots whose packages are included alike have one Containerfile.
-/
namespace Inspectah

open BuildScript (Line Segment)

def asDecided (p : PackageEntry) : PackageEntry :=
  { p with disposition := .fromBool p.disposition.isIncluded }

def RpmSection.decided (rpm : RpmSection) : RpmSection :=
  { rpm with packagesAdded := rpm.packagesAdded.map asDecided }

def InspectionSnapshot.decided (snap : InspectionSnapshot) : InspectionSnapshot :=
  snap.onRpm RpmSection.decided

theorem decided_rpm {snap : InspectionSnapshot} {rpm : RpmSection} (found : snap.rpm = some rpm) :
    snap.decided.rpm = some rpm.decided := congrArg (Option.map RpmSection.decided) found

theorem decided_none {snap : InspectionSnapshot} (found : snap.rpm = none) :
    snap.decided = snap := by
  rw [InspectionSnapshot.decided, InspectionSnapshot.onRpm, found, Option.map_none, ← found]

theorem packagesAdded_decided (rpm : RpmSection) :
    rpm.decided.packagesAdded = rpm.packagesAdded.map asDecided := rfl

variable {rpm : RpmSection} {orig : Option (TextMap Bool)} {ctx : Option RenderContext}
variable {packages : List PackageEntry}

@[simp] theorem isIncluded_asDecided (p : PackageEntry) :
    (asDecided p).disposition.isIncluded = p.disposition.isIncluded := by
  rw [asDecided]
  cases p.disposition.isIncluded <;> rfl

/-- A test that reads only the inclusion tells the decided rows from each other alike. -/
theorem filter_asDecided {test : PackageEntry → Bool} (blind : ∀ p, test (asDecided p) = test p) :
    (packages.map asDecided).filter test = (packages.filter test).map asDecided := by
  rw [List.filter_map]
  exact congrArg _ (List.filter_congr fun p _ => blind p)

theorem map_asDecided {β : Type} {f : PackageEntry → β} (blind : ∀ p, f (asDecided p) = f p) :
    (packages.map asDecided).map f = packages.map f := by
  rw [List.map_map]
  exact List.map_congr_left fun p _ => blind p

theorem filterMap_asDecided {β : Type} {f : PackageEntry → Option β}
    (blind : ∀ p, f (asDecided p) = f p) :
    (packages.map asDecided).filterMap f = packages.filterMap f := by
  rw [List.filterMap_map]
  exact List.filterMap_congr fun p _ => blind p

theorem isPackageInstallable_asDecided (p : PackageEntry) :
    isPackageInstallable (asDecided p) = isPackageInstallable p := rfl

theorem passesLeafFilter_decided (p : PackageEntry) :
    passesLeafFilter rpm.decided orig (asDecided p) = passesLeafFilter rpm orig p := by
  simp only [passesLeafFilter, isIncluded_asDecided]
  rfl

theorem installablePackages_decided :
    installablePackages rpm.decided orig = (installablePackages rpm orig).map asDecided := by
  rw [installablePackages, installablePackages, packagesAdded_decided]
  rw [filter_asDecided isIncluded_asDecided, filter_asDecided isPackageInstallable_asDecided,
    filter_asDecided fun _ => rfl, filter_asDecided passesLeafFilter_decided]
  rfl

theorem installName_decided (p : PackageEntry) :
    installNameForPackage (packages.map asDecided) (asDecided p) =
      installNameForPackage packages p := by
  have counts : nameCount (packages.map asDecided) p.name = nameCount packages p.name := by
    rw [nameCount, filter_asDecided fun _ => rfl, List.length_map, nameCount]
  unfold installNameForPackage
  change (if 1 < nameCount (packages.map asDecided) p.name ∧ p.arch ≠ "" then _ else _) = _
  rw [counts]
  rfl

def decidedName (named : PackageEntry × String) : PackageEntry × String :=
  (asDecided named.1, named.2)

theorem namedPackages_decided :
    namedPackages rpm.decided orig ctx = (namedPackages rpm orig ctx).map decidedName := by
  unfold namedPackages
  rw [installablePackages_decided]
  dsimp only
  rw [show renderableGroups rpm.decided ctx = renderableGroups rpm ctx from rfl,
    filter_asDecided fun _ => rfl, List.map_map, List.filter_map, List.filter_map, List.map_map]
  have names : ∀ p,
      installNameForPackage ((installablePackages rpm orig).map asDecided) (asDecided p) =
        installNameForPackage (installablePackages rpm orig) p := installName_decided
  simp only [Function.comp_def, names, decidedName]

theorem ordinaryNames_decided (named : List (PackageEntry × String)) :
    ordinaryNames rpm.decided (named.map decidedName) = ordinaryNames rpm named := by
  rw [ordinaryNames, List.filter_map, List.map_map]
  rfl

theorem servedPackages_decided (named : List (PackageEntry × String)) :
    servedPackages rpm.decided (named.map decidedName) =
      (servedPackages rpm named).map decidedName := by
  rw [servedPackages, List.filter_map]
  rfl

theorem lostPackages_decided (named : List (PackageEntry × String)) :
    lostPackages rpm.decided (named.map decidedName) =
      (lostPackages rpm named).map fun lost => (asDecided lost.1, lost.2) := by
  rw [lostPackages, lostPackages, List.filterMap_map, List.map_filterMap]
  refine List.filterMap_congr fun n _ => ?_
  have same : repoEnablingExport rpm.decided (decidedName n).1 = repoEnablingExport rpm n.1 := rfl
  rw [Function.comp_apply, same]
  cases repoEnablingExport rpm n.1 <;> rfl

theorem repoEnablingSection_decided (snap : InspectionSnapshot) (pending : Bool)
    (named : List (PackageEntry × String)) :
    repoEnablingSection snap.decided rpm.decided pending (named.map decidedName) =
      repoEnablingSection snap rpm pending named := by
  have narration : ∀ n : PackageEntry × String,
      repoEnablingNarration snap.decided rpm.decided (decidedName n).1 =
        repoEnablingNarration snap rpm n.1 := fun _ => rfl
  have fixme : ∀ lost : PackageEntry × ServingLoss,
      demotionFixme (asDecided lost.1) lost.2 = demotionFixme lost.1 lost.2 := fun _ => rfl
  unfold repoEnablingSection repoEnablingBody
  simp only [servedPackages_decided, lostPackages_decided, List.length_map, List.flatMap_map,
    narration, List.map_map, Function.comp_def, fixme, List.isEmpty_map]
  rfl

theorem packageInstallSection_decided (pending : Bool) (named : List (PackageEntry × String)) :
    packageInstallSection rpm.decided pending (named.map decidedName) =
      packageInstallSection rpm pending named := by
  unfold packageInstallSection
  rw [ordinaryNames_decided]
  rfl

theorem followUpLines_decided : followUpLines rpm.decided = followUpLines rpm := by
  unfold followUpLines
  rw [packagesAdded_decided, filterMap_asDecided fun _ => rfl]

theorem rpmLines_decided (snap : InspectionSnapshot) :
    rpmLines snap.decided rpm.decided orig ctx = rpmLines snap rpm orig ctx := by
  unfold rpmLines
  dsimp only
  rw [namedPackages_decided, repoEnablingSection_decided, servedPackages_decided,
    packageInstallSection_decided, followUpLines_decided, List.isEmpty_map]
  rfl

theorem packagesSectionLines_decided (snap : InspectionSnapshot) (base : Option String) :
    packagesSectionLines snap.decided base orig ctx = packagesSectionLines snap base orig ctx := by
  cases found : snap.rpm with
  | none => rw [decided_none found]
  | some rpm =>
    rw [packagesSectionLines, packagesSectionLines, found, decided_rpm found]
    exact congrArg _ (rpmLines_decided snap)

theorem rowsOf_packages_decided (snap : InspectionSnapshot) :
    rowsOf (·.packagesAdded) snap.decided.rpm =
      (rowsOf (·.packagesAdded) snap.rpm).map asDecided := by
  rw [InspectionSnapshot.decided, InspectionSnapshot.onRpm]
  cases snap.rpm <;> rfl

theorem effectiveTargetPackages_decided :
    effectiveTargetPackages rpm.decided = effectiveTargetPackages rpm := by
  unfold effectiveTargetPackages
  rw [packagesAdded_decided, filter_asDecided isIncluded_asDecided, map_asDecided fun _ => rfl]
  rfl

theorem classifyServicePresence_decided (sc : ServiceStateChange) (targets : List String)
    (unavailable : Bool) : classifyServicePresence sc rpm.decided targets unavailable =
      classifyServicePresence sc rpm targets unavailable := by
  unfold classifyServicePresence
  cases sc.owningPackage with
  | none => rfl
  | some name =>
    have matching : rpm.decided.packagesAdded.filter (fun p => p.name == name) =
        (rpm.packagesAdded.filter fun p => p.name == name).map asDecided :=
      filter_asDecided fun _ => rfl
    dsimp only
    rw [matching, List.isEmpty_map, List.any_map, List.any_map]
    simp only [Function.comp_def, isIncluded_asDecided, isPackageInstallable_asDecided]

theorem servicePresence_decided (snap : InspectionSnapshot) (sc : ServiceStateChange) :
    servicePresence snap.decided rpm.decided sc = servicePresence snap rpm sc := by
  unfold servicePresence
  rw [effectiveTargetPackages_decided, classifyServicePresence_decided]
  rfl

theorem renderServiceIntent_decided (snap : InspectionSnapshot) :
    renderServiceIntent snap.decided = renderServiceIntent snap := by
  cases found : snap.rpm with
  | none => rw [decided_none found]
  | some rpm =>
    unfold renderServiceIntent
    rw [decided_rpm found, found]
    simp only [servicePresence_decided]
    rfl

theorem repolessPackageLines_asDecided (verified : TextMap VerifiedUpload) (p : PackageEntry) :
    repolessPackageLines verified (asDecided p) = repolessPackageLines verified p := by
  unfold repolessPackageLines
  simp only [cachedLines, isIncluded_asDecided]
  rfl

theorem repolessRpmLines_decided (snap : InspectionSnapshot) :
    repolessRpmLines snap.decided ctx = repolessRpmLines snap ctx := by
  unfold repolessRpmLines
  dsimp only
  rw [rowsOf_packages_decided, filter_asDecided fun _ => rfl, List.isEmpty_map, List.flatMap_map]
  simp only [repolessPackageLines_asDecided]

theorem collectRpmNames_decided (snap : InspectionSnapshot) :
    collectRpmNames snap.decided = collectRpmNames snap := by
  rw [collectRpmNames, rowsOf_packages_decided, map_asDecided fun _ => rfl, collectRpmNames]

theorem nonRpmSectionLines_decided (digest : String → String) (snap : InspectionSnapshot) :
    nonRpmSectionLines digest snap.decided ctx = nonRpmSectionLines digest snap ctx := by
  unfold nonRpmSectionLines
  rw [repolessRpmLines_decided]
  unfold languagePackageLines
  rw [collectRpmNames_decided]
  rfl

theorem fromSnapshot_decided (snap : InspectionSnapshot) :
    Evidence.fromSnapshot snap.decided = Evidence.fromSnapshot snap := by
  cases found : snap.rpm with
  | none => rw [decided_none found]
  | some rpm =>
    unfold Evidence.fromSnapshot
    rw [decided_rpm found, found]
    simp only [Option.map_some, Option.getD_some]
    rw [packagesAdded_decided, filter_asDecided isIncluded_asDecided, filter_asDecided fun _ => rfl,
      filter_asDecided fun _ => rfl, map_asDecided fun _ => rfl]
    rfl

theorem effectiveVarBacking_decided (snap : InspectionSnapshot) :
    effectiveVarBacking snap.decided = effectiveVarBacking snap := by
  unfold effectiveVarBacking
  rw [fromSnapshot_decided]
  rfl

theorem replicatedRpms_decided (snap : InspectionSnapshot) :
    replicatedRpms snap.decided = replicatedRpms snap := by
  rw [replicatedRpms, rowsOf_packages_decided, filter_asDecided isIncluded_asDecided,
    map_asDecided fun _ => rfl, replicatedRpms]

theorem resolveTmpfilesOwnership_decided (snap : InspectionSnapshot) :
    resolveTmpfilesOwnership snap.decided = resolveTmpfilesOwnership snap := by
  funext d
  unfold resolveTmpfilesOwnership
  rw [replicatedRpms_decided]
  rfl

theorem tmpfilesLines_decided (snap : InspectionSnapshot) :
    tmpfilesLines snap.decided = tmpfilesLines snap := by
  funext d outcome
  unfold tmpfilesLines unresolvedFixmeLines
  rw [resolveTmpfilesOwnership_decided]

theorem varDirLines_decided (snap : InspectionSnapshot) :
    varDirLines snap.decided = varDirLines snap := by
  funext d outcome
  unfold varDirLines unresolvedFixmeLines
  rw [resolveTmpfilesOwnership_decided]

theorem renderTmpfilesConf_decided (snap : InspectionSnapshot) :
    renderTmpfilesConf snap.decided = renderTmpfilesConf snap := by
  unfold renderTmpfilesConf tmpfilesConfLines
  rw [effectiveVarBacking_decided, tmpfilesLines_decided]

theorem varDirSectionLines_decided (snap : InspectionSnapshot) (staged : Bool) :
    varDirSectionLines snap.decided staged = varDirSectionLines snap staged := by
  unfold varDirSectionLines
  rw [effectiveVarBacking_decided, varDirLines_decided]
  rfl

theorem renderContainerfile_decided (inputs : RenderInputs) (snap : InspectionSnapshot) :
    renderContainerfile inputs snap.decided = renderContainerfile inputs snap := by
  unfold renderContainerfile renderContainerfileLines servicesSectionLines
  rw [packagesSectionLines_decided, renderServiceIntent_decided, nonRpmSectionLines_decided,
    varDirSectionLines_decided, renderTmpfilesConf_decided]
  rfl

end Inspectah
