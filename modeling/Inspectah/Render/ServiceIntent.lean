import Inspectah.Render.Safety

/-!
Which service changes the image carries out, and the units the scheduled tasks enable along.
-/
namespace Inspectah

open BuildScript (Line Segment)

inductive ManualFollowUpReason where
  | localInstall
  | noRepo
  | missingSourceRepo
  deriving DecidableEq

def packageDisplayName (pkg : PackageEntry) : String :=
  if pkg.arch.isEmpty then pkg.name else pkg.name ++ "." ++ pkg.arch

def packageStateLabel (pkg : PackageEntry) : String :=
  match pkg.state with
  | .added => "added"
  | .baseImageOnly => "base_image_only"
  | .modified => "modified"
  | .localInstall => "local_install"
  | .noRepo => "no_repo"

def COMMANDLINE_REPO : String := "@commandline"

def manualFollowUpReason (pkg : PackageEntry) : Option ManualFollowUpReason :=
  if pkg.state = .localInstall then some .localInstall
  else if pkg.state = .noRepo then some .noRepo
  else if pkg.sourceRepo.isEmpty then some .missingSourceRepo
  else if Text.eqIgnoreAsciiCase pkg.sourceRepo COMMANDLINE_REPO && pkg.repoEnablingFrom.isEmpty then
    some .noRepo
  else none

def manualFollowUpLine (pkg : PackageEntry) : Option Line :=
  (manualFollowUpReason pkg).map fun
    | .localInstall => note ("TODO: '" ++ (packageDisplayName pkg ++ "' was installed locally (state: " ++
        packageStateLabel pkg ++ ") — provide a .rpm or custom repo."))
    | .noRepo => note ("TODO: '" ++ (packageDisplayName pkg ++ "' has no repository source (state: " ++
        packageStateLabel pkg ++ ") — provide a .rpm or custom repo."))
    | .missingSourceRepo => note ("TODO: '" ++ (packageDisplayName pkg ++
        "' has no recorded repository source — verify how to reinstall it in the image."))

def isPackageInstallable (pkg : PackageEntry) : Bool := (manualFollowUpReason pkg).isNone

def effectiveTargetPackages (rpm : RpmSection) : List String :=
  rpm.baselinePackageNames.getD [] ++
    (rpm.packagesAdded.filter (·.disposition.isIncluded)).map (·.name)

structure ServiceOmission where
  unit : String
  owningPackage : String
  deriving DecidableEq

inductive AdvisoryReason where
  | packageExcluded
  | packageUnreachable
  | baselineUnavailable
  deriving DecidableEq

structure ServiceAdvisory where
  unit : String
  owningPackage : String
  reasons : List AdvisoryReason
  deriving DecidableEq

structure ServiceRenderPlan where
  lines : List Line := []
  omissions : List ServiceOmission := []
  advisories : List ServiceAdvisory := []

inductive PresenceDecision where
  | omit (owningPackage : String)
  | emit (advisoryReasons : Option (String × List AdvisoryReason))

inductive ServiceAction where
  | enable
  | disable
  | mask
  deriving DecidableEq

def ServiceStateChange.impliedAction (sc : ServiceStateChange) : ServiceAction :=
  match sc.currentState with
  | .enabled => .enable
  | .disabled => .disable
  | .masked => .mask

/-- One `RUN systemctl` over the units, a unit a line. -/
def systemctlLines (verb : String) (units : List String) : List Line :=
  .command [.fixed ("RUN systemctl " ++ verb ++ " \\")] ::
    (units.dropLast.map fun u => .command [.fixed "    ", bare u, .fixed " \\"]) ++
    (units.getLast?.toList.map fun u => .command [.fixed "    ", bare u])

/-- The units the scheduled tasks bring along. A local timer's count whatever was
    decided about the timer. -/
def configTreeUnits (snap : InspectionSnapshot) : List String :=
  match snap.scheduledTasks with
  | none => []
  | some st =>
    ((st.systemdTimers.filter fun t => t.source == "local" && !t.name.isEmpty).flatMap fun t =>
      [t.name ++ ".timer", t.name ++ ".service"]) ++
    ((st.generatedTimerUnits.filter fun u => u.disposition.isIncluded && !u.name.isEmpty).flatMap
      fun u =>
        (if u.timerContent.isEmpty then [] else [u.name ++ ".timer"]) ++
        (if u.serviceContent.isEmpty then [] else [u.name ++ ".service"]))

def withBaseline (reason : AdvisoryReason) (baselineUnavailable : Bool) : List AdvisoryReason :=
  if baselineUnavailable then [reason, .baselineUnavailable] else [reason]

def classifyServicePresence (sc : ServiceStateChange) (rpm : RpmSection)
    (targetPackages : List String) (baselineUnavailable : Bool) : PresenceDecision :=
  match sc.owningPackage with
  | none => .emit none
  | some pkgName =>
    let matching := rpm.packagesAdded.filter fun p => p.name == pkgName
    if !matching.isEmpty then
      if matching.any fun p => p.disposition.isIncluded && isPackageInstallable p then .emit none
      else if matching.any fun p => p.disposition.isIncluded && !isPackageInstallable p then
        .emit (some (pkgName, withBaseline .packageUnreachable baselineUnavailable))
      else .emit (some (pkgName, withBaseline .packageExcluded baselineUnavailable))
    else if targetPackages.contains pkgName then .emit none
    else if baselineUnavailable then .emit (some (pkgName, [.baselineUnavailable]))
    else .omit pkgName

/-- A change that is written: its unit goes into a command without quoting. -/
def safeChanges (services : ServiceSection) : List ServiceStateChange :=
  (services.stateChanges.filter (·.disposition.isIncluded)).filter fun sc =>
    (sanitizeShellValue sc.unit).isSome

def serviceActionLines (units : List String) (changes : List ServiceStateChange) : List Line :=
  let unitsOf (wanted : ServiceStateChange → Bool) := (changes.filter wanted).map (·.unit)
  let enabled := unitsOf fun sc => sc.impliedAction == .enable && !units.contains sc.unit
  let disabled := unitsOf fun sc => sc.impliedAction == .disable
  let masked := unitsOf fun sc => sc.impliedAction == .mask
  let deferred := unitsOf fun sc => sc.impliedAction == .enable && units.contains sc.unit
  (if enabled.isEmpty then [] else systemctlLines "enable" enabled) ++
  (if disabled.isEmpty then [] else systemctlLines "disable" disabled) ++
  (if masked.isEmpty then [] else systemctlLines "mask" masked) ++
  (if deferred.isEmpty then []
   else [note (toString deferred.length ++ " unit(s) deferred to Scheduled Tasks section: " ++
     ", ".intercalate deferred)])

def PresenceDecision.omission (unit : String) : PresenceDecision → Option ServiceOmission
  | .omit owningPackage => some ⟨unit, owningPackage⟩
  | .emit _ => none

def PresenceDecision.advisory (unit : String) : PresenceDecision → Option ServiceAdvisory
  | .omit _ => none
  | .emit reasons => reasons.map fun (pkg, why) => ⟨unit, pkg, why⟩

def omissionComment (o : ServiceOmission) : Line :=
  note ("Omitted: " ++ o.unit ++ " (package '" ++ (o.owningPackage ++ "' not in target image)"))

/-- In an aggregate the added packages are leaves only, so nothing is judged absent. -/
def servicePresence (snap : InspectionSnapshot) (rpm : RpmSection) (sc : ServiceStateChange) :
    PresenceDecision :=
  if snap.aggregateMeta.isSome then .emit none
  else classifyServicePresence sc rpm (effectiveTargetPackages rpm) rpm.baselinePackageNames.isNone

def renderServiceIntent (snap : InspectionSnapshot) : ServiceRenderPlan :=
  match snap.services with
  | none => {}
  | some services =>
    match snap.rpm with
    | none => { lines := serviceActionLines (configTreeUnits snap) (safeChanges services) }
    | some rpm =>
      let judged := (safeChanges services).map fun sc => (sc, servicePresence snap rpm sc)
      let omissions := judged.filterMap fun (sc, presence) => presence.omission sc.unit
      { lines := omissions.map omissionComment ++ serviceActionLines (configTreeUnits snap)
          ((judged.filter fun (sc, presence) => (presence.omission sc.unit).isNone).map (·.1))
        omissions := omissions
        advisories := judged.filterMap fun (sc, presence) => presence.advisory sc.unit }

end Inspectah
