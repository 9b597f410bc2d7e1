import Inspectah.Redact.CredentialMasks
import Inspectah.Redact.Engine
import Inspectah.Redact.Scrubbers

/-!
The passes of a redaction over the sections of a snapshot. Most fields go through the
pattern scan with the registry of the run; some are redacted on their own, masked or
scrubbed. A run records its findings and the tokens it gave.
-/
namespace Inspectah

structure RedactTools where
  engine : RegexEngine
  listing : TextMap String → List (String × String)

structure Run where
  registry : CounterRegistry := {}
  findings : List RedactionFinding := []
  /-- The tokens of the registry, in the order they were given. -/
  shared : List TokenUse := []
  /-- The tokens of each text that was redacted on its own. -/
  alone : List (List TokenUse) := []

abbrev RedactM := StateM Run

def Run.given (run : Run) (registry : CounterRegistry) (uses : List TokenUse) : Run :=
  { run with registry, shared := run.shared ++ uses }

def Run.found (run : Run) (findings : List RedactionFinding) : Run :=
  { run with findings := run.findings ++ findings }

def Run.redactedAlone (run : Run) (uses : List TokenUse) : Run :=
  { run with alone := run.alone ++ [uses] }

def tokenUses (replaced : List Replaced) : List TokenUse := replaced.map (·.toTokenUse)

def report (findings : List RedactionFinding) : RedactM Unit :=
  modify fun run => run.found findings

def tokenOf (label secret : String) : RedactM String := do
  let run ← get
  let (token, registry) := tokenFor run.registry label secret
  set (run.given registry [⟨label, secret, secret, token⟩])
  return token

variable (tools : RedactTools)

def redactField (keying : Keying) (content sourcePath : String) : RedactM String := do
  let run ← get
  let field := scanAndRedactField tools.engine keying content sourcePath run.registry
  set ((run.given field.registry (tokenUses field.replaced)).found field.findings)
  return field.content

/-- A text with tokens of its own, and the findings of a scan of it. -/
def redactAlone (content sourcePath : String) : RedactM (Option String) := do
  match redactString tools.engine content with
  | none => return none
  | some (text, replaced) =>
    modify fun run => (run.redactedAlone (tokenUses replaced)).found
      (scanContent tools.engine content sourcePath)
    return some text

def redactConfigFile (file : ConfigFileEntry) : RedactM ConfigFileEntry := do
  return { file with content := ← redactField tools .secret file.content file.path }

def redactRepoFile (file : RepoFile) : RedactM RepoFile := do
  return { file with content := ← redactField tools .secret file.content file.path }

def redactDropIn (dropIn : SystemdDropIn) : RedactM SystemdDropIn := do
  return { dropIn with content := ← redactField tools .secret dropIn.content dropIn.path }

def redactConfig (config : ConfigSection) : RedactM ConfigSection := do
  return { config with files := ← config.files.mapM (redactConfigFile tools) }

def redactRpm (rpm : RpmSection) : RedactM RpmSection := do
  let repoFiles ← rpm.repoFiles.mapM (redactRepoFile tools)
  let gpgKeys ← rpm.gpgKeys.mapM (redactRepoFile tools)
  return { rpm with repoFiles, gpgKeys }

def redactServices (services : ServiceSection) : RedactM ServiceSection := do
  return { services with dropIns := ← services.dropIns.mapM (redactDropIn tools) }

/-- A password, or credentials that are no path. -/
def redactMountOption (opt : String) : RedactM String :=
  match Text.afterPrefix opt "password=" with
  | some value => do return "password=" ++ (← tokenOf "mount_password" value)
  | none =>
    match Text.afterPrefix opt "credentials=" with
    | some value =>
      if Text.startsWith value "/" then pure opt
      else do return "credentials=" ++ (← tokenOf "mount_credential" value)
    | none => pure opt

def redactMountOptions (options : String) : RedactM String := do
  return ",".intercalate (← (Text.splitOn (· == ',') options).mapM redactMountOption)

def mountOptionFinding (entry : FstabEntry) : RedactionFinding where
  path := "/etc/fstab"
  source := "mount_options"
  kind := .inline
  pattern := "credential_mount_option"
  remediation := "Mount point '" ++ entry.mountPoint ++
    "': credential reference in mount options — use systemd credentials or a mount helper"
  detectionMethod := .heuristic
  confidence := some .high
  findingKind := some .genericCredential

def credentialRefFinding (cred : CredentialRef) : RedactionFinding where
  path := "/etc/fstab"
  source := "credential_ref"
  kind := .flagged
  pattern := "credential_file_ref"
  remediation := "Mount point '" ++ cred.mountPoint ++ "': references credential file '" ++
    cred.credentialPath ++ "' — ensure it is not included in snapshot"
  detectionMethod := .pathBased
  confidence := some .medium
  findingKind := some .genericCredential

def redactFstabEntry (entry : FstabEntry) : RedactM FstabEntry :=
  if Text.contains entry.options "credentials=" || Text.contains entry.options "password=" then do
    let options ← redactMountOptions entry.options
    report [mountOptionFinding entry]
    return { entry with options }
  else pure entry

def redactStorage (storage : StorageSection) : RedactM StorageSection := do
  let fstabEntries ← storage.fstabEntries.mapM redactFstabEntry
  report (storage.credentialRefs.map credentialRefFinding)
  return { storage with fstabEntries }

def CMDLINE_PATH : String := "/proc/cmdline"

def redactKernelBoot (boot : KernelBootSection) : RedactM KernelBootSection := do
  return { boot with cmdline := ← redactField tools .wholeMatch boot.cmdline CMDLINE_PATH }

def redactProxy (entry : ProxyEntry) : RedactM ProxyEntry := do
  let (line, finding) := maskProxyCredentials entry.line entry.source
  report finding.toList
  return { entry with line }

def redactNetwork (network : NetworkSection) : RedactM NetworkSection := do
  return { network with proxy := ← network.proxy.mapM redactProxy }

def redactEnvEntry (container envEntry : String) : RedactM String := do
  return (← redactAlone tools envEntry ("container:" ++ container)).getD envEntry

def redactContainer (container : RunningContainer) : RedactM RunningContainer := do
  return { container with env := ← container.env.mapM (redactEnvEntry tools container.name) }

def quadletPath (unit : QuadletUnit) : String :=
  if unit.path.isEmpty then "quadlet:" ++ unit.name else unit.path

def redactQuadlet (unit : QuadletUnit) : RedactM QuadletUnit := do
  return { unit with content := ← redactField tools .secret unit.content (quadletPath unit) }

def composeFinding (path : String) : RedactionFinding where
  path := path
  source := "compose_env"
  kind := .inline
  pattern := "compose_secret_value"
  remediation := "Move the secret out of the compose file: use a compose secret, an " ++
    "env_file outside the image, or a systemd credential"
  detectionMethod := .pattern
  confidence := some .high
  findingKind := some .password

/-- The compose scrubber's text, if it put its mark where there was none. -/
def composePass (raw : String) : Bool × String :=
  let scrubbed := scrubComposeSecrets raw
  let fired := countHits COMPOSE_REDACTED 0 raw.toList <
    countHits COMPOSE_REDACTED 0 scrubbed.toList
  (fired, if fired then scrubbed else raw)

/-- One secret gives one finding: that of the scan, or else one for the scrubber. -/
def redactCompose (compose : ComposeFile) : RedactM ComposeFile :=
  match compose.rawContent with
  | none => pure compose
  | some raw => do
    let (fired, raw) := composePass raw
    let redacted ← redactField tools .secret raw compose.path
    report (if fired && (scanContent tools.engine raw compose.path).isEmpty then
      [composeFinding compose.path] else [])
    return { compose with rawContent := some redacted }

def redactContainers (containers : ContainerSection) : RedactM ContainerSection := do
  let runningContainers ← containers.runningContainers.mapM (redactContainer tools)
  let quadletUnits ← containers.quadletUnits.mapM (redactQuadlet tools)
  let composeFiles ← containers.composeFiles.mapM (redactCompose tools)
  return { containers with runningContainers, quadletUnits, composeFiles }

def redactNonEmpty (keying : Keying) (content sourcePath : String) : RedactM String :=
  if content.isEmpty then pure content else redactField tools keying content sourcePath

def generatedServicePath (unit : GeneratedTimerUnit) : String :=
  "generated:" ++ unit.name ++ ".service"

def redactGenerated (unit : GeneratedTimerUnit) : RedactM GeneratedTimerUnit := do
  let command ← redactField tools .secret unit.command unit.sourcePath
  let serviceContent ←
    redactNonEmpty tools .wholeMatch unit.serviceContent (generatedServicePath unit)
  let timerContent ←
    redactNonEmpty tools .secret unit.timerContent ("generated:" ++ unit.name ++ ".timer")
  return { unit with command, serviceContent, timerContent }

def redactAtJob (job : AtJob) : RedactM AtJob := do
  return { job with command := ← redactField tools .secret job.command job.file }

def timerPath (timer : SystemdTimer) : String :=
  if timer.path.isEmpty then "timer:" ++ timer.name else timer.path

def timerServicePath (timer : SystemdTimer) : String :=
  (if timer.path.isEmpty then "timer" else timer.path) ++ ":" ++ timer.name ++ ".service"

def timerContentPath (timer : SystemdTimer) : String :=
  if timer.path.isEmpty then "timer:" ++ timer.name ++ ".timer" else timer.path

def redactTimer (timer : SystemdTimer) : RedactM SystemdTimer := do
  let execStart ← redactField tools .secret timer.execStart (timerPath timer)
  let serviceContent ←
    redactNonEmpty tools .wholeMatch timer.serviceContent (timerServicePath timer)
  let description ← redactNonEmpty tools .secret timer.description (timerPath timer)
  let timerContent ← redactNonEmpty tools .secret timer.timerContent (timerContentPath timer)
  return { timer with execStart, serviceContent, description, timerContent }

def redactScheduled (sched : ScheduledTaskSection) : RedactM ScheduledTaskSection := do
  let generatedTimerUnits ← sched.generatedTimerUnits.mapM (redactGenerated tools)
  let atJobs ← sched.atJobs.mapM (redactAtJob tools)
  let systemdTimers ← sched.systemdTimers.mapM (redactTimer tools)
  return { sched with generatedTimerUnits, atJobs, systemdTimers }

def manifestAuthFinding (path : String) : RedactionFinding where
  path := path
  source := "manifest_auth"
  kind := .inline
  pattern := "manifest_registry_auth"
  remediation := "Remove embedded credentials from the registry URL; use a credential " ++
    "helper or a machine-local netrc instead of inlining them in the manifest"
  detectionMethod := .pattern
  confidence := some .high
  findingKind := some .password

/-- What could not be located was not examined, so the finding is not resolved. -/
def manifestMissFinding (path : String) (miss : UnscrubbedLine) : RedactionFinding where
  path := path
  source := "manifest_auth"
  kind := .flagged
  pattern := "manifest_value_not_located"
  remediation := "Line " ++ toString miss.line ++ ": the `" ++ miss.key ++
    "` value could not be located, so it was not checked " ++
    "for credentials. Review this line by hand before sharing the export."
  line := some miss.line
  detectionMethod := .heuristic
  confidence := some .low
  findingKind := some .genericCredential

def URL_AUTH_REDACTED_MARKER : List Char := SCHEME_END ++ URL_AUTH_REDACTED

def manifestFindings (path content : String) (outcome : ScrubOutcome) : List RedactionFinding :=
  let hits (text : String) := countHits URL_AUTH_REDACTED_MARKER 0 text.toList
  (if hits content < hits outcome.content then [manifestAuthFinding path] else []) ++
    outcome.unscrubbed.map (manifestMissFinding path)

def trimEndSlashes (path : String) : String :=
  String.ofList (path.toList.reverse.dropWhile (· == '/')).reverse

def redactManifests (item : NonRpmItem) : RedactM (TextMap String) := do
  let files := tools.listing item.manifestFiles
  files.forM fun (filename, content) =>
    report (manifestFindings (trimEndSlashes item.path ++ "/" ++ filename) content
      (scrubManifestAuth filename content))
  return files.foldl (fun m (filename, content) =>
    m.insert filename (scrubManifestAuth filename content).content) item.manifestFiles

def redactGitRemote (item : NonRpmItem) : RedactM String :=
  if item.gitRemote.isEmpty then pure item.gitRemote
  else do
    let (masked, findings) := maskGitRemote item.gitRemote item.path
    report findings
    redactField tools .wholeMatch masked item.path

def redactNonRpmItem (item : NonRpmItem) : RedactM NonRpmItem := do
  let manifestFiles ← redactManifests tools item
  let gitRemote ← redactGitRemote tools item
  return { item with manifestFiles, gitRemote }

def redactNonRpm (nrs : NonRpmSoftwareSection) : RedactM NonRpmSoftwareSection := do
  let envFiles ← nrs.envFiles.mapM (redactConfigFile tools)
  let items ← nrs.items.mapM (redactNonRpmItem tools)
  return { nrs with envFiles, items }

def redactSudoersRule (rule : String) : RedactM String := do
  match ← redactAlone tools rule "/etc/sudoers" with
  | some redacted => return redacted
  | none =>
    match rule.toList with
    | '#' :: body =>
      let gap := body.takeWhile Text.isWhitespace
      let text := String.ofList (body.dropWhile Text.isWhitespace)
      match ← redactAlone tools text "/etc/sudoers" with
      | some redacted => return String.ofList ('#' :: gap) ++ redacted
      | none => return rule
    | _ => return rule

def SHADOW_LABEL : String := "shadowhash"

/-- The hash field, replaced by a token. -/
def redactShadowHash (content : String) (finding : RedactionFinding) : RedactM String :=
  if finding.confidence = some .high ∧ finding.findingKind = some .shadowHash then
    match Text.splitOn (· == ':') content with
    | name :: hash :: next :: others => do
      return ":".intercalate (name :: (← tokenOf SHADOW_LABEL hash) :: next :: others)
    | _ => pure content
  else pure content

def redactShadowEntry (preserved : Bool) (entry : String) : RedactM String := do
  let findings := scanContent tools.engine entry "/etc/shadow"
  if findings.isEmpty then return entry
  let content ← if preserved then pure entry else findings.foldlM redactShadowHash entry
  report findings
  return content

def redactUser (preservedKeys : Bool) (user : Json) : Json :=
  if (user.get "ssh_keys").isSome && !preservedKeys then user.remove "ssh_keys" else user

def redactUsers (snap : InspectionSnapshot) (users : UserGroupSection) :
    RedactM UserGroupSection := do
  let sudoersRules ← users.sudoersRules.mapM (redactSudoersRule tools)
  let shadowEntries ←
    users.shadowEntries.mapM (redactShadowEntry tools snap.preservedCredentials)
  return { users with
    sudoersRules, shadowEntries, users := users.users.map (redactUser snap.preservedSshKeys) }

/-- Every pass, in order. The hints are left for when all of them have run. -/
def redactSections (snap : InspectionSnapshot) : RedactM InspectionSnapshot := do
  let config ← snap.config.mapM (redactConfig tools)
  let rpm ← snap.rpm.mapM (redactRpm tools)
  let services ← snap.services.mapM (redactServices tools)
  let storage ← snap.storage.mapM redactStorage
  let kernelBoot ← snap.kernelBoot.mapM (redactKernelBoot tools)
  let network ← snap.network.mapM redactNetwork
  let containers ← snap.containers.mapM (redactContainers tools)
  let scheduledTasks ← snap.scheduledTasks.mapM (redactScheduled tools)
  let nonRpmSoftware ← snap.nonRpmSoftware.mapM (redactNonRpm tools)
  let usersGroups ← snap.usersGroups.mapM (redactUsers tools snap)
  return { snap with
    config, rpm, services, storage, kernelBoot, network, containers, scheduledTasks,
    nonRpmSoftware, usersGroups }

end Inspectah
