import Inspectah.Library.Grouping
import Inspectah.Render.Fcontext
import Inspectah.Render.LanguagePackages
import Inspectah.Render.Users

/-!
The sections of the Containerfile that carry the configured system: drop-ins, network,
scheduled tasks, configuration files, workloads, kernel and boot, security, and the
notes about secrets.
-/
namespace Inspectah

open BuildScript (Line Segment)

variable (snap : InspectionSnapshot) (item : NonRpmItem)

def dropInsSectionLines : List Line :=
  let count := (snap.dropIns.filter (·.disposition.isIncluded)).length
  if count = 0 then []
  else containerSection "Service Drop-ins"
    [note (toString count ++ " service drop-in(s) — override snippets for systemd units"),
     .copy [.fixed "drop-ins/etc/systemd/system/"] [.fixed "/etc/systemd/system/"]]

/-- Direct rules alone open the section and leave it empty. -/
def firewallLines : List Line :=
  let zones := ((rowsOf (·.firewallZones) snap.network).filter (·.disposition.isIncluded)).length
  containerSection "Firewall Configuration"
    (if zones = 0 then []
     else [note (toString zones ++ " custom firewall zone(s) — included in COPY config/etc/ below")])

def hostsLines (additions : List String) : List Line :=
  if additions.isEmpty then []
  else note "FIXME: These /etc/hosts entries need to be added to the image:" ::
    additions.map fun h => note ("  " ++ h)

def networkLines : List Line :=
  containerSection "Static Routes"
    ((rowsOf (·.staticRoutes) snap.network).map fun r => note ("Static route file: " ++ r.path)) ++
  containerSection "/etc/hosts Additions" (hostsLines (rowsOf (·.hostsAdditions) snap.network)) ++
  containerSection "Proxy Configuration"
    ((rowsOf (·.proxy) snap.network).map fun p => note (p.source ++ ": " ++ p.line))

def localTimers : List SystemdTimer :=
  (rowsOf (·.systemdTimers) snap.scheduledTasks).filter fun t =>
    t.source == "local" && t.disposition.isIncluded

def generatedTimers : List GeneratedTimerUnit :=
  (rowsOf (·.generatedTimerUnits) snap.scheduledTasks).filter (·.disposition.isIncluded)

/-- A unit started at boot has no timer: its service is enabled instead. -/
def isRebootUnit (u : GeneratedTimerUnit) : Bool := u.cronExpr == "@reboot"

def timerNames : List String :=
  (localTimers snap).map (·.name) ++
    ((generatedTimers snap).filter fun u => !u.name.isEmpty && !isRebootUnit u).map (·.name)

def timerUnit (name : String) : String := name ++ ".timer"
def serviceUnit (name : String) : String := name ++ ".service"

def timerFixme (name : String) : Line :=
  note ("FIXME: Timer unit name contains unsafe characters: " ++ name)

def enableLine (units : List String) : Line :=
  .command (.fixed "RUN systemctl enable " :: (units.map bare).intersperse (.fixed " "))

def rebootServices : List String :=
  ((((generatedTimers snap).filter fun u => !u.name.isEmpty && isRebootUnit u).map fun u =>
    serviceUnit u.name).filter fun unit => (sanitizeShellValue unit).isSome)

def atJobLines (jobs : List AtJob) : List Line :=
  if jobs.isEmpty then []
  else note ("FIXME: " ++ toString jobs.length ++
      " at job(s) found — convert to systemd timers or cron") ::
    jobs.map fun a => note ("  at job: " ++ a.command)

def scheduledTasksSectionLines : List Line :=
  let locals := localTimers snap
  let generated := generatedTimers snap
  let safe := ((timerNames snap).map timerUnit).filter fun u => (sanitizeShellValue u).isSome
  let unsafeNames := (timerNames snap).filter fun n => (sanitizeShellValue (timerUnit n)).isNone
  let reboot := rebootServices snap
  containerSection "Scheduled Tasks"
    ((if locals.isEmpty && generated.isEmpty then []
      else [.copy [.fixed "config/etc/systemd/system/"] [.fixed "/etc/systemd/system/"]]) ++
     (if locals.isEmpty then []
      else [note ("Existing local timers (" ++ toString locals.length ++ "): " ++
        ", ".intercalate (locals.map fun t => timerUnit t.name))]) ++
     (if generated.isEmpty then []
      else [note ("Converted from cron: " ++ toString generated.length ++ " timer(s): " ++
        ", ".intercalate ((generated.filter fun u => !u.name.isEmpty).map (·.name)))]) ++
     unsafeNames.map timerFixme ++
     (if safe.isEmpty then [] else [enableLine safe]) ++
     (if reboot.isEmpty then []
      else [note "@reboot cron job(s) — boot-triggered oneshot service(s):", enableLine reboot]) ++
     atJobLines (rowsOf (·.atJobs) snap.scheduledTasks))

def includedConfig : List ConfigFileEntry :=
  snap.configFiles.filter (·.disposition.isIncluded)

/-- The top level of each included file, when nothing was materialized. -/
def configCopyRootsFromSnapshot : List String :=
  Grouping.distinctSorted (((includedConfig snap).filter fun f => !(trimSlashes f.path).isEmpty).filterMap
    fun f => (Text.splitOn (· == '/') (trimSlashes f.path)).head?)

def configInventory : List Line :=
  let total := (includedConfig snap).length
  let lines :=
    (if total = 0 then [] else [note (toString total ++ " config file(s) captured")]) ++
    (if snap.configFiles.any fun f => f.diffAgainstRpm.isSome then
       [note ("Config diffs (--config-diffs): see audit-report.md and audit-report.html for " ++
         "per-file diffs.")]
     else [])
  if lines.isEmpty then [] else lines ++ [.blank]

def CA_ANCHORS : String := "etc/pki/ca-trust/source/anchors/"

def caTrustLines : List Line :=
  if (includedConfig snap).any fun f => Text.startsWith (trimSlashes f.path) CA_ANCHORS then
    containerSection "CA Trust Store"
      [note "Custom CA certificates detected in /etc/pki/ca-trust/source/anchors/",
       .command [.fixed "RUN update-ca-trust"]]
  else []

def CRYPTO_POLICY_CONFIG : String := "/etc/crypto-policies/config"

/-- The first line without its trailing comment. -/
def cryptoPolicyName (content : String) : String :=
  Text.trim (((Text.splitOn (· == '#') ((Text.lines content).head?.getD "")).head?).getD "")

def cryptoPolicyLines : List Line :=
  match (includedConfig snap).find? fun f => f.path == CRYPTO_POLICY_CONFIG with
  | none => []
  | some f =>
    let policy := cryptoPolicyName f.content
    if policy.isEmpty || policy == "DEFAULT" then []
    else if !isValidTunedProfile policy then
      [note ("WARNING: crypto policy name contains unexpected characters, skipped: " ++
         debugText policy), .blank]
    else
      [note ("System crypto policy: " ++ policy),
       .command [.fixed "RUN update-crypto-policies --set ", bare policy], .blank]

def configRoots (materializedRoots : Option (List String)) :
    List String :=
  materializedRoots.getD (configCopyRootsFromSnapshot snap)

def configSectionLines (materializedRoots : Option (List String)) :
    List Line :=
  let roots := configRoots snap materializedRoots
  (if roots.isEmpty && (includedConfig snap).isEmpty then []
   else containerSection "Configuration Files"
     (configInventory snap ++ roots.map fun root =>
       .copy [.fixed "config/", bare root, .fixed "/"] [.fixed "/", bare root, .fixed "/"])) ++
  caTrustLines snap ++ cryptoPolicyLines snap

def containersSectionLines : List Line :=
  let quadlets := (snap.quadletUnits.filter (·.disposition.isIncluded)).length
  let flatpaks := (snap.flatpakApps.filter (·.disposition.isIncluded)).length
  containerSection ("Container Workloads (" ++ toString (quadlets + flatpaks) ++ ")")
    ((if quadlets = 0 then []
      else [.copy [.fixed "quadlet/"] [.fixed "/etc/containers/systemd/"]]) ++
     (if flatpaks = 0 then []
      else
        [note "Flatpak applications — installed on first boot via oneshot service",
         note "Manifest: flatpak/flatpak-install.json",
         .copy [.fixed "flatpak/"] [.fixed "/usr/share/inspectah/flatpak/"],
         .copy [.fixed "flatpak/flatpak-provision.service"]
           [.fixed "/etc/systemd/system/flatpak-provision.service"],
         .command [.fixed "RUN systemctl enable flatpak-provision.service"]]))

def serviceCount (n : Nat) : String := if n = 1 then "1 service" else toString n ++ " services"

def maskControl (path : String) : String :=
  replaceChars (fun c => if Text.isControl c then ['?'] else [c]) path

def composeCommentLines : List Line :=
  let files := (rowsOf (·.composeFiles) snap.containers).filter (·.disposition.isIncluded)
  if files.isEmpty then []
  else containerSection "Compose Stacks (reference only)"
    ([note "=== Compose stacks detected ===",
      note "The following compose stacks were running on the source host.",
      note "These are application workloads, not OS configuration.",
      note "See compose/ in the build context for the original files.",
      .comment "",
      note "Consider converting to Quadlet units — .container files under",
      note "/etc/containers/systemd/ that let systemd manage your container",
      note "workloads natively.",
      note "  man quadlet(5)",
      note "  https://docs.podman.io/en/latest/markdown/podman-systemd.unit.5.html",
      note ("  https://docs.redhat.com/en/documentation/red_hat_enterprise_linux/10/html/" ++
        "building_running_and_managing_containers/porting-containers-to-systemd-using-podman"),
      .comment ""] ++
     files.map fun cf =>
       note ("  - /" ++ maskControl cf.path ++ " (" ++ serviceCount cf.images.length ++ ")"))

def isPlannedMigration : Bool :=
  item.reviewStatus == "migration_planned" && !isLanguageEnv item

/-- A file that is copied by its own name. -/
def isSingleFile : Bool :=
  ((item.lang == "go" || item.method == "go binary") && item.isStatic) ||
    (item.lang == "shell" || Text.endsWith item.path ".sh") ||
    (item.sharedLibs.isEmpty && item.isStatic)

def isDynamicBinary : Bool := !isSingleFile item && !item.sharedLibs.isEmpty

def migrationStubText : String :=
  let remark := if item.notes.isEmpty then "" else " — " ++ item.notes
  if isSingleFile item then
    "COPY " ++ item.path ++ " /usr/local/bin/" ++ (Text.fileName item.path).getD "" ++ remark
  else if isDynamicBinary item then
    item.path ++ " — dynamic binary, shared libs: " ++ ", ".intercalate item.sharedLibs ++ remark
  else item.path ++ " (" ++ item.method ++ ") — review required for migration" ++ remark

def migrationStub : List Line :=
  note (migrationStubText item) ::
    if isDynamicBinary item then [note "Dependency analysis required before COPY"] else []

def migrationLines : List Line :=
  let items := (rowsOf (·.items) snap.nonRpmSoftware).filter isPlannedMigration
  if items.isEmpty then []
  else containerSection "Non-RPM Software (migration planned)"
    ([note "WARNING: These stubs are advisory — source files are NOT in the build context.",
      note "You must manually stage each referenced file/package before building.",
      .comment ""] ++ items.flatMap migrationStub)

def KARGS_FILE : String := "usr/lib/bootc/kargs.d/inspectah-migrated.toml"
def SYNTHESIZED_SYSCTL_FILE : String := "99-inspectah-migrated.conf"

def kargsLines (cmdline : String) : List Line :=
  if (operatorKargs cmdline).isEmpty then []
  else
    [note "Kernel Arguments (bootc-native kargs.d)",
     note ("These are applied at install and honored across image upgrades. See bootc " ++
       "documentation:"),
     note "https://containers.github.io/bootc/building/kernel-arguments.html",
     .command [.fixed "RUN mkdir -p /usr/lib/bootc/kargs.d"],
     .copy [.fixed ("config/" ++ KARGS_FILE)] [.fixed "/usr/lib/bootc/kargs.d/"]]

def sysctlLines (overrides : List SysctlOverride) : List Line :=
  let count := (overrides.filter (·.disposition.isIncluded)).length
  if count = 0 then []
  else
    [note (toString count ++ " sysctl override(s) — merged into single drop-in"),
     .copy [.fixed ("sysctl/etc/sysctl.d/" ++ SYNTHESIZED_SYSCTL_FILE)] [.fixed "/etc/sysctl.d/"]]

def excludedTunedProfileFile (profile : String) : Option String :=
  ((snap.configFiles.find? fun f => f.path == "/etc/tuned/" ++ profile ++ "/tuned.conf").filter
    fun entry => !entry.disposition.isIncluded).map (·.path)

def tunedLines (kb : KernelBootSection) : List Line :=
  if !kb.tunedDisposition.isIncluded || kb.tunedActive.isEmpty then []
  else if !isValidTunedProfile kb.tunedActive then
    [note ("FIXME: tuned profile name contains unsafe characters: " ++ debugText kb.tunedActive)]
  else
    match excludedTunedProfileFile snap kb.tunedActive with
    | some excluded =>
      [note ("FIXME: include " ++ excluded ++ " under Configuration Files or activate a stock " ++
         "profile; the active profile is custom and its file is excluded")]
    | none =>
      [note ("Tuned profile: " ++ kb.tunedActive),
       .command [.fixed "RUN echo \"", .operand .double kb.tunedActive,
         .fixed "\" > /etc/tuned/active_profile"],
       .command [.fixed "RUN echo \"manual\" > /etc/tuned/profile_mode"],
       .command [.fixed "RUN systemctl enable tuned.service"]]

def kernelBootSectionLines : List Line :=
  match snap.kernelBoot with
  | none => []
  | some kb =>
    containerSection "Kernel and Boot Configuration"
      (kargsLines kb.cmdline ++ sysctlLines kb.sysctlOverrides ++ tunedLines snap kb)

def portLabelRenders (pl : SelinuxPortLabel) : Bool :=
  (sanitizeShellValue pl.protocol).isSome && (sanitizeShellValue pl.port).isSome &&
    (sanitizeShellValue pl.labelType).isSome

def portLabelLine (pl : SelinuxPortLabel) : Line :=
  if portLabelRenders pl then
    .command [.fixed "RUN semanage port -a -t ", bare pl.labelType, .fixed " -p ", bare pl.protocol,
      .fixed " ", bare pl.port]
  else
    note ("FIXME: port label contains unsafe characters, skipped: " ++ debugText pl.labelType ++ " " ++
      debugText pl.protocol ++ " " ++ debugText pl.port)

def portLabelLines (labels : List SelinuxPortLabel) : List Line :=
  if labels.isEmpty then []
  else note (toString labels.length ++ " custom SELinux port label(s) detected") ::
    labels.map portLabelLine

def customModuleLines (modules : List String) : List Line :=
  if modules.isEmpty then []
  else
    [note ("FIXME: " ++ toString modules.length ++ " custom policy module(s) detected — export .pp " ++
       "files to config/selinux/ and uncomment the COPY + semodule lines below"),
     note "COPY config/selinux/ /tmp/selinux/",
     note "RUN semodule -i /tmp/selinux/*.pp && rm -rf /tmp/selinux/"]

def isNonDefaultBoolean (b : Json) : Bool :=
  jsonIncluded b && ((b.get "non_default").bind Json.asBool).getD false

def booleanLine (b : Json) : Option Line :=
  let name := strField b "name"
  let value := strField b "current_value"
  if name.isEmpty then none
  else if (sanitizeShellValue name).isSome && (sanitizeShellValue value).isSome then
    some (.command [.fixed "RUN setsebool -P ", bare name, .fixed " ", bare value])
  else
    some (note ("FIXME: boolean name/value contains unsafe characters, skipped: " ++ debugText name ++
      "=" ++ debugText value))

def booleanLines (overrides : List Json) : List Line :=
  let nonDefault := overrides.filter isNonDefaultBoolean
  if nonDefault.isEmpty then []
  else note ("FIXME: " ++ toString nonDefault.length ++
      " non-default boolean(s) detected — verify each is still needed") ::
    nonDefault.filterMap booleanLine

def selinuxSectionLines : List Line :=
  match snap.selinux with
  | none => []
  | some sel =>
    let fcontext := renderFcontextRules sel
    containerSection "Security & Access Control"
      (customModuleLines sel.customModules ++ booleanLines sel.booleanOverrides ++
       fcontext.preamble ++
       (if fcontext.emitsCommand || sel.portLabels.any portLabelRenders then INSTALL_PRECONDITION
        else []) ++
       fcontext.rules ++ portLabelLines sel.portLabels ++
       (if sel.fipsMode then
          [note ("FIXME: host has FIPS mode enabled — enable FIPS in the bootc image via " ++
            "fips-mode-setup")]
        else []))

def fileFindings (kind : RedactionKind) : List RedactionFinding :=
  snap.redactions.filter fun f => f.source == "file" && f.kind = kind

def secretsCommentLines : List Line :=
  let excluded := fileFindings snap .excluded
  let flagged := fileFindings snap .flagged
  (if excluded.isEmpty then []
   else containerSection "Secrets: Excluded Files"
     (note (toString excluded.length ++ " file(s) excluded from the image for security:") ::
       (excluded.map fun f => note ("  " ++ (f.path ++ " (" ++ f.remediation ++ ")"))) ++
       [note "See secrets-review.md for details and remediation steps."])) ++
  (if flagged.isEmpty then []
   else containerSection "Secrets: Flagged for Review"
     (note (toString flagged.length ++ " file(s) flagged for manual review:") ::
       (flagged.map fun f => note ("  " ++ f.path)) ++
       [note "See secrets-review.md for details."]))

end Inspectah
