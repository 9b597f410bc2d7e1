import Inspectah.Render.PackageLines
import Inspectah.Render.PayloadLines
import Inspectah.Render.SystemLines
import Inspectah.Render.VarDirs

/-!
The Containerfile of a snapshot: its sections in the order the build runs them, each
after a warning when the scan of its data was degraded.
-/
namespace Inspectah

open BuildScript (Line Segment)

variable (snap : InspectionSnapshot)

def baseImageFromSnapshot : Option String :=
  snap.targetImage.map (·.imageRef)

def subscriptionLines : List Line :=
  if snap.preservedSubscription then
    [note "=== RHEL Subscription ===",
     note "This build requires RHEL entitlement certificates for repo access.",
     note "Build with:",
     note "  podman build \\",
     note "    -v ./subscription/entitlement:/run/secrets/etc-pki-entitlement:z \\",
     note "    -v ./subscription/rhsm:/run/secrets/rhsm:z \\",
     note "    -v ./subscription/redhat.repo:/run/secrets/redhat.repo:z \\",
     note "    -f Containerfile .",
     .comment "",
     note "Or use: inspectah build <tarball> -t <name:tag>",
     .blank]
  else []

def InspectorId.lowerName : InspectorId → String
  | .rpm => "rpm"
  | .config => "config"
  | .services => "services"
  | .network => "network"
  | .storage => "storage"
  | .scheduledTasks => "scheduledtasks"
  | .containers => "containers"
  | .nonRpmSoftware => "nonrpmsoftware"
  | .kernelBoot => "kernelboot"
  | .selinux => "selinux"
  | .usersGroups => "usersgroups"
  | .subscription => "subscription"
  | .hardware => "hardware"
  | .ostree => "ostree"
  | .osRelease => "osrelease"

def affectedSections : Completeness → List InspectorId
  | .complete => []
  | .partially degraded _ => degraded
  | .incomplete failed degraded _ => failed ++ degraded

def completenessLines : List Line :=
  let affected := affectedSections snap.completeness
  if affected.isEmpty then []
  else
    [note "WARNING: This Containerfile was generated from an incomplete inspection.",
     note ("The following inspector sections may be missing or degraded: " ++
       ", ".intercalate (affected.map (·.lowerName))),
     note "Review the audit report for details before building.",
     .blank]

/-- A failed section is not a degraded one. -/
def isDegraded (completeness : Completeness) (id : InspectorId) : Bool :=
  match completeness with
  | .complete => false
  | .partially degraded _ => degraded.contains id
  | .incomplete _ degraded _ => degraded.contains id

def degradedFixme (id : InspectorId) (name : String) : List Line :=
  if isDegraded snap.completeness id then
    [note ("FIXME: " ++ name ++ " data may be incomplete (inspector returned degraded)")]
  else []

def bootcLabelLines : List Line :=
  if (snap.systemType = .rpmOstree ∨ snap.systemType = .bootc) ∧
      Text.contains ((baseImageFromSnapshot snap).getD "") "fedora-ostree-desktops" then
    [note "ostree-desktops images may need bootc label for compatibility",
     .command [.fixed "LABEL containers.bootc 1"], .blank]
  else []

def servicesSectionLines : List Line :=
  containerSection "Service Enablement" (renderServiceIntent snap).lines

def nonRpmSectionLines (digest : String → String) (snap : InspectionSnapshot)
    (ctx : Option RenderContext) : List Line :=
  containerSection "Language Packages" (languagePackageLines digest snap) ++
  unmanagedFileLines snap ++ repolessRpmLines snap ctx ++ migrationLines snap

def validateLines : List Line :=
  containerSection "Validate bootc compatibility" [.command [.fixed "RUN bootc container lint"]]

/-- The directories of the config tree, the inclusions before the operator's, and the group
    states. -/
structure RenderInputs where
  digest : String → String
  materializedRoots : Option (List String)
  originalIncludes : Option (TextMap Bool)
  ctx : Option RenderContext

def renderContainerfileLines (inputs : RenderInputs) (snap : InspectionSnapshot) : List Line :=
  subscriptionLines snap ++ completenessLines snap ++
  packagesSectionLines snap (baseImageFromSnapshot snap) inputs.originalIncludes inputs.ctx ++
  bootcLabelLines snap ++
  degradedFixme snap .services "services" ++ servicesSectionLines snap ++ dropInsSectionLines snap ++
  degradedFixme snap .network "network" ++ firewallLines snap ++
  degradedFixme snap .scheduledTasks "scheduled_tasks" ++ scheduledTasksSectionLines snap ++
  degradedFixme snap .config "config" ++ configSectionLines snap inputs.materializedRoots ++
  degradedFixme snap .nonRpmSoftware "non_rpm_software" ++
  nonRpmSectionLines inputs.digest snap inputs.ctx ++
  degradedFixme snap .containers "containers" ++ containersSectionLines snap ++
  composeCommentLines snap ++
  degradedFixme snap .usersGroups "users_groups" ++ renderContainerfileUsers snap ++
  degradedFixme snap .kernelBoot "kernel_boot" ++ kernelBootSectionLines snap ++
  degradedFixme snap .selinux "selinux" ++ selinuxSectionLines snap ++
  networkLines snap ++ secretsCommentLines snap ++
  varDirSectionLines snap (renderTmpfilesConf snap).isSome ++ validateLines

def renderContainerfile (inputs : RenderInputs) (snap : InspectionSnapshot) : String :=
  BuildScript.scriptText (renderContainerfileLines inputs snap)

end Inspectah
