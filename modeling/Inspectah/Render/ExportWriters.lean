import Inspectah.Refine.Staging
import Inspectah.Render.ConfigTree
import Inspectah.Render.Escapes

/-!
The other writers of an export: the keys of accounts, the manifests of language
environments, the versions of a merged snapshot that lost, and compose files.
-/
namespace Inspectah

/-- A digest is written in hexadecimal. -/
def IsHexDigest (digest : String → String) : Prop :=
  ∀ path, (digest path).toList.all fun c => c.isDigit || ('a' ≤ c && c ≤ 'f')

def fileInDir (dir : List String) (file content : String) : List WriteStep :=
  [require (.makeDirs dir), require (.write (dir ++ [file]) content)]

def keyedUsers (snap : InspectionSnapshot) : List Json :=
  (includedUsers snap).filter fun u => !(strField u "name").isEmpty && !(sshKeys u).isEmpty

def sshDir (name : String) : String := "users/home/" ++ name ++ "/.ssh"

def stageSshKeys (snap : InspectionSnapshot) : List WriteStep :=
  (keyedUsers snap).flatMap fun u =>
    fileInDir [sshDir (strField u "name")] "authorized_keys"
      ("\n".intercalate (sshKeys u) ++ "\n")

/-- The digest, of which only the characters matter, a hash table's order, and the scrubbers of
    text. -/
structure ExportTools where
  digest : String → String
  digest_hex : IsHexDigest digest
  listing : TextMap String → List (Sigma fun _ : String => String)
  listing_entries : ∀ table, (listing table : Multiset _) = table.entries
  scrubManifestAuth : String → String → String
  scrubComposeSecrets : String → String
  /-- Base64. -/
  decode : String → Option String

/-- The directory of an environment's kind; the other kinds have no manifests. -/
def ecosystemOf (item : NonRpmItem) : Option String :=
  if item.method == METHOD_PYTHON_VENV || item.method == METHOD_PIP_DIST_INFO then some "pip"
  else if item.method == METHOD_NPM_LOCKFILE then some "npm"
  else if item.method == METHOD_GEM_LOCKFILE then some "gem"
  else none

def isRedactionActive (snap : InspectionSnapshot) : Bool :=
  match snap.redactionState with
  | some (.fullyRedacted ..) => true
  | some (.partiallyRedacted ..) => true
  | some (.sensitiveRetained ..) => true
  | _ => false

section

variable (tools : ExportTools)

def manifestDir (ecosystem : String) (item : NonRpmItem) : List String :=
  ["language-packages", ecosystem, envHash tools.digest item.path]

def manifestStep (redact : Bool) (dir : List String) (entry : Sigma fun _ : String => String) :
    WriteStep :=
  require (.write (dir ++ [entry.1])
    (if redact then tools.scrubManifestAuth entry.1 entry.2 else entry.2))

def manifestSteps (redact : Bool) (item : NonRpmItem) : List WriteStep :=
  if !item.disposition.isIncluded || (tools.listing item.manifestFiles).isEmpty then []
  else
    match ecosystemOf item with
    | none => []
    | some ecosystem =>
      let dir := manifestDir tools ecosystem item
      require (.makeDirs dir) :: (tools.listing item.manifestFiles).map (manifestStep tools redact dir)

def writeLanguagePackageManifests (snap : InspectionSnapshot) : List WriteStep :=
  (rowsOf (·.items) snap.nonRpmSoftware).flatMap (manifestSteps tools (isRedactionActive snap))

def alternativesOf {α : Type} (selection : α → VariantSelection) (path content : α → String)
    (rows : List α) : List (String × String) :=
  (rows.filter fun e => selection e == .alternative).map fun e => (path e, content e)

def alternatives (snap : InspectionSnapshot) : List (String × String) :=
  alternativesOf (·.variantSelection) (·.path) (·.content) snap.configFiles ++
    alternativesOf (·.variantSelection) (·.path) (·.content) snap.dropIns ++
    alternativesOf (·.variantSelection) (·.path) (·.content) snap.quadletUnits

/-- One slash is taken from the front, not all of them. -/
def variantRel (path : String) : String := (Text.afterPrefix path "/").getD path

def shortHash (content : String) : String := envHash tools.digest content

def writeAggregateVariants (snap : InspectionSnapshot) : List WriteStep :=
  (alternatives snap).flatMap fun lost =>
    fileInDir ["aggregate/variants", variantRel lost.1] (shortHash tools lost.2 ++ ".content") lost.2

def isSafeComposePath (path : String) : Bool :=
  !path.isEmpty && !(Text.startsWith path "/" || Text.startsWith path "\\") &&
    !(components path).contains .parentDir &&
    !path.toList.any fun c => c.toNat < 0x20 || c.toNat == 0x7f

def isRedacted (snap : InspectionSnapshot) : Bool :=
  match snap.redactionState with
  | none => false
  | some .raw => false
  | some _ => true

def composeSteps (redacted : Bool) (f : ComposeFile) : List WriteStep :=
  match f.rawContent with
  | none => []
  | some raw =>
    if isSafeComposePath f.path then
      [require (.makeParents ["compose", f.path]),
       require (.write ["compose", f.path] (if redacted then tools.scrubComposeSecrets raw else raw))]
    else []

def writeComposeFiles (snap : InspectionSnapshot) : List WriteStep :=
  (rowsOf (·.composeFiles) snap.containers).flatMap (composeSteps tools (isRedacted snap))

def exportWriters (snap : InspectionSnapshot) : List (List WriteStep) :=
  [writeConfigTree tools.decode snap, writeEnvFiles snap, stageSshKeys snap,
   writeLanguagePackageManifests tools snap, writeAggregateVariants tools snap,
   writeComposeFiles tools snap]

end

end Inspectah
