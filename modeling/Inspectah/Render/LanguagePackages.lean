import Inspectah.Core.VariantKey
import Inspectah.Refine.Normalize
import Inspectah.Render.Safety

/-!
Language package environments. A high-confidence environment that is included is
installed by active instructions; every other is shown in comments.
-/
namespace Inspectah

open BuildScript (Line Segment)

def HIGH_CONFIDENCE : String := "high"
def MEDIUM_CONFIDENCE : String := "medium"

def RUNTIME_PYTHON : String := "python3"
def RUNTIME_NODEJS : String := "nodejs"
def RUNTIME_RUBYGEMS : String := "rubygems"

def isPipEnv (item : NonRpmItem) : Bool :=
  item.method == METHOD_PYTHON_VENV || item.method == METHOD_PIP_DIST_INFO

def isNpmEnv (item : NonRpmItem) : Bool :=
  item.method == METHOD_NPM_LOCKFILE || item.method == METHOD_NPM_MANIFEST

def isNpmGlobalEnv (item : NonRpmItem) : Bool := item.method == METHOD_NPM_GLOBAL

def isGemEnv (item : NonRpmItem) : Bool :=
  item.method == METHOD_GEM_LOCKFILE || item.method == METHOD_GEM_SYSTEM

def beforeLast (sep : Char) (s : String) : String :=
  match s.toList.reverse.dropWhile (· != sep) with
  | [] => s
  | _ :: before => String.ofList before.reverse

def collectRpmNames (snap : InspectionSnapshot) : List String :=
  (rowsOf (·.packagesAdded) snap.rpm).map fun p => beforeLast '.' p.name

/-- The first half of the SHA-256 of the path, in hexadecimal, is cut to 12 digits. -/
def envHash (digest : String → String) (path : String) : String :=
  String.ofList ((digest path).toList.take 12)

/-- Only ever part of a comment, so it is escaped rather than refused. -/
def pinnedPackageList (item : NonRpmItem) : String :=
  sanitizeForComment (" ".intercalate (item.packages.map fun p =>
    if p.version.isEmpty then p.name else p.name ++ "==" ++ p.version))

def UNSAFE_SHELL_CHARS : List Char := [APOSTROPHE, '\n', ';', '$', BACKTICK, '|', '&']

def containsUnsafeChars (s : String) : Bool := s.toList.any UNSAFE_SHELL_CHARS.contains

def absolutePath (storedPath : String) : String := "/" ++ trimSlashes storedPath

/-- Neither of the two confidences an environment is rendered with. -/
def isLowConfidence (item : NonRpmItem) : Bool :=
  item.confidence != HIGH_CONFIDENCE && item.confidence != MEDIUM_CONFIDENCE

/-- An excluded environment is never active. -/
def effectiveConfidence (item : NonRpmItem) : String :=
  if item.disposition.isIncluded then item.confidence else MEDIUM_CONFIDENCE

def unsafePathWarning (path : String) : Line :=
  note ("WARNING: path contains unsafe characters, skipping: " ++ sanitizeForComment path)

def UNCOMMENT_NOTE : Line := note "Uncomment after verifying package list is complete:"

def quoted (value : String) : List Segment := [.fixed "'", .operand .single value, .fixed "'"]

section

variable (digest : String → String)

def renderPipItem (item : NonRpmItem) : List Line :=
  if isLowConfidence item then
    [note ("pip packages: " ++ (item.path ++ " (low confidence — review required)"))]
  else
    let absPath := absolutePath item.path
    let isVenv := item.method == METHOD_PYTHON_VENV
    let venvFlags := if item.systemSitePackages then "--system-site-packages " else ""
    (if item.hasCExtensions then
       [note "WARNING: This environment contains packages with C extensions that may need",
        note "native compilation toolchains (gcc, python3-devel)."]
     else []) ++
    (if containsUnsafeChars absPath then [unsafePathWarning absPath]
     else if isVenv && (item.manifestFiles.lookup "requirements.txt").isSome &&
         effectiveConfidence item == HIGH_CONFIDENCE then
       let manifest : List Segment :=
         [.fixed "'/tmp/", .operand .single ((Text.fileName absPath).getD "venv"),
          .fixed "-requirements.txt'"]
       [note ("pip packages: " ++ absPath ++ (if item.rpmFiltered then
           " (from requirements.txt, RPM-filtered)" else " (from requirements.txt)")),
        .copy [.fixed "language-packages/pip/", bare (envHash digest item.path),
          .fixed "/requirements.txt"] manifest,
        .command (.fixed ("RUN python3 -m venv " ++ venvFlags) :: quoted absPath ++ [.fixed " \\"]),
        .command (.fixed "    && " :: quoted absPath ++ .fixed "/bin/pip install -r " :: manifest ++
          [.fixed " \\"]),
        .command (.fixed "    && rm " :: manifest)]
     else if isVenv then
       let pkgs := pinnedPackageList item
       [note ("pip packages: " ++ absPath ++
          " (detected via dist-info — transitive deps may differ)"),
        UNCOMMENT_NOTE,
        note ("RUN python3 -m venv " ++ venvFlags ++ "'" ++ absPath ++ "' \\"),
        note ("    && '" ++ absPath ++ "'/bin/pip install " ++
          (if pkgs.isEmpty then "<packages>" else pkgs))]
     else
       let pkgs := pinnedPackageList item
       [note ("pip packages: system (" ++ (if item.rpmFiltered then
           "detected via pip list, RPM-filtered" else "detected via pip list") ++ ")"),
        UNCOMMENT_NOTE,
        note ("RUN pip install " ++ (if pkgs.isEmpty then "<packages>" else pkgs))])

structure ProjectKind where
  ecosystem : String
  manifest : String
  lockfile : String
  /-- What is run in the project directory. -/
  install : String

def NPM : ProjectKind := ⟨"npm", "package.json", "package-lock.json", "npm ci --production"⟩

def GEM : ProjectKind :=
  ⟨"gem", "Gemfile", "Gemfile.lock",
   "bundle config set --local deployment 'true' && bundle install"⟩

def manifestPath (kind : ProjectKind) (item : NonRpmItem) (file : String) : List Segment :=
  [.fixed ("language-packages/" ++ kind.ecosystem ++ "/"), bare (envHash digest item.path),
   .fixed ("/" ++ file)]

/-- The body of `render_npm_item` and `render_gem_item`. -/
def renderProjectItem (kind : ProjectKind) (item : NonRpmItem) : List Line :=
  let projectPath := absolutePath item.path
  let label := kind.ecosystem ++ " packages: "
  let copy (file : String) :=
    Line.copy (manifestPath digest kind item file) (quoted projectPath ++ [.fixed ("/" ++ file)])
  let run := Line.command (.fixed "RUN cd " :: quoted projectPath ++ [.fixed (" && " ++ kind.install)])
  if isLowConfidence item then
    [note (label ++ (projectPath ++ " (low confidence — review required)"))]
  else if containsUnsafeChars projectPath then [unsafePathWarning projectPath]
  else if effectiveConfidence item == HIGH_CONFIDENCE then
    [note (label ++ projectPath ++ " (from " ++ kind.lockfile ++ ")"), copy kind.manifest,
     copy kind.lockfile, run]
  else
    [note (label ++ projectPath ++ " (detected via " ++ kind.lockfile ++ ")"), UNCOMMENT_NOTE,
     note (copy kind.manifest).text, note (copy kind.lockfile).text, note run.text]

def renderNpmItem (item : NonRpmItem) : List Line := renderProjectItem digest NPM item

def renderGemItem (item : NonRpmItem) : List Line := renderProjectItem digest GEM item

end

def npmGlobalPackages (item : NonRpmItem) : List String :=
  (item.packages.filter fun p =>
    !(containsUnsafeChars p.name || containsUnsafeChars p.version)).map fun p =>
      if p.pinned && !p.version.isEmpty then p.name ++ "@" ++ p.version else p.name

def renderNpmGlobalItem (item : NonRpmItem) : List Line :=
  let pkgs := npmGlobalPackages item
  let rejected := item.packages.length - pkgs.length
  let label := note ("npm global packages: " ++ sanitizeForComment (absolutePath item.path) ++ " (" ++
    (if item.confidence == HIGH_CONFIDENCE then "detected via npm list -g"
     else "detected via directory walk") ++ ")")
  let run := Line.command (.fixed "RUN npm install -g " ::
    (pkgs.map bare).intersperse (.fixed " "))
  (if 0 < rejected then
     [note ("WARNING: " ++ toString rejected ++
       " package(s) skipped due to unsafe characters in name/version")]
   else []) ++
  (if effectiveConfidence item == HIGH_CONFIDENCE then
     label ::
     (if item.hasCExtensions then
        [note "WARNING: environment contains native addons — build tools (gcc, node-gyp) may be needed"]
      else []) ++ [run]
   else [label, note run.text])

/-- A section of environments, with a warning if the packages hold no runtime for it. -/
def renderEnvSection (runtime : String) (renderItem : NonRpmItem → List Line)
    (items : List NonRpmItem) (rpmNames : List String) : List Line :=
  if items.isEmpty then []
  else
    (if !rpmNames.contains runtime && !rpmNames.isEmpty then
       [note ("WARNING: " ++ runtime ++ " not found in RPM package list — add it before this section")]
     else []) ++
    items.flatMap fun item => .blank :: renderItem item

def languagePackageLines (digest : String → String) (snap : InspectionSnapshot) : List Line :=
  let items := rowsOf (·.items) snap.nonRpmSoftware
  let rpmNames := collectRpmNames snap
  renderEnvSection RUNTIME_PYTHON (renderPipItem digest) (items.filter isPipEnv) rpmNames ++
  renderEnvSection RUNTIME_NODEJS (renderNpmItem digest) (items.filter isNpmEnv) rpmNames ++
  renderEnvSection RUNTIME_NODEJS renderNpmGlobalItem (items.filter isNpmGlobalEnv) rpmNames ++
  renderEnvSection RUNTIME_RUBYGEMS (renderGemItem digest) (items.filter isGemEnv) rpmNames

end Inspectah
