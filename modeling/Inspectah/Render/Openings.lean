import Inspectah.Render.Containerfile

/-!
The words the commands of each section open with. What a section renders can only be
one of its own templates, so a command found in the Containerfile is placed by its
first words.
-/
namespace Inspectah

open BuildScript

variable (snap : InspectionSnapshot) (rpm : RpmSection)

section

variable {words : List String}

@[simp] theorem note_opens (text : String) : (note text).Opens words := comment_opens _

theorem opensWith_containerSection {header : String} {body : List Line}
    (h : OpensWith words body) : OpensWith words (containerSection header body) := by
  unfold containerSection
  split
  · exact opensWith_nil
  · simp [h]

theorem opensWith_notes {α : Type} (f : α → String) (xs : List α) :
    OpensWith words (xs.map fun x => note (f x)) :=
  opensWith_map fun x _ => note_opens (f x)

end

def CONTINUATION : String := "    "

def PACKAGE_WORDS : List String :=
  ["FROM ", "COPY ", "RUN rpm --import ", "RUN dnf install ", "RUN dnf module ", "RUN dnf group ",
   CONTINUATION]

theorem opens_dnfCleanup : OpensWith PACKAGE_WORDS DNF_CLEANUP := by
  simp only [DNF_CLEANUP, opensWith_cons, opensWith_nil, and_true]
  exact ⟨command_opens _ (opens_literal rfl), command_opens _ (opens_literal rfl), command_opens _ (opens_literal rfl), command_opens _ (opens_literal rfl),
    command_opens _ (opens_literal rfl), command_opens _ (opens_literal rfl), command_opens _ (opens_literal rfl)⟩

theorem opens_bannerLines (pending : Bool) : OpensWith PACKAGE_WORDS (bannerLines pending) := by
  cases pending <;> simp [bannerLines]

theorem opens_dnfInstall (names : List String) (flags : List Segment) :
    OpensWith PACKAGE_WORDS (dnfInstallLines names flags) := by
  simp only [dnfInstallLines, List.cons_append, opensWith_cons, opensWith_append]
  exact ⟨command_opens _ (opens_literal rfl), opensWith_map fun n _ => command_opens _ (opens_literal rfl), opens_dnfCleanup⟩

theorem opens_fromLines (base : Option String) : OpensWith PACKAGE_WORDS (fromLines base) := by
  cases base with
  | none => simp [fromLines]
  | some b =>
    simp only [fromLines, opensWith_cons, opensWith_nil, blank_opens, and_true]
    exact command_opens _ (opens_literal rfl)

theorem opens_leafAuthority : OpensWith PACKAGE_WORDS (leafAuthorityLines rpm) := by
  unfold leafAuthorityLines
  split
  · exact opensWith_ite (by simp) opensWith_nil
  · exact opensWith_nil

theorem opens_repoFiles : OpensWith PACKAGE_WORDS (repoFileLines rpm) := by
  refine opensWith_ite opensWith_nil (opensWith_containerSection ?_)
  simp only [opensWith_cons, opensWith_nil, and_true]
  exact copy_opens _ _ (opens_literal rfl)

theorem opens_gpgDirLine (dir : String) : (gpgDirLine dir).Opens PACKAGE_WORDS := by
  unfold gpgDirLine
  split
  · exact copy_opens _ _ (opens_literal rfl)
  · exact note_opens _

theorem keyPlace_note_opens {key : RepoFile} {l : Line} (h : (keyPlace key).note = some l) :
    l.Opens PACKAGE_WORDS := by
  unfold keyPlace at h
  split at h
  · simp only [KeyPlace.note, Option.some.injEq] at h
    exact h ▸ note_opens _
  split at h
  · simp only [KeyPlace.note, Option.some.injEq] at h
    exact h ▸ note_opens _
  split at h
  · split at h <;> simp [KeyPlace.note] at h
  · simp [KeyPlace.note] at h

theorem opens_gpgKeys : OpensWith PACKAGE_WORDS (gpgKeyLines rpm) := by
  refine opensWith_ite opensWith_nil (opensWith_containerSection ?_)
  simp only [opensWith_append]
  refine ⟨⟨⟨⟨?_, ?_⟩, ?_⟩, ?_⟩, ?_⟩
  · exact opensWith_filterMap fun key _ l h => keyPlace_note_opens h
  · refine opensWith_ite ?_ opensWith_nil
    simp only [opensWith_cons, opensWith_nil, and_true]
    exact copy_opens _ _ (opens_literal rfl)
  · exact opensWith_map fun dir _ => opens_gpgDirLine dir
  · exact opensWith_map fun key _ => copy_opens _ _ (opens_literal rfl)
  · exact opensWith_map fun key _ => command_opens _ (opens_literal rfl)

theorem moduleFixme_opens {ms : EnabledModuleStream} {l : Line} (h : moduleFixme ms = some l) :
    l.Opens PACKAGE_WORDS := by
  unfold moduleFixme at h
  split at h
  · exact (Option.some.inj h) ▸ note_opens _
  split at h
  · exact (Option.some.inj h) ▸ note_opens _
  · cases h

theorem opens_moduleStreams (flags : List Segment) (pending : Bool)
    (streams : List EnabledModuleStream) :
    OpensWith PACKAGE_WORDS (moduleStreamBody flags pending streams).1 := by
  induction streams generalizing pending with
  | nil => exact opensWith_nil
  | cons ms rest ih =>
    unfold moduleStreamBody
    split
    next fixme found =>
      simp only [opensWith_cons]
      exact ⟨moduleFixme_opens found, ih pending⟩
    next =>
      simp only [opensWith_append, opensWith_cons]
      exact ⟨opens_bannerLines pending, command_opens _ (opens_literal rfl), ih false⟩

theorem opens_groupSection (flags : List Segment) (pending : Bool) (groups : List InstalledGroup) :
    OpensWith PACKAGE_WORDS (groupSection flags pending groups) := by
  refine opensWith_ite opensWith_nil (opensWith_containerSection ?_)
  simp only [groupBody, List.cons_append, opensWith_append, opensWith_cons]
  exact ⟨⟨opens_bannerLines pending, command_opens _ (opens_literal rfl),
    opensWith_map fun g _ => command_opens _ (opens_literal rfl)⟩, opens_dnfCleanup⟩

theorem opens_groupProvenance (ctx : Option RenderContext) (g : InstalledGroup) :
    OpensWith PACKAGE_WORDS (groupProvenance ctx g) := by
  simp only [groupProvenance, opensWith_append]
  constructor
  · split <;> simp
  · exact opensWith_ite opensWith_nil (by simp)

theorem opens_provenance (ctx : Option RenderContext) :
    OpensWith PACKAGE_WORDS (provenanceSection rpm ctx) := by
  refine opensWith_ite opensWith_nil ?_
  simp only [opensWith_append, opensWith_cons, blank_opens, opensWith_nil, and_true]
  exact opensWith_flatMap fun g _ => opens_groupProvenance ctx g

theorem opens_narration (pkg : PackageEntry) :
    OpensWith PACKAGE_WORDS (repoEnablingNarration snap rpm pkg) := by
  simp only [repoEnablingNarration, commentParagraph, opensWith_append]
  exact ⟨opensWith_map fun text _ => comment_opens text, opensWith_notes _ _⟩

theorem demotionFixme_opens (pkg : PackageEntry) (loss : ServingLoss) :
    (demotionFixme pkg loss).Opens PACKAGE_WORDS := by
  unfold demotionFixme
  split <;> exact note_opens _

theorem opens_repoEnabling (pending : Bool)
    (named : List (PackageEntry × String)) :
    OpensWith PACKAGE_WORDS (repoEnablingSection snap rpm pending named) := by
  refine opensWith_ite opensWith_nil (opensWith_containerSection ?_)
  simp only [repoEnablingBody, opensWith_append]
  refine ⟨⟨?_, ?_⟩, ?_⟩
  · exact opensWith_flatMap fun n _ => opens_narration snap rpm n.1
  · exact opensWith_map fun lost _ => demotionFixme_opens lost.1 lost.2
  · refine opensWith_ite opensWith_nil ?_
    rw [opensWith_append]
    exact ⟨opens_bannerLines pending, opens_dnfInstall _ _⟩

theorem opens_packageInstall (pending : Bool)
    (named : List (PackageEntry × String)) :
    OpensWith PACKAGE_WORDS (packageInstallSection rpm pending named) := by
  refine opensWith_ite opensWith_nil (opensWith_containerSection ?_)
  rw [opensWith_append]
  exact ⟨opens_bannerLines pending, opens_dnfInstall _ _⟩

theorem opens_followUp : OpensWith PACKAGE_WORDS (followUpLines rpm) := by
  refine opensWith_ite opensWith_nil ?_
  rw [opensWith_cons]
  refine ⟨blank_opens, opensWith_containerSection (opensWith_filterMap ?_)⟩
  intro pkg _ l h
  obtain ⟨reason, -, rfl⟩ := Option.map_eq_some_iff.mp h
  cases reason <;> exact note_opens _

theorem opens_versionLocks : OpensWith PACKAGE_WORDS (versionLockLines rpm) := by
  simp only [versionLockLines, opensWith_append]
  refine ⟨⟨?_, opensWith_notes _ _⟩, opensWith_ite opensWith_nil (by simp)⟩
  refine opensWith_ite opensWith_nil (opensWith_containerSection ?_)
  simp only [List.cons_append, opensWith_cons, opensWith_append, opensWith_nil, and_true]
  exact ⟨command_opens _ (opens_literal rfl), opensWith_map fun vl _ => command_opens _ (opens_literal rfl), command_opens _ (opens_literal rfl)⟩

theorem opens_packages (base : Option String)
    (originalIncludes : Option (TextMap Bool)) (ctx : Option RenderContext) :
    OpensWith PACKAGE_WORDS (packagesSectionLines snap base originalIncludes ctx) := by
  rw [packagesSectionLines, opensWith_append]
  refine ⟨opens_fromLines base, ?_⟩
  cases snap.rpm with
  | none => exact opensWith_nil
  | some rpm =>
    simp only [rpmLines, opensWith_append]
    exact ⟨⟨⟨⟨⟨⟨⟨⟨⟨opens_leafAuthority rpm, opens_repoFiles rpm⟩, opens_gpgKeys rpm⟩,
      opensWith_containerSection (opens_moduleStreams _ _ _)⟩, opens_groupSection _ _ _⟩,
      opens_provenance rpm ctx⟩, opens_repoEnabling snap rpm _ _⟩, opens_packageInstall rpm _ _⟩,
      opens_followUp rpm⟩, opens_versionLocks rpm⟩

def SERVICE_WORDS : List String := ["RUN systemctl ", "COPY ", CONTINUATION]

theorem opens_systemctl (verb : String) (units : List String) :
    OpensWith SERVICE_WORDS (systemctlLines verb units) := by
  simp only [systemctlLines, List.cons_append, opensWith_cons, opensWith_append]
  exact ⟨command_opens _ (opens_append " \\" (opens_append verb (opens_literal rfl))),
    opensWith_map fun u _ => command_opens _ (opens_literal rfl), opensWith_map fun u _ => command_opens _ (opens_literal rfl)⟩

theorem opens_serviceActions (units : List String) (changes : List ServiceStateChange) :
    OpensWith SERVICE_WORDS (serviceActionLines units changes) := by
  simp only [serviceActionLines, opensWith_append]
  exact ⟨⟨⟨opensWith_ite opensWith_nil (opens_systemctl _ _),
    opensWith_ite opensWith_nil (opens_systemctl _ _)⟩,
    opensWith_ite opensWith_nil (opens_systemctl _ _)⟩, opensWith_ite opensWith_nil (by simp)⟩

theorem opens_services :
    OpensWith SERVICE_WORDS (servicesSectionLines snap) := by
  refine opensWith_containerSection ?_
  unfold renderServiceIntent
  split
  · exact opensWith_nil
  split
  · exact opens_serviceActions _ _
  · rw [opensWith_append]
    exact ⟨opensWith_map fun o _ => note_opens _, opens_serviceActions _ _⟩

theorem opens_dropIns :
    OpensWith ["COPY "] (dropInsSectionLines snap) := by
  refine opensWith_ite opensWith_nil (opensWith_containerSection ?_)
  simp only [opensWith_cons, note_opens, opensWith_nil, and_true, true_and]
  exact copy_opens _ _ (opens_literal rfl)

theorem opens_atJobs (jobs : List AtJob) : OpensWith SERVICE_WORDS (atJobLines jobs) := by
  refine opensWith_ite opensWith_nil ?_
  rw [opensWith_cons]
  exact ⟨note_opens _, opensWith_notes _ _⟩

theorem opens_scheduledTasks :
    OpensWith SERVICE_WORDS (scheduledTasksSectionLines snap) := by
  refine opensWith_containerSection ?_
  simp only [opensWith_append]
  refine ⟨⟨⟨⟨⟨⟨?_, ?_⟩, ?_⟩, ?_⟩, ?_⟩, ?_⟩, opens_atJobs _⟩
  · refine opensWith_ite opensWith_nil ?_
    simp only [opensWith_cons, opensWith_nil, and_true]
    exact copy_opens _ _ (opens_literal rfl)
  · exact opensWith_ite opensWith_nil (by simp)
  · exact opensWith_ite opensWith_nil (by simp)
  · exact opensWith_map fun n _ => note_opens _
  · refine opensWith_ite opensWith_nil ?_
    simp only [opensWith_cons, opensWith_nil, and_true]
    exact command_opens _ (opens_literal rfl)
  · refine opensWith_ite opensWith_nil ?_
    simp only [opensWith_cons, note_opens, opensWith_nil, and_true, true_and]
    exact command_opens _ (opens_literal rfl)

def CONFIG_WORDS : List String :=
  ["COPY ", "RUN update-ca-trust", "RUN update-crypto-policies "]

/-- Of sections that bring files and directories, and nothing else. -/
def FILE_WORDS : List String := ["COPY ", "RUN mkdir -p "]

def SYSTEM_WORDS : List String := "RUN echo " :: "RUN systemctl " :: FILE_WORDS

theorem opens_config (materializedRoots : Option (List String)) :
    OpensWith CONFIG_WORDS (configSectionLines snap materializedRoots) := by
  simp only [configSectionLines, opensWith_append]
  refine ⟨⟨opensWith_ite opensWith_nil (opensWith_containerSection ?_), ?_⟩, ?_⟩
  · rw [opensWith_append]
    refine ⟨opensWith_ite opensWith_nil ?_, opensWith_map fun root _ => copy_opens _ _ (opens_literal rfl)⟩
    simp only [opensWith_append, opensWith_cons, blank_opens, opensWith_nil, and_true]
    exact ⟨opensWith_ite opensWith_nil (by simp), opensWith_ite (by simp) opensWith_nil⟩
  · refine opensWith_ite (opensWith_containerSection ?_) opensWith_nil
    simp only [opensWith_cons, note_opens, opensWith_nil, and_true, true_and]
    exact command_opens _ (opens_literal rfl)
  · unfold cryptoPolicyLines
    split
    · exact opensWith_nil
    · refine opensWith_ite opensWith_nil (opensWith_ite (by simp) ?_)
      simp only [opensWith_cons, note_opens, blank_opens, opensWith_nil, and_true, true_and]
      exact command_opens _ (opens_literal rfl)

theorem opens_containers :
    OpensWith SYSTEM_WORDS (containersSectionLines snap) := by
  refine opensWith_containerSection ?_
  rw [opensWith_append]
  constructor
  · refine opensWith_ite opensWith_nil ?_
    simp only [opensWith_cons, opensWith_nil, and_true]
    exact copy_opens _ _ (opens_literal rfl)
  · refine opensWith_ite opensWith_nil ?_
    simp only [opensWith_cons, note_opens, opensWith_nil, and_true, true_and]
    exact ⟨copy_opens _ _ (opens_literal rfl), copy_opens _ _ (opens_literal rfl), command_opens _ (opens_literal rfl)⟩

theorem opens_kargs (cmdline : String) : OpensWith FILE_WORDS (kargsLines cmdline) := by
  refine opensWith_ite opensWith_nil ?_
  simp only [opensWith_cons, note_opens, opensWith_nil, and_true, true_and]
  exact ⟨command_opens _ (opens_literal rfl), copy_opens _ _ (opens_literal rfl)⟩

theorem opens_sysctl (overrides : List SysctlOverride) :
    OpensWith FILE_WORDS (sysctlLines overrides) := by
  refine opensWith_ite opensWith_nil ?_
  simp only [opensWith_cons, note_opens, opensWith_nil, and_true, true_and]
  exact copy_opens _ _ (opens_literal rfl)

theorem opens_tuned (kb : KernelBootSection) :
    OpensWith SYSTEM_WORDS (tunedLines snap kb) := by
  refine opensWith_ite opensWith_nil (opensWith_ite (by simp) ?_)
  split
  · simp
  · simp only [opensWith_cons, note_opens, opensWith_nil, and_true, true_and]
    exact ⟨command_opens _ (opens_literal rfl), command_opens _ (opens_literal rfl), command_opens _ (opens_literal rfl)⟩

theorem opens_kernelBoot :
    OpensWith SYSTEM_WORDS (kernelBootSectionLines snap) := by
  unfold kernelBootSectionLines
  split
  · exact opensWith_nil
  · refine opensWith_containerSection ?_
    simp only [opensWith_append]
    have file {lines : List Line} (h : OpensWith FILE_WORDS lines) : OpensWith SYSTEM_WORDS lines :=
      h.weaken (List.subset_append_right ["RUN echo ", "RUN systemctl "] _)
    exact ⟨⟨file (opens_kargs _), file (opens_sysctl _)⟩, opens_tuned _ _⟩

theorem opens_unresolved (d : VarDirectory) (path : ExportPath)
    (creator : String) (reason : UnresolvedReason) :
    OpensWith words (unresolvedFixmeLines snap d path creator reason) := by
  unfold unresolvedFixmeLines
  split
  · simp
  · split <;> simp [refusedFieldComment]

theorem opens_varDir (d : VarDirectory) (outcome : EffectiveBacking) :
    OpensWith FILE_WORDS (varDirLines snap d outcome) := by
  cases outcome with
  | carried => exact opensWith_nil
  | provision lost =>
    refine opensWith_ite opensWith_nil ?_
    split
    · simp [refusedFieldComment]
    · simp only [opensWith_append, opensWith_cons, opensWith_nil, and_true]
      exact ⟨opensWith_map fun creator _ => note_opens _, command_opens _ (opens_literal rfl)⟩
  | unresolved creator reason =>
    simp only [varDirLines]
    split
    · simp [refusedFieldComment]
    · exact opens_unresolved _ _ _ _ _

theorem opens_varDirs (staged : Bool) :
    OpensWith FILE_WORDS (varDirSectionLines snap staged) := by
  unfold varDirSectionLines
  split
  · exact opensWith_nil
  refine opensWith_containerSection ?_
  rw [opensWith_append]
  constructor
  · refine opensWith_ite ?_ opensWith_nil
    simp only [opensWith_cons, note_opens, opensWith_nil, and_true, true_and]
    exact copy_opens _ _ (opens_literal rfl)
  · exact opensWith_flatMap fun d _ => opens_varDir snap d.1 d.2

def PAYLOAD_WORDS : List String :=
  ["COPY ", "RUN python3 -m venv ", "RUN cd ", "RUN npm ", "RUN ln -sf ", "RUN dnf localinstall ",
   CONTINUATION]

theorem opens_pipItem (digest : String → String) (item : NonRpmItem) :
    OpensWith PAYLOAD_WORDS (renderPipItem digest item) := by
  refine opensWith_ite (by simp) ?_
  rw [opensWith_append]
  refine ⟨opensWith_ite (by simp) opensWith_nil,
    opensWith_ite (by simp [unsafePathWarning]) (opensWith_ite ?_ (opensWith_ite ?_ ?_))⟩
  · simp only [opensWith_cons, note_opens, opensWith_nil, and_true, true_and]
    exact ⟨copy_opens _ _ (opens_literal rfl), command_opens _ (opens_append _ (opens_literal rfl)), command_opens _ (opens_literal rfl),
      command_opens _ (opens_literal rfl)⟩
  · simp [UNCOMMENT_NOTE]
  · simp [UNCOMMENT_NOTE]

theorem opens_projectItem (digest : String → String) (kind : ProjectKind) (item : NonRpmItem) :
    OpensWith PAYLOAD_WORDS (renderProjectItem digest kind item) := by
  refine opensWith_ite (by simp) (opensWith_ite (by simp [unsafePathWarning]) (opensWith_ite ?_ ?_))
  · simp only [opensWith_cons, note_opens, opensWith_nil, and_true, true_and]
    exact ⟨copy_opens _ _ (opens_literal rfl), copy_opens _ _ (opens_literal rfl), command_opens _ (opens_literal rfl)⟩
  · simp [UNCOMMENT_NOTE]

theorem opens_npmGlobalItem (item : NonRpmItem) :
    OpensWith PAYLOAD_WORDS (renderNpmGlobalItem item) := by
  simp only [renderNpmGlobalItem, opensWith_append]
  refine ⟨opensWith_ite (by simp) opensWith_nil, opensWith_ite ?_ (by simp)⟩
  simp only [opensWith_append, opensWith_cons, note_opens, opensWith_nil, and_true, true_and]
  exact ⟨opensWith_ite (by simp) opensWith_nil, command_opens _ (opens_literal rfl)⟩

theorem opens_envSection {renderItem : NonRpmItem → List Line} (runtime : String)
    (items : List NonRpmItem) (rpmNames : List String)
    (h : ∀ item, OpensWith PAYLOAD_WORDS (renderItem item)) :
    OpensWith PAYLOAD_WORDS (renderEnvSection runtime renderItem items rpmNames) := by
  refine opensWith_ite opensWith_nil ?_
  rw [opensWith_append]
  refine ⟨opensWith_ite (by simp) opensWith_nil, opensWith_flatMap fun item _ => ?_⟩
  rw [opensWith_cons]
  exact ⟨blank_opens, h item⟩

theorem opens_languagePackages (digest : String → String) (snap : InspectionSnapshot) :
    OpensWith PAYLOAD_WORDS (languagePackageLines digest snap) := by
  simp only [languagePackageLines, opensWith_append]
  exact ⟨⟨⟨opens_envSection _ _ _ (opens_pipItem digest),
    opens_envSection _ _ _ (opens_projectItem digest NPM)⟩,
    opens_envSection _ _ _ opens_npmGlobalItem⟩,
    opens_envSection _ _ _ (opens_projectItem digest GEM)⟩

theorem symlinkLine_opens (file : UnmanagedFile) : (symlinkLine file).Opens PAYLOAD_WORDS := by
  unfold symlinkLine
  split
  · exact note_opens _
  · exact command_opens _ (opens_literal rfl)

theorem opens_unmanagedDir (dir : String) (files : List UnmanagedFile) :
    OpensWith PAYLOAD_WORDS (unmanagedDirLines dir files) := by
  simp only [unmanagedDirLines, opensWith_append]
  refine ⟨opensWith_ite ?_ (opensWith_map fun f _ => copy_opens _ _ (opens_literal rfl)),
    opensWith_map fun f _ => symlinkLine_opens f⟩
  simp only [opensWith_cons, opensWith_nil, and_true]
  exact copy_opens _ _ (opens_literal rfl)

theorem opens_unmanaged :
    OpensWith PAYLOAD_WORDS (unmanagedFileLines snap) := by
  refine opensWith_ite opensWith_nil ?_
  simp only [opensWith_append]
  refine ⟨⟨by simp, opensWith_flatMap fun dir _ => opens_unmanagedDir dir _⟩,
    opensWith_ite opensWith_nil ?_⟩
  rw [varSrvCommentLines, opensWith_append]
  exact ⟨by simp, opensWith_notes _ _⟩

theorem opens_install (name : StagedName) (emission : Emission) :
    OpensWith PAYLOAD_WORDS (installLines name emission) := by
  cases emission with
  | active =>
    simp only [installLines, installCommands, opensWith_cons, opensWith_nil, and_true]
    exact ⟨copy_opens _ _ (opens_literal rfl), command_opens _ (opens_literal rfl), command_opens _ (opens_literal rfl)⟩
  | commented => simp [installLines]

theorem opens_provenanceLines (pkg : PackageEntry) (source : String) :
    OpensWith words (provenanceLines pkg source) := by
  simp [provenanceLines]

theorem opens_repolessPackage (verified : TextMap VerifiedUpload) (pkg : PackageEntry) :
    OpensWith PAYLOAD_WORDS (repolessPackageLines verified pkg) := by
  unfold repolessPackageLines
  split
  next upload _ =>
    simp only [uploadedLines, opensWith_append]
    exact ⟨⟨⟨opens_provenanceLines _ _, by simp⟩, opensWith_map fun v _ => note_opens _⟩,
      opens_install _ _⟩
  refine opensWith_ite (by simp) (opensWith_ite ?_ (by simp))
  unfold cachedLines
  split
  · simp
  · rw [opensWith_append]
    refine ⟨opens_provenanceLines _ _, opensWith_ite ?_ ?_⟩ <;>
      exact opensWith_cons.mpr ⟨note_opens _, opens_install _ _⟩

theorem opens_repoless (ctx : Option RenderContext) :
    OpensWith PAYLOAD_WORDS (repolessRpmLines snap ctx) := by
  refine opensWith_ite opensWith_nil ?_
  rw [opensWith_append]
  exact ⟨by simp, opensWith_flatMap fun pkg _ => opens_repolessPackage _ pkg⟩

theorem opens_migration : OpensWith words (migrationLines snap) := by
  refine opensWith_ite opensWith_nil (opensWith_containerSection ?_)
  rw [opensWith_append]
  refine ⟨by simp, opensWith_flatMap fun item _ => ?_⟩
  rw [migrationStub, opensWith_cons]
  exact ⟨note_opens _, opensWith_ite (by simp) opensWith_nil⟩

theorem opens_nonRpm (digest : String → String) (snap : InspectionSnapshot)
    (ctx : Option RenderContext) : OpensWith PAYLOAD_WORDS (nonRpmSectionLines digest snap ctx) := by
  simp only [nonRpmSectionLines, opensWith_append]
  exact ⟨⟨⟨opensWith_containerSection (opens_languagePackages digest snap), opens_unmanaged snap⟩,
    opens_repoless snap ctx⟩, opens_migration snap⟩

def USER_WORDS : List String :=
  ["RUN groupadd ", "RUN useradd ", "RUN echo ", "RUN install ", "COPY ", "RUN chown "]

theorem groupaddLine_opens {users : List Json} {g : Json} {l : Line}
    (h : groupaddLine users g = some l) : l.Opens USER_WORDS := by
  unfold groupaddLine at h
  simp only at h
  split at h
  · cases h
  split at h
  · exact (Option.some.inj h) ▸
      command_opens _ (opens_append _ (opens_append _ (opens_literal rfl)))
  · exact (Option.some.inj h) ▸ command_opens _ (opens_literal rfl)

theorem useraddLine_opens {u : Json} {l : Line} (h : useraddLine u = some l) :
    l.Opens USER_WORDS := by
  unfold useraddLine at h
  simp only at h
  split at h
  · cases h
  · exact (Option.some.inj h) ▸ command_opens _ (opens_literal rfl)

theorem opens_chpasswd (users : List Json) : OpensWith USER_WORDS (chpasswdLines users) := by
  refine opensWith_ite opensWith_nil ?_
  rw [opensWith_append]
  refine ⟨by simp, opensWith_ite opensWith_nil ?_⟩
  simp only [opensWith_cons, opensWith_nil, and_true]
  exact command_opens _ (opens_literal rfl)

theorem opens_sshKeys (u : Json) : OpensWith USER_WORDS (sshKeyLines u) := by
  refine opensWith_ite opensWith_nil ?_
  simp only [opensWith_cons, opensWith_nil, and_true]
  exact ⟨command_opens _ (opens_literal rfl), copy_opens _ _ (opens_literal rfl), command_opens _ (opens_literal rfl)⟩

theorem opens_users :
    OpensWith USER_WORDS (renderContainerfileUsers snap) := by
  refine opensWith_ite opensWith_nil (opensWith_containerSection ?_)
  simp only [opensWith_append]
  exact ⟨⟨⟨opensWith_filterMap fun g _ l h => groupaddLine_opens h,
    opensWith_filterMap fun u _ l h => useraddLine_opens h⟩, opens_chpasswd _⟩,
    opensWith_flatMap fun u _ => opens_sshKeys u⟩

def POLICY_WORDS : List String :=
  ["RUN spec=", "RUN eqs=", "RUN dnf install ", "RUN semanage ", CONTINUATION]

def SECURITY_WORDS : List String := "RUN setsebool " :: POLICY_WORDS

theorem opens_rule1 (spec : String) (deleteArgs addModifyArgs : List Segment) :
    OpensWith POLICY_WORDS (rule1Lines spec deleteArgs addModifyArgs) := by
  simp only [rule1Lines, RULE1_GUARD_LINES, List.cons_append, List.nil_append, opensWith_cons,
    opensWith_nil, and_true]
  exact ⟨command_opens _ (opens_literal rfl), command_opens _ (opens_append _ (opens_append _ (opens_literal rfl))),
    command_opens _ (opens_append _ (opens_literal rfl)),
    command_opens _ (opens_append _ (opens_append _ (opens_append _ (opens_literal rfl)))),
    command_opens _ (opens_literal rfl), command_opens _ (opens_literal rfl), command_opens _ (opens_literal rfl)⟩

theorem opens_rule2 (subject labeledLike : String) :
    OpensWith POLICY_WORDS (rule2Lines subject labeledLike) := by
  simp only [rule2Lines, opensWith_cons, opensWith_nil, and_true]
  exact ⟨command_opens _ (opens_append _ (opens_append _ (opens_literal rfl))), command_opens _ (opens_literal rfl),
    command_opens _ (opens_literal rfl), command_opens _ (opens_literal rfl)⟩

theorem opens_equivalence (entry : Equivalence) :
    OpensWith POLICY_WORDS (equivalenceLines entry) := by
  unfold equivalenceLines
  split
  · simp [fixmeLines]
  split
  · exact opensWith_nil
  · rw [opensWith_append]
    refine ⟨?_, opens_rule2 _ _⟩
    split <;> simp [symlinkParagraph]

theorem opens_emitEquivalence {entries : List Equivalence} {idx : Nat} {block : FcontextBlock}
    (h : OpensWith POLICY_WORDS block.rules) :
    OpensWith POLICY_WORDS (emitEquivalence entries idx block).rules := by
  unfold emitEquivalence
  split
  · exact h
  split
  · exact h
  · exact opensWith_append.mpr ⟨h, opens_equivalence _⟩

theorem opens_emitIfAny {entries : List Equivalence} {idx : Option Nat} {block : FcontextBlock}
    (h : OpensWith POLICY_WORDS block.rules) :
    OpensWith POLICY_WORDS (emitIfAny entries idx block).rules := by
  unfold emitIfAny
  split
  · exact opens_emitEquivalence h
  · exact h

theorem opens_emitRule {entries : List Equivalence} {block : FcontextBlock} {rule : FcontextRule}
    (h : OpensWith POLICY_WORDS block.rules) :
    OpensWith POLICY_WORDS (emitRule entries block rule).rules := by
  have fixme (cause : String) :
      OpensWith POLICY_WORDS (block.add (fixmeLines cause)).rules :=
    opensWith_append.mpr ⟨h, by simp [fixmeLines]⟩
  unfold emitRule
  split
  · exact fixme _
  split
  · exact h
  split
  · exact opens_emitIfAny h
  split
  · exact fixme _
  · exact opensWith_append.mpr ⟨opens_emitIfAny h, opens_rule1 _ _ _⟩

theorem opens_fcontextRules (sel : SelinuxSection) :
    OpensWith POLICY_WORDS (renderFcontextRules sel).rules := by
  have grown (rules : List FcontextRule) (block : FcontextBlock)
      (h : OpensWith POLICY_WORDS block.rules) :
      OpensWith POLICY_WORDS
        (rules.foldl (emitRule (selinuxEquivalences sel.fcontextRules)) block).rules := by
    induction rules generalizing block with
    | nil => exact h
    | cons rule rest ih => exact ih _ (opens_emitRule h)
  exact grown _ _ (opensWith_ite (by simp [replayParagraph]) opensWith_nil)

theorem opens_fcontextPreamble (sel : SelinuxSection) :
    OpensWith words (renderFcontextRules sel).preamble := by
  simp only [renderFcontextRules, opensWith_append]
  exact ⟨opensWith_ite (by simp) opensWith_nil,
    opensWith_ite (by simp [countParagraph]) opensWith_nil⟩

theorem opens_precondition : OpensWith POLICY_WORDS INSTALL_PRECONDITION := by
  simp only [INSTALL_PRECONDITION, opensWith_cons, note_opens, opensWith_nil, and_true, true_and]
  exact ⟨command_opens _ (opens_literal rfl), command_opens _ (opens_literal rfl), command_opens _ (opens_literal rfl), command_opens _ (opens_literal rfl),
    command_opens _ (opens_literal rfl), command_opens _ (opens_literal rfl), command_opens _ (opens_literal rfl), command_opens _ (opens_literal rfl)⟩

theorem opens_portLabels (labels : List SelinuxPortLabel) :
    OpensWith POLICY_WORDS (portLabelLines labels) := by
  refine opensWith_ite opensWith_nil ?_
  rw [opensWith_cons]
  refine ⟨note_opens _, opensWith_map fun pl _ => ?_⟩
  unfold portLabelLine
  split
  · exact command_opens _ (opens_literal rfl)
  · exact note_opens _

theorem booleanLine_opens {b : Json} {l : Line} (h : booleanLine b = some l) :
    l.Opens SECURITY_WORDS := by
  unfold booleanLine at h
  simp only at h
  split at h
  · cases h
  split at h
  · exact (Option.some.inj h) ▸ command_opens _ (opens_literal rfl)
  · exact (Option.some.inj h) ▸ note_opens _

theorem opens_booleans (overrides : List Json) :
    OpensWith SECURITY_WORDS (booleanLines overrides) := by
  refine opensWith_ite opensWith_nil ?_
  rw [opensWith_cons]
  exact ⟨note_opens _, opensWith_filterMap fun b _ l h => booleanLine_opens h⟩

theorem opens_customModules (modules : List String) :
    OpensWith words (customModuleLines modules) :=
  opensWith_ite opensWith_nil (by simp)

theorem opens_selinux :
    OpensWith SECURITY_WORDS (selinuxSectionLines snap) := by
  unfold selinuxSectionLines
  split
  · exact opensWith_nil
  · refine opensWith_containerSection ?_
    have policy {lines : List Line} (h : OpensWith POLICY_WORDS lines) :
        OpensWith SECURITY_WORDS lines := h.weaken (List.subset_cons_self _ _)
    simp only [opensWith_append]
    exact ⟨⟨⟨⟨⟨⟨opens_customModules _, opens_booleans _⟩, opens_fcontextPreamble _⟩,
      policy (opensWith_ite opens_precondition opensWith_nil)⟩, policy (opens_fcontextRules _)⟩,
      policy (opens_portLabels _)⟩, opensWith_ite (by simp) opensWith_nil⟩

theorem opens_degraded (id : InspectorId) (name : String) :
    OpensWith words (degradedFixme snap id name) :=
  opensWith_ite (by simp) opensWith_nil

theorem opens_subscription :
    OpensWith words (subscriptionLines snap) :=
  opensWith_ite (by simp) opensWith_nil

theorem opens_completeness :
    OpensWith words (completenessLines snap) :=
  opensWith_ite opensWith_nil (by simp)

theorem opens_bootcLabel :
    OpensWith ["LABEL "] (bootcLabelLines snap) := by
  refine opensWith_ite ?_ opensWith_nil
  simp only [opensWith_cons, note_opens, blank_opens, opensWith_nil, and_true, true_and]
  exact command_opens _ (opens_literal rfl)

theorem opens_firewall : OpensWith words (firewallLines snap) :=
  opensWith_containerSection (opensWith_ite opensWith_nil (by simp))

theorem opens_compose : OpensWith words (composeCommentLines snap) := by
  refine opensWith_ite opensWith_nil (opensWith_containerSection ?_)
  rw [opensWith_append]
  exact ⟨by simp, opensWith_notes _ _⟩

theorem opens_network : OpensWith words (networkLines snap) := by
  simp only [networkLines, opensWith_append]
  refine ⟨⟨opensWith_containerSection (opensWith_notes _ _),
    opensWith_containerSection (opensWith_ite opensWith_nil ?_)⟩,
    opensWith_containerSection (opensWith_notes _ _)⟩
  rw [opensWith_cons]
  exact ⟨note_opens _, opensWith_notes _ _⟩

theorem opens_secrets : OpensWith words (secretsCommentLines snap) := by
  simp only [secretsCommentLines, opensWith_append]
  constructor
  all_goals
    refine opensWith_ite opensWith_nil (opensWith_containerSection ?_)
    simp only [List.cons_append, opensWith_cons, opensWith_append, note_opens, opensWith_nil,
      and_true, true_and]
    exact opensWith_notes _ _

theorem opens_validate : OpensWith ["RUN bootc "] validateLines := by
  refine opensWith_containerSection ?_
  simp only [opensWith_cons, opensWith_nil, and_true]
  exact command_opens _ (opens_literal rfl)

structure OpenedSection where
  words : List String
  lines : List Line
  opens : OpensWith words lines

/-- A part that runs nothing. -/
def inertSection (lines : List Line) (h : OpensWith [] lines) : OpenedSection := ⟨[], lines, h⟩

theorem inertSection_lines (lines : List Line) (h : OpensWith [] lines) :
    (inertSection lines h).lines = lines := rfl

def degradedSection (id : InspectorId) (name : String) : OpenedSection :=
  inertSection (degradedFixme snap id name) (opens_degraded snap id name)

theorem degradedSection_lines (id : InspectorId) (name : String) :
    (degradedSection snap id name).lines = degradedFixme snap id name := rfl

def containerfileSections (inputs : RenderInputs) (snap : InspectionSnapshot) :
    List OpenedSection :=
  [inertSection (subscriptionLines snap) (opens_subscription snap),
   inertSection (completenessLines snap) (opens_completeness snap),
   ⟨PACKAGE_WORDS, _, opens_packages snap (baseImageFromSnapshot snap) inputs.originalIncludes
     inputs.ctx⟩,
   ⟨["LABEL "], _, opens_bootcLabel snap⟩,
   degradedSection snap .services "services",
   ⟨SERVICE_WORDS, _, opens_services snap⟩,
   ⟨["COPY "], _, opens_dropIns snap⟩,
   degradedSection snap .network "network",
   inertSection (firewallLines snap) (opens_firewall snap),
   degradedSection snap .scheduledTasks "scheduled_tasks",
   ⟨SERVICE_WORDS, _, opens_scheduledTasks snap⟩,
   degradedSection snap .config "config",
   ⟨CONFIG_WORDS, _, opens_config snap inputs.materializedRoots⟩,
   degradedSection snap .nonRpmSoftware "non_rpm_software",
   ⟨PAYLOAD_WORDS, _, opens_nonRpm inputs.digest snap inputs.ctx⟩,
   degradedSection snap .containers "containers",
   ⟨SYSTEM_WORDS, _, opens_containers snap⟩,
   inertSection (composeCommentLines snap) (opens_compose snap),
   degradedSection snap .usersGroups "users_groups",
   ⟨USER_WORDS, _, opens_users snap⟩,
   degradedSection snap .kernelBoot "kernel_boot",
   ⟨SYSTEM_WORDS, _, opens_kernelBoot snap⟩,
   degradedSection snap .selinux "selinux",
   ⟨SECURITY_WORDS, _, opens_selinux snap⟩,
   inertSection (networkLines snap) (opens_network snap),
   inertSection (secretsCommentLines snap) (opens_secrets snap),
   ⟨FILE_WORDS, _, opens_varDirs snap (renderTmpfilesConf snap).isSome⟩,
   ⟨["RUN bootc "], _, opens_validate⟩]

theorem renderContainerfileLines_eq (inputs : RenderInputs) (snap : InspectionSnapshot) :
    renderContainerfileLines inputs snap =
      (containerfileSections inputs snap).flatMap (·.lines) := by
  unfold renderContainerfileLines containerfileSections
  simp only [List.flatMap_cons, List.flatMap_nil, inertSection_lines, degradedSection_lines,
    List.append_nil, List.append_assoc]

/-- The parts that may hold a command that begins with the word. -/
def sectionsOf (word : String) (inputs : RenderInputs) (snap : InspectionSnapshot) :
    List OpenedSection :=
  (containerfileSections inputs snap).filter fun sec => !sec.words.all (clash word)

theorem mem_sectionsOf {word : String} {inputs : RenderInputs} {snap : InspectionSnapshot} {l : Line}
    (mem : l ∈ renderContainerfileLines inputs snap) (run : l.isRun)
    (begins : word.toList <+: l.text.toList) :
    ∃ sec ∈ sectionsOf word inputs snap, l ∈ sec.lines := by
  rw [renderContainerfileLines_eq] at mem
  obtain ⟨sec, hsec, hl⟩ := List.mem_flatMap.mp mem
  refine ⟨sec, List.mem_filter.mpr ⟨hsec, ?_⟩, hl⟩
  by_contra clashes
  simp only [Bool.not_eq_true', Bool.not_eq_false] at clashes
  exact sec.opens.not_leading clashes hl run begins

end Inspectah
