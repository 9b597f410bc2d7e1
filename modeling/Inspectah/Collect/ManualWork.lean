import Inspectah.Collect.Repoless
import Inspectah.Render.InstallOperands

/-!
Who needs manual work, as the scan sees it and as the renderer does: the packages that are
neither served by a repository nor bring one along.
-/
namespace Inspectah

structure CollectedRpm where
  rpm : RpmSection
  unmarked : ∀ pkg ∈ rpm.packagesAdded, pkg.repoEnablingFrom = [] ∧ pkg.repolessAnnotation = ""

structure WorkingDnf where
  dnf : DnfHost
  lists : dnf.repolist.success
  queries : dnf.repoquery.success

def WorkingDnf.enabledRepos (host : WorkingDnf) : List String :=
  (getEnabledRepos host.dnf.repolist).getD []

def WorkingDnf.available (host : WorkingDnf) : Available :=
  (getAvailablePackages host.dnf.repoquery).getD []

theorem WorkingDnf.getEnabledRepos (host : WorkingDnf) :
    getEnabledRepos host.dnf.repolist = some host.enabledRepos := by
  simp [enabledRepos, Inspectah.getEnabledRepos, host.lists]

theorem WorkingDnf.getAvailablePackages (host : WorkingDnf) :
    getAvailablePackages host.dnf.repoquery = some host.available := by
  simp [available, Inspectah.getAvailablePackages, host.queries]

def ExactlyOne (a b c : Prop) : Prop := (a ∧ ¬b ∧ ¬c) ∨ (¬a ∧ b ∧ ¬c) ∨ (¬a ∧ ¬b ∧ c)

section

variable (lowercase : String → String) (host : WorkingDnf)

/-- The section of the recorded id is enabled, or without one an enabled one has it as short
    name. -/
def InEnabledRepo (pkg : PackageEntry) : Prop :=
  pkg.sourceRepo ≠ "" ∧
    match pkg.repoAttribution with
    | .exact _ => ∃ fullId ∈ host.enabledRepos, lowercase fullId = lowercase pkg.sourceRepo
    | _ => repoMatchesEnabled lowercase pkg.sourceRepo host.enabledRepos

/-- The recorded repository is enabled, or another has the package; a local path is none. -/
def IsServed (pkg : PackageEntry) : Prop :=
  InEnabledRepo lowercase host pkg ∨
    pkg.sourceRepo ≠ "" ∧ ¬Text.startsWith pkg.sourceRepo "@" ∧
      ∃ answer ∈ host.available, answer.1 = pkg.name

def normalized (collected : CollectedRpm) : RpmSection :=
  { collected.rpm with
    packagesAdded :=
      normalizeSourceRepos lowercase collected.rpm.packagesAdded collected.rpm.repoFiles }

def scanned (collected : CollectedRpm) : RpmSection :=
  scanDnfCacheForRepoless lowercase host.dnf (normalized lowercase collected)

structure ManualWorkAgreed (rpm : RpmSection) (orig : Option (TextMap Bool))
    (ctx : Option RenderContext) : Prop where
  one_class : ∀ pkg ∈ rpm.packagesAdded, ExactlyOne (IsServed lowercase host pkg)
    (pkg.repoEnablingFrom ≠ []) (pkg.repolessAnnotation ≠ "")
  operands : ∀ pkg ∈ ordinaryOperands rpm orig ctx,
    IsServed lowercase host pkg ∨ pkg.repoEnablingFrom ≠ []
  follow_ups : ∀ pkg ∈ rpm.packagesAdded, (manualFollowUpLine pkg).isSome → pkg.repolessAnnotation ≠ ""
  blocks : ∀ pkg ∈ rpm.packagesAdded.filter fun p => !p.repolessAnnotation.isEmpty,
    pkg.repolessAnnotation ≠ ""

def IsLocalState (state : PackageState) : Prop := state = .localInstall ∨ state = .noRepo

def WorkIsPlain (collected : CollectedRpm) (orig : Option (TextMap Bool))
    (ctx : Option RenderContext) (pkg : PackageEntry) : Prop :=
  match scanVerdict lowercase host.dnf (normalized lowercase collected) pkg with
  | .enabledRepo => IsServed lowercase host pkg ∧ ¬IsLocalState pkg.state ∧
      ¬Text.eqIgnoreAsciiCase pkg.sourceRepo COMMANDLINE_REPO
  | .enabling _ => ¬IsLocalState pkg.state
  | .availableByName => ¬IsLocalState pkg.state
  | .repoless _ =>
    IsLocalState pkg.state ∨ pkg.sourceRepo = "" ∨
      Text.eqIgnoreAsciiCase pkg.sourceRepo COMMANDLINE_REPO ∨
      ¬PassesFilters (scanned lowercase host collected) orig ctx
        (scanPackage lowercase host.dnf (normalized lowercase collected) pkg)

variable {lowercase host} {rpm : RpmSection} {pkg : PackageEntry}

theorem containsChars_self (cs : List Char) : Text.containsChars cs cs = true := by
  cases cs with
  | nil => rfl
  | cons c rest =>
    rw [Text.containsChars, Bool.or_eq_true]
    exact .inl (List.isPrefixOf_iff_prefix.mpr (List.prefix_refl _))

theorem repoMatchesEnabled_of_inEnabledRepo (enabled : InEnabledRepo lowercase host pkg) :
    repoMatchesEnabled lowercase pkg.sourceRepo host.enabledRepos = true := by
  obtain ⟨-, among⟩ := enabled
  split at among
  · obtain ⟨fullId, mem, same⟩ := among
    refine List.any_eq_true.mpr ⟨fullId, mem, ?_⟩
    rw [same, Text.contains]
    exact containsChars_self _
  · exact among

theorem isCandidate_iff : isCandidate lowercase (some host.enabledRepos) pkg = true ↔
    pkg.sourceRepo = "" ∨ repoMatchesEnabled lowercase pkg.sourceRepo host.enabledRepos = false := by
  simp [isCandidate, String.isEmpty_iff]

theorem not_inEnabledRepo_of_candidate
    (candidate : isCandidate lowercase (some host.enabledRepos) pkg) :
    ¬InEnabledRepo lowercase host pkg := by
  intro enabled
  rcases isCandidate_iff.mp candidate with unrecorded | unmatched
  · exact enabled.1 unrecorded
  · rw [repoMatchesEnabled_of_inEnabledRepo enabled] at unmatched
    cases unmatched

theorem isClearedByName_iff : isClearedByName (some host.available) pkg = true ↔
    pkg.sourceRepo ≠ "" ∧ ¬Text.startsWith pkg.sourceRepo "@" ∧
      ∃ answer ∈ host.available, answer.1 = pkg.name := by
  simp only [isClearedByName, Available.has, Bool.and_eq_true, Bool.not_eq_true', Bool.or_eq_false_iff,
    List.any_eq_true, beq_iff_eq, Bool.not_eq_true, String.isEmpty_eq_false_iff]
  constructor
  · rintro ⟨⟨unpinned, recorded⟩, named⟩
    exact ⟨recorded, unpinned, named⟩
  · rintro ⟨recorded, unpinned, named⟩
    exact ⟨⟨unpinned, recorded⟩, named⟩

theorem isServed_iff_of_candidate (candidate : isCandidate lowercase (some host.enabledRepos) pkg) :
    IsServed lowercase host pkg ↔ isClearedByName (some host.available) pkg := by
  rw [IsServed, isClearedByName_iff]
  exact or_iff_right (not_inEnabledRepo_of_candidate candidate)

theorem of_classifyRepoEnabling {available : Option Available} {serving : List RepoId}
    (h : classifyRepoEnabling rpm available pkg = .enabling serving) :
    pkg.sourceRepo = COMMANDLINE_REPO ∧ serving ≠ [] := by
  unfold classifyRepoEnabling at h
  split at h
  · cases h
  · split at h
    · cases h
    · rename_i pinned
      split at h
      · cases h
      · dsimp only at h
        split at h
        · cases h
        · split at h
          · cases h
          · split at h
            · rename_i has
              cases h
              refine ⟨?_, Available.serving_ne_nil has⟩
              by_contra other
              exact pinned (by rw [bne_iff_ne.mpr other, Bool.true_or])
            · cases h

theorem scanVerdict_cases (host : WorkingDnf) (rpm : RpmSection) (pkg : PackageEntry) :
    (scanVerdict lowercase host.dnf rpm pkg = .enabledRepo ∧ pkg.sourceRepo ≠ "") ∨
    (isCandidate lowercase (some host.enabledRepos) pkg ∧
      ((∃ serving, scanVerdict lowercase host.dnf rpm pkg = .enabling serving ∧
          pkg.sourceRepo = COMMANDLINE_REPO ∧ serving ≠ []) ∨
        (scanVerdict lowercase host.dnf rpm pkg = .availableByName ∧
          isClearedByName (some host.available) pkg) ∨
        ∃ captured, scanVerdict lowercase host.dnf rpm pkg = .repoless captured ∧
          isClearedByName (some host.available) pkg = false)) := by
  have judged : ∀ captured, judgeByName (some host.available) captured pkg = .availableByName ∧
      isClearedByName (some host.available) pkg = true ∨
      judgeByName (some host.available) captured pkg = .repoless captured ∧
        isClearedByName (some host.available) pkg = false := by
    intro captured
    cases named : isClearedByName (some host.available) pkg <;> simp [judgeByName, named]
  unfold scanVerdict
  rw [host.getEnabledRepos, host.getAvailablePackages]
  dsimp only
  cases candidate : isCandidate lowercase (some host.enabledRepos) pkg with
  | false =>
    refine .inl ⟨rfl, fun unrecorded => ?_⟩
    rw [isCandidate_iff.mpr (.inl unrecorded)] at candidate
    cases candidate
  | true =>
    refine .inr ⟨rfl, ?_⟩
    rw [if_pos rfl]
    cases verdict : classifyRepoEnabling rpm (some host.available) pkg with
    | enabling serving => exact .inl ⟨serving, rfl, of_classifyRepoEnabling verdict⟩
    | configOnly captured =>
      rcases judged (some captured) with named | left
      · exact .inr (.inl named)
      · exact .inr (.inr ⟨_, left⟩)
    | repoless =>
      rcases judged none with named | left
      · exact .inr (.inl named)
      · exact .inr (.inr ⟨_, left⟩)

theorem manualFollowUpReason_eq_none : manualFollowUpReason pkg = none ↔
    ¬IsLocalState pkg.state ∧ pkg.sourceRepo ≠ "" ∧
      ¬(Text.eqIgnoreAsciiCase pkg.sourceRepo COMMANDLINE_REPO ∧ pkg.repoEnablingFrom = []) := by
  rw [manualFollowUpReason, IsLocalState]
  split
  · simp_all
  · split
    · simp_all
    · split
      · simp_all [String.isEmpty_iff]
      · simp_all [String.isEmpty_iff, List.isEmpty_iff]

theorem manualFollowUpLine_isSome :
    (manualFollowUpLine pkg).isSome ↔ manualFollowUpReason pkg ≠ none := by
  rw [manualFollowUpLine, Option.isSome_map, Option.isSome_iff_ne_none]

theorem toLower_eq_at {c : Char} (h : c.toLower = '@') : c = '@' := by
  unfold Char.toLower at h
  split at h
  · rename_i upper
    have range : 65 ≤ c.val.toNat ∧ c.val.toNat ≤ 90 := upper
    have value : (c.val + ('a'.val - 'A'.val)).toNat = 64 := congrArg (fun c => c.val.toNat) h
    have step : ('a'.val - 'A'.val).toNat = 32 := rfl
    rw [UInt32.toNat_add] at value
    omega
  · exact h

theorem startsWith_at_of_commandline {recorded : String}
    (h : Text.eqIgnoreAsciiCase recorded COMMANDLINE_REPO) : Text.startsWith recorded "@" = true := by
  rw [Text.asciiLower_eq_of_eqIgnoreAsciiCase] at h
  have chars : recorded.toList.map Char.toLower = '@' :: "commandline".toList :=
    (String.ofList_injective h).trans (by decide)
  rw [Text.startsWith]
  cases spelled : recorded.toList with
  | nil =>
    rw [spelled] at chars
    cases chars
  | cons c rest =>
    rw [spelled] at chars
    rw [toLower_eq_at (List.cons.inj chars).1]
    rfl

structure PackageAgreed (lowercase : String → String) (host : WorkingDnf) (rpm : RpmSection)
    (orig : Option (TextMap Bool)) (ctx : Option RenderContext) (pkg : PackageEntry) : Prop where
  one_class : ExactlyOne (IsServed lowercase host pkg) (pkg.repoEnablingFrom ≠ [])
    (pkg.repolessAnnotation ≠ "")
  operand : isPackageInstallable pkg → PassesFilters rpm orig ctx pkg → pkg.repoEnablingFrom = [] →
    IsServed lowercase host pkg
  follow_up : manualFollowUpReason pkg ≠ none → pkg.repolessAnnotation ≠ ""

variable {orig : Option (TextMap Bool)} {ctx : Option RenderContext} {collected : CollectedRpm}

theorem manualWorkAgreed_iff_forall : ManualWorkAgreed lowercase host rpm orig ctx ↔
    ∀ pkg ∈ rpm.packagesAdded, PackageAgreed lowercase host rpm orig ctx pkg := by
  constructor
  · intro agreed pkg mem
    refine ⟨agreed.one_class pkg mem, fun installable passes plain => ?_, fun reason =>
      agreed.follow_ups pkg mem (manualFollowUpLine_isSome.mpr reason)⟩
    rcases agreed.operands pkg (mem_ordinaryOperands.mpr ⟨mem, installable, passes, plain⟩) with
      served | enabling
    · exact served
    · exact absurd plain enabling
  · intro agreed
    refine ⟨fun pkg mem => (agreed pkg mem).one_class, fun pkg operand => ?_, fun pkg mem line =>
      (agreed pkg mem).follow_up (manualFollowUpLine_isSome.mp line), fun pkg block => ?_⟩
    · obtain ⟨mem, installable, passes, plain⟩ := mem_ordinaryOperands.mp operand
      exact .inl ((agreed pkg mem).operand installable passes plain)
    · simpa [String.isEmpty_iff] using (List.mem_filter.mp block).2

theorem isServed_scanPackage (dnf : DnfHost) (rpm : RpmSection) :
    IsServed lowercase host (scanPackage lowercase dnf rpm pkg) ↔ IsServed lowercase host pkg := by
  unfold scanPackage
  split
  · rfl
  · rfl
  · rfl
  · rw [annotateRepoless]
    split <;> rfl

theorem append_ne_empty {s t : String} (h : t ≠ "") : s ++ t ≠ "" := by
  intro nothing
  rw [← String.toList_inj, String.toList_append] at nothing
  exact h (String.toList_inj.mp (List.append_eq_nil_iff.mp nothing).2)

theorem annotateRepoless_marks (cache : List String) (captured : Option Nat) (pkg : PackageEntry) :
    PackageEntry.repolessAnnotation (annotateRepoless cache captured pkg) ≠ "" ∧
      (annotateRepoless cache captured pkg).repoEnablingFrom = pkg.repoEnablingFrom ∧
      (annotateRepoless cache captured pkg).sourceRepo = pkg.sourceRepo ∧
      (annotateRepoless cache captured pkg).state = pkg.state := by
  rw [annotateRepoless]
  split <;> exact ⟨append_ne_empty (by decide), rfl, rfl, rfl⟩

theorem unmarked_of_normalized (mem : pkg ∈ (normalized lowercase collected).packagesAdded) :
    pkg.repoEnablingFrom = [] ∧ pkg.repolessAnnotation = "" := by
  obtain ⟨recorded, listed, rfl⟩ := List.mem_map.mp mem
  exact collected.unmarked recorded listed

theorem packageAgreed_unmarked (enabling : pkg.repoEnablingFrom = [])
    (unannotated : pkg.repolessAnnotation = "") (recorded : pkg.sourceRepo ≠ "") :
    PackageAgreed lowercase host rpm orig ctx pkg ↔ IsServed lowercase host pkg ∧
      ¬IsLocalState pkg.state ∧ ¬Text.eqIgnoreAsciiCase pkg.sourceRepo COMMANDLINE_REPO := by
  have reason : manualFollowUpReason pkg = none ↔
      ¬IsLocalState pkg.state ∧ ¬Text.eqIgnoreAsciiCase pkg.sourceRepo COMMANDLINE_REPO := by
    rw [manualFollowUpReason_eq_none, and_iff_right recorded, enabling, and_iff_left rfl]
  rw [← reason]
  constructor
  · intro agreed
    refine ⟨?_, ?_⟩
    · rcases agreed.one_class with one | one | one
      · exact one.1
      · exact absurd enabling one.2.1
      · exact absurd unannotated one.2.2
    · by_contra some
      exact agreed.follow_up some unannotated
  · rintro ⟨served, none⟩
    exact ⟨.inl ⟨served, not_not.mpr enabling, not_not.mpr unannotated⟩, fun _ _ _ => served,
      fun some => absurd none some⟩

theorem packageAgreed_iff (mem : pkg ∈ (normalized lowercase collected).packagesAdded) :
    PackageAgreed lowercase host (scanned lowercase host collected) orig ctx
        (scanPackage lowercase host.dnf (normalized lowercase collected) pkg) ↔
      WorkIsPlain lowercase host collected orig ctx pkg := by
  obtain ⟨enabling, unannotated⟩ := unmarked_of_normalized mem
  have served := @isServed_scanPackage lowercase host pkg host.dnf (normalized lowercase collected)
  unfold WorkIsPlain
  rcases scanVerdict_cases host (normalized lowercase collected) pkg with
    ⟨verdict, recorded⟩ | ⟨candidate, ⟨serving, verdict, pinned, some⟩ | ⟨verdict, cleared⟩ |
      ⟨captured, verdict, uncleared⟩⟩
  · rw [scanPackage, verdict]
    exact packageAgreed_unmarked enabling unannotated recorded
  · -- Pinned to a local path, so no name lookup serves it.
    have unserved : ¬IsServed lowercase host pkg := by
      rw [isServed_iff_of_candidate candidate, isClearedByName_iff, pinned]
      exact fun cleared => cleared.2.1 rfl
    rw [scanPackage, verdict] at served ⊢
    have reason : manualFollowUpReason { pkg with repoEnablingFrom := serving } = none ↔
        ¬IsLocalState pkg.state := by
      rw [manualFollowUpReason_eq_none]
      simp [pinned, some, COMMANDLINE_REPO]
    dsimp only at served ⊢
    constructor
    · intro agreed
      rw [← reason]
      by_contra some
      exact agreed.follow_up some unannotated
    · intro plain
      exact ⟨.inr (.inl ⟨served.not.mpr unserved, some, not_not.mpr unannotated⟩),
        fun _ _ none => absurd none some, fun some => absurd (reason.mpr plain) some⟩
  · rw [scanPackage, verdict]
    have named := isClearedByName_iff.mp cleared
    have unpinned : ¬Text.eqIgnoreAsciiCase pkg.sourceRepo COMMANDLINE_REPO := fun pinned =>
      named.2.1 (startsWith_at_of_commandline pinned)
    dsimp only
    rw [packageAgreed_unmarked enabling unannotated named.1, isServed_iff_of_candidate candidate,
      and_iff_right cleared, and_iff_left unpinned]
  · have unserved : ¬IsServed lowercase host pkg := by
      rw [isServed_iff_of_candidate candidate, uncleared]
      exact Bool.false_ne_true
    have marks := annotateRepoless_marks (cacheFiles host.dnf.findCache) captured pkg
    rw [scanPackage, verdict] at served ⊢
    dsimp only at served ⊢
    constructor
    · intro agreed
      by_contra listed
      simp only [not_or, not_not] at listed
      have installable :
          isPackageInstallable (annotateRepoless (cacheFiles host.dnf.findCache) captured pkg) := by
        rw [isPackageInstallable, Option.isNone_iff_eq_none, manualFollowUpReason_eq_none, marks.2.2.1,
          marks.2.2.2]
        exact ⟨listed.1, listed.2.1, fun both => listed.2.2.1 both.1⟩
      exact unserved (served.mp (agreed.operand installable listed.2.2.2 (marks.2.1.trans enabling)))
    · intro plain
      refine ⟨.inr (.inr ⟨served.not.mpr unserved, ?_, marks.1⟩), fun installable passes none => ?_,
        fun _ => marks.1⟩
      · rw [marks.2.1, enabling, not_not]
      · rw [isPackageInstallable, Option.isNone_iff_eq_none, manualFollowUpReason_eq_none, marks.2.2.1,
          marks.2.2.2, marks.2.1, enabling] at installable
        rcases plain with local_state | unrecorded | pinned | filtered
        · exact absurd local_state installable.1
        · exact absurd unrecorded installable.2.1
        · exact absurd ⟨pinned, rfl⟩ installable.2.2
        · exact absurd passes filtered

end

def appstreamOnly : WorkingDnf where
  dnf :=
    { repolist := { stdout := "repo id repo name\nappstream AppStream\n" }
      repoquery := {}
      findCache := {} }
  lists := rfl
  queries := rfl

def internalTool : PackageEntry :=
  { name := "custom-tool", version := "1.2", release := "1", arch := "x86_64"
    sourceRepo := "internal-tools" }

/-- The tool after the sections of the host's repository files are looked through. -/
def staleTool : PackageEntry := { internalTool with repoAttribution := .stale "internal-tools" }

def toolSection : CollectedRpm where
  rpm := { packagesAdded := [internalTool] }
  unmarked := by
    intro pkg mem
    rw [List.mem_singleton.mp mem]
    exact ⟨rfl, rfl⟩

end Inspectah
