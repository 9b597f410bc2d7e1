import Inspectah.Library.Keeping
import Inspectah.Redact.Passes

/-!
What a token says of its secret. A registry numbers the keys of a kind in the order they
first come, so within it tokens are equal when keys are; between registries they are equal
when as many keys came before.
-/
namespace Inspectah

open Numbering Keeping

def keysOf (uses : List TokenUse) : List (String × String) := uses.map fun u => (u.label, u.key)

def placeIn (uses : List TokenUse) (u : TokenUse) : Nat := position (keysOf uses) u.label u.key

def Numbered (uses : List TokenUse) : Prop :=
  ∀ u ∈ uses, u.token = tokenText u.label (placeIn uses u)

theorem mem_keysOf {uses : List TokenUse} {u : TokenUse} (mem : u ∈ uses) :
    (u.label, u.key) ∈ keysOf uses := List.mem_map_of_mem mem

theorem tokenText_inj {label : String} {n m : Nat} :
    tokenText label n = tokenText label m ↔ n = m := by
  refine ⟨fun same => ?_, fun same => same ▸ rfl⟩
  have digits := congrArg String.toList same
  simp only [tokenText, String.toList_append, List.append_cancel_left_eq, Nat.toString_eq_repr,
    Nat.toList_repr] at digits
  rw [← Nat.ofDigitChars_toDigits (b := 10) (n := n) (by decide) (by decide), digits,
    Nat.ofDigitChars_toDigits (by decide) (by decide)]

structure GivenBy (registry : CounterRegistry) (uses : List TokenUse) : Prop where
  tracks : Tracks registry (keysOf uses)
  numbered : Numbered uses

theorem givenBy_nil : GivenBy {} [] := ⟨tracks_nil, List.forall_mem_nil _⟩

theorem GivenBy.concat {registry : CounterRegistry} {uses : List TokenUse}
    (kept : GivenBy registry uses) {u : TokenUse}
    (given : u.token = (tokenFor registry u.label u.key).1) :
    GivenBy (tokenFor registry u.label u.key).2 (uses ++ [u]) := by
  obtain ⟨number, tracks⟩ := tracks_number kept.tracks u.label u.key
  have keys : keysOf (uses ++ [u]) = keysOf uses ++ [(u.label, u.key)] := List.map_append
  refine ⟨by rw [keys]; exact tracks, fun v mem => ?_⟩
  rw [placeIn, keys]
  rcases List.mem_append.mp mem with old | new
  · rw [position_append (mem_keysOf old)]
    exact kept.numbered v old
  · rw [List.mem_singleton.mp new, given, tokenFor, ← number]

theorem buildReplacement_use {content : String} (keying : Keying) (registry : CounterRegistry)
    (m : Tagged content) (done : Replaced) (same : (buildReplacement keying registry m).1 = done) :
    done.token = (tokenFor registry done.label done.key).1 ∧
      (buildReplacement keying registry m).2 = (tokenFor registry done.label done.key).2 := by
  subst same
  unfold buildReplacement
  dsimp only
  split <;> exact ⟨rfl, rfl⟩

theorem GivenBy.buildReplacements {content : String} {registry : CounterRegistry}
    {uses : List TokenUse} (kept : GivenBy registry uses) (keying : Keying)
    (found : List (Tagged content)) :
    GivenBy (buildReplacements keying registry found).2
      (uses ++ tokenUses (Inspectah.buildReplacements keying registry found).1) := by
  induction found generalizing registry uses with
  | nil => exact (List.append_nil uses).symm ▸ kept
  | cons m rest ih =>
    obtain ⟨token, after⟩ := buildReplacement_use keying registry m _ rfl
    have more := ih (after ▸ kept.concat token)
    rw [List.append_assoc] at more
    exact more

def Run.registries (run : Run) : List (List TokenUse) := run.shared :: run.alone

structure WellNumbered (run : Run) : Prop where
  shared : GivenBy run.registry run.shared
  alone : ∀ uses ∈ run.alone, Numbered uses

theorem keeps_report (findings : List RedactionFinding) :
    Keeps WellNumbered (report findings) :=
  keeps_modify fun _ held => ⟨held.shared, held.alone⟩

theorem keeps_tokenOf (label secret : String) : Keeps WellNumbered (tokenOf label secret) :=
  fun run held =>
    let use : TokenUse := ⟨label, secret, secret, (tokenFor run.registry label secret).1⟩
    ⟨held.shared.concat (u := use) rfl, held.alone⟩

theorem GivenBy.scanAndRedactField {registry : CounterRegistry} {uses : List TokenUse}
    (kept : GivenBy registry uses) (re : RegexEngine) (keying : Keying) (content path : String) :
    GivenBy (scanAndRedactField re keying content path registry).registry
      (uses ++ tokenUses
        (Inspectah.scanAndRedactField re keying content path registry).replaced) := by
  unfold Inspectah.scanAndRedactField
  dsimp only
  split
  · exact (List.append_nil uses).symm ▸ kept
  · exact kept.buildReplacements keying _

theorem numbered_redactString {re : RegexEngine} {content text : String}
    {replaced : List Replaced} (h : redactString re content = some (text, replaced)) :
    Numbered (tokenUses replaced) := by
  unfold redactString at h
  split at h
  · cases h
  · dsimp only at h
    split at h
    · cases h
    · obtain ⟨-, rfl⟩ := Prod.mk.inj (Option.some.inj h)
      exact (givenBy_nil.buildReplacements .secret _).numbered

variable (tools : RedactTools)

theorem keeps_redactField (keying : Keying) (content path : String) :
    Keeps WellNumbered (redactField tools keying content path) :=
  fun _ held => ⟨held.shared.scanAndRedactField tools.engine keying content path, held.alone⟩

theorem keeps_redactAlone (content path : String) :
    Keeps WellNumbered (redactAlone tools content path) := by
  unfold redactAlone
  split
  · exact keeps_pure none
  next text replaced redacted =>
    refine keeps_bind (keeps_modify fun run held => ⟨held.shared, fun uses mem => ?_⟩) fun _ =>
      keeps_pure _
    rcases List.mem_append.mp mem with old | new
    · exact held.alone uses old
    · exact List.mem_singleton.mp new ▸ numbered_redactString redacted

theorem keeps_config (config : ConfigSection) : Keeps WellNumbered (redactConfig tools config) :=
  keeps_bind (keeps_mapM (fun _ => keeps_bind (keeps_redactField tools _ _ _) fun _ =>
    keeps_pure _) _) fun _ => keeps_pure _

theorem keeps_repoFile (file : RepoFile) : Keeps WellNumbered (redactRepoFile tools file) :=
  keeps_bind (keeps_redactField tools _ _ _) fun _ => keeps_pure _

theorem keeps_rpm (rpm : RpmSection) : Keeps WellNumbered (redactRpm tools rpm) :=
  keeps_bind (keeps_mapM (keeps_repoFile tools) _) fun _ =>
    keeps_bind (keeps_mapM (keeps_repoFile tools) _) fun _ => keeps_pure _

theorem keeps_services (services : ServiceSection) :
    Keeps WellNumbered (redactServices tools services) :=
  keeps_bind (keeps_mapM (fun _ => keeps_bind (keeps_redactField tools _ _ _) fun _ =>
    keeps_pure _) _) fun _ => keeps_pure _

theorem keeps_mountOption (opt : String) : Keeps WellNumbered (redactMountOption opt) := by
  unfold redactMountOption
  split
  · exact keeps_bind (keeps_tokenOf _ _) fun _ => keeps_pure _
  · split
    · exact keeps_ite (keeps_pure _) (keeps_bind (keeps_tokenOf _ _) fun _ => keeps_pure _)
    · exact keeps_pure _

theorem keeps_fstabEntry (entry : FstabEntry) : Keeps WellNumbered (redactFstabEntry entry) := by
  have options : Keeps WellNumbered (redactMountOptions entry.options) :=
    keeps_bind (keeps_mapM keeps_mountOption _) fun _ => keeps_pure _
  exact keeps_ite (keeps_bind options fun _ => keeps_bind (keeps_report _) fun _ => keeps_pure _)
    (keeps_pure _)

theorem keeps_storage (storage : StorageSection) : Keeps WellNumbered (redactStorage storage) :=
  keeps_bind (keeps_mapM keeps_fstabEntry _) fun _ =>
    keeps_bind (keeps_report _) fun _ => keeps_pure _

theorem keeps_kernelBoot (boot : KernelBootSection) :
    Keeps WellNumbered (redactKernelBoot tools boot) :=
  keeps_bind (keeps_redactField tools _ _ _) fun _ => keeps_pure _

theorem keeps_network (network : NetworkSection) : Keeps WellNumbered (redactNetwork network) :=
  keeps_bind (keeps_mapM (fun _ => keeps_bind (keeps_report _) fun _ => keeps_pure _) _)
    fun _ => keeps_pure _

theorem keeps_container (container : RunningContainer) :
    Keeps WellNumbered (redactContainer tools container) :=
  keeps_bind (keeps_mapM (fun _ => keeps_bind (keeps_redactAlone tools _ _) fun _ =>
    keeps_pure _) _) fun _ => keeps_pure _

theorem keeps_compose (compose : ComposeFile) :
    Keeps WellNumbered (redactCompose tools compose) := by
  unfold redactCompose
  split
  · exact keeps_pure _
  · exact keeps_bind (keeps_redactField tools _ _ _) fun _ =>
      keeps_bind (keeps_report _) fun _ => keeps_pure _

theorem keeps_containers (containers : ContainerSection) :
    Keeps WellNumbered (redactContainers tools containers) :=
  keeps_bind (keeps_mapM (keeps_container tools) _) fun _ =>
    keeps_bind (keeps_mapM (fun _ => keeps_bind (keeps_redactField tools _ _ _) fun _ =>
      keeps_pure _) _) fun _ =>
    keeps_bind (keeps_mapM (keeps_compose tools) _) fun _ => keeps_pure _

theorem keeps_nonEmpty (keying : Keying) (content path : String) :
    Keeps WellNumbered (redactNonEmpty tools keying content path) :=
  keeps_ite (keeps_pure _) (keeps_redactField tools _ _ _)

theorem keeps_generated (unit : GeneratedTimerUnit) :
    Keeps WellNumbered (redactGenerated tools unit) :=
  keeps_bind (keeps_redactField tools _ _ _) fun _ =>
    keeps_bind (keeps_nonEmpty tools _ _ _) fun _ =>
    keeps_bind (keeps_nonEmpty tools _ _ _) fun _ => keeps_pure _

theorem keeps_timer (timer : SystemdTimer) : Keeps WellNumbered (redactTimer tools timer) :=
  keeps_bind (keeps_redactField tools _ _ _) fun _ =>
    keeps_bind (keeps_nonEmpty tools _ _ _) fun _ =>
    keeps_bind (keeps_nonEmpty tools _ _ _) fun _ =>
    keeps_bind (keeps_nonEmpty tools _ _ _) fun _ => keeps_pure _

theorem keeps_scheduled (sched : ScheduledTaskSection) :
    Keeps WellNumbered (redactScheduled tools sched) :=
  keeps_bind (keeps_mapM (keeps_generated tools) _) fun _ =>
    keeps_bind (keeps_mapM (fun _ => keeps_bind (keeps_redactField tools _ _ _) fun _ =>
      keeps_pure _) _) fun _ =>
    keeps_bind (keeps_mapM (keeps_timer tools) _) fun _ => keeps_pure _

theorem keeps_gitRemote (item : NonRpmItem) : Keeps WellNumbered (redactGitRemote tools item) :=
  keeps_ite (keeps_pure _) (keeps_bind (keeps_report _) fun _ => keeps_redactField tools _ _ _)

theorem keeps_nonRpmItem (item : NonRpmItem) :
    Keeps WellNumbered (redactNonRpmItem tools item) := by
  have manifests : Keeps WellNumbered (redactManifests tools item) :=
    keeps_bind (keeps_forM (fun _ => keeps_report _) _) fun _ => keeps_pure _
  exact keeps_bind manifests fun _ => keeps_bind (keeps_gitRemote tools item) fun _ => keeps_pure _

theorem keeps_nonRpm (nrs : NonRpmSoftwareSection) : Keeps WellNumbered (redactNonRpm tools nrs) :=
  keeps_bind (keeps_mapM (fun _ => keeps_bind (keeps_redactField tools _ _ _) fun _ =>
    keeps_pure _) _) fun _ =>
    keeps_bind (keeps_mapM (keeps_nonRpmItem tools) _) fun _ => keeps_pure _

theorem keeps_sudoersRule (rule : String) : Keeps WellNumbered (redactSudoersRule tools rule) := by
  unfold redactSudoersRule
  refine keeps_bind (keeps_redactAlone tools _ _) fun redacted => ?_
  cases redacted with
  | some text => exact keeps_pure _
  | none =>
    dsimp only
    split
    · refine keeps_bind (keeps_redactAlone tools _ _) fun body => ?_
      cases body <;> exact keeps_pure _
    · exact keeps_pure _

theorem keeps_shadowHash (content : String) (finding : RedactionFinding) :
    Keeps WellNumbered (redactShadowHash content finding) := by
  unfold redactShadowHash
  split
  · split
    · exact keeps_bind (keeps_tokenOf _ _) fun _ => keeps_pure _
    · exact keeps_pure _
  · exact keeps_pure _

theorem keeps_shadowEntry (preserved : Bool) (entry : String) :
    Keeps WellNumbered (redactShadowEntry tools preserved entry) := by
  have reported (content : String) (findings : List RedactionFinding) :
      Keeps WellNumbered (do report findings; pure content) :=
    keeps_bind (keeps_report findings) fun _ => keeps_pure content
  exact keeps_ite (keeps_pure _) (keeps_ite (keeps_bind (keeps_pure _) fun _ => reported _ _)
    (keeps_bind (keeps_foldlM keeps_shadowHash _ _) fun _ => reported _ _))

theorem keeps_users (snap : InspectionSnapshot) (users : UserGroupSection) :
    Keeps WellNumbered (redactUsers tools snap users) :=
  keeps_bind (keeps_mapM (keeps_sudoersRule tools) _) fun _ =>
    keeps_bind (keeps_mapM (keeps_shadowEntry tools _) _) fun _ => keeps_pure _

theorem keeps_sections (snap : InspectionSnapshot) :
    Keeps WellNumbered (redactSections tools snap) :=
  keeps_bind (keeps_option (keeps_config tools) _) fun _ =>
    keeps_bind (keeps_option (keeps_rpm tools) _) fun _ =>
    keeps_bind (keeps_option (keeps_services tools) _) fun _ =>
    keeps_bind (keeps_option keeps_storage _) fun _ =>
    keeps_bind (keeps_option (keeps_kernelBoot tools) _) fun _ =>
    keeps_bind (keeps_option keeps_network _) fun _ =>
    keeps_bind (keeps_option (keeps_containers tools) _) fun _ =>
    keeps_bind (keeps_option (keeps_scheduled tools) _) fun _ =>
    keeps_bind (keeps_option (keeps_nonRpm tools) _) fun _ =>
    keeps_bind (keeps_option (keeps_users tools snap) _) fun _ => keeps_pure _

def TokensCorrelate (run : Run) : Prop :=
  ∀ us ∈ run.registries, ∀ vs ∈ run.registries, ∀ u ∈ us, ∀ v ∈ vs, u.label = v.label →
    (u.token = v.token ↔ u.secret = v.secret)

/-- Keys of the registry stand for their secrets; a secret of a text redacted alone is numbered
    as elsewhere. -/
structure KeysCorrelate (run : Run) : Prop where
  keyed : ∀ u ∈ run.shared, ∀ v ∈ run.shared, u.label = v.label →
    (u.key = v.key ↔ u.secret = v.secret)
  placed : ∀ us ∈ run.alone, ∀ vs ∈ run.registries, ∀ u ∈ us, ∀ v ∈ vs, u.label = v.label →
    (placeIn us u = placeIn vs v ↔ u.secret = v.secret)

theorem WellNumbered.numbered {run : Run} (held : WellNumbered run) :
    ∀ uses ∈ run.registries, Numbered uses := by
  intro uses mem
  obtain rfl | mem := List.mem_cons.mp mem
  · exact held.shared.numbered
  · exact held.alone uses mem

theorem token_eq_iff {us vs : List TokenUse} (numbered_u : Numbered us) (numbered_v : Numbered vs)
    {u v : TokenUse} (hu : u ∈ us) (hv : v ∈ vs) (same : u.label = v.label) :
    u.token = v.token ↔ placeIn us u = placeIn vs v := by
  rw [numbered_u u hu, numbered_v v hv, same, tokenText_inj]

theorem placeIn_eq_iff {uses : List TokenUse} {u v : TokenUse} (hu : u ∈ uses) (hv : v ∈ uses)
    (same : u.label = v.label) : placeIn uses u = placeIn uses v ↔ u.key = v.key := by
  have first := mem_keysOf hu
  rw [same] at first
  rw [placeIn, placeIn, same]
  exact position_inj first (mem_keysOf hv)

theorem tokensCorrelate_iff {run : Run} (held : WellNumbered run) :
    TokensCorrelate run ↔ KeysCorrelate run := by
  have numbered := held.numbered
  have shared : run.shared ∈ run.registries := List.mem_cons_self
  constructor
  · intro all
    refine ⟨fun u hu v hv same => ?_, fun us hus vs hvs u hu v hv same => ?_⟩
    · rw [← placeIn_eq_iff hu hv same,
        ← token_eq_iff (numbered _ shared) (numbered _ shared) hu hv same]
      exact all _ shared _ shared u hu v hv same
    · have listed : us ∈ run.registries := List.mem_cons_of_mem _ hus
      rw [← token_eq_iff (numbered us listed) (numbered vs hvs) hu hv same]
      exact all us listed vs hvs u hu v hv same
  · intro keys us hus vs hvs u hu v hv same
    rw [token_eq_iff (numbered us hus) (numbered vs hvs) hu hv same]
    obtain rfl | alone := List.mem_cons.mp hus
    · obtain rfl | other := List.mem_cons.mp hvs
      · rw [placeIn_eq_iff hu hv same]
        exact keys.keyed u hu v hv same
      · rw [eq_comm, @eq_comm _ u.secret]
        exact keys.placed vs other _ shared v hv u hu same.symm
    · exact keys.placed us alone vs hvs u hu v hv same

theorem wellNumbered_start : WellNumbered {} := ⟨givenBy_nil, List.forall_mem_nil _⟩

/-- In a run over a snapshot tokens correlate with secrets exactly when keys do. -/
theorem run_tokens_correlate_iff (snap : InspectionSnapshot) :
    TokensCorrelate (redactSections tools snap {}).2 ↔
      KeysCorrelate (redactSections tools snap {}).2 :=
  tokensCorrelate_iff (keeps_sections tools snap {} wellNumbered_start)

/-! Two containers, each with a password of its own. -/

def passwordTools : RedactTools where
  engine := tableEngine fun kind content =>
    match kind with
    | .password =>
      if content = "PASSWORD=alpha" then [(0, 14, [])]
      else if content = "PASSWORD=beta" then [(0, 13, [])]
      else []
    | _ => []
  listing _ := []

def twoContainers : InspectionSnapshot where
  containers := some {
    runningContainers := [{ name := "a", env := ["PASSWORD=alpha"] },
      { name := "b", env := ["PASSWORD=beta"] }] }

theorem two_passwords_one_token :
    ¬ ∀ tools snap, TokensCorrelate (redactSections tools snap {}).2 := by
  intro all
  have given : (redactSections passwordTools twoContainers {}).2.alone =
      [[⟨"password", "PASSWORD=alpha", "PASSWORD=alpha", "REDACTED_PASSWORD_1"⟩],
       [⟨"password", "PASSWORD=beta", "PASSWORD=beta", "REDACTED_PASSWORD_1"⟩]] := by
    decide +kernel
  have listed : ∀ uses ∈ (redactSections passwordTools twoContainers {}).2.alone,
      uses ∈ (redactSections passwordTools twoContainers {}).2.registries :=
    fun _ mem => List.mem_cons_of_mem _ mem
  rw [given] at listed
  have same := all passwordTools twoContainers _ (listed _ List.mem_cons_self) _
    (listed _ (List.mem_cons_of_mem _ List.mem_cons_self)) _ List.mem_cons_self _
    List.mem_cons_self rfl
  exact absurd (same.mp rfl) (by decide)

end Inspectah
