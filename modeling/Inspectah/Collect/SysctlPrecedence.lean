import Inspectah.Collect.Executor
import Inspectah.Library.FirstKnown
import Inspectah.Library.Fragments
import Inspectah.Render.ConfigTree
import Mathlib.Data.List.Find

/-!
Kernel settings are recorded one by one in place of their files. systemd-sysctl reads both
directories by name, the collector the vendor's after the administrator's.
-/
namespace Inspectah

variable {key : String} {a : SysctlAssignment}

/-- The two directories of settings, what a file in them reads as, and `sysctl -a`. -/
structure SysctlHost where
  etcDir : DirRead
  usrDir : DirRead
  readEtc : String → Option String
  readUsr : String → Option String
  sysctlAll : ExecResult

def sysctlLine (line : String) : Option (String × String) :=
  if (Text.trim line).isEmpty || Text.startsWith (Text.trim line) "#" ||
      Text.startsWith (Text.trim line) ";" then none
  else (Text.splitOnce '=' (Text.trim line)).map fun (key, val) => (Text.trim key, Text.trim val)

def parseSysctlConf (content : String) : List (String × String) :=
  (Text.lines content).filterMap sysctlLine

def parseSysctlOutput (stdout : String) : List (String × String) :=
  ((Text.lines stdout).filterMap fun line =>
    (Text.splitOnce '=' (Text.trim line)).map fun (key, val) => (Text.trim key, Text.trim val)).reverse

def runtimeValue (host : SysctlHost) (key : String) : Option String :=
  (parseSysctlOutput host.sysctlAll.stdout).lookup key

structure SysctlAssignment where
  key : String
  value : String
  source : String
  deriving DecidableEq

def confFiles (dir : DirRead) : List String :=
  match dir with
  | .entries names => (names.insertionSort (· ≤ ·)).filter (Text.endsWith · ".conf")
  | _ => []

def fileAssignments (path content : String) : List SysctlAssignment :=
  (parseSysctlConf content).map fun (key, value) => ⟨key, value, path⟩

def ETC_SYSCTL_DIR : String := "/etc/sysctl.d/"
def USR_SYSCTL_DIR : String := "/usr/lib/sysctl.d/"

def dirAssignments (path : String) (dir : DirRead) (read : String → Option String) :
    List SysctlAssignment × List String :=
  ((confFiles dir).flatMap fun name => match read name with
    | some content => fileAssignments (path ++ name) content
    | none => [],
   ((confFiles dir).filter fun name => (read name).isNone).map (path ++ ·))

/-- In the order they are read: the vendor's after the administrator's. -/
def readSysctlFiles (host : SysctlHost) : List SysctlAssignment × List String :=
  let etc := dirAssignments ETC_SYSCTL_DIR host.etcDir host.readEtc
  let usr := dirAssignments USR_SYSCTL_DIR host.usrDir host.readUsr
  (etc.1 ++ usr.1, etc.2 ++ usr.2)

def lastAssigned (assignments : List SysctlAssignment) (key : String) : Option SysctlAssignment :=
  assignments.reverse.find? (·.key == key)

def overrideOf (host : SysctlHost) (assignments : List SysctlAssignment) (key : String) :
    Option SysctlOverride :=
  match lastAssigned assignments key, runtimeValue host key with
  | some a, some runtime =>
    if a.value ≠ runtime then
      some { key := key, runtime := runtime, default := a.value, source := a.source }
    else none
  | _, _ => none

def collectSysctlOverrides (host : SysctlHost) : Except String (List SysctlOverride) :=
  let (assignments, failures) := readSysctlFiles host
  if !failures.isEmpty then
    .error ("sysctl config read failures: " ++ "; ".intercalate failures)
  else if assignments.isEmpty then .ok []
  else if !host.sysctlAll.success then
    .error ("sysctl -a failed with exit code " ++ toString host.sysctlAll.exitCode)
  else
    .ok ((Grouping.distinctSorted (assignments.map (·.key))).filterMap (overrideOf host assignments))

def sysctlOverridesOf (host : SysctlHost) : List SysctlOverride :=
  match collectSysctlOverrides host with
  | .ok overrides => overrides
  | .error _ => []

def shadowMatchingEntries (owners : List String) (shadow : ConfigShadow)
    (files : List ConfigFileEntry) : List ConfigFileEntry :=
  files.map fun e =>
    if owners.contains e.path && !e.disposition.isAdvisory then
      { e with shadowedBy := some shadow, disposition := .inventory }
    else e

def withConfigFiles (f : List ConfigFileEntry → List ConfigFileEntry) (snap : InspectionSnapshot) :
    InspectionSnapshot :=
  { snap with config := snap.config.map fun section_ => { section_ with files := f section_.files } }

def sysctlSources (snap : InspectionSnapshot) : List String := snap.sysctlOverrides.map (·.source)

def shadowSysctlSources (snap : InspectionSnapshot) : InspectionSnapshot :=
  withConfigFiles (shadowMatchingEntries (sysctlSources snap) .sysctl) snap

def serviceSources (snap : InspectionSnapshot) : List String :=
  (snap.dropIns.map (·.path)).filter fun path => !path.isEmpty

def shadowServiceOwnedPaths (snap : InspectionSnapshot) : InspectionSnapshot :=
  withConfigFiles (shadowMatchingEntries (serviceSources snap) .services) snap

def finalizeCrossInspector (snap : InspectionSnapshot) : InspectionSnapshot :=
  shadowServiceOwnedPaths (shadowSysctlSources snap)

def IsShadowedBySysctl (snap : InspectionSnapshot) (e : ConfigFileEntry) : Prop :=
  e ∈ snap.configFiles ∧ e.path ∈ sysctlSources snap ∧ e.disposition.isAdvisory = false

/-- The kernel has the value, or another that is recorded for the file. -/
def IsInForce (host : SysctlHost) (snap : InspectionSnapshot) (path key value : String) : Prop :=
  runtimeValue host key = some value ∨ ∃ o ∈ snap.sysctlOverrides, o.key = key ∧ o.source = path

def includedSysctls (snap : InspectionSnapshot) : List SysctlOverride :=
  snap.sysctlOverrides.filter (·.disposition.isIncluded)

def IsCarriedByDropIn (host : SysctlHost) (decode : String → Option String)
    (snap : InspectionSnapshot) (key : String) : Prop :=
  attempt (.write [SYSCTL_DIR, SYNTHESIZED_SYSCTL_FILE] (sysctlConf (includedSysctls snap))) ∈
      writeConfigTree decode snap ∧
    ∃ o ∈ includedSysctls snap, o.key = key ∧ runtimeValue host key = some o.runtime

/-- Of a file that is no longer copied, every assignment in force is in the drop-in. -/
def SysctlsCarried (host : SysctlHost) : Prop :=
  ∀ (decode : String → Option String) (snap : InspectionSnapshot),
    snap.sysctlOverrides = sysctlOverridesOf host →
    ∀ name ∈ confFiles host.etcDir, ∀ content, host.readEtc name = some content →
      ∀ e, IsShadowedBySysctl snap e → e.path = ETC_SYSCTL_DIR ++ name →
        ∀ key value, (key, value) ∈ parseSysctlConf content →
          IsInForce host snap e.path key value →
          IsCarriedByDropIn host decode (finalizeCrossInspector snap) key

def IsSysctlSource (host : SysctlHost) (path : String) : Prop :=
  (readSysctlFiles host).2 = [] ∧ host.sysctlAll.success ∧
    ∃ key a runtime, lastAssigned (readSysctlFiles host).1 key = some a ∧ a.source = path ∧
      runtimeValue host key = some runtime ∧ a.value ≠ runtime

/-- In such a file, a value the kernel has is set otherwise by a later line on the key. -/
def ShadowLosesNothing (host : SysctlHost) : Prop :=
  ∀ name ∈ confFiles host.etcDir, ∀ content, host.readEtc name = some content →
    IsSysctlSource host (ETC_SYSCTL_DIR ++ name) →
      ∀ key value, (key, value) ∈ parseSysctlConf content → runtimeValue host key = some value →
        ∃ a, lastAssigned (readSysctlFiles host).1 key = some a ∧ a.value ≠ value

section

variable {host : SysctlHost} {snap : InspectionSnapshot}

theorem key_of_lastAssigned {assignments : List SysctlAssignment} {key : String}
    {a : SysctlAssignment} (h : lastAssigned assignments key = some a) :
    a ∈ assignments ∧ a.key = key := by
  have same := List.find?_some (p := fun a : SysctlAssignment => a.key == key) h
  exact ⟨List.mem_reverse.mp (List.mem_of_find?_eq_some h), beq_iff_eq.mp same⟩

theorem mem_sysctlOverridesOf {o : SysctlOverride} :
    o ∈ sysctlOverridesOf host ↔ (readSysctlFiles host).2 = [] ∧ host.sysctlAll.success ∧
      ∃ a runtime, lastAssigned (readSysctlFiles host).1 o.key = some a ∧
        runtimeValue host o.key = some runtime ∧ a.value ≠ runtime ∧
        o = { key := o.key, runtime := runtime, default := a.value, source := a.source } := by
  have row : ∀ key, overrideOf host (readSysctlFiles host).1 key = some o ↔
      ∃ a runtime, lastAssigned (readSysctlFiles host).1 key = some a ∧
        runtimeValue host key = some runtime ∧ a.value ≠ runtime ∧
        o = { key := key, runtime := runtime, default := a.value, source := a.source } := by
    intro key
    unfold overrideOf
    cases last : lastAssigned (readSysctlFiles host).1 key with
    | none => simp
    | some a =>
      cases runtime : runtimeValue host key with
      | none => simp
      | some r => simp [eq_comm]
  unfold sysctlOverridesOf collectSysctlOverrides
  by_cases failed : (readSysctlFiles host).2 = []
  · by_cases nothing : (readSysctlFiles host).1 = []
    · simp [failed, nothing, lastAssigned]
    · by_cases success : host.sysctlAll.success
      · simp only [failed, nothing, success, List.isEmpty_iff, List.isEmpty_nil, Bool.not_true,
          Bool.false_eq_true, if_false, List.mem_filterMap, Grouping.mem_distinctSorted, true_and]
        constructor
        · rintro ⟨key, -, found⟩
          obtain ⟨a, runtime, last, running, differs, rfl⟩ := (row key).mp found
          exact ⟨a, runtime, last, running, differs, rfl⟩
        · rintro ⟨a, runtime, last, running, differs, same⟩
          obtain ⟨mem, key⟩ := key_of_lastAssigned last
          exact ⟨o.key, key ▸ List.mem_map_of_mem mem,
            (row o.key).mpr ⟨a, runtime, last, running, differs, same⟩⟩
      · simp [failed, nothing, success]
  · simp [failed]

theorem source_iff {path : String} (collected : snap.sysctlOverrides = sysctlOverridesOf host) :
    path ∈ sysctlSources snap ↔ IsSysctlSource host path := by
  rw [sysctlSources, collected, List.mem_map]
  constructor
  · rintro ⟨o, mem, rfl⟩
    obtain ⟨read, success, a, runtime, last, running, differs, same⟩ := mem_sysctlOverridesOf.mp mem
    refine ⟨read, success, o.key, a, runtime, last, ?_, running, differs⟩
    rw [same]
  · rintro ⟨read, success, key, a, runtime, last, rfl, running, differs⟩
    exact ⟨{ key := key, runtime := runtime, default := a.value, source := a.source },
      mem_sysctlOverridesOf.mpr ⟨read, success, a, runtime, last, running, differs, rfl⟩, rfl⟩

theorem dropIn_written (decode : String → Option String) (included : includedSysctls snap ≠ []) :
    attempt (.write [SYSCTL_DIR, SYNTHESIZED_SYSCTL_FILE] (sysctlConf (includedSysctls snap))) ∈
      writeConfigTree decode snap := by
  cases boot : snap.kernelBoot with
  | none =>
    rw [includedSysctls, InspectionSnapshot.sysctlOverrides, boot] at included
    exact absurd rfl included
  | some kb =>
    have rows : includedSysctls snap = kb.sysctlOverrides.filter (·.disposition.isIncluded) := by
      rw [includedSysctls, InspectionSnapshot.sysctlOverrides, boot]
      rfl
    rw [rows] at included ⊢
    have in_kernel : attempt (.write [SYSCTL_DIR, SYNTHESIZED_SYSCTL_FILE]
        (sysctlConf (kb.sysctlOverrides.filter (·.disposition.isIncluded)))) ∈ kernelSteps kb := by
      unfold kernelSteps
      dsimp only
      rw [List.mem_append, if_neg (by simpa [List.isEmpty_iff] using included)]
      exact .inl (List.mem_cons_of_mem _ List.mem_cons_self)
    unfold writeConfigTree
    rw [boot]
    simp only [List.mem_append, List.cons_append, List.mem_cons]
    tauto

theorem carried_iff (decode : String → Option String)
    (collected : snap.sysctlOverrides = sysctlOverridesOf host) {key : String} :
    IsCarriedByDropIn host decode (finalizeCrossInspector snap) key ↔
      ∃ o ∈ snap.sysctlOverrides, o.key = key := by
  constructor
  · rintro ⟨-, o, included, same, -⟩
    exact ⟨o, (List.mem_filter.mp included).1, same⟩
  · rintro ⟨o, recorded, rfl⟩
    obtain ⟨-, -, a, runtime, -, running, -, same⟩ :=
      mem_sysctlOverridesOf.mp (collected ▸ recorded)
    have included : o ∈ includedSysctls (finalizeCrossInspector snap) := by
      refine List.mem_filter.mpr ⟨recorded, ?_⟩
      rw [same]
      rfl
    refine ⟨dropIn_written decode (List.ne_nil_of_mem included), o, included, rfl, ?_⟩
    rw [running, same]

/-- A collected snapshot with an entry for the file. -/
def snapshotOf (host : SysctlHost) (path : String) : InspectionSnapshot :=
  { config := some { files := [{ path := path }] }
    kernelBoot := some { sysctlOverrides := sysctlOverridesOf host } }

theorem snapshotOf_overrides (host : SysctlHost) (path : String) :
    (snapshotOf host path).sysctlOverrides = sysctlOverridesOf host := rfl

/-- Shadowing loses no setting exactly when what the kernel has from a shadowed file is set
    otherwise later. -/
theorem sysctls_carried_iff (host : SysctlHost) : SysctlsCarried host ↔ ShadowLosesNothing host := by
  constructor
  · intro carried name listed content read source key value assigned running
    have collected := snapshotOf_overrides host (ETC_SYSCTL_DIR ++ name)
    have shadowed : IsShadowedBySysctl (snapshotOf host (ETC_SYSCTL_DIR ++ name))
        { path := ETC_SYSCTL_DIR ++ name } :=
      ⟨List.mem_singleton_self _, (source_iff collected).mpr source, rfl⟩
    obtain ⟨o, recorded, rfl⟩ := (carried_iff some collected).mp
      (carried some _ collected name listed content read _ shadowed rfl key value assigned
        (.inl running))
    obtain ⟨-, -, a, runtime, last, running', differs, -⟩ :=
      mem_sysctlOverridesOf.mp (collected ▸ recorded)
    obtain rfl := Option.some.inj (running.symm.trans running')
    exact ⟨a, last, differs⟩
  · intro safe decode snap collected name listed content read e shadowed path key value assigned
      in_force
    rw [carried_iff decode collected]
    rcases in_force with running | ⟨o, recorded, same, -⟩
    · have source : IsSysctlSource host (ETC_SYSCTL_DIR ++ name) :=
        (source_iff collected).mp (path ▸ shadowed.2.1)
      obtain ⟨a, last, differs⟩ := safe name listed content read source key value assigned running
      rw [collected]
      exact ⟨{ key := key, runtime := value, default := a.value, source := a.source },
        mem_sysctlOverridesOf.mpr
          ⟨source.1, source.2.1, a, value, last, running, differs, rfl⟩, rfl⟩
    · exact ⟨o, recorded, same⟩

end

/-- One file sets two keys, and the kernel has one of them otherwise. -/
def halfChangedHost : SysctlHost where
  etcDir := .entries ["99-local.conf"]
  usrDir := .missing
  readEtc _ := some "vm.swappiness = 10\nnet.ipv4.ip_forward = 1\n"
  readUsr _ := none
  sysctlAll := { stdout := "net.ipv4.ip_forward = 0\nvm.swappiness = 10\n" }

theorem swappiness_lost : ¬ SysctlsCarried halfChangedHost := by
  intro carried
  have collected := snapshotOf_overrides halfChangedHost (ETC_SYSCTL_DIR ++ "99-local.conf")
  have forwarding : lastAssigned (readSysctlFiles halfChangedHost).1 "net.ipv4.ip_forward" =
      some ⟨"net.ipv4.ip_forward", "1", ETC_SYSCTL_DIR ++ "99-local.conf"⟩ := by decide
  have swappiness : lastAssigned (readSysctlFiles halfChangedHost).1 "vm.swappiness" =
      some ⟨"vm.swappiness", "10", ETC_SYSCTL_DIR ++ "99-local.conf"⟩ := by decide
  have running : runtimeValue halfChangedHost "vm.swappiness" = some "10" := by decide
  have source : IsSysctlSource halfChangedHost (ETC_SYSCTL_DIR ++ "99-local.conf") :=
    ⟨by decide, by decide, "net.ipv4.ip_forward", _, "0", forwarding, rfl, by decide, by decide⟩
  obtain ⟨o, mem, key⟩ := (carried_iff some collected).mp
    (carried some _ collected "99-local.conf" (by decide) _ rfl
      { path := ETC_SYSCTL_DIR ++ "99-local.conf" }
      ⟨List.mem_singleton_self _, (source_iff collected).mpr source, rfl⟩ rfl
      "vm.swappiness" "10" (by decide) (.inl running))
  obtain ⟨-, -, a, runtime, last, running', differs, -⟩ :=
    mem_sysctlOverridesOf.mp (collected ▸ mem)
  rw [key] at last running'
  obtain rfl := Option.some.inj (swappiness.symm.trans last)
  obtain rfl := Option.some.inj (running.symm.trans running')
  exact differs rfl

open FirstKnown

def swapSeparators (key : List Char) : List Char :=
  key.map fun c => if c = '/' then '.' else if c = '.' then '/' else c

/-- The setting a key stands for: no leading dash, and dots between its parts for slashes. -/
def settingName (key : String) : String :=
  let written := match key.toList with
    | '-' :: rest => Text.trimChars rest
    | cs => cs
  if written.find? (fun c => c == '/' || c == '.') = some '/' then
    String.ofList (swapSeparators written)
  else String.ofList written

example : settingName "-net/ipv4/conf/eth0.1/forwarding" = "net.ipv4.conf.eth0/1.forwarding" := by
  decide

structure SysctlFile where
  dir : String
  name : String
  content : Option String
  deriving DecidableEq

def SysctlFile.assignments (f : SysctlFile) : List SysctlAssignment :=
  match f.content with
  | some content => fileAssignments (f.dir ++ f.name) content
  | none => []

def SysctlFile.last (f : SysctlFile) (key : String) : Option SysctlAssignment :=
  lastAssigned f.assignments key

namespace SysctlHost

def etcFiles (host : SysctlHost) : List SysctlFile :=
  (confFiles host.etcDir).map fun name => ⟨ETC_SYSCTL_DIR, name, host.readEtc name⟩

def usrFiles (host : SysctlHost) : List SysctlFile :=
  (confFiles host.usrDir).map fun name => ⟨USR_SYSCTL_DIR, name, host.readUsr name⟩

def files (host : SysctlHost) : List SysctlFile := host.etcFiles ++ host.usrFiles

def appliedAssignments (host : SysctlHost) : List SysctlAssignment :=
  (Fragments.effective SysctlFile.name [host.etcFiles, host.usrFiles]).flatMap
    SysctlFile.assignments

def applied (host : SysctlHost) (setting : String) : Option SysctlAssignment :=
  host.appliedAssignments.reverse.find? fun a => settingName a.key == setting

def kept (host : SysctlHost) (key : String) : Option SysctlAssignment :=
  lastAssigned (readSysctlFiles host).1 key

end SysctlHost

def SysctlAssignment.Alike (a b : SysctlAssignment) : Prop :=
  a.value = b.value ∧ a.source = b.source

structure SysctlPrecedence (host : SysctlHost) : Prop where
  sound : ∀ key a, host.kept key = some a →
    ∃ b, host.applied (settingName key) = some b ∧ a.Alike b
  complete : ∀ setting b, host.applied setting = some b →
    ∃ a, host.kept setting = some a ∧ a.Alike b
  one_key : ∀ key other, (host.kept key).isSome → (host.kept other).isSome →
    settingName key = settingName other → key = other
  no_blanks : ∀ o ∈ sysctlOverridesOf host, splitWhitespace o.default ≠ splitWhitespace o.runtime

/-- Keys are written as their settings' names and values as the kernel's; a vendor's last word
    is not replaced and comes after the administrator's. -/
structure VendorLast (host : SysctlHost) : Prop where
  named : ∀ f ∈ host.files, ∀ a ∈ f.assignments, settingName a.key = a.key
  vendor_last : ∀ u ∈ host.usrFiles, ∀ key, (u.last key).isSome →
    (∀ v ∈ host.usrFiles, (v.last key).isSome → v.name ≤ u.name) →
      ∀ e ∈ host.etcFiles, e.name ≠ u.name ∧ ((e.last key).isSome → e.name < u.name)
  as_printed : (∀ f ∈ host.files, f.content.isSome) → host.sysctlAll.success →
    ∀ setting b runtime, host.applied setting = some b →
      runtimeValue host setting = some runtime →
        splitWhitespace b.value = splitWhitespace runtime → b.value = runtime

theorem find_reverse_flatMap {α β : Type} (p : β → Bool) (items : List α) (f : α → List β) :
    (items.flatMap f).reverse.find? p = items.reverse.findSome? fun x => (f x).reverse.find? p := by
  rw [List.reverse_flatMap, List.find?_flatMap]
  rfl

theorem lastAssigned_flatMap (files : List SysctlFile) (key : String) :
    lastAssigned (files.flatMap SysctlFile.assignments) key =
      files.reverse.findSome? fun f => f.last key := by
  rw [lastAssigned, find_reverse_flatMap]
  rfl

theorem dirAssignments_eq (path : String) (dir : DirRead) (read : String → Option String) :
    (dirAssignments path dir read).1 =
      ((confFiles dir).map fun name => (⟨path, name, read name⟩ : SysctlFile)).flatMap
        SysctlFile.assignments := by
  rw [dirAssignments, List.flatMap_map]
  rfl

theorem confFiles_sorted (dir : DirRead) : (confFiles dir).Pairwise (· ≤ ·) := by
  unfold confFiles
  split
  · exact (List.pairwise_insertionSort _ _).filter _
  · exact List.Pairwise.nil

section

variable {host : SysctlHost}

theorem SysctlHost.kept_eq (key : String) : host.kept key =
    (host.usrFiles.reverse.findSome? fun f => f.last key).or
      (host.etcFiles.reverse.findSome? fun f => f.last key) := by
  have order : (readSysctlFiles host).1 =
      (host.etcFiles ++ host.usrFiles).flatMap SysctlFile.assignments := by
    rw [List.flatMap_append]
    exact congrArg₂ _ (dirAssignments_eq _ _ _) (dirAssignments_eq _ _ _)
  rw [SysctlHost.kept, order, lastAssigned_flatMap, List.reverse_append, List.findSome?_append]

theorem etcFiles_sorted : host.etcFiles.Pairwise fun f g => f.name ≤ g.name :=
  List.pairwise_map.mpr (confFiles_sorted _)

theorem usrFiles_sorted : host.usrFiles.Pairwise fun f g => f.name ≤ g.name :=
  List.pairwise_map.mpr (confFiles_sorted _)

theorem etcFiles_apart : Fragments.Apart SysctlFile.name host.etcFiles := by
  intro f hf g hg same
  obtain ⟨name, -, rfl⟩ := List.mem_map.mp hf
  obtain ⟨other, -, rfl⟩ := List.mem_map.mp hg
  cases same
  rfl

theorem usrFiles_apart : Fragments.Apart SysctlFile.name host.usrFiles := by
  intro f hf g hg same
  obtain ⟨name, -, rfl⟩ := List.mem_map.mp hf
  obtain ⟨other, -, rfl⟩ := List.mem_map.mp hg
  cases same
  rfl

theorem dirs_apart :
    ∀ dir ∈ [host.etcFiles, host.usrFiles], Fragments.Apart SysctlFile.name dir := by
  intro dir mem
  simp only [List.mem_cons, List.not_mem_nil, or_false] at mem
  rcases mem with rfl | rfl
  · exact etcFiles_apart
  · exact usrFiles_apart

/-- The administrator's files, and those of the vendor of other names. -/
theorem mem_unmasked {f : SysctlFile} :
    f ∈ Fragments.unmasked SysctlFile.name [host.etcFiles, host.usrFiles] ↔
      f ∈ host.etcFiles ∨ f ∈ host.usrFiles ∧ ∀ e ∈ host.etcFiles, e.name ≠ f.name := by
  rw [Fragments.mem_unmasked_cons, Fragments.mem_unmasked_cons]
  simp [Fragments.unmasked]

theorem last_usr :
    (host.usrFiles.reverse.findSome? fun f => f.last key) = some a ↔
      ∃ u ∈ host.usrFiles, u.last key = some a ∧
        ∀ v ∈ host.usrFiles, (v.last key).isSome → v.name ≤ u.name :=
  Fragments.findSome_reverse_of_sorted usrFiles_sorted usrFiles_apart

theorem last_etc :
    (host.etcFiles.reverse.findSome? fun f => f.last key) = some a ↔
      ∃ e ∈ host.etcFiles, e.last key = some a ∧
        ∀ f ∈ host.etcFiles, (f.last key).isSome → f.name ≤ e.name :=
  Fragments.findSome_reverse_of_sorted etcFiles_sorted etcFiles_apart

theorem last_isSome {f : SysctlFile} {key : String} :
    (f.last key).isSome ↔ ∃ a ∈ f.assignments, a.key = key := by
  rw [SysctlFile.last, lastAssigned, List.find?_isSome]
  simp

theorem kept_cases (h : host.kept key = some a) :
    (∃ u ∈ host.usrFiles, u.last key = some a ∧
      ∀ v ∈ host.usrFiles, (v.last key).isSome → v.name ≤ u.name) ∨
    (∀ u ∈ host.usrFiles, u.last key = none) ∧ ∃ e ∈ host.etcFiles, e.last key = some a ∧
      ∀ f ∈ host.etcFiles, (f.last key).isSome → f.name ≤ e.name := by
  rw [host.kept_eq, Option.or_eq_some_iff] at h
  rcases h with usr | ⟨none, etc⟩
  · exact .inl (last_usr.mp usr)
  · refine .inr ⟨fun u mem => ?_, last_etc.mp etc⟩
    exact List.findSome?_eq_none_iff.mp none u (List.mem_reverse.mpr mem)

theorem kept_isSome :
    (host.kept key).isSome ↔ ∃ f ∈ host.files, (f.last key).isSome := by
  rw [host.kept_eq, Option.isSome_or, Bool.or_eq_true, List.findSome?_isSome_iff,
    List.findSome?_isSome_iff]
  simp only [List.mem_reverse, SysctlHost.files, List.mem_append]
  constructor
  · rintro (⟨f, mem, some⟩ | ⟨f, mem, some⟩)
    · exact ⟨f, .inr mem, some⟩
    · exact ⟨f, .inl mem, some⟩
  · rintro ⟨f, mem | mem, some⟩
    · exact .inr ⟨f, mem, some⟩
    · exact .inl ⟨f, mem, some⟩

theorem kept_of_assigned {f : SysctlFile} {a : SysctlAssignment} (mem : f ∈ host.files)
    (set : a ∈ f.assignments) : (host.kept a.key).isSome :=
  kept_isSome.mpr ⟨f, mem, last_isSome.mpr ⟨a, set, rfl⟩⟩

theorem applied_iff (named : ∀ f ∈ host.files, ∀ a ∈ f.assignments, settingName a.key = a.key)
    {setting : String} {b : SysctlAssignment} : host.applied setting = some b ↔
      ∃ f ∈ Fragments.unmasked SysctlFile.name [host.etcFiles, host.usrFiles],
        f.last setting = some b ∧
          ∀ g ∈ Fragments.unmasked SysctlFile.name [host.etcFiles, host.usrFiles],
            (g.last setting).isSome → g.name ≤ f.name := by
  rw [← Fragments.findSome_reverse_effective dirs_apart, SysctlHost.applied,
    SysctlHost.appliedAssignments, find_reverse_flatMap]
  have same : ∀ f ∈ (Fragments.effective SysctlFile.name
      [host.etcFiles, host.usrFiles]).reverse,
      (f.assignments.reverse.find? fun a => settingName a.key == setting) = f.last setting := by
    intro f mem
    have listed := Fragments.mem_effective.mp (List.mem_reverse.mp mem)
    have inside : f ∈ host.files := by
      rw [SysctlHost.files, List.mem_append]
      exact (mem_unmasked.mp listed).imp_right And.left
    refine List.find?_congr fun a set => ?_
    rw [named f inside a (List.mem_reverse.mp set)]
  rw [findSome_congr same]

theorem settingName_of_undashed (h : key.toList.head? ≠ some '-') :
    settingName key =
      if key.toList.find? (fun c => c == '/' || c == '.') = some '/' then
        String.ofList (swapSeparators key.toList)
      else key := by
  unfold settingName
  dsimp only
  split
  next rest dash =>
    rw [dash] at h
    exact absurd rfl h
  next => rw [String.ofList_toList]

theorem find_swapSeparators (key : List Char) :
    (swapSeparators key).find? (fun c => c == '/' || c == '.') =
      (key.find? fun c => c == '/' || c == '.').map fun c => if c = '/' then '.' else '/' := by
  induction key with
  | nil => rfl
  | cons c rest ih =>
    rw [swapSeparators, List.map_cons, ← swapSeparators]
    by_cases slash : c = '/'
    · subst slash
      rfl
    · by_cases dot : c = '.'
      · subst dot
        rfl
      · have other : (c == '/' || c == '.') = false := by simp [slash, dot]
        rw [if_neg slash, if_neg dot, List.find?_cons, List.find?_cons, other]
        exact ih

theorem head_swapSeparators {key : List Char} (h : key.head? ≠ some '-') :
    (swapSeparators key).head? ≠ some '-' := by
  cases key with
  | nil => exact h
  | cons c rest =>
    rw [swapSeparators, List.map_cons, List.head?_cons]
    split
    · decide
    · split
      · decide
      · exact h

theorem settingName_settled (h : key.toList.head? ≠ some '-') :
    settingName (settingName key) = settingName key := by
  rw [settingName_of_undashed h]
  split
  next slash =>
    have plain : (String.ofList (swapSeparators key.toList)).toList.head? ≠ some '-' := by
      rw [String.toList_ofList]
      exact head_swapSeparators h
    rw [settingName_of_undashed plain, String.toList_ofList, find_swapSeparators, slash,
      if_neg (by decide)]
  next other => rw [settingName_of_undashed h, if_neg other]

theorem length_trimChars_le (cs : List Char) : (Text.trimChars cs).length ≤ cs.length := by
  rw [Text.trimChars, List.length_reverse]
  refine (List.dropWhile_suffix _).length_le.trans ?_
  rw [List.length_reverse]
  exact (List.dropWhile_suffix _).length_le

theorem length_settingName_of_dashed (h : key.toList.head? = some '-') :
    (settingName key).toList.length < key.toList.length := by
  unfold settingName
  dsimp only
  split
  next rest dash =>
    have shorter := length_trimChars_le rest
    rw [dash, List.length_cons]
    split
    · rw [String.toList_ofList, swapSeparators, List.length_map]
      omega
    · rw [String.toList_ofList]
      omega
  next none =>
    cases chars : key.toList with
    | nil =>
      rw [chars] at h
      cases h
    | cons c rest =>
      rw [chars, List.head?_cons, Option.some.injEq] at h
      exact absurd (h ▸ chars) (none rest)

/-- A key that is not its setting's name would stand for another that is kept. -/
theorem named_of_kept (precedence : SysctlPrecedence host) :
    ∀ (n : Nat) (key : String), key.toList.length = n → (host.kept key).isSome →
      settingName key = key := by
  have onward : ∀ key, (host.kept key).isSome → (host.kept (settingName key)).isSome := by
    intro key kept
    obtain ⟨a, found⟩ := Option.isSome_iff_exists.mp kept
    obtain ⟨b, applied, -⟩ := precedence.sound key a found
    obtain ⟨c, kept', -⟩ := precedence.complete _ b applied
    rw [kept', Option.isSome_some]
  intro n
  induction n using Nat.strongRecOn with
  | ind n ih =>
    intro key size kept
    have next := onward key kept
    by_cases dash : key.toList.head? = some '-'
    · have shorter := length_settingName_of_dashed dash
      exact precedence.one_key _ _ next kept (ih _ (size ▸ shorter) _ rfl next)
    · exact precedence.one_key _ _ next kept (settingName_settled dash)

theorem kept_eq_applied (named : ∀ f ∈ host.files, ∀ a ∈ f.assignments, settingName a.key = a.key)
    (vendor_last : ∀ u ∈ host.usrFiles, ∀ key, (u.last key).isSome →
      (∀ v ∈ host.usrFiles, (v.last key).isSome → v.name ≤ u.name) →
        ∀ e ∈ host.etcFiles, e.name ≠ u.name ∧ ((e.last key).isSome → e.name < u.name))
    (key : String) : host.kept key = host.applied key := by
  cases kept : host.kept key with
  | none =>
    cases applied : host.applied key with
    | none => rfl
    | some b =>
      obtain ⟨f, mem, set, -⟩ := (applied_iff named).mp applied
      have inside : f ∈ host.files := by
        rw [SysctlHost.files, List.mem_append]
        exact (mem_unmasked.mp mem).imp_right And.left
      have some := kept_isSome.mpr ⟨f, inside, by rw [set, Option.isSome_some]⟩
      rw [kept] at some
      cases some
  | some a =>
    refine ((applied_iff named).mpr ?_).symm
    rcases kept_cases kept with ⟨u, mem, set, last⟩ | ⟨unset, e, mem, set, last⟩
    · have beaten := vendor_last u mem key (by rw [set, Option.isSome_some]) last
      refine ⟨u, mem_unmasked.mpr (.inr ⟨mem, fun e inside => (beaten e inside).1⟩), set, ?_⟩
      intro g inside some
      rcases mem_unmasked.mp inside with etc | ⟨usr, -⟩
      · exact ((beaten g etc).2 some).le
      · exact last g usr some
    · refine ⟨e, mem_unmasked.mpr (.inl mem), set, fun g inside some => ?_⟩
      rcases mem_unmasked.mp inside with etc | ⟨usr, -⟩
      · exact last g etc some
      · rw [unset g usr] at some
        cases some

theorem source_of_last {f : SysctlFile} {key : String} {a : SysctlAssignment}
    (h : f.last key = some a) : a.source = f.dir ++ f.name := by
  have mem := (key_of_lastAssigned h).1
  unfold SysctlFile.assignments at mem
  split at mem
  · obtain ⟨pair, -, rfl⟩ := List.mem_map.mp mem
    rfl
  · cases mem

theorem etc_source_ne {name other : String} : ETC_SYSCTL_DIR ++ name ≠ USR_SYSCTL_DIR ++ other := by
  intro same
  have chars := congrArg (fun s => s.toList[1]?) same
  simp only [String.toList_append] at chars
  have letters : some 'e' = some 'u' := chars
  exact absurd letters (by decide)

theorem readable_iff : (readSysctlFiles host).2 = [] ↔ ∀ f ∈ host.files, f.content.isSome := by
  have dir : ∀ path listing (read : String → Option String),
      (dirAssignments path listing read).2 = [] ↔
        ∀ f ∈ (confFiles listing).map (fun name => (⟨path, name, read name⟩ : SysctlFile)),
          f.content.isSome := by
    intro path listing read
    rw [dirAssignments, List.map_eq_nil_iff, List.filter_eq_nil_iff, List.forall_mem_map]
    simp [Option.isSome_iff_ne_none]
  rw [readSysctlFiles, List.append_eq_nil_iff, dir, dir, ← SysctlHost.etcFiles,
    ← SysctlHost.usrFiles, SysctlHost.files, List.forall_mem_append]

theorem vendorLast_of_precedence (precedence : SysctlPrecedence host) : VendorLast host := by
  have named : ∀ f ∈ host.files, ∀ a ∈ f.assignments, settingName a.key = a.key :=
    fun f mem a set => named_of_kept precedence _ a.key rfl (kept_of_assigned mem set)
  refine ⟨named, ?_, ?_⟩
  · intro u mem key sets last e etc
    obtain ⟨a, set⟩ := Option.isSome_iff_exists.mp sets
    have kept : host.kept key = some a := by
      rw [host.kept_eq, last_usr.mpr ⟨u, mem, set, last⟩, Option.some_or]
    obtain ⟨b, applied, -, source⟩ := precedence.sound key a kept
    have own : settingName key = key := by
      obtain ⟨c, assigned, rfl⟩ := last_isSome.mp sets
      exact named u (List.mem_append_right _ mem) c assigned
    rw [own] at applied
    obtain ⟨f, inside, set', last'⟩ := (applied_iff named).mp applied
    rw [source_of_last set, source_of_last set'] at source
    obtain ⟨name, -, rfl⟩ := List.mem_map.mp mem
    rcases mem_unmasked.mp inside with wrong | ⟨usr, clear⟩
    · obtain ⟨other, -, rfl⟩ := List.mem_map.mp wrong
      exact absurd source.symm etc_source_ne
    · obtain ⟨other, -, rfl⟩ := List.mem_map.mp usr
      obtain rfl := String.append_right_inj _ |>.mp source
      refine ⟨clear e etc, fun sets' => lt_of_le_of_ne ?_ (clear e etc)⟩
      exact last' e (mem_unmasked.mpr (.inl etc)) sets'
  · intro readable success setting b runtime applied running fields
    by_contra differs
    obtain ⟨a, kept, value, -⟩ := precedence.complete setting b applied
    let o : SysctlOverride :=
      { key := setting, runtime := runtime, default := a.value, source := a.source }
    have recorded : o ∈ sysctlOverridesOf host := mem_sysctlOverridesOf.mpr
      ⟨readable_iff.mpr readable, success, a, runtime, kept, running, by rwa [value], rfl⟩
    refine precedence.no_blanks o recorded ?_
    change splitWhitespace a.value = splitWhitespace runtime
    rw [← fields, value]

theorem precedence_of_vendorLast (clear : VendorLast host) : SysctlPrecedence host := by
  have same := kept_eq_applied clear.named clear.vendor_last
  have own : ∀ key, (host.kept key).isSome → settingName key = key := by
    intro key kept
    obtain ⟨f, mem, some⟩ := kept_isSome.mp kept
    obtain ⟨a, set, rfl⟩ := last_isSome.mp some
    exact clear.named f mem a set
  constructor
  case sound =>
    intro key a kept
    refine ⟨a, ?_, rfl, rfl⟩
    rw [own key (by rw [kept, Option.isSome_some]), ← same key]
    exact kept
  case complete => exact fun setting b applied => ⟨b, (same setting).trans applied, rfl, rfl⟩
  case one_key =>
    intro key other kept kept' alike
    rw [own key kept, own other kept'] at alike
    exact alike
  case no_blanks =>
    intro o recorded fields
    obtain ⟨readable, success, a, runtime, kept, running, differs, row⟩ :=
      mem_sysctlOverridesOf.mp recorded
    rw [row] at fields
    exact differs (clear.as_printed (readable_iff.mp readable) success o.key a runtime
      ((same o.key).symm.trans kept) running fields)

theorem sysctl_precedence_iff (host : SysctlHost) : SysctlPrecedence host ↔ VendorLast host :=
  ⟨vendorLast_of_precedence, precedence_of_vendorLast⟩

end

/-- The administrator's file comes after the vendor's by name. -/
def overriddenHost : SysctlHost where
  etcDir := .entries ["99-local.conf"]
  usrDir := .entries ["50-default.conf"]
  readEtc _ := some "kernel.sysrq = 0\n"
  readUsr _ := some "kernel.sysrq = 16\n"
  sysctlAll := { stdout := "kernel.sysrq = 0\n" }

theorem vendor_value_kept :
    overriddenHost.applied "kernel.sysrq" =
        some ⟨"kernel.sysrq", "0", "/etc/sysctl.d/99-local.conf"⟩ ∧
      overriddenHost.kept "kernel.sysrq" =
        some ⟨"kernel.sysrq", "16", "/usr/lib/sysctl.d/50-default.conf"⟩ ∧
        ¬SysctlPrecedence overriddenHost := by
  have applied : overriddenHost.applied "kernel.sysrq" =
      some ⟨"kernel.sysrq", "0", "/etc/sysctl.d/99-local.conf"⟩ := by decide +kernel
  have kept : overriddenHost.kept "kernel.sysrq" =
      some ⟨"kernel.sysrq", "16", "/usr/lib/sysctl.d/50-default.conf"⟩ := by decide +kernel
  refine ⟨applied, kept, fun precedence => ?_⟩
  obtain ⟨a, found, value, -⟩ := precedence.complete _ _ applied
  rw [kept] at found
  cases found
  exact absurd value (by decide)

end Inspectah
