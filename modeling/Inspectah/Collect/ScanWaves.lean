import Inspectah.Collect.SysctlPrecedence
import Inspectah.Library.ForkJoin

/-!
The scan. Two waves of threads run the inspectors, the second with what the RPM inspector
found; the main thread joins them in order. An interrupt can come at any time.
-/
namespace Inspectah

def InspectorId.debugName : InspectorId → String
  | .rpm => "Rpm"
  | .config => "Config"
  | .services => "Services"
  | .network => "Network"
  | .storage => "Storage"
  | .scheduledTasks => "ScheduledTasks"
  | .containers => "Containers"
  | .nonRpmSoftware => "NonRpmSoftware"
  | .kernelBoot => "KernelBoot"
  | .selinux => "Selinux"
  | .usersGroups => "UsersGroups"
  | .subscription => "Subscription"
  | .hardware => "Hardware"
  | .ostree => "Ostree"
  | .osRelease => "OsRelease"

namespace Waves

open ForkJoin

inductive SourceSystemKind where
  | packageBased | rpmOstree | bootc
  deriving DecidableEq

inductive SectionData where
  | rpm (s : RpmSection)
  | config (s : ConfigSection)
  | services (s : ServiceSection)
  | network (s : NetworkSection)
  | storage (s : StorageSection)
  | scheduledTasks (s : ScheduledTaskSection)
  | containers (s : ContainerSection)
  | nonRpmSoftware (s : NonRpmSoftwareSection)
  | kernelBoot (s : KernelBootSection)
  | selinux (s : SelinuxSection)
  | usersGroups (s : UserGroupSection)
  | subscription (s : SubscriptionSection)

structure InspectorOutput where
  data : SectionData
  warnings : List Warning
  redactionHints : List RedactionHint

inductive InspectorError where
  | skipped (reason : String)
  | degraded (output : InspectorOutput) (reason : String)
  | failed (reason : String)

/-- What joining a thread gives; nothing when the inspector panicked. -/
abbrev Joined := Option (Except InspectorError InspectorOutput)

structure RpmState where
  installedPackages : List String := []
  ownedPaths : List (List Component) := []
  packages : List PackageEntry := []
  verificationResults : List RpmVaEntry := []
  moduleStreams : List EnabledModuleStream := []
  pathToPackage : List (List Component × Nat) := []

/-- The rest of the context, the host and the baseline, is the same for all inspectors. -/
structure Inspector where
  id : InspectorId
  applicableTo : List SourceSystemKind
  inspect : Option RpmState → Joined

inductive InspectorOutcome where
  | complete
  | degraded (reason : String)
  | skipped (reason : String)
  | failed (reason : String)
  | interrupted
  deriving DecidableEq

/-- The steps, metrics and probes an inspector reports while it runs are left out. -/
inductive ProgressEvent where
  | inspectorStarted (id : InspectorId)
  | inspectorFinished (id : InspectorId) (outcome : InspectorOutcome)
  deriving DecidableEq

def SourceSystemKind.debugName : SourceSystemKind → String
  | .packageBased => "PackageBased"
  | .rpmOstree => "RpmOstree"
  | .bootc => "Bootc"

def isWave2 (id : InspectorId) : Bool := !(id == .rpm || id == .subscription)

def routeSection (snap : InspectionSnapshot) : SectionData → InspectionSnapshot
  | .rpm s => { snap with rpm := some s }
  | .config s => { snap with config := some s }
  | .services s => { snap with services := some s }
  | .network s => { snap with network := some s }
  | .storage s => { snap with storage := some s }
  | .scheduledTasks s => { snap with scheduledTasks := some s }
  | .containers s => { snap with containers := some s }
  | .nonRpmSoftware s => { snap with nonRpmSoftware := some s }
  | .kernelBoot s => { snap with kernelBoot := some s }
  | .selinux s => { snap with selinux := some s }
  | .usersGroups s => { snap with usersGroups := some s }
  | .subscription s => { snap with subscription := some s }

def packageIndex (packages : List PackageEntry) (name : String) : Option Nat :=
  (packages.zipIdx.reverse.find? fun p => p.1.name == name).map (·.2)

def indexedPaths (rpm : RpmSection) : List (List Component × Option Nat) :=
  rpm.fileOwnership.flatMap fun entry =>
    (entry.paths.filter (Text.startsWith · "/etc")).map fun path =>
      (components path, packageIndex rpm.packagesAdded entry.packageName)

def ownerName (rpm : RpmSection) (path : String) : Option String :=
  (rpm.fileOwnership.reverse.find? fun entry => entry.paths.contains path).map (·.packageName)

def extractRpmState (rpm : RpmSection) (state : RpmState) : RpmState where
  installedPackages := rpm.packagesAdded.map (·.name)
  ownedPaths := (indexedPaths rpm).map (·.1) ++ state.ownedPaths
  packages := rpm.packagesAdded
  verificationResults := rpm.rpmVa.map fun va =>
    { va with package := va.package.or (ownerName rpm va.path) }
  moduleStreams := rpm.moduleStreams
  pathToPackage := ((indexedPaths rpm).filterMap fun k => k.2.map (k.1, ·)).reverse ++
    state.pathToPackage

structure Collection where
  snapshot : InspectionSnapshot
  failed : List InspectorId := []
  degraded : List InspectorId := []
  rpmState : RpmState := {}
  rpmPopulated : Bool := false

namespace Collection

def warn (c : Collection) (id : InspectorId) (message : String) (severity : WarningSeverity) :
    Collection :=
  { c with
    snapshot := { c.snapshot with
      warnings := c.snapshot.warnings ++
        [{ inspector := id.debugName, message := message, severity := some severity }] } }

def extract (c : Collection) : InspectorId → SectionData → Collection
  | .rpm, .rpm rpm => { c with rpmState := extractRpmState rpm c.rpmState, rpmPopulated := true }
  | _, _ => c

def route (c : Collection) (output : InspectorOutput) : Collection :=
  let routed := routeSection c.snapshot output.data
  { c with
    snapshot := { routed with
      warnings := routed.warnings ++ output.warnings
      redactionHints := routed.redactionHints ++ output.redactionHints } }

def handleResult (c : Collection) (id : InspectorId) : Joined → Collection
  | some (.ok output) => (c.extract id output.data).route output
  | some (.error (.skipped reason)) => c.warn id ("skipped: " ++ reason) .info
  | some (.error (.degraded output reason)) =>
    let c := ((c.extract id output.data).route output).warn id ("degraded: " ++ reason) .warning
    { c with degraded := c.degraded ++ [id] }
  | some (.error (.failed reason)) =>
    let c := c.warn id ("failed: " ++ reason) .error
    { c with failed := c.failed ++ [id] }
  | none =>
    let c := c.warn id "inspector panicked" .error
    { c with failed := c.failed ++ [id] }

end Collection

/-- The outcome that handling a result reports. -/
def outcomeOf : Joined → InspectorOutcome
  | some (.ok _) => .complete
  | some (.error (.skipped reason)) => .skipped reason
  | some (.error (.degraded _ reason)) => .degraded reason
  | some (.error (.failed reason)) => .failed reason
  | none => .failed "inspector panicked"

def notApplicable (kind : SourceSystemKind) : String := "not applicable to " ++ kind.debugName

structure ScanPlan where
  kind : SourceSystemKind
  inspectors : List Inspector

namespace ScanPlan

variable (plan : ScanPlan)

def applicable : List Inspector := plan.inspectors.filter (·.applicableTo.contains plan.kind)

def inapplicable : List Inspector := plan.inspectors.filter (!·.applicableTo.contains plan.kind)

def wave1 : List Inspector := plan.applicable.filter (!isWave2 ·.id)

def wave2 : List Inspector := plan.applicable.filter (isWave2 ·.id)

def gated : Collection :=
  plan.inapplicable.foldl (fun c i => c.warn i.id ("skipped: " ++ notApplicable plan.kind) .info)
    { snapshot := { schemaVersion := SCHEMA_VERSION } }

def gateEvents : List ProgressEvent :=
  plan.inapplicable.map fun i => .inspectorFinished i.id (.skipped (notApplicable plan.kind))

end ScanPlan

inductive Phase where
  | first | second | ended
  deriving DecidableEq

structure Scan where
  phase : Phase
  cancelled : Bool
  rpmState : Option RpmState
  wave : Wave Inspector Joined
  collection : Collection
  events : List ProgressEvent

/-- The main thread reports the starts of wave 2, and looks for an interrupt before each. -/
def Phase.allows (cancelled : Bool) : Phase → Turn → Bool
  | .first, .spawn | .first, .start => true
  | .second, .launch => !cancelled
  | .second, .drop => cancelled
  | .first, .finish | .first, .join | .second, .finish | .second, .join => true
  | _, _ => false

def eventOf : Note Inspector Joined → ProgressEvent
  | .began i => .inspectorStarted i.id
  | .settled i joined => .inspectorFinished i.id (outcomeOf joined)

def Collection.absorb (c : Collection) (notes : List (Note Inspector Joined)) : Collection :=
  (settlements notes).foldl (fun c s => c.handleResult s.1.id s.2) c

def sharedState (c : Collection) : Option RpmState :=
  if c.rpmPopulated then some c.rpmState else none

inductive Scan.Step (plan : ScanPlan) : Scan → Scan → Prop where
  | interrupt (s : Scan) : Step plan s { s with cancelled := true }
  | thread (s : Scan) {move : Turn} {notes : List (Note Inspector Joined)}
      {wave : Wave Inspector Joined} (allowed : s.phase.allows s.cancelled move = true)
      (step : ForkJoin.Step (·.inspect s.rpmState) move s.wave notes wave) :
      Step plan s { s with
        wave := wave
        collection := s.collection.absorb notes
        events := s.events ++ notes.map eventOf }
  | nextWave (s : Scan) (first : s.phase = .first) (joined : s.wave = .empty)
      (more : plan.wave2 ≠ []) (running : s.cancelled = false) :
      Step plan s { s with
        phase := .second
        rpmState := sharedState s.collection
        wave := ⟨plan.wave2, []⟩
        collection := { s.collection with rpmState := {} } }
  | noWave (s : Scan) (first : s.phase = .first) (joined : s.wave = .empty)
      (none : plan.wave2 = [] ∨ s.cancelled = true) : Step plan s { s with phase := .ended }
  | done (s : Scan) (second : s.phase = .second) (joined : s.wave = .empty) :
      Step plan s { s with phase := .ended }

def ScanPlan.begin (plan : ScanPlan) : Scan where
  phase := .first
  cancelled := false
  rpmState := none
  wave := ⟨plan.wave1, []⟩
  collection := plan.gated
  events := plan.gateEvents

def Collection.settle (rpm : Option RpmState) (c : Collection) (wave : List Inspector) :
    Collection :=
  wave.foldl (fun c i => c.handleResult i.id (i.inspect rpm)) c

def ScanPlan.afterFirst (plan : ScanPlan) : Collection := plan.gated.settle none plan.wave1

def ScanPlan.inOrder (plan : ScanPlan) (launched : List Inspector) : Collection :=
  { plan.afterFirst with rpmState := {} }.settle (sharedState plan.afterFirst) launched

def completenessOf (failed degraded : List InspectorId) : Completeness :=
  if failed.isEmpty && degraded.isEmpty then .complete
  else if failed.isEmpty then
    .partially degraded "one or more inspectors returned degraded results"
  else .incomplete failed degraded "one or more inspectors failed or returned degraded results"

def SourceSystemKind.systemType : SourceSystemKind → SystemType
  | .packageBased => .packageMode
  | .rpmOstree => .rpmOstree
  | .bootc => .bootc

/-- What the snapshot says of its origin. -/
structure Provenance where
  osRelease : OsRelease
  kind : SourceSystemKind
  hostname : Except String String
  timestamp : String
  version : String

def Provenance.metadata (origin : Provenance) (metadata : TextMap Json) : TextMap Json :=
  let hostname := match origin.hostname with
    | .ok text => Text.trim text
    | .error _ => ""
  let named := if hostname.isEmpty then metadata else metadata.insert "hostname" (.str hostname)
  let stamped := named.insert "timestamp" (.str origin.timestamp)
  stamped.insert "inspectah_version" (.str origin.version)

def Collection.finish (c : Collection) (origin : Provenance) : InspectionSnapshot :=
  finalizeCrossInspector
    { c.snapshot with
      completeness := completenessOf c.failed c.degraded
      osRelease := some origin.osRelease
      systemType := origin.kind.systemType
      metadata := origin.metadata c.snapshot.metadata }

inductive ScanOutcome where
  | clean | degraded | incomplete | interrupted
  deriving DecidableEq

def ScanOutcome.fromCompleteness : Completeness → ScanOutcome
  | .complete => .clean
  | .partially _ _ => .degraded
  | .incomplete _ _ _ => .incomplete

def ScanOutcome.exitCode : ScanOutcome → Nat
  | .clean | .degraded => 0
  | .incomplete => 2
  | .interrupted => 130

def Scan.outcome (s : Scan) (origin : Provenance) : ScanOutcome :=
  if s.cancelled then .interrupted
  else .fromCompleteness (s.collection.finish origin).completeness

section Run

variable {plan : ScanPlan} {s t : Scan} {notes more : List (Note Inspector Joined)}
  {wave launched : List Inspector} {rpm : Option RpmState}

theorem absorb_append (c : Collection) :
    c.absorb (notes ++ more) = (c.absorb notes).absorb more := by
  simp [Collection.absorb]

theorem absorb_attended (c : Collection) (attended : Attended (·.inspect rpm) wave notes) :
    c.absorb notes = c.settle rpm wave := by
  rw [Collection.absorb, attended.settled, List.foldl_map]
  rfl

/-- The first wave, under way. -/
structure InFirst (plan : ScanPlan) (s : Scan) (taken : List Inspector)
    (notes : List (Note Inspector Joined)) : Prop where
  phase : s.phase = .first
  rpmState : s.rpmState = none
  accounts : Accounts (·.inspect none) taken notes s.wave
  planned : taken ++ s.wave.waiting = plan.wave1
  collected : s.collection = plan.gated.absorb notes
  events : s.events = plan.gateEvents ++ notes.map eventOf

structure InSecond (plan : ScanPlan) (s : Scan) (taken : List Inspector)
    (first notes : List (Note Inspector Joined)) : Prop where
  rpmState : s.rpmState = sharedState plan.afterFirst
  attended : Attended (·.inspect none) plan.wave1 first
  accounts : Accounts (·.inspect (sharedState plan.afterFirst)) taken notes s.wave
  begun : ∀ h ∈ s.wave.handles, h.2.hasBegun = true
  planned : taken <+: plan.wave2
  running : s.cancelled = false → taken ++ s.wave.waiting = plan.wave2
  collected : s.collection = { plan.afterFirst with rpmState := {} }.absorb notes
  events : s.events = plan.gateEvents ++ (first ++ notes).map eventOf

structure CarriedOut (plan : ScanPlan) (s : Scan) (launched : List Inspector)
    (earlier later : List (Note Inspector Joined)) : Prop where
  planned : launched <+: plan.wave2
  running : s.cancelled = false → launched = plan.wave2
  first : Attended (·.inspect none) plan.wave1 earlier
  second : Attended (·.inspect (sharedState plan.afterFirst)) launched later
  snapshot : s.collection.snapshot = (plan.inOrder launched).snapshot
  failed : s.collection.failed = (plan.inOrder launched).failed
  degraded : s.collection.degraded = (plan.inOrder launched).degraded
  events : s.events = plan.gateEvents ++ (earlier ++ later).map eventOf

inductive Underway (plan : ScanPlan) (s : Scan) : Prop where
  | first {taken : List Inspector} {notes : List (Note Inspector Joined)}
      (standing : InFirst plan s taken notes)
  | second {taken : List Inspector} {earlier notes : List (Note Inspector Joined)}
      (phase : s.phase = .second) (standing : InSecond plan s taken earlier notes)
  | ended {launched : List Inspector} {earlier later : List (Note Inspector Joined)}
      (phase : s.phase = .ended) (carried : CarriedOut plan s launched earlier later)

theorem underway_begin (plan : ScanPlan) : Underway plan plan.begin :=
  .first ⟨rfl, rfl, .begin plan.wave1, rfl, rfl, by simp [ScanPlan.begin]⟩

theorem allows_first {cancelled : Bool} {move : Turn}
    (allowed : Phase.first.allows cancelled move = true) : move ≠ .drop := by
  rintro rfl
  cases allowed

theorem InFirst.thread (standing : InFirst plan s wave notes) {move : Turn}
    {w : Wave Inspector Joined} (allowed : s.phase.allows s.cancelled move = true)
    (step : ForkJoin.Step (·.inspect s.rpmState) move s.wave more w) :
    InFirst plan
      { s with
        wave := w
        collection := s.collection.absorb more
        events := s.events ++ more.map eventOf } (wave ++ move.takes s.wave) (notes ++ more) := by
  rw [standing.rpmState] at step
  rw [standing.phase] at allowed
  refine ⟨standing.phase, standing.rpmState, standing.accounts.step step, ?_, ?_, ?_⟩
  · rw [List.append_assoc, step.waiting_eq (allows_first allowed), standing.planned]
  · rw [absorb_append, ← standing.collected]
  · rw [List.map_append, ← List.append_assoc, ← standing.events]

theorem InSecond.thread {earlier : List (Note Inspector Joined)} (phase : s.phase = .second)
    (standing : InSecond plan s wave earlier notes) {move : Turn} {w : Wave Inspector Joined}
    (allowed : s.phase.allows s.cancelled move = true)
    (step : ForkJoin.Step (·.inspect s.rpmState) move s.wave more w) :
    InSecond plan
      { s with
        wave := w
        collection := s.collection.absorb more
        events := s.events ++ more.map eventOf }
      (wave ++ move.takes s.wave) earlier (notes ++ more) := by
  rw [standing.rpmState] at step
  rw [phase] at allowed
  have launches : move ≠ .spawn := by
    rintro rfl
    cases allowed
  have running : s.cancelled = false → wave ++ move.takes s.wave ++ w.waiting = plan.wave2 := by
    intro running
    have kept : move ≠ .drop := by
      rintro rfl
      rw [running] at allowed
      cases allowed
    rw [List.append_assoc, step.waiting_eq kept, standing.running running]
  have planned : wave ++ move.takes s.wave <+: plan.wave2 := by
    by_cases free : s.cancelled = false
    · exact ⟨w.waiting, running free⟩
    · have kept : move.takes s.wave = [] := by
        cases move <;> simp_all [Phase.allows, Turn.takes]
      rw [kept, List.append_nil]
      exact standing.planned
  refine ⟨standing.rpmState, standing.attended, standing.accounts.step step,
    step.begun launches standing.begun, planned, running, ?_, ?_⟩
  · rw [absorb_append, ← standing.collected]
  · rw [← List.append_assoc, List.map_append, ← List.append_assoc, ← standing.events]

theorem InFirst.attended (standing : InFirst plan s wave notes) (joined : s.wave = .empty) :
    Attended (·.inspect none) plan.wave1 notes := by
  have accounts := standing.accounts
  have planned := standing.planned
  rw [joined] at accounts planned
  rw [← planned, Wave.empty, List.append_nil]
  exact accounts.attended

theorem InFirst.collected_first (standing : InFirst plan s wave notes) (joined : s.wave = .empty) :
    s.collection = plan.afterFirst := by
  rw [standing.collected, absorb_attended _ (standing.attended joined)]
  rfl

theorem InFirst.nextWave (standing : InFirst plan s wave notes) (joined : s.wave = .empty) :
    InSecond plan
      { s with
        phase := .second
        rpmState := sharedState s.collection
        wave := ⟨plan.wave2, []⟩
        collection := { s.collection with rpmState := {} } } [] notes [] := by
  have first := standing.collected_first joined
  refine ⟨by rw [first], standing.attended joined, .begin plan.wave2, by simp, List.nil_prefix,
    fun _ => rfl, ?_, ?_⟩
  · rw [first]
    rfl
  · rw [List.append_nil]
    exact standing.events

theorem InFirst.noWave (standing : InFirst plan s wave notes) (joined : s.wave = .empty)
    (none : plan.wave2 = [] ∨ s.cancelled = true) :
    CarriedOut plan { s with phase := .ended } [] notes [] := by
  have first := standing.collected_first joined
  refine ⟨List.nil_prefix, ?_, standing.attended joined, (Accounts.begin []).attended,
    ?_, ?_, ?_, ?_⟩
  · intro running
    rcases none with none | cancelled
    · exact none.symm
    · exact absurd (running.symm.trans cancelled) Bool.false_ne_true
  · rw [first]
    rfl
  · rw [first]
    rfl
  · rw [first]
    rfl
  · rw [List.append_nil]
    exact standing.events

theorem InSecond.done {earlier : List (Note Inspector Joined)}
    (standing : InSecond plan s wave earlier notes) (joined : s.wave = .empty) :
    CarriedOut plan { s with phase := .ended } wave earlier notes := by
  have accounts := standing.accounts
  have running := standing.running
  rw [joined] at accounts running
  have inOrder : s.collection = plan.inOrder wave := by
    rw [standing.collected, absorb_attended _ accounts.attended]
    rfl
  refine ⟨standing.planned, fun free => ?_, standing.attended, accounts.attended, ?_, ?_, ?_,
    standing.events⟩
  · rw [← running free, Wave.empty, List.append_nil]
  · rw [inOrder]
  · rw [inOrder]
  · rw [inOrder]

theorem underway_step (standing : Underway plan s) (step : Scan.Step plan s t) :
    Underway plan t := by
  cases step with
  | interrupt =>
    cases standing with
    | first standing => exact .first { standing with }
    | second phase standing =>
      exact .second phase { standing with running := fun free => Bool.noConfusion free }
    | ended phase carried =>
      exact .ended phase { carried with running := fun free => Bool.noConfusion free }
  | thread allowed step =>
    cases standing with
    | first standing => exact .first (standing.thread allowed step)
    | second phase standing => exact .second phase (standing.thread phase allowed step)
    | ended phase carried =>
      rw [phase] at allowed
      cases allowed
  | nextWave phase joined more running =>
    cases standing with
    | first standing => exact .second rfl (standing.nextWave joined)
    | second other _ => cases phase.symm.trans other
    | ended other _ => cases phase.symm.trans other
  | noWave phase joined none =>
    cases standing with
    | first standing => exact .ended rfl (standing.noWave joined none)
    | second other _ => cases phase.symm.trans other
    | ended other _ => cases phase.symm.trans other
  | done phase joined =>
    cases standing with
    | first standing => cases phase.symm.trans standing.phase
    | second _ standing => exact .ended rfl (standing.done joined)
    | ended other _ => cases phase.symm.trans other

open Relation

theorem underway_run (run : ReflTransGen (Scan.Step plan) plan.begin s) : Underway plan s := by
  induction run with
  | refl => exact underway_begin plan
  | tail _ step ih => exact underway_step ih step

theorem carriedOut_run (run : ReflTransGen (Scan.Step plan) plan.begin s)
    (ended : s.phase = .ended) :
    ∃ launched earlier later, CarriedOut plan s launched earlier later := by
  cases underway_run run with
  | first standing => cases ended.symm.trans standing.phase
  | second phase _ => cases ended.symm.trans phase
  | ended _ carried => exact ⟨_, _, _, carried⟩

def lockedRpm : Inspector where
  id := .rpm
  applicableTo := [.packageBased]
  inspect _ := some (.error (.failed "rpmdb is locked"))

def idleConfig : Inspector where
  id := .config
  applicableTo := [.packageBased]
  inspect rpm := if rpm.isSome then none else some (.error (.skipped "no package data"))

def samplePlan : ScanPlan := ⟨.packageBased, [idleConfig, lockedRpm]⟩

def sampleScan : Scan where
  phase := .ended
  cancelled := false
  rpmState := none
  wave := .empty
  collection := samplePlan.inOrder [idleConfig]
  events := [
    .inspectorStarted .rpm, .inspectorFinished .rpm (.failed "rpmdb is locked"),
    .inspectorStarted .config, .inspectorFinished .config (.skipped "no package data")]

theorem sample_run : ReflTransGen (Scan.Step samplePlan) samplePlan.begin sampleScan :=
  .head (.thread _ rfl (.spawn lockedRpm [] [])) <|
  .head (.thread _ rfl (.start [] [] lockedRpm [])) <|
  .head (.thread _ rfl (.finish [] [] lockedRpm [])) <|
  .head (.thread _ rfl (.join lockedRpm _ [])) <|
  .head (.nextWave _ rfl rfl (List.cons_ne_nil idleConfig []) rfl) <|
  .head (.thread _ rfl (.launch idleConfig [] [])) <|
  .head (.thread _ rfl (.finish [] [] idleConfig [])) <|
  .head (.thread _ rfl (.join idleConfig _ [])) <|
  .single (.done _ rfl rfl)

/-- Whatever the interleaving and the interrupts, a scan collects what its inspectors bring one
    after the other; an interrupt leaves out the end of the second wave. -/
theorem scan_in_order (run : ReflTransGen (Scan.Step plan) plan.begin s)
    (ended : s.phase = .ended) :
    ∃ launched, launched <+: plan.wave2 ∧ (s.cancelled = false → launched = plan.wave2) ∧
      ∀ origin, s.collection.finish origin = (plan.inOrder launched).finish origin := by
  obtain ⟨launched, earlier, later, carried⟩ := carriedOut_run run ended
  refine ⟨launched, carried.planned, carried.running, fun origin => ?_⟩
  rw [Collection.finish, Collection.finish, carried.snapshot, carried.failed, carried.degraded]

theorem scan_in_order_sample :
    ∃ launched, launched <+: samplePlan.wave2 ∧
      (sampleScan.cancelled = false → launched = samplePlan.wave2) ∧ ∀ origin,
        sampleScan.collection.finish origin = (samplePlan.inOrder launched).finish origin :=
  scan_in_order sample_run rfl

theorem scan_events (run : ReflTransGen (Scan.Step plan) plan.begin s) (ended : s.phase = .ended) :
    ∃ launched earlier later, launched <+: plan.wave2 ∧
      (s.cancelled = false → launched = plan.wave2) ∧
      Attended (·.inspect none) plan.wave1 earlier ∧
      Attended (·.inspect (sharedState plan.afterFirst)) launched later ∧
      s.events = plan.gateEvents ++ (earlier ++ later).map eventOf := by
  obtain ⟨launched, earlier, later, carried⟩ := carriedOut_run run ended
  exact ⟨launched, earlier, later, carried.planned, carried.running, carried.first, carried.second,
    carried.events⟩

theorem scan_events_sample :
    ∃ launched earlier later, launched <+: samplePlan.wave2 ∧
      (sampleScan.cancelled = false → launched = samplePlan.wave2) ∧
      Attended (·.inspect none) samplePlan.wave1 earlier ∧
      Attended (·.inspect (sharedState samplePlan.afterFirst)) launched later ∧
      sampleScan.events = samplePlan.gateEvents ++ (earlier ++ later).map eventOf :=
  scan_events sample_run rfl

def hasFailed : Joined → Bool
  | some (.error (.failed _)) | none => true
  | _ => false

def ScanPlan.joined (plan : ScanPlan) (i : Inspector) : Joined :=
  i.inspect (if isWave2 i.id then sharedState plan.afterFirst else none)

theorem failed_handleResult (c : Collection) (id : InspectorId) (joined : Joined) :
    (c.handleResult id joined).failed = c.failed ++ if hasFailed joined then [id] else [] := by
  have extract (data : SectionData) : (c.extract id data).failed = c.failed := by
    cases id <;> cases data <;> rfl
  rcases joined with _ | ⟨e⟩ | output
  · rfl
  · cases e with
    | skipped => exact (List.append_nil _).symm
    | degraded output => exact (extract output.data).trans (List.append_nil _).symm
    | failed => rfl
  · exact (extract output.data).trans (List.append_nil _).symm

theorem failed_settle (c : Collection) : (c.settle rpm wave).failed =
    c.failed ++ (wave.filter fun i => hasFailed (i.inspect rpm)).map (·.id) := by
  induction wave generalizing c with
  | nil => exact (List.append_nil _).symm
  | cons i rest ih =>
    change (Collection.settle rpm (c.handleResult i.id (i.inspect rpm)) rest).failed = _
    rw [ih, failed_handleResult, List.filter_cons, List.append_assoc]
    split <;> rfl

theorem failed_gated (plan : ScanPlan) : plan.gated.failed = [] := by
  have warned : ∀ (is : List Inspector) (c : Collection), (is.foldl (fun c i =>
      c.warn i.id ("skipped: " ++ notApplicable plan.kind) .info) c).failed = c.failed := by
    intro is
    induction is with
    | nil => exact fun _ => rfl
    | cons i rest ih => exact fun c => ih _
  exact warned _ _

theorem failed_inOrder : (plan.inOrder plan.wave2).failed.isEmpty =
    !plan.applicable.any fun i => hasFailed (plan.joined i) := by
  have first : plan.afterFirst.failed =
      (plan.wave1.filter fun i => hasFailed (i.inspect none)).map (·.id) := by
    rw [ScanPlan.afterFirst, failed_settle, failed_gated, List.nil_append]
  have both : (plan.inOrder plan.wave2).failed =
      (plan.wave1.filter fun i => hasFailed (i.inspect none)).map (·.id) ++ (plan.wave2.filter
        fun i => hasFailed (i.inspect (sharedState plan.afterFirst))).map (·.id) := by
    rw [ScanPlan.inOrder, failed_settle, ← first]
  rw [both, Bool.eq_iff_iff]
  simp only [ScanPlan.wave1, ScanPlan.wave2, ScanPlan.joined, List.isEmpty_iff,
    List.append_eq_nil_iff, List.map_eq_nil_iff, List.filter_eq_nil_iff, List.mem_filter,
    Bool.not_eq_true', List.any_eq_false, and_imp]
  constructor
  · rintro ⟨early, late⟩ i mem
    cases wave : isWave2 i.id with
    | false => simpa [wave] using early i mem wave
    | true => simpa [wave] using late i mem wave
  · intro none
    refine ⟨fun i mem wave => ?_, fun i mem wave => ?_⟩
    · simpa [wave] using none i mem
    · simpa [wave] using none i mem

theorem exitCode_completeness (failed degraded : List InspectorId) :
    (ScanOutcome.fromCompleteness (completenessOf failed degraded)).exitCode =
      if failed.isEmpty then 0 else 2 := by
  cases failed <;> cases degraded <;> rfl

theorem exitCode_eq (run : ReflTransGen (Scan.Step plan) plan.begin s) (ended : s.phase = .ended)
    (origin : Provenance) :
    (s.outcome origin).exitCode =
      if s.cancelled then 130
      else if plan.applicable.any fun i => hasFailed (plan.joined i) then 2 else 0 := by
  obtain ⟨launched, earlier, later, carried⟩ := carriedOut_run run ended
  cases running : s.cancelled with
  | true => rw [Scan.outcome, running]; rfl
  | false =>
    have failed : s.collection.failed.isEmpty =
        !plan.applicable.any fun i => hasFailed (plan.joined i) := by
      rw [carried.failed, carried.running running, failed_inOrder]
    rw [Scan.outcome, running, if_neg Bool.false_ne_true, if_neg Bool.false_ne_true]
    change (ScanOutcome.fromCompleteness (completenessOf s.collection.failed _)).exitCode = _
    rw [exitCode_completeness, failed]
    cases plan.applicable.any fun i => hasFailed (plan.joined i) <;> rfl

theorem exitCode_sample : (sampleScan.outcome ⟨{}, .bootc, .ok "a", "", ""⟩).exitCode = 2 :=
  exitCode_eq sample_run rfl _

/-- The moves the scan has left at most, interrupts apart. -/
def Scan.remaining (plan : ScanPlan) (s : Scan) : Nat :=
  match s.phase with
  | .first => s.wave.weight + 4 * plan.wave2.length + 2
  | .second => s.wave.weight + 1
  | .ended => 0

theorem remaining_lt (step : Scan.Step plan s t) :
    t = { s with cancelled := true } ∨ t.remaining plan < s.remaining plan := by
  cases step with
  | interrupt => exact .inl rfl
  | thread allowed step =>
    have lighter := step.weight_lt
    obtain ⟨phase, cancelled, rpmState, wave, collection, events⟩ := s
    cases phase with
    | first => exact .inr (by simpa [Scan.remaining] using lighter)
    | second => exact .inr (by simpa [Scan.remaining] using lighter)
    | ended => cases allowed
  | nextWave first joined =>
    refine .inr ?_
    rw [Scan.remaining, Scan.remaining, first, joined]
    simp [Wave.weight, Wave.empty]
  | noWave first =>
    refine .inr ?_
    rw [Scan.remaining, Scan.remaining, first]
    exact Nat.succ_pos _
  | done second =>
    refine .inr ?_
    rw [Scan.remaining, Scan.remaining, second]
    exact Nat.succ_pos _

theorem exists_step (underway : Underway plan s) (going : s.phase ≠ .ended) :
    ∃ t, Scan.Step plan s t ∧ t.remaining plan < s.remaining plan := by
  have moved : ∀ {move more w}, s.phase.allows s.cancelled move = true →
      ForkJoin.Step (·.inspect s.rpmState) move s.wave more w →
      ∃ t, Scan.Step plan s t ∧ t.remaining plan < s.remaining plan := by
    intro move more w allowed step
    refine ⟨_, .thread s allowed step, ?_⟩
    rcases remaining_lt (.thread s allowed step) with same | less
    · have lighter := step.weight_lt
      have kept : w = s.wave := congrArg Scan.wave same
      exact absurd lighter (by rw [kept]; exact lt_irrefl _)
    · exact less
  obtain ⟨phase, cancelled, rpmState, ⟨waiting, handles⟩, collection, events⟩ := s
  cases phase with
  | ended => exact absurd rfl going
  | first =>
    cases waiting with
    | cons i rest => exact moved rfl (.spawn i rest handles)
    | nil =>
      cases handles with
      | nil =>
        by_cases more : plan.wave2 ≠ [] ∧ cancelled = false
        · exact ⟨_, .nextWave _ rfl rfl more.1 more.2, by simp [Scan.remaining, Wave.weight]⟩
        · refine ⟨_, .noWave _ rfl rfl ?_, by simp [Scan.remaining]⟩
          by_cases none : plan.wave2 = []
          · exact .inl none
          · exact .inr (Bool.not_eq_false _ |>.mp fun free => more ⟨none, free⟩)
      | cons handle rest =>
        obtain ⟨i, thread⟩ := handle
        cases thread with
        | ready => exact moved rfl (.start [] [] i rest)
        | running => exact moved rfl (.finish [] [] i rest)
        | returned result => exact moved rfl (.join i result rest)
  | second =>
    cases waiting with
    | cons i rest =>
      cases cancelled with
      | false => exact moved rfl (.launch i rest handles)
      | true => exact moved rfl (.drop i rest handles)
    | nil =>
      cases handles with
      | nil => exact ⟨_, .done _ rfl rfl, by simp [Scan.remaining]⟩
      | cons handle rest =>
        obtain ⟨i, thread⟩ := handle
        cases thread with
        | ready =>
          cases underway with
          | first standing => cases standing.phase
          | second _ standing => cases standing.begun _ List.mem_cons_self
          | ended phase => cases phase
        | running => exact moved rfl (.finish [] [] i rest)
        | returned result => exact moved rfl (.join i result rest)

/-- No schedule of the threads blocks the scan or keeps it going for ever. -/
theorem scan_settles (run : ReflTransGen (Scan.Step plan) plan.begin s) :
    (∀ t, Scan.Step plan s t →
      t = { s with cancelled := true } ∨ t.remaining plan < s.remaining plan) ∧
      (s.phase = .ended ∨ ∃ t, Scan.Step plan s t ∧ t.remaining plan < s.remaining plan) := by
  refine ⟨fun t step => remaining_lt step, ?_⟩
  by_cases ended : s.phase = .ended
  · exact .inl ended
  · exact .inr (exists_step (underway_run run) ended)

theorem scan_settles_sample :
    (∀ t, Scan.Step samplePlan samplePlan.begin t →
      t = { samplePlan.begin with cancelled := true } ∨
      t.remaining samplePlan < samplePlan.begin.remaining samplePlan) ∧
      (samplePlan.begin.phase = .ended ∨ ∃ t, Scan.Step samplePlan samplePlan.begin t ∧
        t.remaining samplePlan < samplePlan.begin.remaining samplePlan) :=
  scan_settles .refl

end Run

section Ownership

variable {rpm : RpmSection} {path : String}

def RpmState.isRpmOwned (state : RpmState) (path : String) : Bool :=
  state.ownedPaths.contains (components path)

def RpmState.packageForPath (state : RpmState) (path : String) : Option PackageEntry :=
  (state.pathToPackage.lookup (components path)).bind fun i => state.packages[i]?

def ListsInEtc (entry : FileOwnershipEntry) (path : String) : Prop :=
  ∃ listed ∈ entry.paths, Text.startsWith listed "/etc" = true ∧ components listed = components path

/-- A path has a package exactly when an added package's entry lists it, and it is of that name. -/
structure OwnersKnown (rpm : RpmSection) (state : RpmState) (path : String) : Prop where
  owned : state.isRpmOwned path = true ↔ ∃ entry ∈ rpm.fileOwnership, ListsInEtc entry path
  found : (state.packageForPath path).isSome = true ↔ ∃ entry ∈ rpm.fileOwnership,
    (∃ p ∈ rpm.packagesAdded, p.name = entry.packageName) ∧ ListsInEtc entry path
  named : ∀ p, state.packageForPath path = some p → p ∈ rpm.packagesAdded ∧
    ∃ entry ∈ rpm.fileOwnership, entry.packageName = p.name ∧ ListsInEtc entry path

theorem packageIndex_some {packages : List PackageEntry} {name : String} {i : Nat}
    (found : packageIndex packages name = some i) : ∃ p, packages[i]? = some p ∧ p.name = name := by
  obtain ⟨⟨p, i⟩, first, rfl⟩ := Option.map_eq_some_iff.mp found
  have mem := List.mem_reverse.mp (List.mem_of_find?_eq_some first)
  exact ⟨p, List.mem_zipIdx_iff_getElem?.mp mem, by simpa using List.find?_some first⟩

theorem packageIndex_isSome {packages : List PackageEntry} {name : String} {p : PackageEntry}
    (mem : p ∈ packages) (named : p.name = name) : (packageIndex packages name).isSome = true := by
  obtain ⟨i, at_⟩ := List.mem_iff_getElem?.mp mem
  rw [packageIndex, Option.isSome_map, List.find?_isSome]
  exact ⟨(p, i), List.mem_reverse.mpr (List.mem_zipIdx_iff_getElem?.mpr at_), by simp [named]⟩

theorem mem_indexedPaths {key : List Component} {index : Option Nat} :
    (key, index) ∈ indexedPaths rpm ↔ ∃ entry ∈ rpm.fileOwnership,
      packageIndex rpm.packagesAdded entry.packageName = index ∧
        ∃ listed ∈ entry.paths, Text.startsWith listed "/etc" = true ∧ components listed = key := by
  simp only [indexedPaths, List.mem_flatMap, List.mem_map, List.mem_filter, Prod.mk.injEq]
  constructor
  · rintro ⟨entry, mem, listed, ⟨inside, etc⟩, same, index⟩
    exact ⟨entry, mem, index, listed, inside, etc, same⟩
  · rintro ⟨entry, mem, index, listed, inside, etc, same⟩
    exact ⟨entry, mem, listed, ⟨inside, etc⟩, same, index⟩

theorem lookup_none : (extractRpmState rpm {}).pathToPackage.lookup (components path) = none ↔
    ∀ i, (components path, some i) ∉ indexedPaths rpm := by
  rw [List.lookup_eq_none_iff]
  simp only [extractRpmState, List.append_nil, List.mem_reverse, List.mem_filterMap, bne_iff_ne]
  constructor
  · intro none i mem
    exact none (components path, i) ⟨_, mem, rfl⟩ rfl
  · rintro none ⟨key, i⟩ ⟨⟨key', index⟩, mem, made⟩ same
    obtain ⟨j, rfl, equal⟩ := Option.map_eq_some_iff.mp made
    cases equal
    exact none i (same ▸ mem)

theorem lookup_some {i : Nat}
    (known : (extractRpmState rpm {}).pathToPackage.lookup (components path) = some i) :
    ∃ entry ∈ rpm.fileOwnership, ListsInEtc entry path ∧
      ∃ p, rpm.packagesAdded[i]? = some p ∧ p.name = entry.packageName := by
  have mem := FirstKnown.mem_of_lookup known
  simp only [extractRpmState, List.append_nil, List.mem_reverse, List.mem_filterMap] at mem
  obtain ⟨⟨key, index⟩, mem, made⟩ := mem
  obtain ⟨j, rfl, same⟩ := Option.map_eq_some_iff.mp made
  cases same
  obtain ⟨entry, listed, index, lists⟩ := mem_indexedPaths.mp mem
  exact ⟨entry, listed, lists, packageIndex_some index⟩

theorem ownersKnown_extracted (rpm : RpmSection) (path : String) :
    OwnersKnown rpm (extractRpmState rpm {}) path where
  owned := by
    have owned : (extractRpmState rpm {}).ownedPaths = (indexedPaths rpm).map (·.1) :=
      List.append_nil _
    rw [RpmState.isRpmOwned, List.contains_iff_mem, owned, List.mem_map]
    constructor
    · rintro ⟨⟨key, index⟩, mem, same⟩
      obtain ⟨entry, listed, -, q, inside, etc, equal⟩ := mem_indexedPaths.mp mem
      exact ⟨entry, listed, q, inside, etc, equal.trans same⟩
    · rintro ⟨entry, listed, lists⟩
      exact ⟨_, mem_indexedPaths.mpr ⟨entry, listed, rfl, lists⟩, rfl⟩
  found := by
    rw [RpmState.packageForPath]
    constructor
    · intro found
      obtain ⟨p, found⟩ := Option.isSome_iff_exists.mp found
      obtain ⟨i, known, -⟩ := Option.bind_eq_some_iff.mp found
      obtain ⟨entry, listed, lists, q, there, named⟩ := lookup_some known
      exact ⟨entry, listed, ⟨q, List.mem_of_getElem? there, named⟩, lists⟩
    · rintro ⟨entry, listed, ⟨p, mem, named⟩, lists⟩
      obtain ⟨i, index⟩ := Option.isSome_iff_exists.mp (packageIndex_isSome mem named)
      cases known : (extractRpmState rpm {}).pathToPackage.lookup (components path) with
      | none =>
        have indexed := mem_indexedPaths.mpr ⟨entry, listed, index, lists⟩
        exact absurd indexed (lookup_none.mp known i)
      | some j =>
        obtain ⟨_, _, _, q, there, _⟩ := lookup_some known
        exact Option.isSome_iff_exists.mpr ⟨q, there⟩
  named p found := by
    obtain ⟨i, known, at_⟩ := Option.bind_eq_some_iff.mp found
    obtain ⟨entry, listed, lists, q, there, named⟩ := lookup_some known
    obtain rfl : p = q := Option.some.inj (at_.symm.trans there)
    exact ⟨List.mem_of_getElem? there, entry, listed, named.symm, lists⟩

end Ownership

end Waves

end Inspectah
