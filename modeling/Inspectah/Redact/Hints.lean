import Inspectah.Library.KeyedFold
import Inspectah.Redact.Passes

/-!
The end of a redaction. Hints of the inspectors become findings, resolved when the keyword
of the hint is gone from what the passes left at its path, and the findings that are not
resolved decide the state of the snapshot.
-/
namespace Inspectah

variable (contents : TextMap String) (findings : List RedactionFinding) (hint : RedactionHint)

def REDACTION_ALLOWLIST : List String := ["etc/pam.d/"]

def isAllowlistedPath (path : String) : Bool :=
  let normalized := (Text.afterPrefix path "/").getD path
  REDACTION_ALLOWLIST.any fun allowed => Text.startsWith normalized allowed

/-- `trim_matches` of one character. -/
def trimMatches (c : Char) (text : List Char) : List Char :=
  ((text.dropWhile (· == c)).reverse.dropWhile (· == c)).reverse

def textAfter (phrase : String) (text : List Char) : Option (List Char) :=
  (Text.findChars phrase.toList text).map fun (_, rest) => Text.trimChars rest

def openingWord (text : List Char) : List Char :=
  (text.dropWhile Text.isWhitespace).takeWhile (!Text.isWhitespace ·)

def nonEmpty (text : List Char) : Option String :=
  if text.isEmpty then none else some (String.ofList text)

def KEYWORDS : List String := ["password", "secret", "token", "credential", "key="]

/-- The parameter a hint names, what it says is contained, the variable it names, or a known
    word. -/
def extractHintKeyword (reason : String) : Option String :=
  let unquoted := (Text.beforeSuffix reason "\"").getD reason
  let parameter := (textAfter "parameter: " unquoted.toList).bind fun rest =>
    nonEmpty (trimMatches '"' rest)
  let contained := (textAfter "contains " reason.toList).bind fun rest =>
    nonEmpty (trimMatches '\'' (trimMatches '"' (openingWord rest)))
  let variable_ := (textAfter "variable " reason.toList).bind fun rest =>
    nonEmpty (trimMatches '"' (trimMatches '\'' (openingWord rest)))
  let known := KEYWORDS.find? fun kw => Text.contains (keywordLower reason) kw
  parameter.or (contained.or (variable_.or known))

abbrev Field := String × String

def generatedFields (unit : GeneratedTimerUnit) : List Field :=
  (unit.sourcePath, unit.command) ::
    if unit.serviceContent.isEmpty then [] else [(generatedServicePath unit, unit.serviceContent)]

def timerFields (timer : SystemdTimer) : List Field :=
  (timerPath timer, timer.execStart) ::
    if timer.serviceContent.isEmpty then [] else [(timerServicePath timer, timer.serviceContent)]

def recordedFields (snap : InspectionSnapshot) : List Field :=
  rowsOf (fun config => config.files.map fun f => (f.path, f.content)) snap.config ++
  rowsOf (fun rpm => (rpm.repoFiles ++ rpm.gpgKeys).map fun f => (f.path, f.content)) snap.rpm ++
  rowsOf (fun services => services.dropIns.map fun d => (d.path, d.content)) snap.services ++
  rowsOf (fun boot => [(CMDLINE_PATH, boot.cmdline)]) snap.kernelBoot ++
  rowsOf (fun sched => sched.generatedTimerUnits.flatMap generatedFields ++
    sched.atJobs.map (fun job => (job.file, job.command)) ++
    sched.systemdTimers.flatMap timerFields) snap.scheduledTasks ++
  rowsOf (fun nrs => nrs.envFiles.map (fun f => (f.path, f.content)) ++
    nrs.items.filterMap fun item =>
      if item.gitRemote.isEmpty then none else some (item.path, item.gitRemote))
    snap.nonRpmSoftware

def postRedactionContent (snap : InspectionSnapshot) : TextMap String :=
  (recordedFields snap).foldl (fun m field => m.insert field.1 field.2) ∅

/-- The keyword is gone from the text at its path; without one, something was found there. -/
def hintResolved : Bool :=
  match contents.lookup hint.path with
  | none => false
  | some content =>
    match extractHintKeyword hint.reason with
    | some kw => !Text.contains content kw
    | none => findings.any fun f => f.source != "inspector_hint" && f.path == hint.path

def hintConfidence : Option Confidence :=
  if hint.confidence = some .high then
    if hintResolved contents findings hint then some .high else some .medium
  else hint.confidence

def hintFinding : RedactionFinding where
  path := hint.path
  source := "inspector_hint"
  kind := .flagged
  pattern := "inspector_hint"
  remediation := hint.reason
  detectionMethod := .heuristic
  confidence := hintConfidence contents findings hint
  findingKind := some .genericCredential

def addHint :
    List RedactionFinding :=
  if isAllowlistedPath hint.path then findings
  else findings ++ [hintFinding contents findings hint]

def REDACTED_BY : String := "inspectah 0.9.0-beta.5"

def openHints : List RedactionHint :=
  (findings.filter fun f => f.confidence ≠ some .high).map fun f =>
    ⟨f.path, f.remediation, f.confidence⟩

def redactionStateOf (sensitive : Bool) (findings : List RedactionFinding) : RedactionState :=
  let hash := String.ofList (Nat.toDigits 16 findings.length)
  let unresolved := openHints findings
  if sensitive then .sensitiveRetained REDACTED_BY hash unresolved.length unresolved
  else if findings.isEmpty || unresolved.isEmpty then .fullyRedacted REDACTED_BY hash
  else .partiallyRedacted REDACTED_BY hash unresolved.length unresolved

/-- The end of a redaction, from what the passes left and found. -/
def finishRedaction (snap : InspectionSnapshot) (findings : List RedactionFinding) :
    InspectionSnapshot :=
  let redactions := snap.redactionHints.foldl (addHint (postRedactionContent snap)) findings
  { snap with
    redactionState := some (redactionStateOf snap.sensitiveSnapshot redactions)
    redactions }

def redact (tools : RedactTools) (snap : InspectionSnapshot) : InspectionSnapshot :=
  let (snap, run) := redactSections tools snap {}
  finishRedaction snap run.findings

def scannedFields (snap : InspectionSnapshot) : List Field :=
  recordedFields snap ++
  rowsOf (fun containers =>
    containers.runningContainers.flatMap (fun c =>
      c.env.map fun entry => ("container:" ++ c.name, entry)) ++
    containers.quadletUnits.map (fun unit => (quadletPath unit, unit.content)) ++
    containers.composeFiles.filterMap fun f => f.rawContent.map fun raw => (f.path, raw))
    snap.containers ++
  rowsOf (fun sched =>
    sched.generatedTimerUnits.map (fun unit =>
      ("generated:" ++ unit.name ++ ".timer", unit.timerContent)) ++
    sched.systemdTimers.flatMap fun timer =>
      [(timerPath timer, timer.description), (timerContentPath timer, timer.timerContent)])
    snap.scheduledTasks ++
  rowsOf (fun users => users.sudoersRules.map (fun rule => ("/etc/sudoers", rule)) ++
    users.shadowEntries.map fun entry => ("/etc/shadow", entry)) snap.usersGroups

def KeywordLeft (passed : InspectionSnapshot) (hint : RedactionHint) (kw : String) : Prop :=
  ∃ field ∈ scannedFields passed, field.1 = hint.path ∧ Text.contains field.2 kw

structure Settles (snap : InspectionSnapshot) (hint : RedactionHint) (kw : String) : Prop where
  listed : hint ∈ snap.redactionHints
  sure : hint.confidence = some .high
  checked : isAllowlistedPath hint.path = false
  keyword : extractHintKeyword hint.reason = some kw

/-- A hint as it stands among those that are not resolved. -/
def opened : RedactionHint := { hint with confidence := some .medium }

variable (tools : RedactTools) (snap : InspectionSnapshot)

def passed : InspectionSnapshot := (redactSections tools snap {}).1

def passFindings : List RedactionFinding := (redactSections tools snap {}).2.findings

structure HeldOpen (hint : RedactionHint) : Prop where
  finding : ∃ f ∈ (redact tools snap).redactions, f = hintFinding
      (postRedactionContent (passed tools snap)) (passFindings tools snap) hint ∧
    f.confidence = some .medium
  state : snap.sensitiveSnapshot = false → ∃ hash count hints,
    (redact tools snap).redactionState = some (.partiallyRedacted REDACTED_BY hash count hints) ∧
      opened hint ∈ hints

def HintsHeldOpen : Prop :=
  ∀ hint kw, Settles snap hint kw → KeywordLeft (passed tools snap) hint kw →
    HeldOpen tools snap hint

def lastRecorded (snap : InspectionSnapshot) (path : String) : Option String :=
  ((recordedFields snap).reverse.find? fun field => field.1 == path).map (·.2)

def LastTells : Prop :=
  ∀ hint kw, Settles snap hint kw → KeywordLeft (passed tools snap) hint kw →
    ∀ content, lastRecorded (passed tools snap) hint.path = some content →
      Text.contains content kw = true

theorem lookup_postRedactionContent (path : String) :
    (postRedactionContent snap).lookup path = lastRecorded snap path :=
  KeyedFold.lookup_finmap_foldl_insert (fun field : Field => field.1) (fun field => field.2) _ path

theorem hintFinding_append (hints : List RedactionHint) (hint : RedactionHint) :
    hintFinding contents (findings ++ hints.map (hintFinding contents findings)) hint =
      hintFinding contents findings hint := by
  have same : (hints.map (hintFinding contents findings)).any (fun f =>
      f.source != "inspector_hint" && f.path == hint.path) = false := by
    simp [hintFinding]
  have resolved :
      hintResolved contents (findings ++ hints.map (hintFinding contents findings)) hint =
        hintResolved contents findings hint := by
    unfold hintResolved
    simp only [List.any_append, same, Bool.or_false]
  rw [hintFinding, hintConfidence, resolved]
  rfl

theorem foldl_addHint (hints : List RedactionHint) :
    hints.foldl (addHint contents) findings = findings ++
      (hints.filter fun hint => !isAllowlistedPath hint.path).map
        (hintFinding contents findings) := by
  induction hints using List.reverseRecOn with
  | nil => exact (List.append_nil findings).symm
  | append_singleton hints hint ih =>
    rw [List.foldl_concat, ih, addHint, hintFinding_append, List.filter_append, List.map_append]
    cases allowed : isAllowlistedPath hint.path <;> simp [allowed]

theorem redactions_eq : (redact tools snap).redactions = passFindings tools snap ++
    (snap.redactionHints.filter fun hint => !isAllowlistedPath hint.path).map
      (hintFinding (postRedactionContent (passed tools snap)) (passFindings tools snap)) :=
  foldl_addHint _ _ _

theorem openHint_mem {findings : List RedactionFinding} {f : RedactionFinding} (mem : f ∈ findings)
    (unresolved : f.confidence = some .medium) :
    ⟨f.path, f.remediation, some .medium⟩ ∈ openHints findings := by
  have kept : f ∈ findings.filter fun f => f.confidence ≠ some .high :=
    List.mem_filter.mpr ⟨mem, by simp [unresolved]⟩
  exact unresolved ▸ List.mem_map_of_mem kept

theorem heldOpen_iff {hint : RedactionHint} {kw : String} (settles : Settles snap hint kw) :
    HeldOpen tools snap hint ↔
      ∀ content, lastRecorded (passed tools snap) hint.path = some content →
        Text.contains content kw = true := by
  have confidence : (hintFinding (postRedactionContent (passed tools snap))
      (passFindings tools snap) hint).confidence =
        if hintResolved (postRedactionContent (passed tools snap)) (passFindings tools snap) hint
          then some .high else some .medium := if_pos settles.sure
  have resolved : hintResolved (postRedactionContent (passed tools snap))
      (passFindings tools snap) hint = false ↔
        ∀ content, lastRecorded (passed tools snap) hint.path = some content →
          Text.contains content kw = true := by
    rw [hintResolved, lookup_postRedactionContent]
    cases lastRecorded (passed tools snap) hint.path <;> simp [settles.keyword]
  rw [← resolved]
  constructor
  · rintro ⟨⟨f, -, rfl, medium⟩, -⟩
    rw [confidence] at medium
    split at medium
    · cases medium
    next none => simpa using none
  · intro none
    rw [none, if_neg Bool.false_ne_true] at confidence
    have checked : hint ∈ snap.redactionHints.filter fun hint => !isAllowlistedPath hint.path :=
      List.mem_filter.mpr ⟨settles.listed, by rw [settles.checked]; rfl⟩
    have mem : hintFinding (postRedactionContent (passed tools snap)) (passFindings tools snap) hint
        ∈ (redact tools snap).redactions := by
      rw [redactions_eq]
      exact List.mem_append_right _ (List.mem_map_of_mem checked)
    refine ⟨⟨_, mem, rfl, confidence⟩, fun shared => ?_⟩
    have unresolved := openHint_mem mem confidence
    have state : (redact tools snap).redactionState =
        some (redactionStateOf snap.sensitiveSnapshot (redact tools snap).redactions) := rfl
    have some_hints : (openHints (redact tools snap).redactions).isEmpty = false := by
      rw [List.isEmpty_eq_false_iff]
      exact List.ne_nil_of_mem unresolved
    have some_findings : (redact tools snap).redactions.isEmpty = false := by
      rw [List.isEmpty_eq_false_iff]
      exact List.ne_nil_of_mem mem
    rw [redactionStateOf, shared, if_neg Bool.false_ne_true, some_hints, some_findings,
      Bool.or_false, if_neg Bool.false_ne_true] at state
    exact ⟨_, _, _, state, unresolved⟩

/-- Hints are held open exactly when the text recorded last at their path always tells. -/
theorem hints_held_open_iff : HintsHeldOpen tools snap ↔ LastTells tools snap := by
  constructor
  · intro all hint kw settles left
    exact (heldOpen_iff tools snap settles).mp (all hint kw settles left)
  · intro tells hint kw settles left
    exact (heldOpen_iff tools snap settles).mpr (tells hint kw settles left)

/-! Two timers of one crontab, a key in the command of the first. -/

def noMatches : RedactTools := ⟨tableEngine fun _ _ => [], fun _ => []⟩

def crontabHint : RedactionHint :=
  ⟨"/etc/crontab", "environment variable 'DB_KEY' may hold a secret", some .high⟩

def crontabTimers : InspectionSnapshot where
  scheduledTasks := some {
    generatedTimerUnits := [
      { name := "cron-1", sourcePath := "/etc/crontab", command := "DB_KEY=abc backup" },
      { name := "cron-2", sourcePath := "/etc/crontab", command := "true" }] }
  redactionHints := [crontabHint]

theorem key_left_in_first_timer : ¬ ∀ tools snap, HintsHeldOpen tools snap := by
  intro all
  have settles : Settles crontabTimers crontabHint "DB_KEY" :=
    ⟨List.mem_cons_self, rfl, by decide +kernel, by decide +kernel⟩
  have left : KeywordLeft (passed noMatches crontabTimers) crontabHint "DB_KEY" :=
    ⟨("/etc/crontab", "DB_KEY=abc backup"), by decide +kernel, rfl, by decide +kernel⟩
  have last : lastRecorded (passed noMatches crontabTimers) crontabHint.path = some "true" := by
    decide +kernel
  have tells := (heldOpen_iff noMatches crontabTimers settles).mp
    (all noMatches crontabTimers crontabHint "DB_KEY" settles left) "true" last
  exact absurd tells (by decide +kernel)

end Inspectah
