import Inspectah.Render.FcontextReach
import Inspectah.Render.Openings

/-!
The fcontext story the reports tell, beside the one of the Containerfile: both walks give out
the same pieces in the same order.
-/
namespace Inspectah

open BuildScript (Line Segment scriptText segmentsText command_opens opens_literal opens_append)

inductive BuildAction where
  | emits (command : String)
  | skips (cause : String)

structure FcontextSummary where
  rule : FcontextRule
  origin : Option EquivalenceOrigin
  action : BuildAction

def summaryCommand (row : FcontextSummary) : Option String :=
  match row.action with
  | .emits command => some command
  | .skips _ => none

def aggregateOf : FcontextRule → Option AggregatePrevalence
  | .label _ _ _ _ aggregate => aggregate
  | .unlabel _ _ _ aggregate => aggregate
  | .equivalence _ _ _ aggregate => aggregate
  | .unparsed _ => none

/-- A rule only some hosts carry is told from one the hosts disagree about. -/
def exclusionCause (rule : FcontextRule) : String :=
  match aggregateOf rule with
  | none => "excluded from the export"
  | some prevalence =>
    let total := toString prevalence.total
    let shown := ", ".intercalate prevalence.hosts
    match prevalence.aggregateCount with
    | none =>
      "this rule is on " ++ toString prevalence.count ++ " of " ++ total ++ " hosts (" ++ shown ++
        "); excluded from the export, include it explicitly to ship it"
    | some keyCount =>
      let dissenting := (prevalence.aggregateHosts.getD []).filter fun host =>
        !prevalence.hosts.contains host
      toString keyCount ++ " of " ++ total ++ " hosts define this rule and disagree on its " ++
        "content; the content shown is the one carried by " ++ shown ++ "; it differs on " ++
        ", ".intercalate dissenting ++
        "; excluded from the export, include it explicitly to ship the content shown"

def DUPLICATE_EQUIVALENCE : String :=
  "an identical equivalence is listed above; the block adds it once"

def skipped (rule : FcontextRule) (origin : Option EquivalenceOrigin) (cause : String) :
    FcontextSummary := ⟨rule, origin, .skips cause⟩

def equivalenceRow (rule : FcontextRule) (entry : Equivalence) (alreadyShown : Bool) :
    FcontextSummary :=
  match entry.notEmitted, equivalencePair entry.rule with
  | some cause, _ => skipped rule (some entry.origin) cause
  | none, none => skipped rule (some entry.origin) ""
  | none, some (subject, labeledLike) =>
    if alreadyShown then skipped rule (some entry.origin) DUPLICATE_EQUIVALENCE
    else ⟨rule, some entry.origin, .emits (scriptText (rule2Lines subject labeledLike))⟩

structure FcontextReport where
  shown : List Nat := []
  rows : List FcontextSummary := []

def FcontextReport.add (report : FcontextReport) (row : FcontextSummary) : FcontextReport :=
  { report with rows := report.rows ++ [row] }

def FcontextReport.showEntry (report : FcontextReport) (idx : Nat) (row : FcontextSummary) :
    FcontextReport where
  shown := if report.shown.contains idx then report.shown else report.shown ++ [idx]
  rows := report.rows ++ [row]

def reportRule (entries : List Equivalence) (report : FcontextReport) (rule : FcontextRule) :
    FcontextReport :=
  match rule with
  | .unparsed _ => report.add (skipped rule none (unrenderableCause rule))
  | rule =>
    if !rule.isIncluded then report.add (skipped rule none (exclusionCause rule))
    else
      match ReplayRule.of rule with
      | none =>
        match entryOf entries fun row => row == rule with
        | none => report
        | some idx =>
          match entries[idx]? with
          | none => report
          | some entry => report.showEntry idx (equivalenceRow rule entry (report.shown.contains idx))
      | some replay =>
        match collision entries rule with
        | some cause => report.add (skipped rule none cause)
        | none =>
          let synthesis := (varSymlinkTarget replay.spec).bind fun target =>
            entryOf entries fun row => subjectOf row == some target
          let report :=
            match synthesis.bind fun idx => (entries[idx]?).map fun entry => (idx, entry) with
            | none => report
            | some (idx, entry) =>
              if report.shown.contains idx then report
              else report.showEntry idx (equivalenceRow entry.rule entry false)
          let args := rule1Args replay.fileType replay.context
          report.add ⟨rule, none,
            .emits (scriptText (rule1Lines replay.spec args.delete args.addModify))⟩

/-- Entries no rule reached follow at the end. -/
def fcontextSummaries (snap : InspectionSnapshot) : List FcontextSummary :=
  match snap.selinux with
  | none => []
  | some sel =>
    let entries := selinuxEquivalences sel.fcontextRules
    let report := sel.fcontextRules.foldl (reportRule entries) {}
    report.rows ++ ((entries.zipIdx.filter fun (_, idx) => !report.shown.contains idx).map
      fun (entry, _) => equivalenceRow entry.rule entry false)

/-- A line that starts a command takes the lines that continue it. -/
def readLine (line : Line) (read : List String × List String) : List String × List String :=
  match line with
  | .command segments =>
    let text := segmentsText segments
    if Text.startsWith text "RUN " then ([], "\n".intercalate (text :: read.1) :: read.2)
    else (text :: read.1, read.2)
  | _ => ([], read.2)

/-- The continuing lines still without their first, and the commands. -/
def readCommands (lines : List Line) : List String × List String := lines.foldr readLine ([], [])

def commandTexts (lines : List Line) : List String := (readCommands lines).2

theorem foldr_readLine (lines : List Line) (pending commands : List String) :
    lines.foldr readLine (pending, commands) =
      ((lines.foldr readLine (pending, [])).1, (lines.foldr readLine (pending, [])).2 ++ commands) := by
  induction lines with
  | nil => rfl
  | cons line rest ih =>
    rw [List.foldr_cons, List.foldr_cons, ih]
    cases line with
    | command segments =>
      simp only [readLine]
      split <;> rfl
    | _ => rfl

theorem readCommands_append (xs : List Line) {ys : List Line} (headed : (readCommands ys).1 = []) :
    readCommands (xs ++ ys) =
      ((readCommands xs).1, (readCommands xs).2 ++ (readCommands ys).2) := by
  have split : readCommands ys = ([], (readCommands ys).2) := by rw [← headed]
  rw [readCommands, List.foldr_append, ← readCommands, split]
  exact foldr_readLine xs [] _

theorem readCommands_comments {lines : List Line} (all : ∀ l ∈ lines, ∃ text, l = .comment text) :
    readCommands lines = ([], []) := by
  induction lines with
  | nil => rfl
  | cons line rest ih =>
    obtain ⟨text, rfl⟩ := all line (List.mem_cons_self ..)
    rw [readCommands, List.foldr_cons, ← readCommands, ih fun l hl => all l (List.mem_cons_of_mem _ hl)]
    rfl

def Starts (line : Line) (run : Bool) : Prop :=
  ∃ segments, line = .command segments ∧ line.Opens [if run then "RUN " else CONTINUATION]

theorem starts_segmentsText {segments : List Segment} {run : Bool}
    (h : (Line.command segments).Opens [if run then "RUN " else CONTINUATION]) :
    Text.startsWith (segmentsText segments) "RUN " = run := by
  obtain ⟨word, listed, opens⟩ := h rfl
  have leads : word.toList <+: (segmentsText segments).toList :=
    opens.trans (BuildScript.opening_leads (.command segments))
  obtain rfl := List.mem_singleton.mp listed
  cases run with
  | true => exact Text.startsWith_iff.mpr leads
  | false =>
    rw [Bool.eq_false_iff, Ne, Text.startsWith_iff]
    intro runs
    obtain one | other := List.prefix_or_prefix_of_prefix runs leads
    · exact absurd one (by decide)
    · exact absurd other (by decide)

theorem readLine_start {line : Line} {run : Bool} (h : Starts line run)
    (read : List String × List String) :
    readLine line read = if run then ([], "\n".intercalate (line.text :: read.1) :: read.2)
      else (line.text :: read.1, read.2) := by
  obtain ⟨segments, rfl, opens⟩ := h
  simp only [readLine, starts_segmentsText opens]
  rfl

theorem readCommands_block {first : Line} {rest : List Line} (head : Starts first true)
    (tail : ∀ l ∈ rest, Starts l false) :
    readCommands (first :: rest) = ([], [scriptText (first :: rest)]) := by
  have waiting : readCommands rest = (rest.map (·.text), []) := by
    clear head
    induction rest with
    | nil => rfl
    | cons line more ih =>
      have own := tail line (List.mem_cons_self ..)
      rw [readCommands, List.foldr_cons, ← readCommands,
        ih fun l hl => tail l (List.mem_cons_of_mem _ hl), readLine_start own]
      rfl
  rw [readCommands, List.foldr_cons, ← readCommands, waiting, readLine_start head]
  rfl

theorem readCommands_rule1 (spec : String) (delete addModify : List Segment) :
    readCommands (rule1Lines spec delete addModify) =
      ([], [scriptText (rule1Lines spec delete addModify)]) := by
  unfold rule1Lines
  rw [List.cons_append]
  refine readCommands_block ⟨_, rfl, command_opens _ (opens_literal rfl)⟩ fun l hl => ?_
  simp only [RULE1_GUARD_LINES, List.cons_append, List.nil_append, List.mem_cons, List.not_mem_nil,
    or_false] at hl
  obtain rfl | rfl | rfl | rfl | rfl | rfl := hl
  · exact ⟨_, rfl, command_opens _ (opens_append _ (opens_append _ (opens_literal rfl)))⟩
  · exact ⟨_, rfl, command_opens _ (opens_append _ (opens_literal rfl))⟩
  · exact ⟨_, rfl, command_opens _
      (opens_append _ (opens_append _ (opens_append _ (opens_literal rfl))))⟩
  all_goals exact ⟨_, rfl, command_opens _ (opens_literal rfl)⟩

theorem readCommands_rule2 (subject labeledLike : String) :
    readCommands (rule2Lines subject labeledLike) =
      ([], [scriptText (rule2Lines subject labeledLike)]) := by
  unfold rule2Lines
  refine readCommands_block
    ⟨_, rfl, command_opens _ (opens_append _ (opens_append _ (opens_literal rfl)))⟩ fun l hl => ?_
  simp only [List.mem_cons, List.not_mem_nil, or_false] at hl
  obtain rfl | rfl | rfl := hl
  all_goals exact ⟨_, rfl, command_opens _ (opens_literal rfl)⟩

inductive FcontextPiece where
  | rule (rule : FcontextRule)
  | entry (idx : Nat)

def FcontextPiece.rule? : FcontextPiece → Option FcontextRule
  | rule r => some r
  | entry _ => none

def FcontextPiece.entry? : FcontextPiece → Option Nat
  | rule _ => none
  | entry idx => some idx

/-- A line the collector could not place, and an included label, bring a piece of their own. -/
def speaks (rule : FcontextRule) : Bool :=
  match rule with
  | .unparsed _ => true
  | rule => rule.isIncluded && (ReplayRule.of rule).isSome

def pieceLines (entries : List Equivalence) : FcontextPiece → List Line
  | .entry idx => (entries[idx]?.map equivalenceLines).getD []
  | .rule rule =>
    match ReplayRule.of rule with
    | none => fixmeLines (unrenderableCause rule)
    | some replay =>
      match collision entries rule with
      | some cause => fixmeLines cause
      | none =>
        let args := rule1Args replay.fileType replay.context
        rule1Lines replay.spec args.delete args.addModify

def piecesOf (entries : List Equivalence) (emitted : List Nat) (rule : FcontextRule) :
    List FcontextPiece :=
  (match asks entries rule with
   | some idx => if emitted.contains idx then [] else [.entry idx]
   | none => []) ++ if speaks rule then [.rule rule] else []

def walk (entries : List Equivalence) (emitted : List Nat) : List FcontextRule → List FcontextPiece
  | [] => []
  | rule :: rest =>
    let now := piecesOf entries emitted rule
    now ++ walk entries (emitted ++ now.filterMap FcontextPiece.entry?) rest

theorem asks_bound {entries : List Equivalence} {rule : FcontextRule} {idx : Nat}
    (h : asks entries rule = some idx) : ∃ e, entries[idx]? = some e := by
  unfold asks at h
  split at h
  · split at h
    · obtain ⟨e, he, -⟩ := entryOf_eq_some h
      exact ⟨e, he⟩
    · split at h
      · obtain ⟨target, -, named⟩ := Option.bind_eq_some_iff.mp h
        obtain ⟨e, he, -⟩ := entryOf_eq_some named
        exact ⟨e, he⟩
      · cases h
  · cases h

/-- The entry asked for, unless it is out already. -/
def entryPiece (emitted : List Nat) : Option Nat → List FcontextPiece
  | some idx => if emitted.contains idx then [] else [.entry idx]
  | none => []

section

variable {entries : List Equivalence} {rule : FcontextRule}

theorem piecesOf_eq (emitted : List Nat) : piecesOf entries emitted rule =
    entryPiece emitted (asks entries rule) ++ if speaks rule then [.rule rule] else [] := rfl

theorem emitIfAny_eq {wanted : Option Nat}
    (bound : ∀ idx, wanted = some idx → ∃ e, entries[idx]? = some e) (block : FcontextBlock) :
    (emitIfAny entries wanted block).emitted =
      block.emitted ++ (entryPiece block.emitted wanted).filterMap FcontextPiece.entry? ∧
    (emitIfAny entries wanted block).rules =
      block.rules ++ (entryPiece block.emitted wanted).flatMap (pieceLines entries) := by
  cases wanted with
  | none => simp [emitIfAny, entryPiece]
  | some idx =>
    obtain ⟨e, he⟩ := bound idx rfl
    simp only [emitIfAny, emitEquivalence, he, entryPiece]
    split <;> simp [FcontextPiece.entry?, pieceLines, he]

theorem asks_label {replay : ReplayRule} (included : rule.isIncluded = true)
    (replayed : ReplayRule.of rule = some replay) :
    asks entries rule = if (collision entries rule).isNone then
      (varSymlinkTarget replay.spec).bind fun target =>
        entryOf entries fun row => subjectOf row == some target
      else none := by
  unfold asks
  rw [if_pos included, replayed]

theorem speaks_label {replay : ReplayRule} (included : rule.isIncluded = true)
    (replayed : ReplayRule.of rule = some replay) : speaks rule = true := by
  unfold speaks
  split
  · rfl
  · simp [included, replayed]

theorem speaks_silent (placed : ∀ raw, rule ≠ .unparsed raw)
    (silent : rule.isIncluded = false ∨ ReplayRule.of rule = none) : speaks rule = false := by
  unfold speaks
  split
  next raw => exact absurd rfl (placed raw)
  · rcases silent with out | none <;> simp [*]

theorem asks_excluded (excluded : rule.isIncluded = false) : asks entries rule = none := by
  rw [asks, excluded]
  rfl

theorem asks_equivalence (included : rule.isIncluded = true)
    (replayed : ReplayRule.of rule = none) :
    asks entries rule = entryOf entries fun row => row == rule := by
  rw [asks, if_pos included, replayed]

theorem emitRule_eq (block : FcontextBlock) :
    (emitRule entries block rule).emitted =
      block.emitted ++ (piecesOf entries block.emitted rule).filterMap FcontextPiece.entry? ∧
    (emitRule entries block rule).rules =
      block.rules ++ (piecesOf entries block.emitted rule).flatMap (pieceLines entries) := by
  rw [piecesOf_eq]
  have bound := fun idx => @asks_bound entries rule idx
  unfold emitRule
  split
  next raw => simp [asks, FcontextRule.isIncluded, entryPiece, speaks, FcontextPiece.entry?,
    FcontextBlock.add, pieceLines, ReplayRule.of]
  next placed =>
    by_cases included : rule.isIncluded = true
    · simp only [included, Bool.not_true, Bool.false_eq_true, if_false]
      cases replayed : ReplayRule.of rule with
      | none =>
        rw [← asks_equivalence included replayed, speaks_silent placed (.inr replayed)]
        simpa using emitIfAny_eq bound block
      | some replay =>
        rw [speaks_label included replayed]
        have asked := @asks_label entries rule replay included replayed
        cases collides : collision entries rule with
        | some cause =>
          rw [collides] at asked
          simp [asked, entryPiece, FcontextPiece.entry?, FcontextBlock.add, pieceLines, replayed,
            collides]
        | none =>
          rw [collides] at asked
          simp only [Option.isNone_none, if_true] at asked
          dsimp only
          rw [← asked]
          obtain ⟨emitted, lines⟩ := emitIfAny_eq bound block
          simp [emitted, lines, FcontextPiece.entry?, pieceLines, replayed, collides]
    · rw [Bool.not_eq_true] at included
      have unasked := @asks_excluded entries rule included
      have silent := speaks_silent placed (.inl included)
      simp [included, unasked, silent, entryPiece]

def entryCommand (entry : Equivalence) : Option String :=
  match entry.notEmitted with
  | some _ => none
  | none => (equivalencePair entry.rule).map fun (subject, labeledLike) =>
      scriptText (rule2Lines subject labeledLike)

def pieceCommand (entries : List Equivalence) : FcontextPiece → Option String
  | .entry idx => entries[idx]?.bind entryCommand
  | .rule rule =>
    (ReplayRule.of rule).bind fun replay =>
      match collision entries rule with
      | some _ => none
      | none =>
        let args := rule1Args replay.fileType replay.context
        some (scriptText (rule1Lines replay.spec args.delete args.addModify))

theorem readCommands_fixme (cause : String) : readCommands (fixmeLines cause) = ([], []) := by
  refine readCommands_comments fun l hl => ?_
  simp only [fixmeLines, List.mem_cons, List.not_mem_nil, or_false] at hl
  obtain rfl | rfl := hl <;> exact ⟨_, rfl⟩

theorem readCommands_equivalence (entry : Equivalence) :
    readCommands (equivalenceLines entry) = ([], (entryCommand entry).toList) := by
  unfold equivalenceLines entryCommand
  cases entry.notEmitted with
  | some cause => exact readCommands_fixme cause
  | none =>
    cases equivalencePair entry.rule with
    | none => rfl
    | some pair =>
      have command := readCommands_rule2 pair.1 pair.2
      dsimp only
      rw [readCommands_append _ (by rw [command]), command, readCommands_comments]
      · rfl
      · intro l hl
        split at hl
        · simp only [symlinkParagraph, List.mem_cons, List.not_mem_nil, or_false] at hl
          obtain rfl | rfl | rfl | rfl := hl <;> exact ⟨_, rfl⟩
        · cases hl

theorem readCommands_piece (piece : FcontextPiece) :
    readCommands (pieceLines entries piece) = ([], (pieceCommand entries piece).toList) := by
  cases piece with
  | entry idx =>
    simp only [pieceLines, pieceCommand]
    cases entries[idx]? with
    | none => rfl
    | some entry => exact readCommands_equivalence entry
  | rule rule =>
    simp only [pieceLines, pieceCommand]
    cases ReplayRule.of rule with
    | none => exact readCommands_fixme _
    | some replay =>
      cases collision entries rule with
      | some cause => exact readCommands_fixme cause
      | none => exact readCommands_rule1 ..

theorem readCommands_pieces (pieces : List FcontextPiece) :
    readCommands (pieces.flatMap (pieceLines entries)) =
      ([], pieces.filterMap (pieceCommand entries)) := by
  induction pieces with
  | nil => rfl
  | cons piece rest ih =>
    rw [List.flatMap_cons, readCommands_append _ (by rw [ih]), ih, readCommands_piece]
    cases command : pieceCommand entries piece with
    | none => rw [List.filterMap_cons_none command]; rfl
    | some text => rw [List.filterMap_cons_some command]; rfl

theorem summaryCommand_equivalenceRow (r : FcontextRule) (entry : Equivalence) (shown : Bool) :
    summaryCommand (equivalenceRow r entry shown) = if shown then none else entryCommand entry := by
  unfold equivalenceRow entryCommand
  cases entry.notEmitted with
  | some cause => cases shown <;> rfl
  | none =>
    cases equivalencePair entry.rule with
    | none => cases shown <;> rfl
    | some pair => cases shown <;> rfl

theorem showEntry_eq {idx : Nat} {entry : Equivalence} (he : entries[idx]? = some entry)
    (report : FcontextReport) (r : FcontextRule) :
    (report.showEntry idx (equivalenceRow r entry (report.shown.contains idx))).shown =
      report.shown ++ (entryPiece report.shown (some idx)).filterMap FcontextPiece.entry? ∧
    (report.showEntry idx
        (equivalenceRow r entry (report.shown.contains idx))).rows.filterMap summaryCommand =
      report.rows.filterMap summaryCommand ++
        (entryPiece report.shown (some idx)).filterMap (pieceCommand entries) := by
  simp only [FcontextReport.showEntry, entryPiece, List.filterMap_append]
  cases seen : report.shown.contains idx with
  | true => simp [summaryCommand_equivalenceRow]
  | false =>
    have command : List.filterMap summaryCommand [equivalenceRow r entry false] =
        (entryCommand entry).toList := by
      cases row : entryCommand entry <;> simp [summaryCommand_equivalenceRow, row]
    have piece : List.filterMap (pieceCommand entries) [FcontextPiece.entry idx] =
        (entryCommand entry).toList := by
      cases row : entryCommand entry <;> simp [pieceCommand, he, row]
    simp [command, piece, FcontextPiece.entry?]

theorem add_skipped (report : FcontextReport) (r : FcontextRule) (origin : Option EquivalenceOrigin)
    (cause : String) : (report.add (skipped r origin cause)).shown = report.shown ∧
    (report.add (skipped r origin cause)).rows.filterMap summaryCommand =
      report.rows.filterMap summaryCommand := by
  simp [FcontextReport.add, skipped, summaryCommand]

theorem showIfAny_eq {wanted : Option Nat}
    (bound : ∀ idx, wanted = some idx → ∃ e, entries[idx]? = some e) (report : FcontextReport) :
    let after :=
      match wanted.bind fun idx => (entries[idx]?).map fun entry => (idx, entry) with
      | none => report
      | some (idx, entry) =>
        if report.shown.contains idx then report
        else report.showEntry idx (equivalenceRow entry.rule entry false)
    after.shown = report.shown ++ (entryPiece report.shown wanted).filterMap FcontextPiece.entry? ∧
    after.rows.filterMap summaryCommand = report.rows.filterMap summaryCommand ++
      (entryPiece report.shown wanted).filterMap (pieceCommand entries) := by
  cases wanted with
  | none => simp [entryPiece]
  | some idx =>
    obtain ⟨e, he⟩ := bound idx rfl
    have shows := showEntry_eq he report e.rule
    by_cases seen : idx ∈ report.shown
    · simp [he, seen, entryPiece]
    · simpa [he, seen] using shows

theorem reportRule_eq (report : FcontextReport) :
    (reportRule entries report rule).shown =
      report.shown ++ (piecesOf entries report.shown rule).filterMap FcontextPiece.entry? ∧
    (reportRule entries report rule).rows.filterMap summaryCommand =
      report.rows.filterMap summaryCommand ++
        (piecesOf entries report.shown rule).filterMap (pieceCommand entries) := by
  rw [piecesOf_eq]
  unfold reportRule
  split
  next raw =>
    obtain ⟨shown, rows⟩ := add_skipped report (.unparsed raw) none (unrenderableCause (.unparsed raw))
    simp [shown, rows, asks, FcontextRule.isIncluded, entryPiece, speaks, FcontextPiece.entry?,
      pieceCommand, ReplayRule.of]
  next placed =>
    by_cases included : rule.isIncluded = true
    · simp only [included, Bool.not_true, Bool.false_eq_true, if_false]
      cases replayed : ReplayRule.of rule with
      | none =>
        dsimp only
        rw [← asks_equivalence included replayed, speaks_silent placed (.inr replayed)]
        cases wanted : asks entries rule with
        | none => simp [entryPiece]
        | some idx =>
          obtain ⟨e, he⟩ := asks_bound wanted
          simpa [he] using showEntry_eq he report rule
      | some replay =>
        rw [speaks_label included replayed]
        have asked := @asks_label entries rule replay included replayed
        cases collides : collision entries rule with
        | some cause =>
          rw [collides] at asked
          obtain ⟨shown, rows⟩ := add_skipped report rule none cause
          simp [asked, shown, rows, entryPiece, FcontextPiece.entry?, pieceCommand, replayed, collides]
        | none =>
          rw [collides] at asked
          simp only [Option.isNone_none, if_true] at asked
          dsimp only
          rw [← asked]
          obtain ⟨shown, rows⟩ := showIfAny_eq (fun idx => @asks_bound entries rule idx) report
          simp only [FcontextReport.add, shown, rows, List.filterMap_append, if_true]
          simp [FcontextPiece.entry?, summaryCommand, pieceCommand, replayed, collides]
    · rw [Bool.not_eq_true] at included
      have unasked := @asks_excluded entries rule included
      have silent := speaks_silent placed (.inl included)
      obtain ⟨shown, rows⟩ := add_skipped report rule none (exclusionCause rule)
      simp [included, unasked, silent, entryPiece, shown, rows]

end

end Inspectah
