import Inspectah.Render.FcontextReport

/-!
The reports and the build tell one story about the file contexts, except where an entry is
overlooked.
-/
namespace Inspectah

open BuildScript (Line)

section

variable {entries : List Equivalence}

theorem foldl_emitRule (rules : List FcontextRule) (block : FcontextBlock) :
    (rules.foldl (emitRule entries) block).rules =
      block.rules ++ (walk entries block.emitted rules).flatMap (pieceLines entries) := by
  induction rules generalizing block with
  | nil => simp [walk]
  | cons rule rest ih =>
    obtain ⟨emitted, lines⟩ := @emitRule_eq entries rule block
    rw [List.foldl_cons, ih, emitted, lines, walk, List.flatMap_append, List.append_assoc]

theorem foldl_reportRule (rules : List FcontextRule) (report : FcontextReport) :
    (rules.foldl (reportRule entries) report).shown =
      report.shown ++ (walk entries report.shown rules).filterMap FcontextPiece.entry? ∧
    (rules.foldl (reportRule entries) report).rows.filterMap summaryCommand =
      report.rows.filterMap summaryCommand ++
        (walk entries report.shown rules).filterMap (pieceCommand entries) := by
  induction rules generalizing report with
  | nil => simp [walk]
  | cons rule rest ih =>
    obtain ⟨shown, rows⟩ := @reportRule_eq entries rule report
    obtain ⟨rest_shown, rest_rows⟩ := ih (reportRule entries report rule)
    rw [List.foldl_cons, rest_shown, rest_rows, shown, rows, walk, List.filterMap_append,
      List.filterMap_append, List.append_assoc, List.append_assoc]
    exact ⟨rfl, rfl⟩

theorem walk_rules (rules : List FcontextRule) (emitted : List Nat) :
    (walk entries emitted rules).filterMap FcontextPiece.rule? = rules.filter speaks := by
  induction rules generalizing emitted with
  | nil => rfl
  | cons rule rest ih =>
    have silent : ∀ wanted, (entryPiece emitted wanted).filterMap FcontextPiece.rule? = [] := by
      intro wanted
      unfold entryPiece
      split
      · split <;> simp [FcontextPiece.rule?]
      · rfl
    rw [walk, List.filterMap_append, ih, piecesOf_eq, List.filterMap_append, silent]
    cases speaking : speaks rule <;> simp [speaking, FcontextPiece.rule?]

theorem piecesOf_entries (emitted : List Nat) (rule : FcontextRule) :
    (piecesOf entries emitted rule).filterMap FcontextPiece.entry? =
      match asks entries rule with
      | some idx => if emitted.contains idx then [] else [idx]
      | none => [] := by
  rw [piecesOf_eq, List.filterMap_append]
  have own : (if speaks rule then [FcontextPiece.rule rule] else []).filterMap
      FcontextPiece.entry? = [] := by
    split <;> rfl
  rw [own, List.append_nil]
  cases asks entries rule with
  | none => rfl
  | some idx =>
    simp only [entryPiece]
    split <;> rfl

theorem walk_entries (rules : List FcontextRule) (emitted : List Nat) :
    ((walk entries emitted rules).filterMap FcontextPiece.entry?).Nodup ∧
    ∀ idx, idx ∈ (walk entries emitted rules).filterMap FcontextPiece.entry? ↔
      idx ∉ emitted ∧ ∃ rule ∈ rules, asks entries rule = some idx := by
  induction rules generalizing emitted with
  | nil => simp [walk]
  | cons rule rest ih =>
    obtain ⟨nodup, mem⟩ := ih (emitted ++ (piecesOf entries emitted rule).filterMap FcontextPiece.entry?)
    rw [walk, List.filterMap_append]
    have now := @piecesOf_entries entries emitted rule
    constructor
    · refine List.nodup_append.mpr ⟨?_, nodup, ?_⟩
      · rw [now]
        split
        · split <;> simp
        · simp
      · intro a ha b hb same
        subst same
        exact ((mem a).mp hb).1 (List.mem_append_right _ ha)
    · intro idx
      rw [List.mem_append, mem, List.mem_append, now]
      cases asked : asks entries rule with
      | none => simp [asked]
      | some wanted =>
        by_cases seen : wanted ∈ emitted
        · simp only [List.contains_eq_mem, seen, decide_true, if_true, List.not_mem_nil, false_or,
            or_false, List.mem_cons, exists_eq_or_imp, asked, Option.some.injEq]
          constructor
          · exact fun ⟨out, more⟩ => ⟨out, .inr more⟩
          · rintro ⟨out, rfl | more⟩
            · exact absurd seen out
            · exact ⟨out, more⟩
        · simp only [List.contains_eq_mem, seen, decide_false, Bool.false_eq_true, if_false,
            List.mem_cons, List.not_mem_nil, or_false, exists_eq_or_imp, asked, Option.some.injEq,
            not_or]
          constructor
          · rintro (rfl | ⟨⟨out, -⟩, more⟩)
            · exact ⟨seen, .inl rfl⟩
            · exact ⟨out, .inr more⟩
          · rintro ⟨out, rfl | more⟩
            · exact .inl rfl
            · by_cases here : idx = wanted
              · exact .inl here
              · exact .inr ⟨⟨out, here⟩, more⟩

end

def fcontextRules (snap : InspectionSnapshot) : List Line :=
  match snap.selinux with
  | none => []
  | some sel => (renderFcontextRules sel).rules

/-- A path expression is the path itself, or goes on below it. -/
def LiesUnder (spec subject : String) : Prop :=
  spec = subject ∨ ∃ more, spec.toList = subject.toList ++ '/' :: more ∨
    spec.toList = subject.toList ++ '(' :: more

def CommandOrFixme (lines : List Line) : Prop :=
  (∃ text, commandTexts lines = [text]) ∨
  (∃ cause, lines = fixmeLines cause ∧ commandTexts lines = [])

structure BlockPieces (rules : List FcontextRule) (lines : List Line)
    (pieces : List FcontextPiece) : Prop where
  whole : ∃ opening : List Line, (∀ l ∈ opening, ∃ text, l = .comment text) ∧
    lines = opening ++ pieces.flatMap (pieceLines (selinuxEquivalences rules))
  each : ∀ piece ∈ pieces, CommandOrFixme (pieceLines (selinuxEquivalences rules) piece)
  /-- One piece for each rule that speaks for itself. -/
  labels : pieces.filterMap FcontextPiece.rule? = rules.filter speaks
  /-- One piece for the path of each included equivalence. -/
  paths : ∀ r ∈ includedEquivalences rules, ∃ idx e, (selinuxEquivalences rules)[idx]? = some e ∧
    subjectOf e.rule = subjectOf r ∧ (pieces.filterMap FcontextPiece.entry?).count idx = 1
  apart : ∀ r replay idx e pair, .rule r ∈ pieces → .entry idx ∈ pieces →
    ReplayRule.of r = some replay → pieceCommand (selinuxEquivalences rules) (.rule r) ≠ none →
    (selinuxEquivalences rules)[idx]? = some e → entryCommand e ≠ none →
    equivalencePair e.rule = some pair → ¬ LiesUnder replay.spec pair.1

structure OneStory (snap : InspectionSnapshot) : Prop where
  commands : (fcontextSummaries snap).filterMap summaryCommand = commandTexts (fcontextRules snap)
  block : ∀ sel, snap.selinux = some sel →
    ∃ pieces, BlockPieces sel.fcontextRules (fcontextRules snap) pieces

theorem beginsWithToplevel_iff {spec subject : String} :
    beginsWithToplevel spec subject = true ↔ LiesUnder spec subject := by
  by_cases starts : subject.toList <+: spec.toList
  · obtain ⟨more, whole⟩ := starts
    have after : Text.afterPrefix spec subject = some (String.ofList more) := by
      rw [Text.afterPrefix, if_pos (Text.startsWith_iff.mpr ⟨more, whole⟩), ← whole,
        List.drop_left]
    have same : spec = subject ↔ more = [] := by
      rw [← String.toList_inj, ← whole]
      simp
    have begins : ∀ c : Char, Text.startsWith (String.ofList more) (String.singleton c) = true ↔
        ∃ rest, more = c :: rest := by
      intro c
      rw [Text.startsWith_iff]
      simp [List.IsPrefix, eq_comm]
    have empty : (String.ofList more).isEmpty = true ↔ more = [] := by
      simp [String.isEmpty_iff]
    unfold beginsWithToplevel LiesUnder
    simp only [after, same, ← whole, List.append_cancel_left_eq, Bool.or_eq_true, empty]
    rw [show "/" = String.singleton '/' from rfl, show "(" = String.singleton '(' from rfl,
      begins, begins, exists_or, or_assoc]
  · have missed : Text.afterPrefix spec subject = none := by
      rw [Text.afterPrefix, if_neg (fun h => starts (Text.startsWith_iff.mp h))]
    unfold beginsWithToplevel
    rw [missed]
    simp only [Bool.false_eq_true, false_iff]
    rintro (rfl | ⟨more, whole | whole⟩)
    · exact starts (List.prefix_refl _)
    · exact starts ⟨_, whole.symm⟩
    · exact starts ⟨_, whole.symm⟩

theorem entryCommand_isSome {rules : List FcontextRule} {e : Equivalence}
    (mem : e ∈ selinuxEquivalences rules) : (entryCommand e).isSome ↔ e.notEmitted = none := by
  have equivalence := (listed rules).equivalence e mem
  unfold entryCommand
  cases e.notEmitted with
  | some cause => simp
  | none =>
    unfold subjectOf at equivalence
    simpa using equivalence

theorem piece_commandOrFixme {rules : List FcontextRule} {piece : FcontextPiece}
    (placed : ∀ idx, piece = .entry idx → ∃ e, (selinuxEquivalences rules)[idx]? = some e) :
    CommandOrFixme (pieceLines (selinuxEquivalences rules) piece) := by
  have commands := @readCommands_piece (selinuxEquivalences rules) piece
  cases command : pieceCommand (selinuxEquivalences rules) piece with
  | some text =>
    refine .inl ⟨text, ?_⟩
    rw [commandTexts, commands, command]
    rfl
  | none =>
    have no_command : commandTexts (pieceLines (selinuxEquivalences rules) piece) = [] := by
      rw [commandTexts, commands, command]
      rfl
    refine .inr ?_
    cases piece with
    | entry idx =>
      obtain ⟨e, he⟩ := placed idx rfl
      have emits := entryCommand_isSome (List.mem_of_getElem? he)
      simp only [pieceCommand, he, Option.bind_some] at command
      rw [command, Option.isSome_none] at emits
      obtain ⟨cause, refused⟩ := Option.ne_none_iff_exists'.mp
        (fun none => Bool.false_ne_true (emits.mpr none))
      exact ⟨cause, by simp [pieceLines, he, equivalenceLines, refused], no_command⟩
    | rule r =>
      simp only [pieceCommand] at command
      cases replayed : ReplayRule.of r with
      | none =>
        exact ⟨unrenderableCause r, by simp only [pieceLines, replayed], no_command⟩
      | some replay =>
        cases collides : collision (selinuxEquivalences rules) r with
        | some cause => exact ⟨cause, by simp only [pieceLines, replayed, collides], no_command⟩
        | none => simp [replayed, collides] at command

def blockPieces (rules : List FcontextRule) : List FcontextPiece :=
  walk (selinuxEquivalences rules) [] rules

theorem blockPieces_entries (rules : List FcontextRule) :
    ((blockPieces rules).filterMap FcontextPiece.entry?).Nodup ∧
    ∀ idx, idx ∈ (blockPieces rules).filterMap FcontextPiece.entry? ↔
      ∃ rule ∈ rules, asks (selinuxEquivalences rules) rule = some idx := by
  obtain ⟨nodup, mem⟩ := @walk_entries (selinuxEquivalences rules) rules []
  exact ⟨nodup, fun idx => (mem idx).trans (by simp)⟩

theorem mem_blockPieces_entry {rules : List FcontextRule} {idx : Nat} :
    .entry idx ∈ blockPieces rules ↔
      ∃ rule ∈ rules, asks (selinuxEquivalences rules) rule = some idx := by
  rw [← (blockPieces_entries rules).2 idx, List.mem_filterMap]
  constructor
  · exact fun mem => ⟨_, mem, rfl⟩
  · rintro ⟨piece, mem, same⟩
    cases piece with
    | rule r => cases same
    | entry other => rwa [← Option.some.inj same]

theorem renderFcontextRules_rules (sel : SelinuxSection) : ∃ opening : List Line,
    (∀ l ∈ opening, ∃ text, l = .comment text) ∧ (renderFcontextRules sel).rules =
      opening ++ (blockPieces sel.fcontextRules).flatMap
        (pieceLines (selinuxEquivalences sel.fcontextRules)) := by
  unfold renderFcontextRules
  dsimp only
  rw [foldl_emitRule]
  refine ⟨_, fun l hl => ?_, rfl⟩
  split at hl
  · simp only [replayParagraph, List.mem_cons, List.not_mem_nil, or_false] at hl
    obtain rfl | rfl | rfl | rfl | rfl | rfl := hl <;> exact ⟨_, rfl⟩
  · cases hl

theorem entry_of_collected {rules : List FcontextRule} {r : FcontextRule}
    (collected : r ∈ includedEquivalences rules) :
    ∃ e ∈ selinuxEquivalences rules, subjectOf e.rule = subjectOf r ∧
      e.rule ∈ includedEquivalences rules := by
  obtain ⟨e, mem, same⟩ := (listed rules).complete r collected
  refine ⟨e, mem, same, ?_⟩
  obtain ⟨change, added, h⟩ := carried rules
  obtain ⟨c, hc, -, rule⟩ | ⟨rfl, one⟩ := mem_listed h mem
  · rw [rule]
    exact (gathered rules).mem_first hc
  · obtain none | ⟨-, unseen⟩ := h.added_once
    · rw [none] at one
      cases one
    · obtain ⟨f, hf, subject⟩ := settled_complete collected
      exact absurd (subject.trans same.symm) (unseen f hf).1

theorem blockPieces_ok {sel : SelinuxSection} (found : ¬ Overlooked sel.fcontextRules) :
    BlockPieces sel.fcontextRules (renderFcontextRules sel).rules
      (blockPieces sel.fcontextRules) where
  whole := renderFcontextRules_rules sel
  each := by
    intro piece mem
    refine piece_commandOrFixme fun idx same => ?_
    obtain ⟨rule, -, asked⟩ := mem_blockPieces_entry.mp (same ▸ mem)
    exact asks_bound asked
  labels := walk_rules ..
  paths := by
    intro r hr
    obtain ⟨e, mem, same, collected⟩ := entry_of_collected hr
    obtain ⟨idx, he⟩ := List.mem_iff_getElem?.mp mem
    obtain ⟨nodup, entry⟩ := blockPieces_entries sel.fcontextRules
    exact ⟨idx, e, he, same, List.count_eq_one_of_mem nodup
      ((entry idx).mpr (asked_of_collected found he collected))⟩
  apart := by
    intro r replay idx e pair _ _ replayed command he emits paired under
    have free : collision (selinuxEquivalences sel.fcontextRules) r = none := by
      by_contra collides
      obtain ⟨cause, collides⟩ := Option.ne_none_iff_exists'.mp collides
      simp [pieceCommand, replayed, collides] at command
    have mem := List.mem_of_getElem? he
    have emitted := (entryCommand_isSome mem).mp (Option.isSome_iff_ne_none.mpr emits)
    have outside := (collision_eq_none_iff.mp free).2 replay replayed e mem emitted pair paired
    rw [beginsWithToplevel_iff.mpr under] at outside
    cases outside

theorem unshown_commands {entries : List Equivalence} {shown : List Nat} :
    ((entries.zipIdx.filter fun (_, idx) => !shown.contains idx).map
        fun (entry, _) => equivalenceRow entry.rule entry false).filterMap summaryCommand = [] ↔
      ∀ idx e, entries[idx]? = some e → idx ∉ shown → entryCommand e = none := by
  rw [List.filterMap_eq_nil_iff, List.forall_mem_map]
  simp only [summaryCommand_equivalenceRow, List.mem_filter, Prod.forall, List.mem_zipIdx_iff_getElem?,
    Bool.false_eq_true, if_false, List.contains_eq_mem, Bool.not_eq_true', decide_eq_false_iff_not,
    and_imp]
  exact forall_comm

theorem summaries_commands {snap : InspectionSnapshot} {sel : SelinuxSection}
    (h : snap.selinux = some sel) :
    (fcontextSummaries snap).filterMap summaryCommand = commandTexts (fcontextRules snap) ↔
      ∀ idx e, (selinuxEquivalences sel.fcontextRules)[idx]? = some e →
        (∀ rule ∈ sel.fcontextRules, asks (selinuxEquivalences sel.fcontextRules) rule ≠ some idx) →
        entryCommand e = none := by
  obtain ⟨shown, rows⟩ :=
    @foldl_reportRule (selinuxEquivalences sel.fcontextRules) sel.fcontextRules {}
  obtain ⟨opening, comments, whole⟩ := renderFcontextRules_rules sel
  have built : commandTexts (fcontextRules snap) = (blockPieces sel.fcontextRules).filterMap
      (pieceCommand (selinuxEquivalences sel.fcontextRules)) := by
    have pieces := @readCommands_pieces (selinuxEquivalences sel.fcontextRules)
      (blockPieces sel.fcontextRules)
    simp only [fcontextRules, h, commandTexts, whole]
    rw [readCommands_append _ (by rw [pieces]), pieces, readCommands_comments comments]
    rfl
  have reached : ∀ idx, idx ∉ (sel.fcontextRules.foldl
      (reportRule (selinuxEquivalences sel.fcontextRules)) {}).shown ↔
      ∀ rule ∈ sel.fcontextRules, asks (selinuxEquivalences sel.fcontextRules) rule ≠ some idx := by
    intro idx
    rw [shown, List.nil_append, ← blockPieces, (blockPieces_entries sel.fcontextRules).2]
    simp
  rw [built]
  simp only [fcontextSummaries, h, List.filterMap_append, rows, List.filterMap_nil, List.nil_append,
    blockPieces, List.append_right_eq_self, unshown_commands, reached]

/-- For every snapshot. -/
theorem one_story_iff (snap : InspectionSnapshot) :
    OneStory snap ↔ ∀ sel, snap.selinux = some sel → ¬ Overlooked sel.fcontextRules := by
  constructor
  · intro story sel h overlooked
    obtain ⟨idx, e, he, emits, unasked⟩ := unasked_of_overlooked overlooked
    have silent := (summaries_commands h).mp story.commands idx e he fun rule _ => unasked rule
    have speaking := (entryCommand_isSome (List.mem_of_getElem? he)).mpr emits
    rw [silent] at speaking
    cases speaking
  · intro found
    constructor
    case commands =>
      cases h : snap.selinux with
      | none => simp [fcontextSummaries, fcontextRules, h, commandTexts, readCommands]
      | some sel =>
        refine (summaries_commands h).mpr fun idx e he unasked => ?_
        by_contra speaking
        have emits := (entryCommand_isSome (List.mem_of_getElem? he)).mp
          (Option.isSome_iff_ne_none.mpr speaking)
        obtain ⟨rule, mem, asked⟩ := asked_of_emitting (found sel h) he emits
        exact unasked rule mem asked
    case block =>
      intro sel h
      refine ⟨blockPieces sel.fcontextRules, ?_⟩
      simp only [fcontextRules, h]
      exact blockPieces_ok (found sel h)

/-- Two rows that name each other, in this order. -/
theorem report_shows_unbuilt_command : ¬ OneStory { selinux := some { fcontextRules :=
    [.equivalence "/srv" "/var/srv" .included none,
     .equivalence "/var/srv" "/srv" .included none] } } := by
  intro story
  have lengths := congrArg List.length story.commands
  revert lengths
  decide +kernel

end Inspectah
