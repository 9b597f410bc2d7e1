import Inspectah.Library.ShellQuoting
import Inspectah.Render.Users

/-!
The commands that create accounts at build time. An account can name a group only when
an earlier command has created it, and a password reaches `chpasswd` on a line of its own.
-/
namespace Inspectah

open BuildScript (Line Segment OneLine)

variable (users : List Json) (snap : InspectionSnapshot)
open ShellQuoting (Piece Mode QUOTE cost piecesCost)

inductive GroupRef where
  | number (gid : Nat)
  | called (name : String)
  deriving DecidableEq

def GroupRef.IsOf : GroupRef → Json → Prop
  | number gid, g => uidField g "gid" = gid
  | called name, g => strField g "name" = name

/-- What the `-g` and the `-G` of an account's command name. -/
def groupRefs (u : Json) : List GroupRef :=
  (if 0 < uidField u "gid" then [.number (uidField u "gid")] else []) ++
    (suppGroups u).map .called

def recordedGroups : List Json :=
  (rowsOf (·.groups) snap.usersGroups).filter fun g => strField g "source" == "custom"

def GroupsCreated : Prop :=
  ∀ u ∈ useraddUsers snap, ∀ line, useraddLine u = some line →
    ∀ before after, renderContainerfileUsers snap = before ++ line :: after →
      ∀ ref ∈ groupRefs u, (∃ g ∈ recordedGroups snap, ref.IsOf g) →
        ∃ g ∈ customGroups snap, ref.IsOf g ∧
          ∃ made ∈ before, groupaddLine (useraddUsers snap) g = some made

def Writable (v : Json) : Prop := strField v "name" ≠ "" ∧ isShellSafe (strField v "name")

def GroupsWritable : Prop :=
  ∀ u ∈ useraddUsers snap, Writable u → ∀ ref ∈ groupRefs u,
    (∃ g ∈ recordedGroups snap, ref.IsOf g) → ∃ g ∈ customGroups snap, ref.IsOf g ∧ Writable g

theorem useraddLine_isSome_iff {u : Json} : (useraddLine u).isSome ↔ Writable u := by
  unfold useraddLine Writable
  dsimp only
  split
  next refused =>
    simp only [Bool.or_eq_true, String.isEmpty_iff, Bool.not_eq_true'] at refused
    simp only [Option.isSome_none, Bool.false_eq_true, false_iff, not_and]
    intro given safe
    simp [given, safe] at refused
  next admitted =>
    simp only [Bool.or_eq_true, String.isEmpty_iff, Bool.not_eq_true', not_or] at admitted
    simpa using admitted

theorem groupaddLine_isSome_iff {users : List Json} {u g : Json} (user : u ∈ users)
    {ref : GroupRef} (named : ref ∈ groupRefs u) (same : ref.IsOf g) :
    (groupaddLine users g).isSome ↔ Writable g := by
  have needed :
      ((0 < uidField g "gid" && users.any fun v => uidField v "gid" == uidField g "gid") ||
        users.any fun v => (suppGroups v).contains (strField g "name")) = true := by
    rw [groupRefs, List.mem_append] at named
    obtain primary | supplementary := named
    · split at primary
      next positive =>
        obtain rfl := List.mem_singleton.mp primary
        have gid : uidField g "gid" = uidField u "gid" := same
        simp only [gid, positive, decide_true, Bool.true_and, Bool.or_eq_true, List.any_eq_true]
        exact .inl ⟨u, user, by simp⟩
      · cases primary
    · obtain ⟨name, listed, rfl⟩ := List.mem_map.mp supplementary
      have called : strField g "name" = name := same
      simp only [called, Bool.or_eq_true, List.any_eq_true]
      exact .inr ⟨u, user, by simpa using listed⟩
  unfold groupaddLine Writable
  dsimp only
  rw [needed, Bool.not_true, Bool.or_false]
  split
  next refused =>
    simp only [Bool.or_eq_true, String.isEmpty_iff, Bool.not_eq_true'] at refused
    simp only [Option.isSome_none, Bool.false_eq_true, false_iff, not_and]
    intro given safe
    simp [given, safe] at refused
  next admitted =>
    simp only [Bool.or_eq_true, String.isEmpty_iff, Bool.not_eq_true', not_or] at admitted
    split <;> simpa using admitted

theorem useraddLine_not_groupadd {users : List Json} {u g : Json} {line : Line}
    (created : useraddLine u = some line) : groupaddLine users g ≠ some line := by
  intro made
  have first : ∃ more, line = .command (.fixed "RUN useradd -m" :: more) := by
    unfold useraddLine at created
    dsimp only at created
    split at created
    · cases created
    · exact ⟨_, (Option.some.inj created).symm⟩
  obtain ⟨more, rfl⟩ := first
  unfold groupaddLine at made
  dsimp only at made
  split at made
  · cases made
  · split at made
    · have texts := congrArg String.toList (Segment.fixed.inj
        (List.cons.inj (Line.command.inj (Option.some.inj made))).1)
      simp at texts
    · have texts := Segment.fixed.inj (List.cons.inj (Line.command.inj (Option.some.inj made))).1
      exact absurd texts (by decide)

theorem subset_before {xs ys before after : List Line} {line : Line}
    (h : xs ++ ys = before ++ line :: after) (outside : line ∉ xs) : xs ⊆ before := by
  obtain ⟨more, rfl, -⟩ | ⟨more, rfl, same⟩ := List.append_eq_append_iff.mp h
  · exact List.subset_append_left ..
  · cases more with
    | nil => simp
    | cons first rest =>
      obtain rfl := (List.cons.inj same).1
      exact absurd (List.mem_append_right _ (List.mem_cons_self ..)) outside

theorem renderContainerfileUsers_split {snap : InspectionSnapshot} {u : Json} {line : Line}
    (user : u ∈ useraddUsers snap) (created : useraddLine u = some line) :
    ∃ rest, renderContainerfileUsers snap =
      (note "=== Users and Groups ===" ::
        (customGroups snap).filterMap (groupaddLine (useraddUsers snap))) ++ rest ∧
      line ∈ rest := by
  have listed : line ∈ (useraddUsers snap).filterMap useraddLine :=
    List.mem_filterMap.mpr ⟨u, user, created⟩
  have users : (useraddUsers snap).isEmpty = false := by
    rw [Bool.eq_false_iff]
    intro none
    rw [List.isEmpty_iff.mp none] at user
    cases user
  refine ⟨(useraddUsers snap).filterMap useraddLine ++ chpasswdLines (useraddUsers snap) ++
    (useraddUsers snap).flatMap sshKeyLines ++ [.blank], ?_, ?_⟩
  · have body : ((customGroups snap).filterMap (groupaddLine (useraddUsers snap)) ++
        (useraddUsers snap).filterMap useraddLine ++ chpasswdLines (useraddUsers snap) ++
        (useraddUsers snap).flatMap sshKeyLines).isEmpty = false := by
      rw [Bool.eq_false_iff]
      intro none
      have absent : line ∉ ([] : List Line) := List.not_mem_nil
      rw [← List.isEmpty_iff.mp none] at absent
      exact absent (by simp [listed])
    simp only [renderContainerfileUsers, users, containerSection, body, Bool.false_eq_true,
      if_false]
    simp [List.append_assoc]
  · simp [listed]

theorem groupsCreated_iff :
    GroupsCreated snap ↔ GroupsWritable snap := by
  constructor
  · intro created u user writable ref named recorded
    obtain ⟨line, written⟩ := Option.isSome_iff_exists.mp (useraddLine_isSome_iff.mpr writable)
    obtain ⟨rest, whole, within⟩ := renderContainerfileUsers_split user written
    obtain ⟨before, after, split⟩ := List.append_of_mem (whole ▸ List.mem_append_right _ within :
      line ∈ renderContainerfileUsers snap)
    obtain ⟨g, listed, same, made, -, group⟩ :=
      created u user line written before after split ref named recorded
    refine ⟨g, listed, same, (groupaddLine_isSome_iff user named same).mp ?_⟩
    rw [group]
    rfl
  · intro writable u user line written before after split ref named recorded
    have name : Writable u := useraddLine_isSome_iff.mp (by rw [written]; rfl)
    obtain ⟨g, listed, same, group⟩ := writable u user name ref named recorded
    obtain ⟨made, made_eq⟩ := Option.isSome_iff_exists.mp
      ((groupaddLine_isSome_iff user named same).mpr group)
    obtain ⟨rest, whole, -⟩ := renderContainerfileUsers_split user written
    have outside : line ∉ note "=== Users and Groups ===" ::
        (customGroups snap).filterMap (groupaddLine (useraddUsers snap)) := by
      intro mem
      obtain rfl | mem := List.mem_cons.mp mem
      · unfold useraddLine at written
        dsimp only at written
        split at written <;> cases written
      · obtain ⟨other, -, line_eq⟩ := List.mem_filterMap.mp mem
        exact useraddLine_not_groupadd written line_eq
    have earlier := subset_before (whole.symm.trans split) outside
    refine ⟨g, listed, same, made, earlier ?_, made_eq⟩
    exact List.mem_cons_of_mem _ (List.mem_filterMap.mpr ⟨g, listed, made_eq⟩)

def ECHO : List Char := ['e', 'c', 'h', 'o']

def CHPASSWD : List Char := ['c', 'h', 'p', 'a', 's', 's', 'w', 'd']

def ENCRYPTED : List Char := ['-', 'e']

/-- The lines fed to `chpasswd -e`: what `echo` prints, its arguments with a space between. -/
def fedLines (command : List Char) : List (List Char) :=
  match ShellQuoting.pipeline command with
  | some [echo :: arguments, consumer] =>
    if echo = ECHO ∧ consumer = [CHPASSWD, ENCRYPTED] then
      (Words.unwords ' ' arguments).splitOn '\n'
    else []
  | _ => []

/-- The command of a `RUN` line. A line break in it would end the line. -/
def runCommand (line : Line) : Option String :=
  if OneLine line.text then Text.afterPrefix line.text "RUN " else none

def chpasswdInput (lines : List Line) : List (List Char) :=
  (lines.filterMap runCommand).flatMap fun command => fedLines command.toList

def withPassword : List Json :=
  users.filter fun u => !(strField u "password_hash").isEmpty

def passwordLine (u : Json) : List Char :=
  (strField u "name" ++ ":" ++ strField u "password_hash").toList

def PasswordsFed : Prop :=
  chpasswdInput (chpasswdLines users) = (withPassword users).map passwordLine

def OnePassword : Prop :=
  withPassword users = [] ∨
  ∃ u, withPassword users = [u] ∧ isShellSafe (strField u "name") ∧
    QUOTE ∉ (strField u "password_hash").toList ∧ '\n' ∉ (strField u "password_hash").toList

def CONSUMER : List Char := [' ', '|', ' '] ++ CHPASSWD ++ [' '] ++ ENCRYPTED

def echoCommand (text : List Char) : List Char :=
  (ECHO ++ [' ']) ++ (QUOTE :: text ++ QUOTE :: CONSUMER)

def echoPieces : List Piece := ECHO.map .char ++ [.gap]

def consumerPieces : List Piece :=
  .gap :: CHPASSWD.map .char ++ .gap :: ENCRYPTED.map .char

theorem run_echo : ShellQuoting.run .bare (ECHO ++ [' ']) = some (echoPieces, .bare) := by decide

theorem run_consumer :
    ShellQuoting.run .bare CONSUMER = some (.gap :: .bar :: consumerPieces, .bare) := by decide

theorem noQuoting_consumer : ShellQuoting.NoQuoting CONSUMER := by
  unfold ShellQuoting.NoQuoting
  decide

/-- The words of what stands between `echo` and the bar. -/
theorem commandWords_echo (pieces : List Piece) :
    ShellQuoting.commandWords (echoPieces ++ (pieces ++ [.gap])) =
      ECHO :: ShellQuoting.commandWords pieces := by
  rw [ShellQuoting.commandWords, echoPieces, List.append_assoc, List.singleton_append,
    List.splitOn_append_cons_of_beq _ _ (beq_self_eq_true Piece.gap),
    List.splitOn_append_cons_of_beq _ _ (beq_self_eq_true Piece.gap), List.filterMap_append,
    List.filterMap_append]
  rw [show ((ECHO.map Piece.char).splitOn .gap).filterMap ShellQuoting.wordOf =
    [ECHO] by decide]
  simp [ShellQuoting.commandWords, ShellQuoting.wordOf]

theorem splitOn_consumer (pieces : List Piece) :
    ((pieces ++ .bar :: consumerPieces).splitOn .bar).map ShellQuoting.commandWords =
      (pieces.splitOn .bar).map ShellQuoting.commandWords ++
        [[CHPASSWD, ENCRYPTED]] := by
  rw [List.splitOn_append_cons_of_beq _ _ (beq_self_eq_true Piece.bar), List.map_append]
  exact congrArg _ (by decide)

theorem run_echoCommand {text : List Char} {ps : List Piece}
    (h : ShellQuoting.run .bare (echoCommand text) = some (ps, .bare)) :
    ∃ m qs last, ShellQuoting.run .single text = some (qs, m) ∧
      ps = echoPieces ++ (.quote :: (qs ++ last) ++ [.gap]) ++ .bar :: consumerPieces ∧
      (m = .single ∧ last = [] ∨ m = .bareEscape ∧ last = [.char QUOTE]) := by
  obtain ⟨k, as, bs, first, rest, rfl⟩ := ShellQuoting.run_append_some h
  rw [run_echo] at first
  cases first
  obtain ⟨m, qs, last, ts, inner, tail, rfl, ends⟩ :=
    ShellQuoting.run_quoted noQuoting_consumer rest
  rw [run_consumer] at tail
  cases tail
  exact ⟨m, qs, last, inner, by simp, ends⟩

theorem fedLines_of_length {command : List Char} {commands : List (List (List Char))}
    (h : ShellQuoting.pipeline command = some commands) (more : commands.length ≠ 2) :
    fedLines command = [] := by
  rw [fedLines, h]
  split
  next same =>
    rw [Option.some.inj same] at more
    exact absurd rfl more
  · rfl

section

variable {text : List Char} {qs : List Piece}

theorem fedLines_words (h : ShellQuoting.run .bare (echoCommand text) =
      some (echoPieces ++ (.quote :: qs ++ [.gap]) ++ .bar :: consumerPieces, .bare))
    (no_bar : Piece.bar ∉ qs) :
    fedLines (echoCommand text) =
      (Words.unwords ' ' (ShellQuoting.commandWords (.quote :: qs))).splitOn '\n' := by
  have one_command : Piece.bar ∉ echoPieces ++ (.quote :: qs ++ [.gap]) := by
    simp [echoPieces, no_bar]
  have commands : ShellQuoting.pipeline (echoCommand text) =
      some [ECHO :: ShellQuoting.commandWords (.quote :: qs),
        [CHPASSWD, ENCRYPTED]] := by
    rw [ShellQuoting.pipeline, h]
    simp only [splitOn_consumer, List.splitOn_eq_singleton one_command, List.map_cons,
      List.map_nil, commandWords_echo, List.singleton_append]
  rw [fedLines, commands]
  exact if_pos ⟨rfl, rfl⟩

theorem fedLines_bar (h : ShellQuoting.run .bare (echoCommand text) =
      some (echoPieces ++ (.quote :: qs ++ [.gap]) ++ .bar :: consumerPieces, .bare))
    (bar : Piece.bar ∈ qs) : fedLines (echoCommand text) = [] := by
  obtain ⟨before, after, rfl⟩ := List.append_of_mem bar
  have commands : ShellQuoting.pipeline (echoCommand text) =
      some (((echoPieces ++ .quote :: before).splitOn .bar ++
        (after ++ [Piece.gap]).splitOn .bar).map ShellQuoting.commandWords ++
          [[CHPASSWD, ENCRYPTED]]) := by
    rw [ShellQuoting.pipeline, h]
    simp only [splitOn_consumer]
    rw [← List.splitOn_append_cons_of_beq _ _ (beq_self_eq_true Piece.bar)]
    simp
  refine fedLines_of_length commands ?_
  have first := List.length_pos_iff.mpr
    (List.splitOn_ne_nil Piece.bar (echoPieces ++ .quote :: before))
  have second := List.length_pos_iff.mpr (List.splitOn_ne_nil Piece.bar (after ++ [Piece.gap]))
  simp only [List.length_append, List.length_map, List.length_cons, List.length_nil]
  omega

end

theorem fedLines_plain {text : List Char} (plain : QUOTE ∉ text) :
    fedLines (echoCommand text) = text.splitOn '\n' := by
  have closing : ShellQuoting.run .single (QUOTE :: CONSUMER) =
      some (.gap :: .bar :: consumerPieces, .bare) := by decide
  have whole : ShellQuoting.run .bare (echoCommand text) =
      some (echoPieces ++ (.quote :: text.map .char ++ [.gap]) ++ .bar :: consumerPieces,
        .bare) := by
    rw [echoCommand, ShellQuoting.run_append, run_echo, Option.bind_some, List.cons_append,
      ShellQuoting.run_cons ShellQuoting.step_open, ShellQuoting.run_append,
      ShellQuoting.run_single plain, Option.bind_some, closing]
    simp
  have stretch : Piece.gap ∉ Piece.quote :: text.map Piece.char := by simp
  have one_word : ShellQuoting.commandWords (.quote :: text.map .char) = [text] := by
    rw [ShellQuoting.commandWords, List.splitOn_eq_singleton stretch]
    simp [ShellQuoting.wordOf, List.filterMap_cons, List.filterMap_map, Function.comp_def,
      Piece.char?]
  rw [fedLines_words whole (by simp), one_word, Words.unwords]

theorem fedLines_cost {text : List Char} (fed : fedLines (echoCommand text) ≠ []) :
    ∃ printed, fedLines (echoCommand text) = printed.splitOn '\n' ∧
      ∀ g : Char → Nat, g ' ' ≤ g '\t' → g QUOTE ≤ g '\\' →
        cost g printed + (if QUOTE ∈ text then g QUOTE else 0) ≤ cost g text := by
  obtain ⟨commands, piped⟩ :
      ∃ commands, ShellQuoting.pipeline (echoCommand text) = some commands := by
    cases piped : ShellQuoting.pipeline (echoCommand text) with
    | none => simp [fedLines, piped] at fed
    | some commands => exact ⟨commands, rfl⟩
  rw [ShellQuoting.pipeline] at piped
  split at piped
  next ps whole =>
    obtain ⟨k, qs, last, inner, rfl, ends⟩ := run_echoCommand whole
    have no_bar : Piece.bar ∉ qs ++ last := fun bar => fed (fedLines_bar whole bar)
    refine ⟨_, fedLines_words whole no_bar, fun g tab quote => ?_⟩
    have printed := @ShellQuoting.cost_commandWords g (.quote :: (qs ++ last))
    have bound := ShellQuoting.run_quoted_cost tab quote inner ends
    simp only [ShellQuoting.piecesCost_cons, Piece.cost] at printed
    omega
  · cases piped

/-- The entries of the users with a writable name, joined by a backslash and an `n`. -/
def chpasswdText : List Char :=
  ['\\', 'n'].intercalate
    (((withPassword users).filter fun u => isShellSafe (strField u "name")).map passwordLine)

theorem segmentsText_append (xs ys : List Segment) :
    BuildScript.segmentsText (xs ++ ys) =
      BuildScript.segmentsText xs ++ BuildScript.segmentsText ys := by
  simp [BuildScript.segmentsText]

theorem segmentsText_entries (entries : List Json) :
    (BuildScript.segmentsText
      ((entries.map chpasswdEntry).intersperse [.fixed "\\n"]).flatten).toList =
      ['\\', 'n'].intercalate (entries.map passwordLine) := by
  induction entries with
  | nil => rfl
  | cons u rest ih =>
    have own : (BuildScript.segmentsText (chpasswdEntry u)).toList = passwordLine u := by
      simp [BuildScript.segmentsText, chpasswdEntry, passwordLine, Segment.text]
    cases rest with
    | nil => simpa using own
    | cons v more =>
      simp only [List.map_cons, List.intersperse_cons_cons, List.flatten_cons,
        List.intercalate_cons_cons] at ih ⊢
      rw [segmentsText_append, segmentsText_append, String.toList_append, String.toList_append, own,
        ih, List.append_assoc]
      simp [BuildScript.segmentsText, Segment.text]

def chpasswdCommand : Line :=
  .command (.fixed "RUN echo '" ::
    ((((withPassword users).filter fun u => isShellSafe (strField u "name")).map
      chpasswdEntry).intersperse [.fixed "\\n"]).flatten ++ [.fixed "' | chpasswd -e"])

theorem chpasswdCommand_text :
    (chpasswdCommand users).text = "RUN " ++ String.ofList (echoCommand (chpasswdText users)) := by
  apply String.toList_injective
  have text : (chpasswdCommand users).text = BuildScript.segmentsText ([.fixed "RUN echo '"] ++
      ((((withPassword users).filter fun u => isShellSafe (strField u "name")).map
        chpasswdEntry).intersperse [.fixed "\\n"]).flatten ++ [.fixed "' | chpasswd -e"]) := rfl
  rw [text, segmentsText_append, segmentsText_append, String.toList_append, String.toList_append,
    segmentsText_entries]
  simp [BuildScript.segmentsText, Segment.text, echoCommand, chpasswdText, QUOTE, ECHO,
    CONSUMER, CHPASSWD, ENCRYPTED]

theorem runCommand_chpasswd :
    runCommand (chpasswdCommand users) =
      if '\n' ∈ chpasswdText users then none
      else some (String.ofList (echoCommand (chpasswdText users))) := by
  have one_line : OneLine (chpasswdCommand users).text ↔ '\n' ∉ chpasswdText users := by
    rw [chpasswdCommand_text, BuildScript.oneLine_append, and_iff_right (by decide)]
    simp [OneLine, echoCommand, QUOTE, ECHO, CONSUMER, CHPASSWD, ENCRYPTED]
  by_cases broken : '\n' ∈ chpasswdText users
  · rw [runCommand, if_neg (by rw [one_line]; exact not_not_intro broken), if_pos broken]
  · rw [runCommand, if_pos (one_line.mpr broken), if_neg broken, chpasswdCommand_text,
      Text.afterPrefix_append]

def passwordWarning : List Line :=
  [note "WARNING: Embedding password hashes in a Containerfile is a security risk.",
   note "Consider using a secrets manager or deploy-time provisioning instead."]

/-- Without an entry there is no command, and a line break in an entry breaks it. -/
theorem chpasswdInput_eq :
    chpasswdInput (chpasswdLines users) =
      if ((withPassword users).filter fun u => isShellSafe (strField u "name")) = [] ∨
          '\n' ∈ chpasswdText users then []
      else fedLines (echoCommand (chpasswdText users)) := by
  have comment : ∀ text, runCommand (note text) = none := by
    intro text
    rw [runCommand]
    split
    · simp [Text.afterPrefix, Text.startsWith, note, Line.text]
    · rfl
  have warning : passwordWarning.filterMap runCommand = [] := by simp [passwordWarning, comment]
  have lines : chpasswdLines users = if (withPassword users).isEmpty then [] else
      passwordWarning ++
      (if ((withPassword users).filter fun u => isShellSafe (strField u "name")).isEmpty then []
       else [chpasswdCommand users]) := rfl
  rw [lines]
  by_cases none : (withPassword users).filter (fun u => isShellSafe (strField u "name")) = []
  · rw [if_pos (Or.inl none)]
    split
    · rfl
    · simp [none, chpasswdInput, warning]
  · have given : (withPassword users).isEmpty = false := by
      rw [Bool.eq_false_iff]
      intro empty
      exact none (by rw [List.isEmpty_iff.mp empty]; rfl)
    have fed : chpasswdInput (passwordWarning ++ [chpasswdCommand users]) =
        (runCommand (chpasswdCommand users)).toList.flatMap fun command =>
          fedLines command.toList := by
      rw [chpasswdInput, List.filterMap_append, warning, List.nil_append, List.filterMap_cons]
      cases runCommand (chpasswdCommand users) <;> rfl
    simp only [given, List.isEmpty_iff, none, Bool.false_eq_true, if_false, false_or, fed,
      runCommand_chpasswd]
    split <;> simp

def isBreak (c : Char) : Nat := if c = '\n' then 1 else 0

theorem cost_isBreak_eq_zero {cs : List Char} (none : '\n' ∉ cs) : cost isBreak cs = 0 := by
  induction cs with
  | nil => rfl
  | cons c rest ih =>
    rw [List.mem_cons, not_or] at none
    simp [isBreak, Ne.symm none.1, ih none.2]

theorem length_splitOn_break (cs : List Char) :
    (cs.splitOn '\n').length = cost isBreak cs + 1 := by
  induction cs with
  | nil => rfl
  | cons c rest ih =>
    rw [List.splitOn_cons_eq_if_modifyHead]
    by_cases cut : c = '\n'
    · simp [cut, ih, isBreak, Nat.add_comm]
    · simp [cut, ih, isBreak]

theorem cost_one (cs : List Char) : cost (fun _ => 1) cs = cs.length := by simp [cost]

theorem not_mem_of_isShellSafe {name : String} (safe : isShellSafe name) {c : Char}
    (special : isShellUnsafe c = true) : c ∉ name.toList := by
  intro mem
  have listed : name.toList.any isShellUnsafe = true := List.any_eq_true.mpr ⟨c, mem, special⟩
  simp [isShellSafe, sanitizeShellValue, listed] at safe

theorem passwordsFed_of_onePassword {users : List Json} (h : OnePassword users) :
    PasswordsFed users := by
  rw [PasswordsFed, chpasswdInput_eq]
  obtain none | ⟨u, only, safe, no_quote, one_line⟩ := h
  · simp [none]
  · have text : chpasswdText users = passwordLine u := by simp [chpasswdText, only, safe]
    have apart : ∀ c, isShellUnsafe c = true → c ≠ ':' → c ∉ (strField u "password_hash").toList →
        c ∉ passwordLine u := by
      intro c special colon hash
      simp only [passwordLine, String.toList_append, List.mem_append, not_or]
      exact ⟨⟨not_mem_of_isShellSafe safe special, by simpa using colon⟩, hash⟩
    have unbroken := apart '\n' (by decide) (by decide) one_line
    have unquoted := apart QUOTE (by decide) (by decide) no_quote
    rw [only, text, if_neg (by simp [safe, unbroken]), fedLines_plain unquoted,
      List.splitOn_eq_singleton unbroken]
    rfl

theorem onePassword_of_passwordsFed {users : List Json} (h : PasswordsFed users) :
    OnePassword users := by
  rw [PasswordsFed, chpasswdInput_eq] at h
  by_cases none : withPassword users = []
  · exact .inl none
  have some_line : (withPassword users).map passwordLine ≠ [] := by simpa using none
  split at h
  · exact absurd h.symm some_line
  next given =>
    rw [not_or] at given
    obtain ⟨printed, lines, bound⟩ := fedLines_cost (h ▸ some_line)
    rw [lines] at h
    -- the breaks of the printed text are those of the entries, which have none
    have breaks := bound isBreak (by decide) (by decide)
    rw [cost_isBreak_eq_zero given.2] at breaks
    have count := length_splitOn_break printed
    rw [h, List.length_map] at count
    obtain ⟨u, only⟩ := List.length_eq_one_iff.mp (show (withPassword users).length = 1 by omega)
    have safe : isShellSafe (strField u "name") = true := by
      by_contra refused
      exact given.1 (by simp [only, refused])
    have text : chpasswdText users = passwordLine u := by simp [chpasswdText, only, safe]
    have same : printed = passwordLine u := by
      have joined : ['\n'].intercalate (printed.splitOn '\n') = printed :=
        List.intercalate_splitOn _
      rw [h, only] at joined
      simpa using joined.symm
    have unquoted : QUOTE ∉ passwordLine u := by
      intro quote
      have fewer := bound (fun _ => 1) (Nat.le_refl 1) (Nat.le_refl 1)
      rw [cost_one, cost_one, same, text, if_pos quote] at fewer
      omega
    have hash : ∀ c ∈ (strField u "password_hash").toList, c ∈ passwordLine u := by
      intro c mem
      simp [passwordLine, mem]
    exact .inr ⟨u, only, safe, fun mem => unquoted (hash _ mem),
      fun mem => given.2 (text ▸ hash _ mem)⟩

/-- For every snapshot and every list of users. -/
theorem user_commands_iff (users : List Json) :
    GroupsCreated snap ∧ PasswordsFed users ↔ GroupsWritable snap ∧ OnePassword users :=
  and_congr (groupsCreated_iff snap) ⟨onePassword_of_passwordsFed, passwordsFed_of_onePassword⟩

def passwordUser (name hash : String) : Json :=
  .obj [("name", .str name), ("containerfile_strategy", .str "useradd"),
    ("password_hash", .str hash)]

def passwordHost : InspectionSnapshot where
  usersGroups := some { users := users }

/-- Two users get one line, with a backslash and an `n` between their entries. -/
theorem two_passwords_on_one_line :
    ¬ ∀ (snap : InspectionSnapshot) (users : List Json),
      GroupsCreated snap ∧ PasswordsFed users := by
  intro all
  have fed := (all (passwordHost [passwordUser "ada" "$6$x$y", passwordUser "ben" "$6$u$v"])
    (useraddUsers (passwordHost [passwordUser "ada" "$6$x$y", passwordUser "ben" "$6$u$v"]))).2
  revert fed
  rw [PasswordsFed]
  decide +kernel

end Inspectah
