import Inspectah.Render.Safety

/-!
SELinux file contexts. Each rule becomes commands that replay it against the policy
of the target, or a note that says why it could not.
-/
namespace Inspectah

open BuildScript (Line Segment)

/-- Top levels that link into `/var` and that the policy does not alias. -/
def VAR_SYMLINKED_TOPLEVELS : List (String × String) := [("/srv", "/var/srv")]

def INSTALL_PRECONDITION : List Line :=
  [note "The file context and port rules below need semanage, which this base does not",
   note "carry; policycoreutils-python-utils provides it.",
   .command [.fixed "RUN dnf install -y policycoreutils-python-utils \\"],
   .command [.fixed "    && dnf clean all \\"],
   .command [.fixed "    && rm -rf \\"],
   .command [.fixed "        /var/cache/dnf \\"],
   .command [.fixed "        /var/lib/dnf/history* \\"],
   .command [.fixed "        /var/log/dnf* \\"],
   .command [.fixed "        /var/log/hawkey.log \\"],
   .command [.fixed "        /var/log/rhsm"]]

def DEFAULT_USER : String := "system_u"
def DEFAULT_LEVEL : String := "s0"
def UNLABEL_TYPE_ARG : String := "'<<none>>'"

def isUnquotable (c : Char) : Bool := c == APOSTROPHE || Text.isControl c

def EQUIVALENCE_FORBIDDEN : List Char := ['*', '?', '[', ']', '(', ')', '|', '\\']

def FIXME_INSTRUCTION : String :=
  "FIXME: add this file context by hand with: RUN semanage fcontext -a -t <type> '<spec>' || " ++
    "semanage fcontext -m -t <type> '<spec>' (labels apply when bootc pulls the image; no " ++
    "restorecon needed)"

def FIXME_CAUSE_PREFIX : String := "  the collected rule could not be rendered: "

def SEMANAGE_LIST_NOTE : String :=
  "NOTE: rule order comes from a sorted listing, not insertion order; if two expressions " ++
    "overlap, reorder so the intended winner is last."

def NOT_ABSOLUTE : String := "it is not an absolute path"
def UNQUOTABLE_BYTE : String := "it carries an apostrophe or a control character"
def HAS_WHITESPACE : String := "it carries whitespace"
def REGEX_CHARACTER : String := "it carries a regex character, and -e takes a literal path"
def NOT_BARE_TOKEN : String := "it is not a bare token"
def UNPARSED_LINE : String := "the collector could not place this line"
def SYNTHESIS_ATTRIBUTION : String := "inspectah adds this one itself"

def FcontextFileType.semanageFlag : FcontextFileType → Option String
  | .all => none
  | .regularFile => some "f"
  | .directory => some "d"
  | .charDevice => some "c"
  | .blockDevice => some "b"
  | .socket => some "s"
  | .symlink => some "l"
  | .namedPipe => some "p"

inductive EquivalenceOrigin where
  | collected
  | synthesized (reason : String)
  | conflict (rows : List FcontextRule)

structure Equivalence where
  rule : FcontextRule
  origin : EquivalenceOrigin
  /-- Why no command is rendered for this row, if none is. -/
  notEmitted : Option String

structure FcontextRendering where
  preamble : List Line
  rules : List Line
  emitsCommand : Bool

structure ReplayRule where
  spec : String
  fileType : FcontextFileType
  context : Option SelinuxContext

def ReplayRule.of : FcontextRule → Option ReplayRule
  | .label spec fileType context _ _ => some ⟨spec, fileType, some context⟩
  | .unlabel spec fileType _ _ => some ⟨spec, fileType, none⟩
  | .equivalence _ _ _ _ => none
  | .unparsed _ => none

def FcontextRule.isIncluded : FcontextRule → Bool
  | .label _ _ _ disposition _ => disposition.isIncluded
  | .unlabel _ _ disposition _ => disposition.isIncluded
  | .equivalence _ _ disposition _ => disposition.isIncluded
  | .unparsed _ => false

def equivalencePair : FcontextRule → Option (String × String)
  | .equivalence subject labeledLike _ _ => some (subject, labeledLike)
  | _ => none

def subjectOf (rule : FcontextRule) : Option String := (equivalencePair rule).map (·.1)

structure OperandFault where
  field : String
  value : String
  reason : String

def specFault (spec : String) : Option String :=
  if !Text.startsWith spec "/" then some NOT_ABSOLUTE
  else if spec.toList.any isUnquotable then some UNQUOTABLE_BYTE
  else if spec.toList.any Text.isWhitespace then some HAS_WHITESPACE
  else none

def equivalenceOperandFault (operand : String) : Option String :=
  if !Text.startsWith operand "/" then some NOT_ABSOLUTE
  else if operand.toList.any isUnquotable then some UNQUOTABLE_BYTE
  else if operand.toList.any Text.isWhitespace then some HAS_WHITESPACE
  else if operand.toList.any EQUIVALENCE_FORBIDDEN.contains then some REGEX_CHARACTER
  else none

/-- These operands are written without quotes, so only this check keeps them inert. -/
def bareTokenFault (token : String) : Option String :=
  if !token.isEmpty && token.toList.all fun c =>
      c.isAlphanum || c == '_' || c == '.' || c == ':' || c == '-' then none
  else some NOT_BARE_TOKEN

def operandFault (field value : String) (reason : Option String) : List OperandFault :=
  reason.toList.map fun reason => ⟨field, value, reason⟩

def ruleFaults : FcontextRule → List OperandFault
  | .label spec _ context _ _ =>
    operandFault "spec" spec (specFault spec) ++
    operandFault "type" context.type (bareTokenFault context.type) ++
    (if context.user = DEFAULT_USER then []
     else operandFault "user" context.user (bareTokenFault context.user)) ++
    (match context.level with
     | none => []
     | some level =>
       if level = DEFAULT_LEVEL then [] else operandFault "level" level (bareTokenFault level))
  | .unlabel spec _ _ _ => operandFault "spec" spec (specFault spec)
  | .equivalence subject labeledLike _ _ =>
    operandFault "subject" subject (equivalenceOperandFault subject) ++
    operandFault "labeled_like" labeledLike (equivalenceOperandFault labeledLike)
  | .unparsed raw => operandFault "raw" raw (some UNPARSED_LINE)

def isRenderable (rule : FcontextRule) : Bool := (ruleFaults rule).isEmpty

def ruleIdentity : FcontextRule → String
  | .label spec _ context _ _ =>
    "the rule labels " ++ debugText spec ++ " as type " ++ debugText context.type
  | .unlabel spec _ _ _ => "the rule unlabels " ++ debugText spec
  | .equivalence subject labeledLike _ _ =>
    "the rule maps " ++ debugText subject ++ " to " ++ debugText labeledLike
  | .unparsed raw => "the collected line was " ++ debugText raw

def unrenderableCause (rule : FcontextRule) : String :=
  match rule with
  | .unparsed raw => debugText raw ++ " (" ++ UNPARSED_LINE ++ ")"
  | rule => ", ".intercalate ((ruleFaults rule).map fun f =>
      debugText f.value ++ " (" ++ f.field ++ ": " ++ f.reason ++ ")") ++ "; " ++ ruleIdentity rule

def isSynthesizedPair (rule : FcontextRule) : Bool :=
  (equivalencePair rule).any fun pair =>
    VAR_SYMLINKED_TOPLEVELS.any fun (link, target) => pair == (target, link)

def conflictCause (rows : List FcontextRule) : String :=
  let pairs := rows.filterMap fun rule => (equivalencePair rule).map fun (subject, labeledLike) =>
    debugText subject ++ " = " ++ debugText labeledLike ++
      (if isSynthesizedPair rule then " (" ++ SYNTHESIS_ATTRIBUTION ++ ")" else "")
  "these equivalences conflict: " ++ " and ".intercalate pairs ++ "; " ++
    (if rows.any isSynthesizedPair then "exclude the other and rebuild"
     else "keep one and exclude the other, then rebuild")

def collisionCause (spec subject rewritten : String) : String :=
  debugText spec ++ " sits under " ++ debugText subject ++
    ", which this block adds as an equivalence, and semanage refuses a file context under an " ++
    "equivalence subject; label " ++ debugText rewritten ++
    " instead, which reaches the same files through that equivalence, or exclude the " ++
    "equivalence, then rebuild"

def symlinkFact (link target : String) : String :=
  link ++ " is a symlink to " ++ target ++ " on this base and the policy has no " ++ target ++
    " alias"

def unneededCause (link target : String) : String :=
  "nothing is left needing it, because every included " ++ link ++
    " rule is itself refused, so the block replays none of them and adds no " ++ target ++
    " equivalence"

def fixmeLines (cause : String) : List Line :=
  [note FIXME_INSTRUCTION, note (FIXME_CAUSE_PREFIX ++ cause)]

/-- A top level itself, or something below it. -/
def beginsWithToplevel (spec toplevel : String) : Bool :=
  match Text.afterPrefix spec toplevel with
  | some rest => rest.isEmpty || Text.startsWith rest "/" || Text.startsWith rest "("
  | none => false

def triggersSynthesis (link : String) (rule : FcontextRule) : Bool :=
  match ReplayRule.of rule with
  | some replay => rule.isIncluded && isRenderable rule && beginsWithToplevel replay.spec link
  | none => false

def varSymlinkTarget (spec : String) : Option String :=
  (VAR_SYMLINKED_TOPLEVELS.find? fun (link, _) => beginsWithToplevel spec link).map (·.2)

def Equivalence.rowsOf (entry : Equivalence) : List FcontextRule :=
  match entry.origin with
  | .conflict rows => rows
  | _ => [entry.rule]

/-- The entry that speaks for a row, both halves of a conflict counted. -/
def entryOf (entries : List Equivalence) (wanted : FcontextRule → Bool) : Option Nat :=
  entries.findIdx? fun entry => entry.rowsOf.any wanted

/-- A second row for one subject: a duplicate changes nothing, another target conflicts. -/
def absorb (incoming : FcontextRule) (entry : Equivalence) : Equivalence :=
  match entry.origin with
  | .conflict rows =>
    if rows.contains incoming then entry else { entry with origin := .conflict (rows ++ [incoming]) }
  | _ =>
    if entry.rule = incoming ∨ equivalencePair entry.rule = equivalencePair incoming then entry
    else { entry with origin := .conflict [entry.rule, incoming] }

def settleEmission (entry : Equivalence) : Equivalence :=
  { entry with notEmitted :=
      match entry.origin with
      | .conflict rows => some (conflictCause rows)
      | _ => if isRenderable entry.rule then entry.notEmitted else some (unrenderableCause entry.rule) }

/-- Its own operands forbid the command, or an equivalence this block adds over its path. -/
def collision (entries : List Equivalence) (rule : FcontextRule) : Option String :=
  if !isRenderable rule then some (unrenderableCause rule)
  else
    (ReplayRule.of rule).bind fun replay =>
      ((entries.filter (·.notEmitted.isNone)).findSome? fun entry =>
        (equivalencePair entry.rule).filter fun (subject, _) =>
          beginsWithToplevel replay.spec subject).map fun (subject, labeledLike) =>
        collisionCause replay.spec subject
          (labeledLike ++ String.ofList (replay.spec.toList.drop subject.toList.length))

def collectEquivalence (entries : List Equivalence) (rule : FcontextRule) : List Equivalence :=
  match subjectOf rule with
  | none => entries
  | some subject =>
    match entries.findIdx? fun e => subjectOf e.rule == some subject with
    | some idx => entries.modify idx (absorb rule)
    | none => entries ++ [⟨rule, .collected, none⟩]

def synthesizeEquivalence (rules : List FcontextRule) (entries : List Equivalence)
    (toplevel : String × String) : List Equivalence :=
  let (link, target) := toplevel
  let synthesized := FcontextRule.equivalence target link .included none
  -- A row for the other direction conflicts whether or not anything needs this one.
  match entries.findIdx? fun e => equivalencePair e.rule == some (link, target) with
  | some idx => entries.modify idx (absorb synthesized)
  | none =>
    let triggers := rules.filter (triggersSynthesis link)
    if triggers.isEmpty then entries
    else
      match entries.findIdx? fun e => subjectOf e.rule == some target with
      | some idx => entries.modify idx (absorb synthesized)
      | none => entries ++ [⟨synthesized, .synthesized (symlinkFact link target),
          if triggers.any fun r => (collision entries r).isNone then none
          else some (unneededCause link target)⟩]

def selinuxEquivalences (rules : List FcontextRule) : List Equivalence :=
  let collected := ((rules.filter (·.isIncluded)).foldl collectEquivalence []).map settleEmission
  (VAR_SYMLINKED_TOPLEVELS.foldl (synthesizeEquivalence rules) collected).map settleEmission

def RULE1_GUARD_LINES : List Line :=
  [.command [.fixed ("    eqs=\"$(semanage fcontext -l -C)\" || \x7b printf 'FIXME: could not list the target file " ++
     "contexts before replaying the rule for %s; fix semanage in the base, or exclude this rule, " ++
     "then rebuild\\n' \"$spec\" >&2; exit 1; \x7d; \\")],
   .command [.fixed ("    if printf '%s\\n' \"$eqs\" | awk '$2 == \"=\" \x7b print $1 \x7d' | grep -qxF -- \"$spec\"; " ++
     "then \\")],
   .command [.fixed ("      printf 'FIXME: skipped the file context rule for %s; the target maps that path as an " ++
     "equivalence, which semanage fcontext -d would delete instead of a label; delete it with " ++
     "semanage fcontext -d -e <its target> %s, or exclude this rule, then rebuild\\n' \"$spec\" " ++
     "\"$spec\" >&2; \\")]]

def singleQuoted (value : String) : List Segment :=
  [.fixed "'", .operand .single value, .fixed "'"]

def rule1Lines (spec : String) (deleteArgs addModifyArgs : List Segment) : List Line :=
  .command (.fixed "RUN spec=" :: singleQuoted spec ++ [.fixed "; \\"]) :: RULE1_GUARD_LINES ++
    [.command (.fixed "    else semanage fcontext -d" :: deleteArgs ++
       [.fixed " \"$spec\" 2>/dev/null || true; \\"]),
     .command (.fixed "      semanage fcontext -a" :: addModifyArgs ++ [.fixed " \"$spec\" \\"]),
     .command (.fixed "      || semanage fcontext -m" :: addModifyArgs ++ [.fixed " \"$spec\"; fi"])]

def rule2Lines (subject labeledLike : String) : List Line :=
  [.command (.fixed ("RUN eqs=\"$(semanage fcontext -l -C)\" || \x7b printf 'FIXME: could not list the target file " ++
       "contexts before adding the equivalence for %s; fix semanage in the base, or exclude this " ++
       "rule, then rebuild\\n' ") :: singleQuoted subject ++ [.fixed " >&2; exit 1; \x7d; \\"]),
   .command (.fixed "    eq=\"$(printf '%s\\n' \"$eqs\" | awk -v s=" :: singleQuoted subject ++
     [.fixed " '$2 == \"=\" && $1 == s \x7b print $3 \x7d')\"; \\"]),
   .command (.fixed "    if [ -z \"$eq\" ]; then semanage fcontext -a -e " ::
     singleQuoted labeledLike ++ .fixed " " :: singleQuoted subject ++ [.fixed "; \\"]),
   .command (.fixed "    elif [ \"$eq\" != " :: singleQuoted labeledLike ++
     .fixed (" ]; then printf 'FIXME: %s is already equivalent " ++
     "to %s on the target, not %s; delete that equivalence with semanage fcontext -d -e %s %s, or " ++
     "exclude this rule, then rebuild\\n' ") :: singleQuoted subject ++ .fixed " \"$eq\" " ::
     singleQuoted labeledLike ++ .fixed " \"$eq\" " :: singleQuoted subject ++
     [.fixed " >&2; exit 1; fi"])]

structure Rule1Args where
  delete : List Segment
  addModify : List Segment

def rule1Args (fileType : FcontextFileType) (context : Option SelinuxContext) : Rule1Args :=
  let fileFlag := (fileType.semanageFlag.map fun f => Segment.fixed (" -f " ++ f)).toList
  { delete := fileFlag
    addModify := fileFlag ++
      match context with
      | none => [.fixed (" -t " ++ UNLABEL_TYPE_ARG)]
      | some ctx =>
        (match ctx.level with
         | none => []
         | some level => if level = DEFAULT_LEVEL then [] else [.fixed " -r ", bare level]) ++
        (if ctx.user = DEFAULT_USER then [] else [.fixed " -s ", bare ctx.user]) ++
        [.fixed " -t ", bare ctx.type] }

def countParagraph (count : Nat) : List Line :=
  [note ("SELinux file contexts (" ++ toString count ++ " custom " ++
     (if count = 1 then "rule" else "rules") ++ "). Labels for image content are computed"),
   note "when bootc pulls the image, from the image's own policy under /etc/selinux, so",
   note "a rule only needs to be in the policy store: no restorecon at build time. Each",
   note "rule below is either a command or a FIXME saying why it could not be one. Data",
   note "you restore into /var (/var/srv included) keeps the labels it arrived with;",
   note "run restorecon -R on it before starting the services that use it."]

def replayParagraph : List Line :=
  [note "Each rule removes its own key from the local store if present, then adds it, or",
   note "modifies it when the target policy defines the key; the rules end the local",
   note "list in the order the source host held them. A rule whose path the target",
   note "already maps as an equivalence is skipped with a FIXME in the build output,",
   note "because deleting its key would delete that equivalence."]

def symlinkParagraph (link target : String) : List Line :=
  [note (symlinkFact link target ++ ";"),
   note ("this makes every " ++ link ++ " rule, stock and custom, apply to the real path. The"),
   note "equivalence is added when absent and left alone when identical; a different",
   note "target mapping stops the build with an instruction."]

structure FcontextBlock where
  emitted : List Nat := []
  rules : List Line := []
  emitsCommand : Bool := false

def FcontextBlock.add (block : FcontextBlock) (lines : List Line) : FcontextBlock :=
  { block with rules := block.rules ++ lines }

def equivalenceLines (entry : Equivalence) : List Line :=
  match entry.notEmitted with
  | some cause => fixmeLines cause
  | none =>
    match equivalencePair entry.rule with
    | none => []
    | some (subject, labeledLike) =>
      (match entry.origin with
       | .synthesized _ => symlinkParagraph labeledLike subject
       | _ => []) ++ rule2Lines subject labeledLike

def emitEquivalence (entries : List Equivalence) (idx : Nat) (block : FcontextBlock) :
    FcontextBlock :=
  match entries[idx]? with
  | none => block
  | some entry =>
    if block.emitted.contains idx then block
    else
      { emitted := block.emitted ++ [idx]
        rules := block.rules ++ equivalenceLines entry
        emitsCommand := block.emitsCommand ||
          (entry.notEmitted.isNone && (equivalencePair entry.rule).isSome) }

def emitIfAny (entries : List Equivalence) (idx : Option Nat) (block : FcontextBlock) :
    FcontextBlock :=
  match idx with
  | some idx => emitEquivalence entries idx block
  | none => block

def emitRule (entries : List Equivalence) (block : FcontextBlock) (rule : FcontextRule) :
    FcontextBlock :=
  match rule with
  | .unparsed _ => block.add (fixmeLines (unrenderableCause rule))
  | rule =>
    if !rule.isIncluded then block
    else
      match ReplayRule.of rule with
      | none => emitIfAny entries (entryOf entries fun row => row == rule) block
      | some replay =>
        match collision entries rule with
        | some cause => block.add (fixmeLines cause)
        | none =>
          -- The equivalence a rule needs goes ahead of the first rule that needs it.
          let block := emitIfAny entries ((varSymlinkTarget replay.spec).bind fun target =>
            entryOf entries fun row => subjectOf row == some target) block
          let args := rule1Args replay.fileType replay.context
          { block with
            rules := block.rules ++ rule1Lines replay.spec args.delete args.addModify
            emitsCommand := true }

def rendersAsReplay (entries : List Equivalence) (rule : FcontextRule) : Bool :=
  (ReplayRule.of rule).isSome && (collision entries rule).isNone

def renderFcontextRules (sel : SelinuxSection) : FcontextRendering :=
  let entries := selinuxEquivalences sel.fcontextRules
  let decisions := (sel.fcontextRules.filter (·.isIncluded)).length
  let anyReplay := sel.fcontextRules.any fun r => r.isIncluded && rendersAsReplay entries r
  let block := sel.fcontextRules.foldl (emitRule entries)
    { rules := if anyReplay then replayParagraph else [] }
  { preamble :=
      (if anyReplay && sel.fcontextSource == .semanageList then [note SEMANAGE_LIST_NOTE] else []) ++
      (if 0 < decisions then countParagraph decisions else [])
    rules := block.rules
    emitsCommand := block.emitsCommand }

end Inspectah
