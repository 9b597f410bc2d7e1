import Inspectah.Render.Openings

/-!
What the systemctl commands of the Containerfile name. A command goes on over the next
line while its line ends in a backslash; the words after the verb are its units.
-/
namespace Inspectah

open BuildScript

def systemctlLead (verb : String) : String := "RUN systemctl " ++ verb ++ " "

/-- The words of a line but the backslash that carries it on. -/
def unitWords (text : String) : List String := (splitWhitespace text).filter (· != "\\")

def goesOn (l : Line) : Bool := Text.endsWith l.text "\\"

/-- The units the commands with this verb name; `inside` is set in the middle of one. -/
def systemctlUnits (verb : String) : Bool → List Line → List String
  | _, [] => []
  | inside, l :: rest =>
    if inside then unitWords l.text ++ systemctlUnits verb (goesOn l) rest
    else
      match Text.afterPrefix l.text (systemctlLead verb) with
      | some more => unitWords more ++ systemctlUnits verb (goesOn l) rest
      | none => systemctlUnits verb false rest

theorem splitWhitespace_append_blank (s t : String) :
    splitWhitespace (s ++ " " ++ t) = splitWhitespace s ++ splitWhitespace t := by
  have blank : Text.isWhitespace ' ' = true := by decide
  simp only [splitWhitespace, Text.splitOn, String.toList_append]
  rw [List.append_assoc, show " ".toList ++ t.toList = ' ' :: t.toList from rfl,
    Text.splitChars_append_cut blank, List.map_append, List.filter_append]

theorem splitWhitespace_plain {u : String} (ne : u ≠ "")
    (plain : ∀ c ∈ u.toList, Text.isWhitespace c = false) : splitWhitespace u = [u] := by
  have one : ∀ cs : List Char, (∀ c ∈ cs, Text.isWhitespace c = false) →
      Text.splitChars Text.isWhitespace cs = [cs] := by
    intro cs
    induction cs with
    | nil => intro _; rfl
    | cons c rest ih =>
      intro all
      have tail := ih fun x hx => all x (List.mem_cons_of_mem _ hx)
      simp [Text.splitChars, all c (List.mem_cons_self ..), tail]
  simp [splitWhitespace, Text.splitOn, one _ plain, ne]

theorem IsSafeUnit.chars {u : String} (h : (sanitizeShellValue u).isSome) :
    ∀ c ∈ u.toList, isShellUnsafe c = false := by
  intro c mem
  unfold sanitizeShellValue at h
  split at h
  · cases h
  next none =>
    simp only [List.any_eq_true, not_exists, not_and, Bool.not_eq_true] at none
    exact none c mem

theorem IsSafeUnit.not_backslash {u : String} (h : (sanitizeShellValue u).isSome) : u ≠ "\\" := by
  rintro rfl
  exact absurd h (by decide)

theorem unitWords_append_blank (s t : String) :
    unitWords (s ++ " " ++ t) = unitWords s ++ unitWords t := by
  rw [unitWords, splitWhitespace_append_blank, List.filter_append]
  rfl

theorem unitWords_safe {u : String} (h : (sanitizeShellValue u).isSome) :
    unitWords u = if u = "" then [] else [u] := by
  split
  next empty =>
    subst empty
    rfl
  next ne =>
    have plain : ∀ c ∈ u.toList, Text.isWhitespace c = false := fun c mem =>
      (Bool.or_eq_false_iff.mp (IsSafeUnit.chars h c mem)).2
    rw [unitWords, splitWhitespace_plain ne plain]
    simp [IsSafeUnit.not_backslash h]

def Reads (verb : String) (lines : List Line) (units : List String) : Prop :=
  ∀ rest, systemctlUnits verb false (lines ++ rest) = units ++ systemctlUnits verb false rest

section

variable {verb : String}

theorem reads_nil : Reads verb [] [] := fun _ => rfl

theorem reads_append {xs ys : List Line} {us vs : List String} (hx : Reads verb xs us)
    (hy : Reads verb ys vs) : Reads verb (xs ++ ys) (us ++ vs) := by
  intro rest
  rw [List.append_assoc, hx, hy, List.append_assoc]

/-- Lines before that name no unit. -/
theorem Reads.after {xs ys : List Line} {us : List String} (hy : Reads verb ys us)
    (hx : Reads verb xs []) : Reads verb (xs ++ ys) us := reads_append hx hy

theorem Reads.congr {lines : List Line} {us vs : List String} (h : Reads verb lines us)
    (same : us = vs) : Reads verb lines vs := same ▸ h

theorem Reads.units {lines : List Line} {units : List String} (h : Reads verb lines units) :
    systemctlUnits verb false lines = units := by
  simpa [systemctlUnits] using h []

theorem reads_quiet {lines : List Line}
    (quiet : ∀ l ∈ lines, ¬ (systemctlLead verb).toList <+: l.text.toList) :
    Reads verb lines [] := by
  intro rest
  induction lines with
  | nil => rfl
  | cons l more ih =>
    have none : Text.afterPrefix l.text (systemctlLead verb) = none := by
      have apart := quiet l (List.mem_cons_self ..)
      rw [← List.isPrefixOf_iff_prefix] at apart
      simp [Text.afterPrefix, Text.startsWith, apart]
    have tail := ih fun m hm => quiet m (List.mem_cons_of_mem _ hm)
    simp only [List.cons_append, systemctlUnits, none]
    exact tail

theorem run_of_systemctlLead {l : Line} (h : (systemctlLead verb).toList <+: l.text.toList) :
    l.isRun := by
  have begins : (systemctlLead verb).toList = 'R' :: ("UN systemctl ".toList ++ verb.toList ++ [' ']) := by
    simp [systemctlLead]
  rw [begins] at h
  exact run_of_prefix h (by decide)

theorem reads_of_opens {words : List String} {lines : List Line} (opens : OpensWith words lines)
    (clashes : words.all (clash (systemctlLead verb))) : Reads verb lines [] :=
  reads_quiet fun _ hl begins => opens.not_leading clashes hl (run_of_systemctlLead begins) begins

theorem reads_inert {lines : List Line} (inert : ∀ l ∈ lines, l.isRun = false) :
    Reads verb lines [] := by
  refine reads_quiet fun l hl begins => ?_
  exact absurd (run_of_systemctlLead begins) (by simp [inert l hl])

theorem reads_containerSection {header : String} {body : List Line} {units : List String}
    (h : Reads verb body units) : Reads verb (containerSection header body) units := by
  unfold containerSection
  split
  next empty =>
    rw [List.isEmpty_iff.mp empty] at h
    have none : units = [] := by simpa [systemctlUnits] using (h []).symm
    exact none ▸ reads_nil
  next =>
    have banner : Reads verb [note ("=== " ++ header ++ " ===")] [] :=
      reads_inert fun l hl => List.mem_singleton.mp hl ▸ rfl
    have last : Reads verb [.blank] [] := reads_inert fun l hl => List.mem_singleton.mp hl ▸ rfl
    simpa using reads_append banner (reads_append h last)

def named (units : List String) : List String := units.filter (· != "")

theorem unitWords_of_safe {u : String} (h : (sanitizeShellValue u).isSome) :
    unitWords u = named [u] := by
  rw [unitWords_safe h]
  by_cases empty : u = "" <;> simp [named, empty]

theorem unitWords_indented {u : String} (h : (sanitizeShellValue u).isSome) :
    unitWords ("    " ++ u) = named [u] := by
  have indent : "    " ++ u = "   " ++ " " ++ u := by
    rw [show "    " = "   " ++ " " from rfl]
  rw [indent, unitWords_append_blank, unitWords_of_safe h]
  rfl

theorem unitWords_carriedOn (text : String) : unitWords (text ++ " \\") = unitWords text := by
  have split : text ++ " \\" = text ++ " " ++ "\\" := by
    rw [show " \\" = " " ++ "\\" from rfl, String.append_assoc]
  rw [split, unitWords_append_blank]
  simp [show unitWords "\\" = [] by decide]

theorem goesOn_carriedOn (segments : List Segment) (text : String)
    (h : (Line.command segments).text = text ++ " \\") : goesOn (.command segments) = true := by
  rw [goesOn, h]
  simp [Text.endsWith, List.isPrefixOf]

theorem not_goesOn_of_safe {l : Line} {u : String} (lead : String) (text : l.text = lead ++ u)
    (safe : (sanitizeShellValue u).isSome) (blank : lead.toList.getLast? = some ' ') :
    goesOn l = false := by
  by_contra on
  simp only [goesOn, Bool.not_eq_false, Text.endsWith] at on
  obtain ⟨front, whole⟩ := List.isPrefixOf_iff_prefix.mp on
  have last : l.text.toList.getLast? = some '\\' := by
    rw [← List.head?_reverse, ← whole]
    rfl
  rw [text, String.toList_append, List.getLast?_append] at last
  cases own : u.toList.getLast? with
  | none =>
    rw [own, blank] at last
    simp at last
  | some c =>
    rw [own, Option.some_or, Option.some.injEq] at last
    have plain := IsSafeUnit.chars safe c (List.mem_of_getLast? own)
    rw [last] at plain
    exact absurd plain (by decide)

def carriedLine (u : String) : Line := .command [.fixed "    ", bare u, .fixed " \\"]

theorem systemctlUnits_carried {units : List String}
    (safe : ∀ u ∈ units, (sanitizeShellValue u).isSome) (rest : List Line) :
    systemctlUnits verb true (units.map carriedLine ++ rest) =
      named units ++ systemctlUnits verb true rest := by
  induction units with
  | nil => rfl
  | cons u more ih =>
    have tail := ih fun v hv => safe v (List.mem_cons_of_mem _ hv)
    have text : (carriedLine u).text = "    " ++ u ++ " \\" := by
      simp [carriedLine, Line.text, segmentsText, Segment.text, bare, String.join]
    have on : goesOn (carriedLine u) = true := goesOn_carriedOn _ _ text
    rw [List.map_cons, List.cons_append, systemctlUnits, if_pos rfl, on, tail, text,
      unitWords_carriedOn, unitWords_indented (safe u (List.mem_cons_self ..)), ← List.append_assoc,
      named, named, named, ← List.filter_append]
    rfl

theorem reads_systemctlLines {units : List String} (ne : units ≠ [])
    (safe : ∀ u ∈ units, (sanitizeShellValue u).isSome) :
    Reads verb (systemctlLines verb units) (named units) := by
  intro rest
  obtain ⟨init, last, rfl⟩ : ∃ init last, units = init ++ [last] :=
    ⟨_, _, (List.dropLast_append_getLast ne).symm⟩
  have header : (Line.command [.fixed ("RUN systemctl " ++ verb ++ " \\")]).text =
      systemctlLead verb ++ "\\" := by
    simp [Line.text, segmentsText, Segment.text, systemctlLead, ← String.toList_inj]
  have on : goesOn (.command [.fixed ("RUN systemctl " ++ verb ++ " \\")]) = true := by
    refine goesOn_carriedOn _ ("RUN systemctl " ++ verb) ?_
    simp [Line.text, segmentsText, Segment.text]
  have lastSafe := safe last (by simp)
  have lastText : (Line.command [.fixed "    ", bare last]).text = "    " ++ last := by
    simp [Line.text, segmentsText, Segment.text, bare, String.join]
  have ends := not_goesOn_of_safe "    " lastText lastSafe (by decide)
  have lines : systemctlLines verb (init ++ [last]) =
      .command [.fixed ("RUN systemctl " ++ verb ++ " \\")] :: (init.map carriedLine ++
        [.command [.fixed "    ", bare last]]) := by
    simp [systemctlLines, carriedLine]
  rw [lines, List.cons_append, systemctlUnits, if_neg Bool.false_ne_true, header,
    Text.afterPrefix_append, on, List.append_assoc,
    systemctlUnits_carried fun u hu => safe u (List.mem_append_left _ hu)]
  simp only [List.singleton_append, systemctlUnits, if_true, ends, lastText]
  rw [unitWords_indented lastSafe, show unitWords "\\" = [] by decide, List.nil_append,
    ← List.append_assoc, named, named, named, ← List.filter_append]

def spaced (units : List String) : List Segment := (units.map bare).intersperse (.fixed " ")

theorem segmentsText_spaced (first second : String) (rest : List String) :
    segmentsText (spaced (first :: second :: rest)) =
      first ++ " " ++ segmentsText (spaced (second :: rest)) := by
  rw [← String.toList_inj]
  simp [spaced, segmentsText, bare, Segment.text]

theorem segmentsText_spaced_one (u : String) : segmentsText (spaced [u]) = u := by
  simp [spaced, segmentsText, bare, Segment.text, String.join]

theorem unitWords_spaced {units : List String} (safe : ∀ u ∈ units, (sanitizeShellValue u).isSome) :
    unitWords (segmentsText (spaced units)) = named units := by
  induction units with
  | nil => rfl
  | cons u more ih =>
    have here := unitWords_of_safe (safe u (List.mem_cons_self ..))
    cases more with
    | nil => rw [segmentsText_spaced_one, here]
    | cons v rest =>
      rw [segmentsText_spaced, unitWords_append_blank, here,
        ih fun w hw => safe w (List.mem_cons_of_mem _ hw), named, named, named, ← List.filter_append]
      rfl

theorem spaced_ends {units : List String} (ne : units ≠ []) :
    ∃ front last, last ∈ units ∧ segmentsText (spaced units) = front ++ last ∧
      ∀ lead : String, lead.toList.getLast? = some ' ' → (lead ++ front).toList.getLast? = some ' ' := by
  induction units with
  | nil => exact absurd rfl ne
  | cons u more ih =>
    cases more with
    | nil =>
      refine ⟨"", u, List.mem_cons_self .., ?_, fun lead blank => ?_⟩
      · rw [segmentsText_spaced_one, String.empty_append]
      · rw [String.append_empty]
        exact blank
    | cons v rest =>
      obtain ⟨front, last, mem, text, ends⟩ := ih (List.cons_ne_nil v rest)
      refine ⟨u ++ " " ++ front, last, List.mem_cons_of_mem _ mem, ?_, fun lead _ => ?_⟩
      · simp only [segmentsText_spaced, text, String.append_assoc]
      · rw [← String.append_assoc]
        exact ends _ (by simp)

theorem reads_enableLine {units : List String} (ne : units ≠ [])
    (safe : ∀ u ∈ units, (sanitizeShellValue u).isSome) :
    Reads "enable" [enableLine units] (named units) := by
  intro rest
  have text : (enableLine units).text = systemctlLead "enable" ++ segmentsText (spaced units) := by
    rw [← String.toList_inj]
    simp [enableLine, Line.text, segmentsText, Segment.text, systemctlLead, spaced]
  obtain ⟨front, last, mem, whole, ends⟩ := spaced_ends ne
  have stops : goesOn (enableLine units) = false := by
    refine not_goesOn_of_safe (systemctlLead "enable" ++ front) ?_ (safe last mem)
      (ends _ (by decide))
    rw [text, whole, String.append_assoc]
  rw [List.singleton_append, systemctlUnits, if_neg Bool.false_ne_true, text, Text.afterPrefix_append,
    stops]
  simp only [unitWords_spaced safe]

end

def ServiceAction.verb : ServiceAction → String
  | .enable => "enable"
  | .disable => "disable"
  | .mask => "mask"

theorem reads_otherAction {a b : ServiceAction} (other : a ≠ b) (units : List String) :
    Reads a.verb (systemctlLines b.verb units) [] := by
  have opens : OpensWith ["RUN systemctl " ++ b.verb ++ " \\", CONTINUATION]
      (systemctlLines b.verb units) := by
    simp only [systemctlLines, List.cons_append, opensWith_cons, opensWith_append]
    refine ⟨command_opens _ ⟨_, List.mem_cons_self .., List.prefix_refl _⟩, ?_, ?_⟩
    all_goals exact opensWith_map fun u _ => command_opens _ ⟨CONTINUATION, by simp, List.prefix_refl _⟩
  refine reads_of_opens opens ?_
  cases a <;> cases b <;> first | exact absurd rfl other | decide

theorem reads_actionLines (a b : ServiceAction) {units : List String}
    (safe : ∀ u ∈ units, (sanitizeShellValue u).isSome) :
    Reads a.verb (if units.isEmpty then [] else systemctlLines b.verb units)
      (if a = b then named units else []) := by
  split
  next empty =>
    rw [List.isEmpty_iff.mp empty]
    simpa [named] using reads_nil
  next some =>
    split
    next same => exact same ▸ reads_systemctlLines (by simpa using some) safe
    next other => exact reads_otherAction other units

def carriedChanges (snap : InspectionSnapshot) : List ServiceStateChange :=
  match snap.services with
  | none => []
  | some services =>
    match snap.rpm with
    | none => safeChanges services
    | some rpm =>
      (safeChanges services).filter fun sc => ((servicePresence snap rpm sc).omission sc.unit).isNone

def isDeferred (snap : InspectionSnapshot) (sc : ServiceStateChange) : Bool :=
  sc.impliedAction == .enable && (configTreeUnits snap).contains sc.unit

def actionUnits (snap : InspectionSnapshot) (a : ServiceAction) : List String :=
  ((carriedChanges snap).filter fun sc => sc.impliedAction == a && !isDeferred snap sc).map (·.unit)

def judgedOmissions (snap : InspectionSnapshot) (rpm : RpmSection) (services : ServiceSection) :
    List ServiceOmission :=
  (safeChanges services).filterMap fun sc => (servicePresence snap rpm sc).omission sc.unit

theorem renderServiceIntent_judged {snap : InspectionSnapshot} {services : ServiceSection}
    {rpm : RpmSection} (hs : snap.services = some services) (hr : snap.rpm = some rpm) :
    (renderServiceIntent snap).lines =
        (judgedOmissions snap rpm services).map omissionComment ++
          serviceActionLines (configTreeUnits snap) (carriedChanges snap) ∧
      (renderServiceIntent snap).omissions = judgedOmissions snap rpm services := by
  simp [renderServiceIntent, carriedChanges, judgedOmissions, hs, hr, List.filterMap_map,
    List.filter_map, Function.comp_def]

theorem renderServiceIntent_lines (snap : InspectionSnapshot) :
    ∃ comments, (∀ l ∈ comments, l.isRun = false) ∧
      (renderServiceIntent snap).lines =
        comments ++ serviceActionLines (configTreeUnits snap) (carriedChanges snap) := by
  cases hs : snap.services with
  | none => exact ⟨[], by simp, by simp [renderServiceIntent, carriedChanges, hs, serviceActionLines]⟩
  | some services =>
    cases hr : snap.rpm with
    | none => exact ⟨[], by simp, by simp [renderServiceIntent, carriedChanges, hs, hr]⟩
    | some rpm =>
      refine ⟨_, ?_, (renderServiceIntent_judged hs hr).1⟩
      intro l hl
      obtain ⟨o, -, rfl⟩ := List.mem_map.mp hl
      rfl

theorem carriedChanges_safe {snap : InspectionSnapshot} {sc : ServiceStateChange}
    (mem : sc ∈ carriedChanges snap) : (sanitizeShellValue sc.unit).isSome := by
  have safe : ∀ {services : ServiceSection}, sc ∈ safeChanges services →
      (sanitizeShellValue sc.unit).isSome := fun h => (List.mem_filter.mp h).2
  unfold carriedChanges at mem
  split at mem
  · cases mem
  · split at mem
    · exact safe mem
    · exact safe (List.mem_filter.mp mem).1

/-- One action's units, but those that wait for the scheduled tasks. -/
theorem reads_serviceActions {units : List String} {changes : List ServiceStateChange}
    (safe : ∀ sc ∈ changes, (sanitizeShellValue sc.unit).isSome) (a : ServiceAction) :
    Reads a.verb (serviceActionLines units changes) (named ((changes.filter fun sc =>
      sc.impliedAction == a && !(a == .enable && units.contains sc.unit)).map (·.unit))) := by
  have kept : ∀ wanted : ServiceStateChange → Bool,
      ∀ u ∈ (changes.filter wanted).map (·.unit), (sanitizeShellValue u).isSome := by
    intro wanted u hu
    obtain ⟨sc, hsc, rfl⟩ := List.mem_map.mp hu
    exact safe sc (List.mem_filter.mp hsc).1
  have enable := reads_actionLines a .enable
    (kept fun sc => sc.impliedAction == .enable && !units.contains sc.unit)
  have disable := reads_actionLines a .disable (kept fun sc => sc.impliedAction == .disable)
  have mask := reads_actionLines a .mask (kept fun sc => sc.impliedAction == .mask)
  have deferral : ∀ waiting : List String, Reads a.verb (if waiting.isEmpty then []
      else [note (toString waiting.length ++ " unit(s) deferred to Scheduled Tasks section: " ++
        ", ".intercalate waiting)]) [] := by
    intro waiting
    split
    · exact reads_nil
    · exact reads_inert fun l hl => List.mem_singleton.mp hl ▸ rfl
  have whole := reads_append (reads_append (reads_append enable disable) mask)
    (deferral ((changes.filter fun sc => sc.impliedAction == .enable && units.contains sc.unit).map
      (·.unit)))
  have apart : (ServiceAction.disable == .enable) = false ∧ (ServiceAction.mask == .enable) = false :=
    ⟨rfl, rfl⟩
  exact whole.congr (by cases a <;> simp [apart])

theorem reads_services (snap : InspectionSnapshot) (a : ServiceAction) :
    Reads a.verb (servicesSectionLines snap) (named (actionUnits snap a)) := by
  obtain ⟨comments, inert, lines⟩ := renderServiceIntent_lines snap
  have actions := @reads_serviceActions (configTreeUnits snap) (carriedChanges snap)
    (fun _ mem => carriedChanges_safe mem) a
  have same : actionUnits snap a = ((carriedChanges snap).filter fun sc =>
      sc.impliedAction == a && !(a == .enable && (configTreeUnits snap).contains sc.unit)).map
        (·.unit) := by
    unfold actionUnits isDeferred
    congr 1
    refine List.filter_congr fun sc _ => ?_
    cases own : sc.impliedAction == a with
    | false => rfl
    | true => rw [beq_iff_eq.mp own]
  refine reads_containerSection ?_
  rw [lines, same]
  exact reads_append (reads_inert inert) actions

/-! The units the scheduled tasks, the applications and the tuned profile enable. -/

def scheduledUnits (snap : InspectionSnapshot) : List String :=
  ((timerNames snap).map timerUnit).filter (fun u => (sanitizeShellValue u).isSome) ++
    rebootServices snap

def flatpakUnits (snap : InspectionSnapshot) : List String :=
  if (snap.flatpakApps.filter (·.disposition.isIncluded)).length = 0 then []
  else ["flatpak-provision.service"]

def activatesTuned (snap : InspectionSnapshot) (kb : KernelBootSection) : Bool :=
  kb.tunedDisposition.isIncluded && !kb.tunedActive.isEmpty && isValidTunedProfile kb.tunedActive &&
    (excludedTunedProfileFile snap kb.tunedActive).isNone

def tunedUnits (snap : InspectionSnapshot) : List String :=
  if snap.kernelBoot.any (activatesTuned snap) then ["tuned.service"] else []

def whenEnabling (a : ServiceAction) (units : List String) : List String :=
  if a = .enable then units else []

theorem whenEnabling_append (a : ServiceAction) (us vs : List String) :
    whenEnabling a (us ++ vs) = whenEnabling a us ++ whenEnabling a vs := by
  unfold whenEnabling
  split <;> rfl

theorem whenEnabling_nil (a : ServiceAction) : whenEnabling a [] = [] := by
  unfold whenEnabling
  split <;> rfl

theorem reads_enableLine_action (a : ServiceAction) {units : List String}
    (safe : ∀ u ∈ units, (sanitizeShellValue u).isSome) :
    Reads a.verb (if units.isEmpty then [] else [enableLine units]) (whenEnabling a (named units)) := by
  split
  next empty =>
    rw [List.isEmpty_iff.mp empty]
    exact reads_nil.congr (whenEnabling_nil a).symm
  next some =>
    have ne : units ≠ [] := by simpa using some
    have other : a ≠ .enable → Reads a.verb [enableLine units] [] := by
      intro apart
      have opens : OpensWith ["RUN systemctl enable "] [enableLine units] := by
        rw [opensWith_cons]
        exact ⟨command_opens _ (opens_literal rfl), opensWith_nil⟩
      refine reads_of_opens opens ?_
      cases a <;> first | exact absurd rfl apart | decide
    unfold whenEnabling
    split
    next same => exact same ▸ reads_enableLine ne safe
    next apart => exact other apart

theorem named_of_ne {units : List String} (h : ∀ u ∈ units, u ≠ "") : named units = units := by
  simpa [named, List.filter_eq_self] using h

theorem timerUnit_ne (name : String) : timerUnit name ≠ "" ∧ serviceUnit name ≠ "" := by
  constructor
  all_goals
    intro empty
    have chars := congrArg String.toList empty
    simp [timerUnit, serviceUnit] at chars

theorem scheduledUnits_ne (snap : InspectionSnapshot) : ∀ u ∈ scheduledUnits snap, u ≠ "" := by
  intro u hu
  obtain timer | reboot := List.mem_append.mp hu
  · obtain ⟨n, -, rfl⟩ := List.mem_map.mp (List.mem_filter.mp timer).1
    exact (timerUnit_ne n).1
  · obtain ⟨g, -, rfl⟩ := List.mem_map.mp (List.mem_filter.mp reboot).1
    exact (timerUnit_ne g.name).2

theorem reads_files (a : ServiceAction) {lines : List Line} (opens : OpensWith FILE_WORDS lines) :
    Reads a.verb lines [] :=
  reads_of_opens opens (by cases a <;> decide)

theorem reads_scheduled (snap : InspectionSnapshot) (a : ServiceAction) :
    Reads a.verb (scheduledTasksSectionLines snap) (whenEnabling a (scheduledUnits snap)) := by
  have timers := @reads_enableLine_action a (((timerNames snap).map timerUnit).filter
    fun u => (sanitizeShellValue u).isSome) fun u hu => (List.mem_filter.mp hu).2
  have reboots : Reads a.verb (if (rebootServices snap).isEmpty then []
      else [note "@reboot cron job(s) — boot-triggered oneshot service(s):",
        enableLine (rebootServices snap)]) (whenEnabling a (named (rebootServices snap))) := by
    have one := @reads_enableLine_action a (rebootServices snap) fun u hu => (List.mem_filter.mp hu).2
    split
    next empty =>
      rw [if_pos empty] at one
      exact one
    next some =>
      rw [if_neg some] at one
      exact reads_append (reads_inert fun l hl => List.mem_singleton.mp hl ▸ rfl) one
  refine reads_containerSection ((reads_append (reads_append (reads_append (reads_files a ?_) timers)
    reboots) (reads_files a ?_)).congr ?_)
  · simp only [opensWith_append]
    refine ⟨⟨⟨opensWith_ite opensWith_nil ?_, opensWith_ite opensWith_nil (by simp)⟩,
      opensWith_ite opensWith_nil (by simp)⟩, opensWith_map fun n _ => note_opens _⟩
    rw [opensWith_cons]
    exact ⟨copy_opens _ _ (opens_literal rfl), opensWith_nil⟩
  · refine opensWith_ite opensWith_nil ?_
    rw [opensWith_cons]
    exact ⟨note_opens _, opensWith_notes _ _⟩
  · have all := scheduledUnits_ne snap
    unfold scheduledUnits at all ⊢
    rw [List.forall_mem_append] at all
    rw [named_of_ne all.1, named_of_ne all.2, whenEnabling_append, List.nil_append, List.append_nil]

theorem reads_ownEnable (a : ServiceAction) {text unit : String}
    (h : systemctlUnits "enable" false [.command [.fixed text]] = [unit])
    (stops : goesOn (.command [.fixed text]) = false)
    (opens : TextOpens ["RUN systemctl enable "] text) :
    Reads a.verb [.command [.fixed text]] (whenEnabling a [unit]) := by
  unfold whenEnabling
  split
  next same =>
    intro rest
    subst same
    simp only [systemctlUnits, Bool.false_eq_true, if_false] at h
    simp only [List.singleton_append, ServiceAction.verb, systemctlUnits, Bool.false_eq_true,
      if_false, stops]
    split at h
    · rw [List.append_nil] at h
      rw [h, List.singleton_append]
    · cases h
  next apart =>
    refine reads_of_opens (opensWith_cons.mpr ⟨command_opens _ opens, opensWith_nil⟩) ?_
    cases a <;> first | exact absurd rfl apart | decide

theorem reads_flatpak (snap : InspectionSnapshot) (a : ServiceAction) :
    Reads a.verb (containersSectionLines snap) (whenEnabling a (flatpakUnits snap)) := by
  have enable : Reads a.verb [.command [.fixed "RUN systemctl enable flatpak-provision.service"]]
      (whenEnabling a ["flatpak-provision.service"]) :=
    reads_ownEnable a (by decide) (by decide) (opens_literal rfl)
  refine reads_containerSection (Reads.after ?_ (reads_files a (opensWith_ite opensWith_nil ?_)))
  · unfold flatpakUnits
    split
    · exact reads_nil.congr (whenEnabling_nil a).symm
    · have files : ∀ {first second} {s t s' t' : List Segment},
          OpensWith FILE_WORDS [note first, note second, .copy s t, .copy s' t'] := by
        simp only [opensWith_cons, note_opens, opensWith_nil, and_true, true_and]
        exact ⟨copy_opens _ _ (opens_literal rfl), copy_opens _ _ (opens_literal rfl)⟩
      exact enable.after (reads_files a files)
  · rw [opensWith_cons]
    exact ⟨copy_opens _ _ (opens_literal rfl), opensWith_nil⟩

theorem reads_tuned (snap : InspectionSnapshot) (kb : KernelBootSection) (a : ServiceAction) :
    Reads a.verb (tunedLines snap kb)
      (whenEnabling a (if activatesTuned snap kb then ["tuned.service"] else [])) := by
  have enable : Reads a.verb [.command [.fixed "RUN systemctl enable tuned.service"]]
      (whenEnabling a ["tuned.service"]) :=
    reads_ownEnable a (by decide) (by decide) (opens_literal rfl)
  have silent : ∀ lines : List Line, (∀ l ∈ lines, l.isRun = false) → activatesTuned snap kb = false →
      Reads a.verb lines (whenEnabling a (if activatesTuned snap kb then ["tuned.service"] else [])) := by
    intro lines inert inactive
    rw [inactive]
    exact (reads_inert inert).congr (whenEnabling_nil a).symm
  unfold tunedLines
  split
  next off =>
    refine silent _ (by simp) ?_
    simp only [Bool.or_eq_true, Bool.not_eq_true'] at off
    obtain off | off := off <;> simp [activatesTuned, off]
  next on =>
    split
    next bad => exact silent _ (fun l hl => List.mem_singleton.mp hl ▸ rfl) (by simp_all [activatesTuned])
    next good =>
      split
      next excluded found =>
        exact silent _ (fun l hl => List.mem_singleton.mp hl ▸ rfl) (by simp [activatesTuned, found])
      next found =>
        have active : activatesTuned snap kb = true := by simp_all [activatesTuned]
        rw [active, if_pos rfl]
        have echoes : ∀ {text}, OpensWith ["RUN echo "] [note text,
            .command [.fixed "RUN echo \"", .operand .double kb.tunedActive,
              .fixed "\" > /etc/tuned/active_profile"],
            .command [.fixed "RUN echo \"manual\" > /etc/tuned/profile_mode"]] := by
          simp only [opensWith_cons, note_opens, opensWith_nil, and_true, true_and]
          exact ⟨command_opens _ (opens_literal rfl), command_opens _ (opens_literal rfl)⟩
        exact enable.after (reads_of_opens echoes (by cases a <;> decide))

theorem reads_kernelBoot (snap : InspectionSnapshot) (a : ServiceAction) :
    Reads a.verb (kernelBootSectionLines snap) (whenEnabling a (tunedUnits snap)) := by
  unfold kernelBootSectionLines tunedUnits
  cases snap.kernelBoot with
  | none => exact reads_nil.congr (whenEnabling_nil a).symm
  | some kb =>
    exact reads_containerSection ((reads_tuned snap kb a).after
      (reads_files a (opensWith_append.mpr ⟨opens_kargs _, opens_sysctl _⟩)))

theorem reads_sections {verb : String} {secs : List OpenedSection}
    (reads : ∀ sec ∈ secs.filter fun sec => !sec.words.all (clash (systemctlLead verb)),
      ∃ units, Reads verb sec.lines units) :
    Reads verb (secs.flatMap (·.lines))
      ((secs.filter fun sec => !sec.words.all (clash (systemctlLead verb))).flatMap fun sec =>
        systemctlUnits verb false sec.lines) := by
  induction secs with
  | nil => exact reads_nil
  | cons sec rest ih =>
    rw [List.flatMap_cons]
    cases quiet : sec.words.all (clash (systemctlLead verb)) with
    | true =>
      rw [List.filter_cons_of_neg (by simp [quiet])] at reads ⊢
      exact (ih reads).after (reads_of_opens sec.opens quiet)
    | false =>
      rw [List.filter_cons_of_pos (by simp [quiet])] at reads ⊢
      obtain ⟨units, here⟩ := reads sec (List.mem_cons_self ..)
      rw [List.flatMap_cons, here.units]
      exact reads_append here (ih fun s hs => reads s (List.mem_cons_of_mem _ hs))

theorem systemctlUnits_containerfile (inputs : RenderInputs) (snap : InspectionSnapshot)
    (a : ServiceAction) :
    systemctlUnits a.verb false (renderContainerfileLines inputs snap) =
      named (actionUnits snap a) ++
        whenEnabling a (scheduledUnits snap ++ flatpakUnits snap ++ tunedUnits snap) := by
  have four : sectionsOf (systemctlLead a.verb) inputs snap =
      [⟨SERVICE_WORDS, _, opens_services snap⟩, ⟨SERVICE_WORDS, _, opens_scheduledTasks snap⟩,
       ⟨SYSTEM_WORDS, _, opens_containers snap⟩, ⟨SYSTEM_WORDS, _, opens_kernelBoot snap⟩] := by
    cases a <;> rfl
  have services := reads_services snap a
  have scheduled := reads_scheduled snap a
  have flatpak := reads_flatpak snap a
  have kernel := reads_kernelBoot snap a
  have reads : ∀ sec ∈ sectionsOf (systemctlLead a.verb) inputs snap,
      ∃ units, Reads a.verb sec.lines units := by
    rw [four]
    simp only [List.forall_mem_cons]
    exact ⟨⟨_, services⟩, ⟨_, scheduled⟩, ⟨_, flatpak⟩, ⟨_, kernel⟩, List.forall_mem_nil _⟩
  have whole := (reads_sections reads).units
  rw [← renderContainerfileLines_eq, ← sectionsOf, four] at whole
  rw [whole]
  simp only [List.flatMap_cons, List.flatMap_nil, services.units, scheduled.units, flatpak.units,
    kernel.units, whenEnabling_append, List.append_nil, List.append_assoc]

end Inspectah
