import Inspectah.Collect.Booleans
import Inspectah.Render.Escapes
import Inspectah.Render.Openings

/-!
The booleans of the scan in the Containerfile. The scan writes `current` and the renderer
reads `current_value`, so the commands lack their last operand.
-/
namespace Inspectah

open BuildScript

def SETSEBOOL : String := "RUN setsebool"

def isSetsebool (l : Line) : Bool := Text.startsWith l.text SETSEBOOL

/-- The command that gives a boolean the state the host has it in. -/
def setseboolText (row : BooleanRow) : String :=
  "RUN setsebool -P " ++ row.name ++ " " ++ row.current

structure BooleansSurvive (probe : BooleanProbe) (lines : List Line) : Prop where
  carried : ∀ row, probe.Reports row → row.current ≠ row.default → isShellSafe row.name →
    (lines.filter fun l => l.text == setseboolText row).length = 1
  nothing_else : ∀ l ∈ lines, isSetsebool l → ∃ row, probe.Reports row ∧
    row.current ≠ row.default ∧ isShellSafe row.name ∧ l.text = setseboolText row

def withBooleans (snap : InspectionSnapshot) (sel : SelinuxSection) (overrides : List Json) :
    InspectionSnapshot :=
  { snap with selinux := some { sel with booleanOverrides := overrides } }

theorem setsebool_leads {l : Line} (h : isSetsebool l) : SETSEBOOL.toList <+: l.text.toList :=
  List.isPrefixOf_iff_prefix.mp h

theorem setsebool_run {l : Line} (h : isSetsebool l) : l.isRun :=
  run_of_prefix (c := 'R') (setsebool_leads h) (by decide)

theorem not_setsebool {words : List String} {lines : List Line} (opens : OpensWith words lines)
    (clashes : words.all (clash SETSEBOOL)) {l : Line} (hl : l ∈ lines) (h : isSetsebool l) :
    False :=
  opens.not_leading clashes hl (setsebool_run h) (setsebool_leads h)

theorem mem_containerSection {header : String} {body : List Line} {l : Line} (run : l.isRun)
    (mem : l ∈ containerSection header body) : l ∈ body := by
  unfold containerSection at mem
  split at mem
  · cases mem
  · simp only [List.cons_append, List.mem_cons, List.mem_append, List.not_mem_nil, or_false] at mem
    obtain rfl | inside | rfl := mem
    · cases run
    · exact inside
    · cases run

theorem setsebool_placed {inputs : RenderInputs} {snap : InspectionSnapshot} {sel : SelinuxSection}
    (found : snap.selinux = some sel) {l : Line} (mem : l ∈ renderContainerfileLines inputs snap)
    (sets : isSetsebool l) : ∃ b ∈ sel.booleanOverrides, booleanLine b = some l := by
  obtain ⟨sec, hsec, hl⟩ := mem_sectionsOf mem (setsebool_run sets) (setsebool_leads sets)
  have only : sectionsOf SETSEBOOL inputs snap = [⟨SECURITY_WORDS, _, opens_selinux snap⟩] := rfl
  rw [only, List.mem_singleton] at hsec
  subst hsec
  simp only [selinuxSectionLines, found] at hl
  have inBody := mem_containerSection (setsebool_run sets) hl
  simp only [List.mem_append] at inBody
  have policy {lines : List Line} (opens : OpensWith POLICY_WORDS lines) (inside : l ∈ lines) :
      False := not_setsebool opens rfl inside sets
  obtain (((((custom | booleans) | preamble) | install) | rules) | ports) | fips := inBody
  · exact (policy (opens_customModules _) custom).elim
  · unfold booleanLines at booleans
    simp only at booleans
    split at booleans
    · cases booleans
    · obtain rfl | rendered := List.mem_cons.mp booleans
      · exact (policy (opensWith_cons.mpr ⟨note_opens _, opensWith_nil⟩)
          (List.mem_singleton_self _)).elim
      · obtain ⟨b, hb, line⟩ := List.mem_filterMap.mp rendered
        exact ⟨b, (List.mem_filter.mp hb).1, line⟩
  · exact (policy (opens_fcontextPreamble _) preamble).elim
  · exact (policy (opensWith_ite opens_precondition opensWith_nil) install).elim
  · exact (policy (opens_fcontextRules _) rules).elim
  · exact (policy (opens_portLabels _) ports).elim
  · exact (policy (opensWith_ite (by simp) opensWith_nil) fips).elim

/-- The record has no `current_value`. -/
theorem booleanLine_record {row : BooleanRow} {description : String} {l : Line}
    (h : booleanLine (booleanRecord row description) = some l) (run : l.isRun) :
    isShellSafe row.name ∧ l.text = "RUN setsebool -P " ++ row.name ++ " " := by
  have name : strField (booleanRecord row description) "name" = row.name := rfl
  have value : strField (booleanRecord row description) "current_value" = "" := rfl
  unfold booleanLine at h
  simp only [name, value] at h
  split at h
  · cases h
  split at h
  next safe =>
    obtain rfl := Option.some.inj h
    refine ⟨(Bool.and_eq_true _ _ ▸ safe).1, ?_⟩
    simp [Line.text, segmentsText, Segment.text, bare, String.join]
  · obtain rfl := Option.some.inj h
    cases run

theorem BooleansSurvive.found {probe : BooleanProbe} {lines : List Line} {row : BooleanRow}
    (survive : BooleansSurvive probe lines) (reported : probe.Reports row)
    (differ : row.current ≠ row.default) (safe : isShellSafe row.name) :
    ∃ l ∈ lines, l.text = setseboolText row := by
  have once := survive.carried row reported differ safe
  obtain ⟨l, hl⟩ := List.exists_mem_of_length_pos (Nat.lt_of_lt_of_eq Nat.one_pos once.symm)
  obtain ⟨mem, text⟩ := List.mem_filter.mp hl
  exact ⟨l, mem, beq_iff_eq.mp text⟩

theorem current_of_reported {probe : BooleanProbe} {row : BooleanRow} (h : probe.Reports row) :
    ∃ c, row.current.toList.getLast? = some c ∧ Text.isWhitespace c = false := by
  unfold BooleanProbe.Reports at h
  split at h
  · obtain ⟨line, -, gap, before, after, desc, -, -, -, -, -, state, -⟩ := h
    have last := List.getLast?_eq_some_getLast state.1
    exact ⟨_, last, (state.2 _ (List.getLast_mem state.1)).1⟩
  · obtain ⟨file, -, read⟩ := h
    obtain ⟨content, -, parts⟩ := Option.bind_eq_some_iff.mp read
    split at parts
    · obtain rfl := Option.some.inj parts
      simp only [onOrOff]
      split <;> exact ⟨_, rfl, by decide⟩
    · cases parts

theorem setseboolText_leads (row : BooleanRow) :
    SETSEBOOL.toList <+: (setseboolText row).toList := by
  have opens : SETSEBOOL.toList <+: "RUN setsebool -P ".toList := by decide
  unfold setseboolText
  simp only [String.toList_append, List.append_assoc]
  exact opens.trans (List.prefix_append _ _)

theorem not_survive_of_reported {words : WordClass} {probe : BooleanProbe} {inputs : RenderInputs}
    {snap : InspectionSnapshot} {sel : SelinuxSection} {row : BooleanRow}
    (reported : probe.Reports row) (differ : row.current ≠ row.default)
    (safe : isShellSafe row.name) :
    ¬ BooleansSurvive probe (renderContainerfileLines inputs
      (withBooleans snap sel (collectBooleanOverrides words probe))) := by
  intro survive
  obtain ⟨l, mem, text⟩ := survive.found reported differ safe
  have sets : isSetsebool l := List.isPrefixOf_iff_prefix.mpr (text ▸ setseboolText_leads row)
  obtain ⟨b, hb, line⟩ := setsebool_placed rfl mem sets
  obtain ⟨other, description, -, -, rfl⟩ := mem_collectBooleanOverrides hb
  obtain ⟨c, last, no_blank⟩ := current_of_reported reported
  have same := congrArg (fun t => t.toList.getLast?)
    (text.symm.trans (booleanLine_record line (setsebool_run sets)).2)
  unfold setseboolText at same
  simp only [String.toList_append, List.getLast?_append, last, Option.some_or] at same
  obtain rfl : c = ' ' := by simpa using same
  exact absurd no_blank (by decide)

theorem booleans_survive_iff (words : WordClass) (probe : BooleanProbe) (inputs : RenderInputs)
    (snap : InspectionSnapshot) (sel : SelinuxSection) :
    BooleansSurvive probe (renderContainerfileLines inputs
        (withBooleans snap sel (collectBooleanOverrides words probe))) ↔
      ∀ row, probe.Reports row → row.current ≠ row.default → isShellSafe row.name = false := by
  constructor
  · intro survive row reported differ
    by_contra safe
    exact not_survive_of_reported reported differ (Bool.not_eq_false _ ▸ safe) survive
  · intro none_safe
    refine ⟨fun row reported differ safe => ?_, fun l hl sets => ?_⟩
    · rw [none_safe row reported differ] at safe
      cases safe
    · obtain ⟨b, hb, line⟩ := setsebool_placed rfl hl sets
      obtain ⟨row, description, reported, differ, rfl⟩ := mem_collectBooleanOverrides hb
      have safe := (booleanLine_record line (setsebool_run sets)).1
      rw [none_safe row reported differ] at safe
      cases safe

/-- Letters, digits and the underscore. -/
def asciiWords : WordClass where
  isWord c := c.isAlphanum || c == '_'
  delimited c h := by
    simp only [Bool.or_eq_true, beq_iff_eq] at h
    obtain alnum | rfl := h
    · have plain := isShellUnsafe_alphanum alnum
      simp only [isShellUnsafe, Bool.or_eq_false_iff] at plain
      have apart : ∀ d : Char, d.isAlphanum = false → (c != d) = true := by
        intro d hd
        exact bne_iff_ne.mpr fun e => by simp [← e, alnum] at hd
      simp [plain.2, apart ',' (by decide), apart ')' (by decide)]
    · decide

def listedBoolean : BooleanProbe where
  semanage := some "httpd_can_network_connect (on , off) Allow httpd to connect\n"
  sysfs := none

theorem listed_boolean_is_not_set :
    ¬ BooleansSurvive listedBoolean (renderContainerfileLines ⟨fun _ => "", none, none, none⟩
      (withBooleans {} {} (collectBooleanOverrides asciiWords listedBoolean))) := by
  have reported : listedBoolean.Reports ⟨"httpd_can_network_connect", "on", "off"⟩ :=
    ⟨"httpd_can_network_connect (on , off) Allow httpd to connect", by decide, [' '], [' '], [' '],
      " Allow httpd to connect".toList, by decide, by decide, Text.forall_of_all (by decide),
      by decide, Text.forall_of_all (by decide), ⟨by decide, Text.forall_of_all (by decide)⟩,
      ⟨by decide, Text.forall_of_all (by decide)⟩, by decide⟩
  exact not_survive_of_reported reported (by decide) (by decide)

end Inspectah
