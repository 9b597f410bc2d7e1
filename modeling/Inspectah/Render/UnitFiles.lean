import Inspectah.Render.WritersConfined

/-!
Which unit files the config tree holds. A unit that is enabled needs its file in the
system's unit directory: one of the scheduled tasks writes it there, or another section's
file is copied to that place.
-/
namespace Inspectah

open Writers (reached)

def FileRequest.writesFile : FileRequest → Bool
  | write .. => true
  | writeWithParents path _ => ((path.getLast?).bind finalName).isSome
  | _ => false

def FileRequest.LeadsTo (r : FileRequest) (names : List String) : Prop :=
  (∀ piece ∈ r.path, IsHarmless piece) ∧ r.path.flatMap pathNames = names

def SYSTEM_UNITS : List String := ["etc", "systemd", "system"]

def unitPlace (unit : String) : List String := "config" :: SYSTEM_UNITS ++ pathNames unit

def HasUnitFile (decode : String → Option String) (snap : InspectionSnapshot) (unit : String) : Prop :=
  IsHarmless unit ∧ ∃ r ∈ reached FileRequest.Grantable (writeConfigTree decode snap),
    r.writesFile ∧ r.LeadsTo (unitPlace unit)

def copiedPaths (snap : InspectionSnapshot) : List String :=
  (copiedConfig snap).map (fun e => trimSlashes e.path) ++
    (treeCopies (sectionFiles snap)).map fun f => trimSlashes f.path

def Supplied (snap : InspectionSnapshot) (unit : String) : Prop :=
  (∃ file ∈ scheduledUnitFiles snap, isWritableName file.1 ∧ IsHarmless file.1 ∧
      pathNames file.1 = pathNames unit) ∨
    ∃ path ∈ copiedPaths snap, (finalName path).isSome ∧
      pathNames path = SYSTEM_UNITS ++ pathNames unit

theorem not_leadsTo_of_head {r : FileRequest} {unit first top : String} {rest more : List String}
    (path : r.path = first :: rest) (names : pathNames first = top :: more)
    (elsewhere : top ≠ "config") : ¬ r.LeadsTo (unitPlace unit) := by
  intro leads
  have through := leads.2
  rw [path, List.flatMap_cons, names, unitPlace, List.cons_append, List.cons_append] at through
  exact elsewhere (List.cons.inj through).1

/-- The parts of the tree that hold no unit. -/
theorem subscription_elsewhere {decode : String → Option String} {snap : InspectionSnapshot}
    {s : WriteStep} (mem : s ∈ subscriptionPart decode snap) :
    ∃ rest, s.request.path = "subscription" :: rest := by
  unfold subscriptionPart at mem
  split at mem
  · cases held : snap.subscription with
    | none =>
      rw [held] at mem
      cases mem
    | some sub =>
      rw [held] at mem
      obtain ⟨dir, name, ⟨-, below, rfl, -⟩, path | path⟩ := subscriptionSteps_place mem
      · exact ⟨below, path⟩
      · exact ⟨below ++ [name], path⟩
  · cases mem

theorem copiedPaths_valid {snap : InspectionSnapshot} {path : String}
    (mem : path ∈ copiedPaths snap) : isValidPath path := by
  obtain config | file := List.mem_append.mp mem
  · obtain ⟨e, he, rfl⟩ := List.mem_map.mp config
    have kept := (List.mem_filter.mp he).2
    simp only [Bool.and_eq_true] at kept
    exact kept.2
  · obtain ⟨f, hf, rfl⟩ := List.mem_map.mp file
    have kept := (List.mem_filter.mp hf).2
    simp only [Bool.and_eq_true] at kept
    exact kept.2

theorem kernel_elsewhere {snap : InspectionSnapshot} {s : WriteStep} {unit : String}
    (mem : s ∈ (snap.kernelBoot.map kernelSteps).getD []) :
    ¬ s.request.LeadsTo (unitPlace unit) := by
  have sysctl : pathNames SYSCTL_DIR = ["sysctl", "etc", "sysctl.d"] := by decide
  have kargs : pathNames CONFIG_DIR = ["config"] ∧
      pathNames KARGS_DIR = ["usr", "lib", "bootc", "kargs.d"] := by decide
  have below : ∀ {rest : List String}, s.request.path = CONFIG_DIR :: KARGS_DIR :: rest →
      ¬ s.request.LeadsTo (unitPlace unit) := by
    intro rest path leads
    have through := leads.2
    rw [path, List.flatMap_cons, List.flatMap_cons, kargs.1, kargs.2] at through
    simp [unitPlace, SYSTEM_UNITS] at through
  cases held : snap.kernelBoot with
  | none =>
    rw [held] at mem
    cases mem
  | some kb =>
    rw [held] at mem
    simp only [Option.map_some, Option.getD_some, kernelSteps, List.mem_append] at mem
    obtain sysctls | kargs := mem
    · split at sysctls
      · cases sysctls
      · simp only [List.mem_cons, List.not_mem_nil, or_false] at sysctls
        obtain rfl | rfl := sysctls
        · exact not_leadsTo_of_head rfl sysctl (by decide)
        · exact not_leadsTo_of_head rfl sysctl (by decide)
    · split at kargs
      · cases kargs
      · simp only [List.mem_cons, List.not_mem_nil, or_false] at kargs
        obtain rfl | rfl := kargs
        · exact below rfl
        · exact below rfl

theorem unitFile_cases {decode : String → Option String} {snap : InspectionSnapshot}
    {r : FileRequest} {unit : String}
    (mem : r ∈ reached FileRequest.Grantable (writeConfigTree decode snap)) (file : r.writesFile)
    (leads : r.LeadsTo (unitPlace unit)) :
    (∃ path ∈ copiedPaths snap, ∃ content, r = .writeWithParents [CONFIG_DIR, path] content) ∨
      ∃ f ∈ scheduledUnitFiles snap, r = .write [CONFIG_DIR, UNIT_DIR, f.1] f.2 := by
  have tops : pathNames "subscription" = ["subscription"] ∧ pathNames DROP_INS_DIR = ["drop-ins"] ∧
      pathNames "quadlet" = ["quadlet"] ∧ pathNames "flatpak" = ["flatpak"] := by decide
  obtain ⟨-, s, hs, rfl⟩ | subscription := mem_reached_configTree.mp mem
  · obtain rfl | attempted := List.mem_cons.mp hs
    · cases file
    simp only [treeAttempts, List.mem_append] at attempted
    obtain (((((config | files) | kernel) | dropIns) | scheduled) | quadlets) | flatpak := attempted
    · obtain ⟨e, he, rfl⟩ := List.mem_map.mp config
      exact .inl ⟨trimSlashes e.path, List.mem_append_left _ (List.mem_map.mpr ⟨e, he, rfl⟩), _, rfl⟩
    · obtain ⟨f, hf, rfl⟩ := List.mem_map.mp files
      exact .inl ⟨trimSlashes f.path, List.mem_append_right _ (List.mem_map.mpr ⟨f, hf, rfl⟩), _, rfl⟩
    · exact absurd leads (kernel_elsewhere kernel)
    · obtain ⟨d, -, rfl⟩ := List.mem_map.mp dropIns
      exact absurd leads (not_leadsTo_of_head rfl tops.2.1 (by decide))
    · unfold scheduledSteps at scheduled
      split at scheduled
      · cases scheduled
      · obtain rfl | unitFile := List.mem_cons.mp scheduled
        · cases file
        · obtain ⟨f, hf, rfl⟩ := List.mem_map.mp unitFile
          exact .inr ⟨f, hf, rfl⟩
    · obtain ⟨u, -, one⟩ := List.mem_flatMap.mp quadlets
      simp only [List.mem_cons, List.not_mem_nil, or_false] at one
      obtain rfl | rfl := one
      · exact absurd leads (not_leadsTo_of_head rfl tops.2.2.1 (by decide))
      · exact absurd leads (not_leadsTo_of_head rfl tops.2.2.1 (by decide))
    · simp only [flatpakSteps] at flatpak
      split at flatpak
      · cases flatpak
      · simp only [List.mem_cons, List.not_mem_nil, or_false] at flatpak
        obtain rfl | rfl | rfl := flatpak
        all_goals exact absurd leads (not_leadsTo_of_head rfl tops.2.2.2 (by decide))
  · obtain ⟨-, s, hs, rfl⟩ := Writers.of_mem_reached subscription
    obtain ⟨rest, path⟩ := subscription_elsewhere hs
    exact absurd leads (not_leadsTo_of_head path tops.1 (by decide))

theorem copiedFile_mem {snap : InspectionSnapshot} {path : String} (mem : path ∈ copiedPaths snap) :
    ∃ content, attempt (.writeWithParents [CONFIG_DIR, path] content) ∈ treeAttempts snap := by
  simp only [treeAttempts, List.mem_append]
  obtain config | file := List.mem_append.mp mem
  · obtain ⟨e, he, rfl⟩ := List.mem_map.mp config
    exact ⟨e.content, .inl (.inl (.inl (.inl (.inl (.inl (List.mem_map.mpr ⟨e, he, rfl⟩))))))⟩
  · obtain ⟨f, hf, rfl⟩ := List.mem_map.mp file
    exact ⟨f.content, .inl (.inl (.inl (.inl (.inl (.inr (List.mem_map.mpr ⟨f, hf, rfl⟩))))))⟩

theorem unitFile_mem {snap : InspectionSnapshot} {f : String × String}
    (mem : f ∈ scheduledUnitFiles snap) : unitFileStep f ∈ treeAttempts snap := by
  have step : unitFileStep f ∈ scheduledSteps snap := by
    unfold scheduledSteps
    split
    next none =>
      simp only [Bool.and_eq_true, List.isEmpty_iff] at none
      simp [scheduledUnitFiles, generatedTimers, none.1, none.2] at mem
    next => exact List.mem_cons_of_mem _ (List.mem_map_of_mem mem)
  simp only [treeAttempts, List.mem_append]
  exact .inl (.inl (.inr step))

theorem valid_clean {path : String} (valid : isValidPath path) : NUL ∉ path.toList := by
  unfold isValidPath validatePath at valid
  split at valid
  · cases valid
  next clean => simpa using clean

theorem hasUnitFile_iff {decode : String → Option String} {snap : InspectionSnapshot}
    {unit : String} :
    HasUnitFile decode snap unit ↔ IsHarmless unit ∧ Supplied snap unit := by
  have names : pathNames CONFIG_DIR = ["config"] ∧ pathNames UNIT_DIR = SYSTEM_UNITS ∧
      IsHarmless CONFIG_DIR ∧ IsHarmless UNIT_DIR := by decide
  refine and_congr_right fun _ => ⟨?_, ?_⟩
  · intro ⟨r, mem, file, leads⟩
    obtain ⟨path, copied, content, rfl⟩ | ⟨f, task, rfl⟩ := unitFile_cases mem file leads
    · refine .inr ⟨path, copied, file, ?_⟩
      have through := leads.2
      simpa [FileRequest.path, names.1, unitPlace] using through
    · have writable : isWritableName f.1 :=
        (grantable_write [CONFIG_DIR, UNIT_DIR] (by decide)).mp
          (mem_reached_configTree.mp mem |>.elim (·.1) fun h => (Writers.of_mem_reached h).1)
      refine .inl ⟨f, task, writable, leads.1 _ (by simp [FileRequest.path]), ?_⟩
      have through := leads.2
      simpa [FileRequest.path, names.1, names.2.1, unitPlace, SYSTEM_UNITS] using through
  · rintro (⟨f, task, writable, harmless, same⟩ | ⟨path, copied, ends, same⟩)
    · refine ⟨.write [CONFIG_DIR, UNIT_DIR, f.1] f.2, mem_reached_configTree.mpr (.inl ⟨?_, ?_⟩), rfl, ?_, ?_⟩
      · exact (grantable_write [CONFIG_DIR, UNIT_DIR] (by decide)).mpr writable
      · exact ⟨_, List.mem_cons_of_mem _ (unitFile_mem task), rfl⟩
      · simp [FileRequest.path, names.2.2, harmless]
      · simp [FileRequest.path, names.1, names.2.1, unitPlace, SYSTEM_UNITS, same]
    · obtain ⟨content, mem⟩ := copiedFile_mem copied
      have valid := copiedPaths_valid copied
      refine ⟨.writeWithParents [CONFIG_DIR, path] content,
        mem_reached_configTree.mpr (.inl ⟨?_, ?_⟩), ends, ?_, ?_⟩
      · refine ⟨?_, by simp [FileRequest.isWrite]⟩
        simp only [FileRequest.path, List.forall_mem_cons]
        exact ⟨by decide, valid_clean valid, List.forall_mem_nil _⟩
      · exact ⟨_, List.mem_cons_of_mem _ mem, rfl⟩
      · simp [FileRequest.path, names.2.2, isHarmless_of_isValidPath valid]
      · simp [FileRequest.path, names.1, unitPlace, same]

end Inspectah
