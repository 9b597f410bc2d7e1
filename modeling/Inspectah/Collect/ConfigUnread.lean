import Inspectah.Collect.ConfigClassified
import Inspectah.Render.ConfigTree

/-!
Files that cannot be read: what the scan puts in their place, and when it says so.
-/
namespace Inspectah

def ConfigFileEntry.hostPath (e : ConfigFileEntry) : String := "/" ++ trimSlashes e.path

/-- The scan gets the whole text of the file; on image-based systems it takes any size. -/
def ReadInFull (host : ConfigHost) (path : String) : Prop :=
  ∃ content, host.readFile path = .ok content ∧
    (host.isOstree ∨ content.utf8ByteSize ≤ MAX_CONFIG_FILE_SIZE)

/-- A file of no package that is taken with its text. -/
def isCopied (host : ConfigHost) (path : String) : Bool :=
  !isPackaged host path && !isExcludedUnowned host path && !isDevArtifact path &&
    !(dhcpConnectionFiles host).contains path && (linkFinding host path).isNone

def orphanScope (host : ConfigHost) : List String :=
  (removedPackages host).flatMap fun package =>
    ((walkedFiles host).filter
      (isOrphanOf host ((collectedScan host).files.map (·.path)) package)).map absPath

def packageScope (host : ConfigHost) : List String :=
  (changedReports host).map (·.path) ++
    ((walkedFiles host).map absPath).filter (isCopied host) ++ orphanScope host

/-- The files compared with those of `/usr/etc`, and the files of `/etc` alone. -/
def ostreeScope (host : ConfigHost) : List String :=
  ((tierOne host).filter fun rel =>
    host.fileExists (absPath rel) && (host.readFile ("/usr/etc/" ++ rel)).isOk).map absPath ++
    (tierTwo host).map absPath

/-- The files whose text the scan asks for to record it. -/
def filesInScope (host : ConfigHost) : List String :=
  if !isEtcThere host then [] else if host.isOstree then ostreeScope host else packageScope host

/-- An entry with a decision holds the file's text; one that cannot be read is named and left
    out. -/
structure NeverEmptied (host : ConfigHost) : Prop where
  exact_text : ∀ e ∈ (inspectConfig host).files, e.disposition.isActionable →
    host.readFile e.hostPath = .ok e.content
  unread_named : ∀ path ∈ filesInScope host, ¬ ReadInFull host path →
    (∃ f ∈ (inspectConfig host).failures, f.file = some path) ∧
      ∀ snap : InspectionSnapshot, snap.config = some ⟨(inspectConfig host).files⟩ →
        ∀ e ∈ copiedConfig snap, e.hostPath ≠ path

def adviseFirst (path : String) (disposition : FindingKind) :
    List ConfigFileEntry → List ConfigFileEntry
  | [] => [unownedEntry path "" disposition]
  | e :: rows => { e with disposition := disposition } :: rows

theorem rows_foldAdvisory (files : List ConfigFileEntry) (advisory : String × FindingKind)
    (path : String) :
    (foldAdvisory files advisory).filter (·.path == path) =
      if advisory.1 = path then adviseFirst path advisory.2 (files.filter (·.path == path))
      else files.filter (·.path == path) := by
  unfold foldAdvisory
  by_cases same : advisory.1 = path
  · subst same
    rw [if_pos rfl]
    split
    · rename_i present
      rw [FirstMatch.filter_updateFirst_inside (fun _ at_path => at_path) (by intro e; rfl)]
      cases rows : files.filter (·.path == advisory.1) with
      | nil =>
        obtain ⟨e, mem, at_path⟩ := List.any_eq_true.mp present
        rw [List.filter_eq_nil_iff] at rows
        exact absurd at_path (rows e mem)
      | cons e rest =>
        have at_path := List.of_mem_filter (rows ▸ List.mem_cons_self : e ∈ files.filter _)
        rw [FirstMatch.updateFirst, if_pos at_path]
        rfl
    · rename_i absent
      have none_there : files.filter (·.path == advisory.1) = [] := by
        rw [List.filter_eq_nil_iff]
        intro e mem at_path
        exact absent (List.any_eq_true.mpr ⟨e, mem, at_path⟩)
      rw [List.filter_append, none_there]
      simp [unownedEntry, adviseFirst]
  · rw [if_neg same]
    split
    · refine FirstMatch.filter_updateFirst_outside ?_ (by intro e; rfl) files
      intro e at_path
      rw [beq_iff_eq.mp at_path]
      exact beq_eq_false_iff_ne.mpr same
    · rw [List.filter_append, List.filter_cons_of_neg (by simpa [unownedEntry] using same),
        List.filter_nil, List.append_nil]

theorem rows_unadvised {advisories : List (String × FindingKind)} {path : String}
    (out : path ∉ advisories.map (·.1)) (files : List ConfigFileEntry) :
    (advisories.foldl foldAdvisory files).filter (·.path == path) =
      files.filter (·.path == path) := by
  induction advisories generalizing files with
  | nil => rfl
  | cons advisory advisories ih =>
    rw [List.map_cons, List.mem_cons, not_or] at out
    rw [List.foldl_cons, ih out.2, rows_foldAdvisory, if_neg (Ne.symm out.1)]

theorem rows_advised {advisories : List (String × FindingKind)} {path : String}
    (advised : path ∈ advisories.map (·.1)) (files : List ConfigFileEntry) :
    ∃ advisory ∈ advisories, (advisories.foldl foldAdvisory files).filter (·.path == path) =
      adviseFirst path advisory.2 (files.filter (·.path == path)) := by
  induction advisories generalizing files with
  | nil => cases advised
  | cons advisory advisories ih =>
    rw [List.foldl_cons]
    by_cases later : path ∈ advisories.map (·.1)
    · obtain ⟨last, mem, rows⟩ := ih later (foldAdvisory files advisory)
      refine ⟨last, List.mem_cons_of_mem _ mem, ?_⟩
      rw [rows, rows_foldAdvisory]
      split
      · cases files.filter (·.path == path) <;> rfl
      · rfl
    · rw [List.map_cons, List.mem_cons] at advised
      refine ⟨advisory, List.mem_cons_self, ?_⟩
      rw [rows_unadvised later, rows_foldAdvisory, if_pos (advised.resolve_right later).symm]

theorem modernizations_advisory {host : ConfigHost} {advisory : String × FindingKind}
    (h : advisory ∈ modernizations host) : advisory.2.isActionable = false := by
  unfold modernizations at h
  cases major : host.osMajor with
  | none =>
    rw [major] at h
    cases h
  | some n =>
    rw [major] at h
    obtain ⟨pattern, -, mem⟩ := List.mem_flatMap.mp h
    obtain ⟨path, -, rfl⟩ := List.mem_map.mp mem
    rfl

section

variable {host : ConfigHost}

theorem read_exact_iff (package_based : host.isOstree = false) (path : String) :
    host.readFile path = .ok (readConfigContent host path).1 ↔ ReadInFull host path := by
  unfold readConfigContent ReadInFull
  rw [package_based]
  cases read : host.readFile path with
  | error failure => cases failure <;> simp
  | ok content =>
    dsimp only
    split
    · rename_i large
      have not_small : ¬ content.utf8ByteSize ≤ MAX_CONFIG_FILE_SIZE := Nat.not_le.mpr large
      constructor
      · intro same
        have empty : content = "" := Except.ok.inj same
        rw [empty] at not_small
        exact absurd (by decide) not_small
      · rintro ⟨other, same, small⟩
        obtain rfl := Except.ok.inj same
        exact absurd (small.resolve_left Bool.false_ne_true) not_small
    · rename_i small
      exact iff_of_true rfl ⟨content, rfl, .inr (Nat.not_lt.mp small)⟩

theorem file_of_failure {path : String} {f : ConfigFailure}
    (h : f ∈ (readConfigContent host path).2) : f.file = some path := by
  unfold readConfigContent at h
  cases read : host.readFile path with
  | error failure =>
    cases failure with
    | denied =>
      rw [read] at h
      rw [List.mem_singleton.mp h]
      rfl
    | other =>
      rw [read] at h
      cases h
  | ok content =>
    rw [read] at h
    dsimp only at h
    split at h
    · rw [List.mem_singleton.mp h]
      rfl
    · cases h

theorem unownedFile_cases (host : ConfigHost) (path : String) :
    (isCopied host path ∧ unownedFile host path =
      { files := [unownedEntry path (readConfigContent host path).1 .included],
        failures := (readConfigContent host path).2 }) ∨
    (isCopied host path = false ∧ (unownedFile host path).failures = [] ∧
      ∀ e ∈ (unownedFile host path).files, e.path = path ∧ e.disposition.isActionable = false) := by
  unfold unownedFile isCopied
  split
  · rename_i out
    refine .inr ⟨?_, rfl, by simp⟩
    simp only [Bool.or_eq_true] at out
    rcases out with ((out | out) | out) | out <;> rw [out] <;> simp
  · rename_i stays
    simp only [Bool.or_eq_true, not_or, Bool.not_eq_true] at stays
    obtain ⟨⟨⟨packaged, excluded⟩, artifact⟩, dhcp⟩ := stays
    rw [packaged, excluded, artifact, dhcp]
    cases finding : linkFinding host path with
    | none => exact .inl ⟨rfl, rfl⟩
    | some link =>
      cases link with
      | allowlisted => exact .inr ⟨rfl, rfl, by simp⟩
      | advisory rationale =>
        refine .inr ⟨rfl, rfl, ?_⟩
        intro e mem
        rw [List.mem_singleton.mp mem]
        exact ⟨rfl, rfl⟩

theorem modified_actionable (host : ConfigHost) :
    ((modifiedScan host).files.filter (·.disposition.isActionable)).map (·.path) =
      (changedReports host).map (·.path) := by
  rw [modifiedScan_files, List.filter_map, List.map_map]
  rw [List.filter_eq_self.mpr (by intro v _; rfl)]
  rfl

theorem unowned_actionable (host : ConfigHost) :
    ((unownedScan host).files.filter (·.disposition.isActionable)).map (·.path) =
      ((walkedFiles host).map absPath).filter (isCopied host) := by
  rw [unownedScan_files]
  induction walkedFiles host with
  | nil => rfl
  | cons rel rels ih =>
    rw [List.flatMap_cons, List.filter_append, List.map_append, ih, List.map_cons, List.filter_cons]
    rcases unownedFile_cases host (absPath rel) with ⟨copied, scan⟩ | ⟨other, -, advisories⟩
    · rw [scan, if_pos copied]
      rfl
    · have none_actionable : (unownedFile host (absPath rel)).files.filter
          (·.disposition.isActionable) = [] := by
        rw [List.filter_eq_nil_iff]
        intro e mem
        rw [(advisories e mem).2]
        exact Bool.false_ne_true
      rw [none_actionable, other]
      rfl

theorem orphan_files (host : ConfigHost) :
    (detectOrphanedConfigs host ((collectedScan host).files.map (·.path))).files =
      (removedPackages host).flatMap fun package => ((walkedFiles host).filter
        (isOrphanOf host ((collectedScan host).files.map (·.path)) package)).map fun rel =>
          orphanEntry (absPath rel) package (readConfigContent host (absPath rel)).1 := by
  rw [detectOrphanedConfigs, gatherScans_files, walkEtcRecursive_eq, List.flatMap_assoc]
  refine List.flatMap_congr fun package _ => ?_
  rw [List.flatMap_map]
  change List.flatMap _ (walkedFiles host) = _
  induction walkedFiles host with
  | nil => rfl
  | cons rel rels ih =>
    rw [List.flatMap_cons, ih, orphanFile, List.filter_cons]
    split <;> rfl

theorem orphan_actionable (host : ConfigHost) :
    ((detectOrphanedConfigs host ((collectedScan host).files.map (·.path))).files.filter
      (·.disposition.isActionable)).map (·.path) = orphanScope host := by
  have all_actionable : ∀ e ∈ (detectOrphanedConfigs host
      ((collectedScan host).files.map (·.path))).files, e.disposition.isActionable := by
    intro e mem
    obtain ⟨package, -, rel, -, -, rfl⟩ := mem_orphans mem
    rfl
  rw [List.filter_eq_self.mpr all_actionable, orphan_files, List.map_flatMap, orphanScope]
  refine List.flatMap_congr fun package _ => ?_
  rw [List.map_map]
  rfl

theorem actionable_paths (host : ConfigHost) :
    ((packageScan host).files.filter (·.disposition.isActionable)).map (·.path) =
      packageScope host := by
  rw [packageScan, ConfigScan.files_append, collectedScan, ConfigScan.files_append,
    List.filter_append, List.filter_append, List.map_append, List.map_append, packageScope,
    modified_actionable, unowned_actionable]
  exact congrArg _ (orphan_actionable host)

theorem mem_package_files {e : ConfigFileEntry} :
    e ∈ (packageScan host).files ↔ e ∈ (modifiedScan host).files ∨ e ∈ (unownedScan host).files ∨
      e ∈ (detectOrphanedConfigs host ((collectedScan host).files.map (·.path))).files := by
  rw [packageScan, ConfigScan.files_append, List.mem_append,
    show (collectedScan host).files = (modifiedScan host).files ++ (unownedScan host).files from rfl,
    List.mem_append, or_assoc]

theorem mem_package_failures {f : ConfigFailure} :
    f ∈ (packageScan host).failures ↔
      f ∈ (modifiedScan host).failures ∨ f ∈ (unownedScan host).failures ∨
        f ∈ (detectOrphanedConfigs host ((collectedScan host).files.map (·.path))).failures := by
  rw [packageScan, ConfigScan.failures_append, List.mem_append,
    show (collectedScan host).failures =
      (modifiedScan host).failures ++ (unownedScan host).failures from rfl,
    List.mem_append, or_assoc]

theorem actionable_content {e : ConfigFileEntry} (h : e ∈ (packageScan host).files)
    (actionable : e.disposition.isActionable) :
    e.content = (readConfigContent host e.path).1 := by
  rcases mem_package_files.mp h with reported | unowned | orphan
  · rw [modifiedScan_files, List.mem_map] at reported
    obtain ⟨v, -, rfl⟩ := reported
    rfl
  · rw [unownedScan_files, List.mem_flatMap] at unowned
    obtain ⟨rel, -, mem⟩ := unowned
    rcases unownedFile_cases host (absPath rel) with ⟨-, scan⟩ | ⟨-, -, advisories⟩
    · rw [scan] at mem
      rw [List.mem_singleton.mp mem]
      rfl
    · rw [(advisories e mem).2] at actionable
      cases actionable
  · obtain ⟨package, -, rel, -, -, rfl⟩ := mem_orphans orphan
    rfl

theorem actionable_in_scope {e : ConfigFileEntry} (h : e ∈ (packageScan host).files)
    (scope : e.path ∈ packageScope host) : e.disposition.isActionable := by
  rcases mem_package_files.mp h with reported | unowned | orphan
  · rw [modifiedScan_files, List.mem_map] at reported
    obtain ⟨v, -, rfl⟩ := reported
    rfl
  · have packaged := (mem_unownedScan unowned).2.1
    have seen : e.path ∈ (collectedScan host).files.map (·.path) := by
      rw [collectedScan, ConfigScan.files_append, List.map_append, List.mem_append]
      exact .inr (List.mem_map_of_mem unowned)
    rw [unownedScan_files, List.mem_flatMap] at unowned
    obtain ⟨rel, walked, mem⟩ := unowned
    rcases unownedFile_cases host (absPath rel) with ⟨-, scan⟩ | ⟨other, -, advisories⟩
    · rw [scan] at mem
      rw [List.mem_singleton.mp mem]
      rfl
    · rw [packageScope, List.mem_append, List.mem_append] at scope
      rcases scope with (reported | copied) | orphan
      · obtain ⟨v, mem, same⟩ := List.mem_map.mp reported
        have owned := packaged_of_reported
          (List.mem_map_of_mem (f := RpmVaEntry.path) (List.mem_filter.mp mem).1)
        rw [same, packaged] at owned
        cases owned
      · have not_copied := (List.mem_filter.mp copied).2
        rw [(advisories e mem).1, other] at not_copied
        cases not_copied
      · obtain ⟨package, -, mem⟩ := List.mem_flatMap.mp orphan
        obtain ⟨rel', mem, same⟩ := List.mem_map.mp mem
        have unseen := (List.mem_filter.mp mem).2
        rw [isOrphanOf, same, List.contains_iff_mem.mpr seen] at unseen
        simp at unseen
  · obtain ⟨package, -, rel, -, -, rfl⟩ := mem_orphans orphan
    rfl

theorem rows_in_scope {path : String} (scope : path ∈ packageScope host) :
    ((packageScan host).files.filter (·.path == path)).length = (packageScope host).count path ∧
      ∀ e ∈ (packageScan host).files.filter (·.path == path), e.disposition.isActionable := by
  have actionable : ∀ e ∈ (packageScan host).files, e.path == path → e.disposition.isActionable := by
    intro e mem at_path
    exact actionable_in_scope mem ((beq_iff_eq.mp at_path).symm ▸ scope)
  constructor
  · rw [← actionable_paths, List.count_eq_countP, List.countP_map, List.countP_eq_length_filter,
      List.filter_filter]
    congr 1
    refine List.filter_congr fun e mem => ?_
    by_cases at_path : e.path == path
    · simp [Function.comp_apply, at_path, actionable e mem at_path]
    · simp [Function.comp_apply, at_path]
  · intro e mem
    obtain ⟨mem, at_path⟩ := List.mem_filter.mp mem
    exact actionable e mem at_path

theorem scope_of_actionable {e : ConfigFileEntry} (h : e ∈ (packageScan host).files)
    (actionable : e.disposition.isActionable) : e.path ∈ packageScope host := by
  rw [← actionable_paths]
  exact List.mem_map_of_mem (List.mem_filter.mpr ⟨h, actionable⟩)

theorem mem_failures_modified {f : ConfigFailure} :
    f ∈ (modifiedScan host).failures ↔
      ∃ v ∈ vaEntries host, isVaKept host v ∧ f ∈ (readConfigContent host v.path).2 := by
  rw [modifiedScan, gatherScans_failures, List.flatMap_map, List.mem_flatMap]
  refine exists_congr fun v => and_congr_right fun _ => ?_
  cases kept : isVaKept host v with
  | false => simp [vaScan, kept]
  | true =>
    simp only [vaScan, kept, Bool.not_true, Bool.false_eq_true, if_false, true_and]
    split <;> rfl

theorem failures_of_scope {path : String} (scope : path ∈ packageScope host) {f : ConfigFailure}
    (failed : f ∈ (readConfigContent host path).2) : f ∈ (packageScan host).failures := by
  rw [mem_package_failures]
  rw [packageScope, List.mem_append, List.mem_append] at scope
  rcases scope with (reported | copied) | orphan
  · obtain ⟨v, mem, rfl⟩ := List.mem_map.mp reported
    obtain ⟨mem, kept⟩ := List.mem_filter.mp mem
    exact .inl (mem_failures_modified.mpr ⟨v, mem, (Bool.and_eq_true_iff.mp kept).1, failed⟩)
  · refine .inr (.inl ?_)
    obtain ⟨found_there, copied⟩ := List.mem_filter.mp copied
    obtain ⟨rel, walked, rfl⟩ := List.mem_map.mp found_there
    unfold unownedScan
    rcases walkEtc_cases host "/etc" host.etc with found | ⟨-, nothing⟩
    · rw [found, ConfigScan.failures_append, List.mem_append, gatherScans_failures,
        List.flatMap_map]
      refine .inr (List.mem_flatMap.mpr ⟨rel, walked, ?_⟩)
      rcases unownedFile_cases host (absPath rel) with ⟨-, scan⟩ | ⟨other, -⟩
      · rw [scan]
        exact failed
      · rw [other] at copied
        cases copied
    · rw [walkedFiles, nothing] at walked
      cases walked
  · refine .inr (.inr ?_)
    obtain ⟨package, removed, asked⟩ := List.mem_flatMap.mp orphan
    obtain ⟨rel, mem, rfl⟩ := List.mem_map.mp asked
    obtain ⟨walked, orphan⟩ := List.mem_filter.mp mem
    rw [detectOrphanedConfigs, gatherScans_failures, walkEtcRecursive_eq]
    refine List.mem_flatMap.mpr ⟨_, List.mem_flatMap.mpr
      ⟨package, removed, List.mem_map_of_mem walked⟩, ?_⟩
    rw [orphanFile, if_pos orphan]
    exact failed

theorem failure_of_named {path : String} {f : ConfigFailure} (h : f ∈ (packageScan host).failures)
    (named : f.file = some path) : (readConfigContent host path).2 ≠ [] := by
  have read : ∀ other, f ∈ (readConfigContent host other).2 →
      (readConfigContent host path).2 ≠ [] := by
    intro other failed
    have same := (file_of_failure failed).symm.trans named
    obtain rfl := Option.some.inj same
    exact List.ne_nil_of_mem failed
  rcases mem_package_failures.mp h with reported | unowned | orphan
  · obtain ⟨v, -, -, failed⟩ := mem_failures_modified.mp reported
    exact read v.path failed
  · unfold unownedScan at unowned
    rcases walkEtc_cases host "/etc" host.etc with found | ⟨⟨dirs, given_up⟩, -⟩
    · rw [found, ConfigScan.failures_append, List.mem_append, gatherScans_failures,
        List.flatMap_map] at unowned
      rcases unowned with denied | failed
      · obtain ⟨dir, -, rfl⟩ := List.mem_map.mp denied
        cases named
      · obtain ⟨rel, -, mem⟩ := List.mem_flatMap.mp failed
        rcases unownedFile_cases host (absPath rel) with ⟨-, scan⟩ | ⟨-, nothing, -⟩
        · rw [scan] at mem
          exact read _ mem
        · rw [nothing] at mem
          cases mem
    · rw [given_up] at unowned
      rw [List.mem_singleton.mp unowned] at named
      cases named
  · rw [detectOrphanedConfigs, gatherScans_failures] at orphan
    obtain ⟨scan, mem, failed⟩ := List.mem_flatMap.mp orphan
    obtain ⟨package, -, mem⟩ := List.mem_flatMap.mp mem
    obtain ⟨rel, -, rfl⟩ := List.mem_map.mp mem
    unfold orphanFile at failed
    split at failed
    · exact read _ failed
    · cases failed

theorem hostPath_of_etc {e : ConfigFileEntry} (etc : Text.startsWith e.path "/etc") :
    e.hostPath = e.path := by
  obtain ⟨rest, whole⟩ := List.isPrefixOf_iff_prefix.mp etc
  have letter : ('e' == '/') = false := rfl
  have chars : e.path.toList = '/' :: 'e' :: 't' :: 'c' :: rest := whole.symm
  apply String.toList_injective
  rw [ConfigFileEntry.hostPath, trimSlashes, chars, String.toList_append, String.toList_ofList]
  simp [letter]

theorem etc_absPath (rel : String) : Text.startsWith (absPath rel) "/etc" = true := by
  rw [Text.startsWith, absPath, String.toList_append, List.isPrefixOf_iff_prefix]
  exact ⟨'/' :: rel.toList, rfl⟩

theorem etc_of_scope {path : String} (scope : path ∈ packageScope host) :
    Text.startsWith path "/etc" = true := by
  rw [packageScope, List.mem_append, List.mem_append] at scope
  rcases scope with (reported | copied) | orphan
  · obtain ⟨v, mem, rfl⟩ := List.mem_map.mp reported
    exact (mem_vaEntries.mp (List.mem_filter.mp mem).1).2
  · obtain ⟨rel, -, rfl⟩ := List.mem_map.mp (List.mem_filter.mp copied).1
    exact etc_absPath rel
  · obtain ⟨package, -, mem⟩ := List.mem_flatMap.mp orphan
    obtain ⟨rel, -, rfl⟩ := List.mem_map.mp mem
    exact etc_absPath rel

/-- The file is read in full, or asked for once, an advisory, and its failure named. -/
def IsAccountedFor (host : ConfigHost) (path : String) : Prop :=
  ReadInFull host path ∨
    (path ∈ (modernizations host).map (·.1) ∧ (packageScope host).count path = 1 ∧
      (readConfigContent host path).2 ≠ [])

theorem mem_advised {e : ConfigFileEntry}
    (h : e ∈ (modernizations host).foldl foldAdvisory (packageScan host).files)
    (actionable : e.disposition.isActionable) :
    e ∈ (packageScan host).files ∧
      (e.path ∈ (modernizations host).map (·.1) → (packageScope host).count e.path ≠ 1) := by
  have row : e ∈ ((modernizations host).foldl foldAdvisory (packageScan host).files).filter
      (·.path == e.path) := List.mem_filter.mpr ⟨h, beq_self_eq_true _⟩
  by_cases advised : e.path ∈ (modernizations host).map (·.1)
  · obtain ⟨advisory, mem, rows⟩ := rows_advised advised (packageScan host).files
    have not_actionable := modernizations_advisory mem
    rw [rows] at row
    cases before : (packageScan host).files.filter (·.path == e.path) with
    | nil =>
      rw [before] at row
      rw [List.mem_singleton.mp row] at actionable
      rw [show (unownedEntry e.path "" advisory.2).disposition = advisory.2 from rfl,
        not_actionable] at actionable
      cases actionable
    | cons first rest =>
      rw [before, adviseFirst, List.mem_cons] at row
      rcases row with rfl | later
      · rw [not_actionable] at actionable
        cases actionable
      · have found : e ∈ (packageScan host).files.filter (·.path == e.path) := by
          rw [before]
          exact List.mem_cons_of_mem _ later
        have there := (List.mem_filter.mp found).1
        refine ⟨there, fun _ once => ?_⟩
        have length := (rows_in_scope (scope_of_actionable there actionable)).1
        rw [before, once, List.length_cons] at length
        have some_left := List.length_pos_of_mem later
        omega
  · rw [rows_unadvised advised] at row
    exact ⟨(List.mem_filter.mp row).1, fun h => absurd h advised⟩

theorem inspected_files (package_based : host.isOstree = false) (there : isEtcThere host)
    {e : ConfigFileEntry} : e ∈ (inspectConfig host).files ↔
      e ∈ (modernizations host).foldl foldAdvisory (packageScan host).files :=
  (inspected_perm package_based there).mem_iff

theorem inspected_failures (package_based : host.isOstree = false) (there : isEtcThere host) :
    (inspectConfig host).failures = (packageScan host).failures := by
  rw [inspectConfig, package_based, if_neg Bool.false_ne_true, if_pos there]

theorem row_stays {e : ConfigFileEntry} {path : String}
    (rows : e ∈ ((packageScan host).files.filter (·.path == path)).tail ∨
      e ∈ (packageScan host).files.filter (·.path == path) ∧
        path ∉ (modernizations host).map (·.1)) :
    e ∈ (modernizations host).foldl foldAdvisory (packageScan host).files ∧ e.path = path ∧
      e ∈ (packageScan host).files := by
  have before : e ∈ (packageScan host).files.filter (·.path == path) := by
    rcases rows with later | ⟨mem, -⟩
    · exact List.mem_of_mem_tail later
    · exact mem
  obtain ⟨there, at_path⟩ := List.mem_filter.mp before
  refine ⟨?_, beq_iff_eq.mp at_path, there⟩
  have after : e ∈ ((modernizations host).foldl foldAdvisory (packageScan host).files).filter
      (·.path == path) := by
    by_cases advised : path ∈ (modernizations host).map (·.1)
    · obtain ⟨advisory, -, advised_rows⟩ := rows_advised advised (packageScan host).files
      have later := rows.resolve_right fun h => h.2 advised
      rw [advised_rows]
      cases shape : (packageScan host).files.filter (·.path == path) with
      | nil =>
        rw [shape] at later
        cases later
      | cons first rest =>
        rw [shape] at later
        exact List.mem_cons_of_mem _ later
    · rw [rows_unadvised advised]
      exact before
  exact (List.mem_filter.mp after).1

theorem package_emptied_iff (package_based : host.isOstree = false) (there : isEtcThere host) :
    NeverEmptied host ↔ ∀ path ∈ packageScope host, IsAccountedFor host path := by
  have scope_eq : filesInScope host = packageScope host := by
    simp [filesInScope, there, package_based]
  constructor
  · intro faithful path scope
    by_contra unaccounted
    obtain ⟨unread, missing⟩ := not_or.mp unaccounted
    obtain ⟨length, actionable⟩ := rows_in_scope scope
    have emptied : ∀ e ∈ (modernizations host).foldl foldAdvisory (packageScan host).files,
        e.path = path → e ∈ (packageScan host).files → False := by
      rintro e final rfl before
      have decided := actionable_in_scope before scope
      have exact_text := faithful.exact_text e ((inspected_files package_based there).mpr final) decided
      rw [hostPath_of_etc (etc_of_scope scope), actionable_content before decided] at exact_text
      exact unread ((read_exact_iff package_based _).mp exact_text)
    obtain ⟨⟨f, failed, named⟩, -⟩ :=
      faithful.unread_named path (scope_eq ▸ scope) unread
    rw [inspected_failures package_based there] at failed
    cases shape : (packageScan host).files.filter (·.path == path) with
    | nil =>
      rw [shape, List.length_nil] at length
      exact absurd (List.count_pos_iff.mpr scope) (by omega)
    | cons first rest =>
      have advised : path ∈ (modernizations host).map (·.1) := by
        by_contra out
        obtain ⟨final, at_path, before⟩ := @row_stays host first path
          (.inr ⟨shape ▸ List.mem_cons_self, out⟩)
        exact emptied first final at_path before
      have once : (packageScope host).count path = 1 := by
        cases rest with
        | nil => rw [← length, shape, List.length_singleton]
        | cons second rest =>
          obtain ⟨final, at_path, before⟩ := @row_stays host second path
            (.inl (by rw [shape]; exact List.mem_cons_self))
          exact (emptied second final at_path before).elim
      exact missing ⟨advised, once, failure_of_named failed named⟩
  · intro accounted
    have in_scope : ∀ e ∈ (inspectConfig host).files, e.disposition.isActionable →
        e ∈ (packageScan host).files ∧ e.hostPath = e.path ∧ ReadInFull host e.path := by
      intro e mem decided
      obtain ⟨before, not_once⟩ := mem_advised ((inspected_files package_based there).mp mem) decided
      have scope := scope_of_actionable before decided
      refine ⟨before, hostPath_of_etc (etc_of_scope scope), ?_⟩
      rcases accounted e.path scope with read | ⟨advised, once, -⟩
      · exact read
      · exact absurd once (not_once advised)
    constructor
    · intro e mem decided
      obtain ⟨before, at_path, read⟩ := in_scope e mem decided
      rw [at_path, actionable_content before decided]
      exact (read_exact_iff package_based _).mpr read
    · intro path scope unread
      rw [scope_eq] at scope
      obtain ⟨-, -, failing⟩ := (accounted path scope).resolve_left unread
      obtain ⟨f, failed⟩ := List.exists_mem_of_ne_nil _ failing
      refine ⟨⟨f, ?_, file_of_failure failed⟩, ?_⟩
      · rw [inspected_failures package_based there]
        exact failures_of_scope scope failed
      · rintro snap config e copied rfl
        obtain ⟨included, -⟩ := List.mem_filter.mp copied
        obtain ⟨mem, isIncluded⟩ := List.mem_filter.mp included
        have there_e : e ∈ (inspectConfig host).files := by
          simpa [InspectionSnapshot.configFiles, config] using mem
        have decided : e.disposition.isActionable := by
          cases disposition : e.disposition with
          | actionable _ => rfl
          | advisory _ _ => rw [disposition] at isIncluded; cases isIncluded
          | inventory => rw [disposition] at isIncluded; cases isIncluded
        obtain ⟨-, at_path, read⟩ := in_scope e there_e decided
        exact unread (at_path ▸ read)

theorem hostPath_ostree (kind : ConfigFileKind) (rel content : String) :
    (ostreeEntry kind rel content).hostPath = absPath rel := by
  have letter : ('e' == '/') = false := rfl
  apply String.toList_injective
  simp only [ConfigFileEntry.hostPath, ostreeEntry, trimSlashes, String.toList_append,
    String.toList_ofList, absPath]
  simp [letter]

theorem mem_changed {e : ConfigFileEntry} (h : e ∈ (tierOne host).filterMap (changedFile host)) :
    host.readFile e.hostPath = .ok e.content := by
  obtain ⟨rel, -, changed⟩ := List.mem_filterMap.mp h
  unfold changedFile at changed
  split at changed
  · cases changed
  · split at changed
    · rename_i usrContent etcContent usr etc
      split at changed
      · obtain rfl := Option.some.inj changed
        rw [hostPath_ostree, etc]
        rfl
      · cases changed
    · cases changed

theorem read_ostree (image_based : host.isOstree) {path : String} :
    ReadInFull host path ↔ ∃ content, host.readFile path = .ok content := by
  simp [ReadInFull, image_based]

theorem ostree_emptied_iff (image_based : host.isOstree) (there : isEtcThere host) :
    NeverEmptied host ↔ ∀ path ∈ ostreeScope host, ReadInFull host path := by
  have scope_eq : filesInScope host = ostreeScope host := by
    simp [filesInScope, there, image_based]
  have files : (inspectConfig host).files = (tierOne host).filterMap (changedFile host) ++
      (tierTwo host).map (etcOnlyFile host) := by
    rw [inspectConfig, if_pos image_based, runOstreeConfig, if_pos there]
  have failures : (inspectConfig host).failures = [] := by
    rw [inspectConfig, if_pos image_based]
  constructor
  · intro faithful path scope
    by_contra unread
    obtain ⟨⟨f, failed, -⟩, -⟩ := faithful.unread_named path (scope_eq ▸ scope) unread
    rw [failures] at failed
    cases failed
  · intro all_read
    constructor
    · intro e mem _
      rw [files, List.mem_append] at mem
      rcases mem with changed | alone
      · exact mem_changed changed
      · obtain ⟨rel, mem, rfl⟩ := List.mem_map.mp alone
        obtain ⟨content, read⟩ := (read_ostree image_based).mp
          (all_read (absPath rel) (List.mem_append_right _ (List.mem_map_of_mem mem)))
        rw [etcOnlyFile, hostPath_ostree, read]
        rfl
    · intro path scope unread
      exact absurd (all_read path (scope_eq ▸ scope)) unread

/-- Every file in scope is read in full, or, on a package-based system, fails by permission or
    size and is an advisory. -/
def AllAccountedFor (host : ConfigHost) : Prop :=
  ∀ path ∈ filesInScope host, ReadInFull host path ∨
    (host.isOstree = false ∧ IsAccountedFor host path)

end

/-- A changed file of a package that is no text, or over the executor's size cap. -/
def binaryFileHost : ConfigHost :=
  { oneFileHost "app.db" "" {} (by decide) with
    readFile := fun _ => .error .other
    verification := [{ path := "/etc/app.db", flags := "S.5....T." }] }

end Inspectah
