import Inspectah.Collect.ConfigScan
import Inspectah.Library.Grouping

/-!
The scan as a classification of `/etc`: each file once, the changed files of packages as such,
the files of no package unless an exclusion keeps them out, and those kept out for good.
-/
namespace Inspectah

def walkedFiles (host : ConfigHost) : List String := (walkRecursive host "/etc" "" host.etc).files

def IsAllowlistedLink (host : ConfigHost) (path : String) : Prop :=
  host.isLink path ∧ ∃ resolved, host.finalTarget path = some resolved ∧ isAllowlisted path resolved

/-- What the system writes, development files, connections that ask for an address, links known
    to be safe. -/
def IsExcluded (host : ConfigHost) (path : String) : Prop :=
  isExcludedUnowned host path ∨ isDevArtifact path ∨ path ∈ dhcpConnectionFiles host ∨
    IsAllowlistedLink host path

def IsKeptOut (host : ConfigHost) (path : String) : Prop :=
  (∃ rel ∈ walkedFiles host, absPath rel = path ∧ isPackaged host path = false ∧
    IsExcluded host path) ∨
  (path ∈ vaPaths host ∧ path ∈ dhcpConnectionFiles host)

structure ConfigClassified (host : ConfigHost) : Prop where
  once : ((inspectConfig host).files.map (·.path)).Nodup
  changed : ∀ path, (∃ e ∈ (inspectConfig host).files, e.path = path ∧ e.kind = .rpmOwnedModified) ↔
    ∃ v ∈ host.verification, Text.startsWith v.path "/etc" ∧ v.path = path ∧
      hasContentChange v.flags ∧ isVaKept host v
  unowned : ∀ rel ∈ walkedFiles host, isPackaged host (absPath rel) = false →
    ¬ IsExcluded host (absPath rel) → ∃ e ∈ (inspectConfig host).files, e.path = absPath rel
  keptOut : ∀ path, IsKeptOut host path → ∀ e ∈ (inspectConfig host).files, e.path ≠ path

section

variable {host : ConfigHost}

@[simp] theorem ConfigScan.files_append (a b : ConfigScan) : (a ++ b).files = a.files ++ b.files :=
  rfl

@[simp] theorem ConfigScan.failures_append (a b : ConfigScan) :
    (a ++ b).failures = a.failures ++ b.failures := rfl

theorem gatherScans_files (scans : List ConfigScan) :
    (gatherScans scans).files = scans.flatMap (·.files) := by
  induction scans with
  | nil => rfl
  | cons scan scans ih => rw [gatherScans, ConfigScan.files_append, ih, List.flatMap_cons]

theorem gatherScans_failures (scans : List ConfigScan) :
    (gatherScans scans).failures = scans.flatMap (·.failures) := by
  induction scans with
  | nil => rfl
  | cons scan scans ih => rw [gatherScans, ConfigScan.failures_append, ih, List.flatMap_cons]

theorem absPath_injective : Function.Injective absPath := by
  intro a b same
  unfold absPath at same
  exact (String.append_right_inj _).mp same

theorem mem_vaEntries {v : RpmVaEntry} :
    v ∈ vaEntries host ↔ v ∈ host.verification ∧ Text.startsWith v.path "/etc" := by
  rw [vaEntries, List.mem_insertionSort, List.mem_filter]

def changedReports (host : ConfigHost) : List RpmVaEntry :=
  (vaEntries host).filter fun v => isVaKept host v && hasContentChange v.flags

theorem modifiedScan_files (host : ConfigHost) :
    (modifiedScan host).files =
      (changedReports host).map fun v => modifiedEntry v (readConfigContent host v.path).1 := by
  rw [modifiedScan, gatherScans_files, changedReports]
  induction vaEntries host with
  | nil => rfl
  | cons v reports ih =>
    rw [List.map_cons, List.flatMap_cons, ih, List.filter_cons]
    cases kept : isVaKept host v <;> cases change : hasContentChange v.flags <;>
      simp [vaScan, kept, change, classifyRpmVaKind]

theorem kind_of_report {v : RpmVaEntry} (h : v ∈ changedReports host) (content : String) :
    (modifiedEntry v content).kind = .rpmOwnedModified := by
  have change := (Bool.and_eq_true_iff.mp (List.mem_filter.mp h).2).2
  simp [modifiedEntry, classifyRpmVaKind, change]

theorem unownedScan_files (host : ConfigHost) :
    (unownedScan host).files =
      (walkedFiles host).flatMap fun rel => (unownedFile host (absPath rel)).files := by
  unfold unownedScan walkedFiles
  rcases walkEtc_cases host "/etc" host.etc with found | ⟨⟨dirs, given_up⟩, nothing⟩
  · rw [found]
    simp [gatherScans_files, List.flatMap_map]
  · rw [given_up, nothing]
    rfl

theorem linkFinding_allowlisted {path : String} :
    linkFinding host path = some .allowlisted ↔ IsAllowlistedLink host path := by
  unfold linkFinding IsAllowlistedLink
  cases link : host.isLink path with
  | false => simp
  | true =>
    cases target : host.finalTarget path with
    | none => simp
    | some resolved =>
      cases allowed : isAllowlisted path resolved with
      | true => simp [allowed]
      | false =>
        simp only [if_true, Bool.false_eq_true, if_false, true_and, Option.some.injEq,
          exists_eq_left', allowed, iff_false]
        cases crossesTreeBoundary path resolved <;> simp

theorem unownedFile_paths (path : String) :
    ((unownedFile host path).files.map (·.path) = [path] ∧ isPackaged host path = false ∧
      ¬ IsExcluded host path) ∨
    ((unownedFile host path).files = [] ∧ (isPackaged host path ∨ IsExcluded host path)) := by
  unfold unownedFile
  split
  · rename_i out
    simp only [Bool.or_eq_true, List.contains_iff_mem] at out
    refine .inr ⟨rfl, ?_⟩
    unfold IsExcluded
    tauto
  · rename_i stays
    simp only [Bool.or_eq_true, List.contains_iff_mem, not_or] at stays
    obtain ⟨⟨⟨packaged, excluded⟩, artifact⟩, dhcp⟩ := stays
    have packaged : isPackaged host path = false := by simpa using packaged
    by_cases allowed : IsAllowlistedLink host path
    · rw [linkFinding_allowlisted.mpr allowed]
      exact .inr ⟨rfl, .inr (.inr (.inr (.inr allowed)))⟩
    · have kept : ¬ IsExcluded host path := by
        unfold IsExcluded
        tauto
      rw [← linkFinding_allowlisted] at allowed
      split
      · exact absurd ‹_› allowed
      · exact .inl ⟨rfl, packaged, kept⟩
      · exact .inl ⟨rfl, packaged, kept⟩

theorem mem_unownedScan {e : ConfigFileEntry} (h : e ∈ (unownedScan host).files) :
    e.kind = .unowned ∧ isPackaged host e.path = false ∧ ¬ IsExcluded host e.path := by
  rw [unownedScan_files, List.mem_flatMap] at h
  obtain ⟨rel, -, mem⟩ := h
  have at_path : e.path ∈ (unownedFile host (absPath rel)).files.map (·.path) :=
    List.mem_map_of_mem mem
  rcases @unownedFile_paths host (absPath rel) with ⟨paths, packaged, kept⟩ | ⟨none_there, -⟩
  · rw [paths, List.mem_singleton] at at_path
    rw [at_path]
    refine ⟨?_, packaged, kept⟩
    unfold unownedFile at mem
    split at mem
    · cases mem
    · split at mem
      · cases mem
      · rw [List.mem_singleton.mp mem]
        rfl
      · rw [List.mem_singleton.mp mem]
        rfl
  · rw [none_there] at mem
    cases mem

theorem unowned_present {rel : String} (walked : rel ∈ walkedFiles host)
    (packaged : isPackaged host (absPath rel) = false)
    (kept : ¬ IsExcluded host (absPath rel)) :
    absPath rel ∈ (unownedScan host).files.map (·.path) := by
  rw [unownedScan_files, List.map_flatMap, List.mem_flatMap]
  refine ⟨rel, walked, ?_⟩
  rcases @unownedFile_paths host (absPath rel) with ⟨paths, -, -⟩ | ⟨-, out⟩
  · rw [paths]
    exact List.mem_singleton_self _
  · rw [packaged] at out
    exact absurd (out.resolve_left Bool.false_ne_true) kept

theorem unowned_once (host : ConfigHost) : ((unownedScan host).files.map (·.path)).Nodup := by
  have walked : (walkedFiles host).Nodup := walkRecursive_nodup _ host.etcNamed _
  rw [unownedScan_files, List.map_flatMap]
  generalize walkedFiles host = rels at walked
  induction rels with
  | nil => exact List.nodup_nil
  | cons rel rels ih =>
    obtain ⟨absent, walked⟩ := List.nodup_cons.mp walked
    rw [List.flatMap_cons, List.nodup_append]
    refine ⟨?_, ih walked, ?_⟩
    · rcases @unownedFile_paths host (absPath rel) with ⟨paths, -, -⟩ | ⟨none_there, -⟩
      · rw [paths]
        exact List.nodup_cons.mpr ⟨List.not_mem_nil, List.nodup_nil⟩
      · rw [none_there]
        exact List.nodup_nil
    · have own : ∀ rel path, path ∈ (unownedFile host (absPath rel)).files.map (·.path) →
          path = absPath rel := by
        intro rel path mem
        rcases @unownedFile_paths host (absPath rel) with ⟨paths, -, -⟩ | ⟨none_there, -⟩
        · rw [paths] at mem
          exact List.mem_singleton.mp mem
        · rw [none_there] at mem
          cases mem
      intro path here other there
      obtain ⟨rel', mem, there⟩ := List.mem_flatMap.mp there
      rintro rfl
      have same : rel = rel' := absPath_injective ((own rel path here).symm.trans (own rel' path there))
      exact absent (same ▸ mem)

theorem path_of_report {e : ConfigFileEntry} (h : e ∈ (modifiedScan host).files) :
    e.path ∈ vaPaths host := by
  rw [modifiedScan_files, List.mem_map] at h
  obtain ⟨v, mem, rfl⟩ := h
  exact List.mem_map_of_mem (List.mem_filter.mp mem).1

theorem packaged_of_reported {path : String} (h : path ∈ vaPaths host) :
    isPackaged host path = true := by
  simp [isPackaged, h]

theorem contains_eq_false {paths : List String} {path : String} :
    paths.contains path = false ↔ path ∉ paths := by
  rw [← Bool.not_eq_true, List.contains_iff_mem]

theorem isOrphanOf_iff {package rel : String} (walked : rel ∈ walkedFiles host) :
    isOrphanOf host ((collectedScan host).files.map (·.path)) package rel = true ↔
      Text.contains (baseName rel) package ∧ isPackaged host (absPath rel) = false ∧
        absPath rel ∉ dhcpConnectionFiles host ∧ IsExcluded host (absPath rel) := by
  unfold isOrphanOf
  simp only [Bool.and_eq_true, Bool.not_eq_true', contains_eq_false, and_assoc]
  constructor
  · rintro ⟨named, unseen, packaged, dhcp⟩
    refine ⟨named, packaged, dhcp, ?_⟩
    by_contra kept
    apply unseen
    rw [collectedScan, ConfigScan.files_append, List.map_append, List.mem_append]
    exact .inr (unowned_present walked packaged kept)
  · rintro ⟨named, packaged, dhcp, excluded⟩
    refine ⟨named, ?_, packaged, dhcp⟩
    intro seen
    rw [collectedScan, ConfigScan.files_append, List.map_append, List.mem_append] at seen
    rcases seen with reported | unowned
    · obtain ⟨e, mem, same⟩ := List.mem_map.mp reported
      have owned := packaged_of_reported (same ▸ path_of_report mem)
      rw [packaged] at owned
      cases owned
    · obtain ⟨e, mem, same⟩ := List.mem_map.mp unowned
      exact (mem_unownedScan mem).2.2 (same ▸ excluded)

def NoneOrphaned (host : ConfigHost) : Prop :=
  ∀ rel ∈ walkedFiles host, isPackaged host (absPath rel) = false →
    absPath rel ∉ dhcpConnectionFiles host → IsExcluded host (absPath rel) →
    ∀ package ∈ removedPackages host, Text.contains (baseName rel) package = false

theorem mem_orphans {e : ConfigFileEntry}
    (h : e ∈ (detectOrphanedConfigs host ((collectedScan host).files.map (·.path))).files) :
    ∃ package ∈ removedPackages host, ∃ rel ∈ walkedFiles host,
      isOrphanOf host ((collectedScan host).files.map (·.path)) package rel ∧
      e = orphanEntry (absPath rel) package (readConfigContent host (absPath rel)).1 := by
  rw [detectOrphanedConfigs, gatherScans_files, walkEtcRecursive_eq, List.mem_flatMap] at h
  obtain ⟨scan, mem, entry⟩ := h
  obtain ⟨package, removed, mem⟩ := List.mem_flatMap.mp mem
  obtain ⟨rel, walked, rfl⟩ := List.mem_map.mp mem
  unfold orphanFile at entry
  split at entry
  · rename_i orphan
    exact ⟨package, removed, rel, walked, orphan, List.mem_singleton.mp entry⟩
  · cases entry

theorem orphan_mem {package rel : String} (removed : package ∈ removedPackages host)
    (walked : rel ∈ walkedFiles host)
    (orphan : isOrphanOf host ((collectedScan host).files.map (·.path)) package rel) :
    absPath rel ∈
      (detectOrphanedConfigs host ((collectedScan host).files.map (·.path))).files.map (·.path) := by
  rw [detectOrphanedConfigs, gatherScans_files, walkEtcRecursive_eq, List.map_flatMap,
    List.mem_flatMap]
  refine ⟨_, List.mem_flatMap.mpr ⟨package, removed, List.mem_map_of_mem walked⟩, ?_⟩
  rw [orphanFile, if_pos orphan]
  exact List.mem_singleton_self _

theorem no_orphans (none_named : NoneOrphaned host) :
    (detectOrphanedConfigs host ((collectedScan host).files.map (·.path))).files = [] := by
  rw [List.eq_nil_iff_forall_not_mem]
  intro e mem
  obtain ⟨package, removed, rel, walked, orphan, -⟩ := mem_orphans mem
  obtain ⟨named, packaged, dhcp, excluded⟩ := (isOrphanOf_iff walked).mp orphan
  rw [none_named rel walked packaged dhcp excluded package removed] at named
  cases named

theorem foldAdvisory_rows (files : List ConfigFileEntry) (advisory : String × FindingKind) :
    (foldAdvisory files advisory).map (fun e => (e.path, e.kind)) =
      if files.any (·.path == advisory.1) then files.map fun e => (e.path, e.kind)
      else files.map (fun e => (e.path, e.kind)) ++ [(advisory.1, .unowned)] := by
  unfold foldAdvisory
  split
  · refine FirstMatch.map_related (FirstMatch.updateFirst_forall
      (fun a b : ConfigFileEntry => (b.path, b.kind) = (a.path, a.kind)) (fun _ => rfl) _ _ ?_
      files)
    intro e _
    rfl
  · rw [List.map_append]
    rfl

theorem foldAdvisory_paths (files : List ConfigFileEntry) (advisory : String × FindingKind) :
    (foldAdvisory files advisory).map (·.path) =
      if files.any (·.path == advisory.1) then files.map (·.path)
      else files.map (·.path) ++ [advisory.1] := by
  have rows := congrArg (List.map Prod.fst) (foldAdvisory_rows files advisory)
  rw [List.map_map] at rows
  refine Eq.trans rows ?_
  split <;> simp [Function.comp_def]

theorem any_path {files : List ConfigFileEntry} {path : String} :
    files.any (·.path == path) = true ↔ path ∈ files.map (·.path) := by
  simp [List.any_eq_true, List.mem_map]

theorem advisories_nodup {files : List ConfigFileEntry} (once : (files.map (·.path)).Nodup)
    (advisories : List (String × FindingKind)) :
    ((advisories.foldl foldAdvisory files).map (·.path)).Nodup := by
  induction advisories generalizing files with
  | nil => exact once
  | cons advisory advisories ih =>
    refine ih ?_
    rw [foldAdvisory_paths]
    split
    · exact once
    · rename_i absent
      rw [any_path] at absent
      rw [List.nodup_append]
      refine ⟨once, List.nodup_cons.mpr ⟨List.not_mem_nil, List.nodup_nil⟩, ?_⟩
      rintro path mem other new rfl
      exact absent (List.mem_singleton.mp new ▸ mem)

theorem mem_paths_advisories {files : List ConfigFileEntry} {path : String}
    (advisories : List (String × FindingKind)) :
    path ∈ (advisories.foldl foldAdvisory files).map (·.path) ↔
      path ∈ files.map (·.path) ∨ path ∈ advisories.map (·.1) := by
  induction advisories generalizing files with
  | nil => simp
  | cons advisory advisories ih =>
    rw [List.foldl_cons, ih, foldAdvisory_paths, List.map_cons, List.mem_cons]
    split
    · rename_i present
      rw [any_path] at present
      constructor
      · tauto
      · rintro (h | rfl | h)
        · exact .inl h
        · exact .inl present
        · exact .inr h
    · rw [List.mem_append, List.mem_singleton]
      tauto

theorem changed_advisories {files : List ConfigFileEntry} {path : String}
    (advisories : List (String × FindingKind)) :
    (path, ConfigFileKind.rpmOwnedModified) ∈
        (advisories.foldl foldAdvisory files).map (fun e => (e.path, e.kind)) ↔
      (path, ConfigFileKind.rpmOwnedModified) ∈ files.map fun e => (e.path, e.kind) := by
  induction advisories generalizing files with
  | nil => rfl
  | cons advisory advisories ih =>
    rw [List.foldl_cons, ih, foldAdvisory_rows]
    split
    · rfl
    · simp

/-- `/etc` can be walked, rpm reports a file once, and no file kept out bears a removed
    package's name or an outdated pattern. -/
structure ScanUndisturbed (host : ConfigHost) : Prop where
  etcThere : isEtcThere host = false → changedReports host = []
  reportedOnce : ((changedReports host).map (·.path)).Nodup
  noneOrphaned : NoneOrphaned host
  noneOutdated : ∀ path, IsKeptOut host path → path ∉ (modernizations host).map (·.1)

theorem inspected_perm (package_based : host.isOstree = false) (there : isEtcThere host) :
    (inspectConfig host).files.Perm
      ((modernizations host).foldl foldAdvisory (packageScan host).files) := by
  rw [inspectConfig, package_based, if_neg Bool.false_ne_true, if_pos there]
  exact List.perm_insertionSort _ _

theorem inspected_absent (package_based : host.isOstree = false) (absent : isEtcThere host = false) :
    (inspectConfig host).files = [] := by
  rw [inspectConfig, package_based, if_neg Bool.false_ne_true, absent, if_neg Bool.false_ne_true]

theorem mem_inspected_paths (package_based : host.isOstree = false) (there : isEtcThere host)
    {path : String} : path ∈ (inspectConfig host).files.map (·.path) ↔
      path ∈ (packageScan host).files.map (·.path) ∨ path ∈ (modernizations host).map (·.1) := by
  rw [((inspected_perm package_based there).map _).mem_iff, mem_paths_advisories]

theorem no_walk (absent : isEtcThere host = false) :
    walkedFiles host = [] ∧ dhcpConnectionFiles host = [] := by
  unfold isEtcThere at absent
  rw [Bool.or_eq_false_iff] at absent
  unfold walkedFiles dhcpConnectionFiles
  cases tree : host.etc with
  | file => exact ⟨rfl, rfl⟩
  | denied => exact ⟨rfl, rfl⟩
  | dir entries =>
    rw [tree] at absent
    cases absent.1

theorem changed_iff {path : String} :
    (∃ v ∈ host.verification, Text.startsWith v.path "/etc" ∧ v.path = path ∧
      hasContentChange v.flags ∧ isVaKept host v) ↔ path ∈ (changedReports host).map (·.path) := by
  simp only [List.mem_map, changedReports, List.mem_filter, mem_vaEntries, Bool.and_eq_true]
  constructor
  · rintro ⟨v, mem, etc, rfl, change, kept⟩
    exact ⟨v, ⟨⟨mem, etc⟩, kept, change⟩, rfl⟩
  · rintro ⟨v, ⟨⟨mem, etc⟩, kept, change⟩, rfl⟩
    exact ⟨v, mem, etc, rfl, change, kept⟩

theorem modified_rows {path : String} :
    (path, ConfigFileKind.rpmOwnedModified) ∈
        (packageScan host).files.map (fun e => (e.path, e.kind)) ↔
      path ∈ (changedReports host).map (·.path) := by
  rw [packageScan, collectedScan, ConfigScan.files_append, ConfigScan.files_append,
    List.map_append, List.map_append, List.mem_append, List.mem_append]
  constructor
  · rintro ((reported | unowned) | orphan)
    · obtain ⟨e, mem, same⟩ := List.mem_map.mp reported
      rw [modifiedScan_files, List.mem_map] at mem
      obtain ⟨v, mem, rfl⟩ := mem
      exact List.mem_map.mpr ⟨v, mem, (Prod.mk.inj same).1⟩
    · obtain ⟨e, mem, same⟩ := List.mem_map.mp unowned
      have kind := (mem_unownedScan mem).1
      rw [(Prod.mk.inj same).2] at kind
      cases kind
    · obtain ⟨e, mem, same⟩ := List.mem_map.mp orphan
      obtain ⟨package, -, rel, -, -, rfl⟩ := mem_orphans mem
      cases (Prod.mk.inj same).2
  · intro reported
    obtain ⟨v, mem, rfl⟩ := List.mem_map.mp reported
    refine .inl (.inl ?_)
    rw [modifiedScan_files, List.map_map]
    refine List.mem_map.mpr ⟨v, mem, ?_⟩
    rw [Function.comp_apply, kind_of_report mem]
    rfl

theorem reported_paths (host : ConfigHost) :
    (modifiedScan host).files.map (·.path) = (changedReports host).map (·.path) := by
  rw [modifiedScan_files, List.map_map]
  rfl

theorem package_paths_nodup (undisturbed : ScanUndisturbed host) :
    ((packageScan host).files.map (·.path)).Nodup := by
  rw [packageScan, ConfigScan.files_append, no_orphans undisturbed.noneOrphaned, List.append_nil,
    collectedScan, ConfigScan.files_append, List.map_append, List.nodup_append, reported_paths]
  refine ⟨undisturbed.reportedOnce, unowned_once host, ?_⟩
  rintro path reported other unowned rfl
  obtain ⟨v, mem, rfl⟩ := List.mem_map.mp reported
  obtain ⟨e, found, same⟩ := List.mem_map.mp unowned
  have packaged := packaged_of_reported
    (List.mem_map_of_mem (f := RpmVaEntry.path) (List.mem_filter.mp mem).1)
  have unpackaged := (mem_unownedScan found).2.1
  rw [same, packaged] at unpackaged
  cases unpackaged

theorem keptOut_of_collected {e : ConfigFileEntry} (h : e ∈ (collectedScan host).files) :
    ¬ IsKeptOut host e.path := by
  rw [collectedScan, ConfigScan.files_append, List.mem_append] at h
  rintro (⟨rel, walked, path, packaged, excluded⟩ | ⟨reported, dhcp⟩)
  · rcases h with mem | mem
    · have owned := packaged_of_reported (path_of_report mem)
      rw [packaged] at owned
      cases owned
    · exact (mem_unownedScan mem).2.2 excluded
  · rcases h with mem | mem
    · rw [modifiedScan_files, List.mem_map] at mem
      obtain ⟨v, mem, rfl⟩ := mem
      have kept := (Bool.and_eq_true_iff.mp (List.mem_filter.mp mem).2).1
      have asks : v.path ∈ dhcpConnectionFiles host := dhcp
      rw [isVaKept, List.contains_iff_mem.mpr asks] at kept
      simp at kept
    · have unpackaged := (mem_unownedScan mem).2.1
      rw [packaged_of_reported reported] at unpackaged
      cases unpackaged

theorem classified_of_undisturbed (package_based : host.isOstree = false)
    (undisturbed : ScanUndisturbed host) (there : isEtcThere host) : ConfigClassified host where
  once := by
    rw [((inspected_perm package_based there).map _).nodup_iff]
    exact advisories_nodup (package_paths_nodup undisturbed) _
  changed path := by
    rw [changed_iff, ← modified_rows, ← changed_advisories (modernizations host),
      ← ((inspected_perm package_based there).map _).mem_iff, List.mem_map]
    simp only [Prod.mk.injEq]
  unowned rel walked packaged kept := by
    have present : absPath rel ∈ (inspectConfig host).files.map (·.path) := by
      rw [mem_inspected_paths package_based there, packageScan, collectedScan,
        ConfigScan.files_append, ConfigScan.files_append, List.map_append, List.map_append,
        List.mem_append, List.mem_append]
      exact .inl (.inl (.inr (unowned_present walked packaged kept)))
    obtain ⟨e, mem, path⟩ := List.mem_map.mp present
    exact ⟨e, mem, path⟩
  keptOut path out e mem same := by
    have present : path ∈ (inspectConfig host).files.map (·.path) :=
      same ▸ List.mem_map_of_mem mem
    rw [mem_inspected_paths package_based there, packageScan, ConfigScan.files_append,
      no_orphans undisturbed.noneOrphaned, List.append_nil] at present
    rcases present with collected | outdated
    · obtain ⟨row, found, rfl⟩ := List.mem_map.mp collected
      exact keptOut_of_collected found out
    · exact undisturbed.noneOutdated path out outdated

theorem classified_of_absent (package_based : host.isOstree = false)
    (undisturbed : ScanUndisturbed host) (absent : isEtcThere host = false) :
    ConfigClassified host := by
  have nothing := inspected_absent package_based absent
  constructor
  · rw [nothing]
    exact List.nodup_nil
  · intro path
    rw [changed_iff, undisturbed.etcThere absent, nothing]
    simp
  · intro rel walked
    rw [(no_walk absent).1] at walked
    cases walked
  · intro path _ e mem
    rw [nothing] at mem
    cases mem

theorem paths_kept (files : List ConfigFileEntry) (advisories : List (String × FindingKind)) :
    (files.map (·.path)).Sublist ((advisories.foldl foldAdvisory files).map (·.path)) := by
  induction advisories generalizing files with
  | nil => exact List.Sublist.refl _
  | cons advisory advisories ih =>
    refine List.Sublist.trans ?_ (ih _)
    rw [foldAdvisory_paths]
    split
    · exact List.Sublist.refl _
    · exact List.sublist_append_left _ _

theorem no_reports_of_absent (package_based : host.isOstree = false)
    (classified : ConfigClassified host) (absent : isEtcThere host = false) :
    changedReports host = [] := by
  rw [List.eq_nil_iff_forall_not_mem]
  intro v mem
  obtain ⟨e, found, -⟩ := (classified.changed v.path).mpr
    (changed_iff.mpr (List.mem_map_of_mem mem))
  rw [inspected_absent package_based absent] at found
  cases found

theorem undisturbed_of_classified (package_based : host.isOstree = false)
    (classified : ConfigClassified host) : ScanUndisturbed host where
  etcThere absent := no_reports_of_absent package_based classified absent
  reportedOnce := by
    cases there : isEtcThere host with
    | false =>
      rw [no_reports_of_absent package_based classified there]
      exact List.nodup_nil
    | true =>
      have once := classified.once
      rw [((inspected_perm package_based there).map _).nodup_iff] at once
      have collected := once.sublist (paths_kept (packageScan host).files (modernizations host))
      rw [packageScan, collectedScan, ConfigScan.files_append, ConfigScan.files_append,
        List.map_append, List.map_append, reported_paths] at collected
      exact (List.nodup_append.mp (List.nodup_append.mp collected).1).1
  noneOrphaned := by
    intro rel walked packaged dhcp excluded package removed
    rw [← Bool.not_eq_true]
    intro named
    have there : isEtcThere host = true := by
      by_contra absent
      rw [(no_walk (Bool.not_eq_true _ ▸ absent)).1] at walked
      cases walked
    have orphan := (isOrphanOf_iff walked).mpr ⟨named, packaged, dhcp, excluded⟩
    have present : absPath rel ∈ (inspectConfig host).files.map (·.path) := by
      rw [mem_inspected_paths package_based there, packageScan, ConfigScan.files_append,
        List.map_append, List.mem_append]
      exact .inl (.inr (orphan_mem removed walked orphan))
    obtain ⟨e, mem, path⟩ := List.mem_map.mp present
    exact classified.keptOut _ (.inl ⟨rel, walked, rfl, packaged, excluded⟩) e mem path
  noneOutdated path out outdated := by
    have there : isEtcThere host = true := by
      by_contra absent
      have none_there := no_walk (Bool.not_eq_true _ ▸ absent)
      rcases out with ⟨rel, walked, -⟩ | ⟨-, dhcp⟩
      · rw [none_there.1] at walked
        cases walked
      · rw [none_there.2] at dhcp
        cases dhcp
    obtain ⟨e, mem, same⟩ := List.mem_map.mp
      ((mem_inspected_paths package_based there).mpr (.inr outdated))
    exact classified.keptOut _ out e mem same

/-- On a package-based system the scan classifies `/etc` exactly when nothing disturbs it. -/
theorem config_classified_iff (package_based : host.isOstree = false) :
    ConfigClassified host ↔ ScanUndisturbed host := by
  constructor
  · exact undisturbed_of_classified package_based
  · intro undisturbed
    cases there : isEtcThere host with
    | true => exact classified_of_undisturbed package_based undisturbed there
    | false => exact classified_of_absent package_based undisturbed there

end

/-- One file in `/etc`, which can be read and which no package owns. -/
def oneFileHost (name content : String) (history : ExecResult) (plain : name ≠ "" ∧ '/' ∉ name.toList) :
    ConfigHost where
  etc := .dir (.cons name .file .nil)
  usrEtc := .file
  fileExists path := path == absPath name
  readFile path := if path = absPath name then .ok content else .error .other
  isLink _ := false
  finalTarget path := some path
  dnfHistory := history
  verification := []
  isRpmOwned _ := false
  osMajor := some 9
  isOstree := false
  etcNamed := ⟨List.nodup_singleton _, plain.1, plain.2, trivial, trivial⟩

theorem lone_file_classified :
    ConfigClassified (oneFileHost "app.conf" "port = 80\n" {} (by decide)) := by
  refine (config_classified_iff rfl).mpr ⟨nofun, List.nodup_nil, ?_, ?_⟩
  · intro rel _ _ _ _ package removed
    have none_removed : removedPackages (oneFileHost "app.conf" "port = 80\n" {} (by decide)) = [] := by
      decide
    rw [none_removed] at removed
    cases removed
  · intro path _ outdated
    have none_outdated : modernizations (oneFileHost "app.conf" "port = 80\n" {} (by decide)) = [] := by
      decide
    rw [none_outdated] at outdated
    cases outdated

def removedHostname : ConfigHost :=
  oneFileHost "hostname" "web1\n" { stdout := "hostname Removed 2024-01-05" } (by decide)

/-- The host's name, which the system writes itself, comes back as an orphan. -/
theorem hostname_comes_back : ¬ ConfigClassified removedHostname := by
  intro classified
  have out : IsKeptOut removedHostname "/etc/hostname" :=
    .inl ⟨"hostname", by decide, by decide, by decide, .inl (by decide)⟩
  have present : "/etc/hostname" ∈ (inspectConfig removedHostname).files.map (·.path) := by
    decide
  obtain ⟨e, mem, path⟩ := List.mem_map.mp present
  exact classified.keptOut _ out e mem path

end Inspectah
