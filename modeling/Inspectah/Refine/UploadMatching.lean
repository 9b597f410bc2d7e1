import Inspectah.Refine.Uploads

/-!
Which package an uploaded file name belongs to. A name with a dash before a digit is found by
its exact file name only.
-/
namespace Inspectah

def buildFilename (pkg : PackageEntry) (version release : String) : String :=
  pkg.name ++ "-" ++ (version ++ "-" ++ release) ++ "." ++ pkg.arch ++ ".rpm"

def matchOf (pkg : PackageEntry) (versionRelease : String) : UploadMatch :=
  { canonical := canonicalPackageId pkg.name pkg.arch
    exact := versionRelease == hostVersion pkg
    hostVersion := hostVersion pkg
    uploadedVersion := if versionRelease = hostVersion pkg then none else some versionRelease }

def HasVersionStart (name : String) : Prop :=
  ∃ before digit after, name.toList = before ++ '-' :: digit :: after ∧ digit.isDigit

def repoless (packages : List PackageEntry) : List PackageEntry :=
  packages.filter fun p => !p.repolessAnnotation.isEmpty

def NamesNoOther (packages : List PackageEntry) (pkg : PackageEntry) (filename : String) : Prop :=
  ∀ other, ((repoless packages).find? fun p => filename == nevraFilename p) = some other → other = pkg

theorem splitVersion_append {name before after : List Char}
    (split : splitVersion name = some (before, after)) (more : List Char) :
    splitVersion (name ++ more) = some (before, after ++ more) := by
  induction name generalizing before with
  | nil => cases split
  | cons c rest ih =>
    rw [splitVersion] at split
    rw [List.cons_append, splitVersion]
    by_cases start : (c == '-' && rest.head?.any Char.isDigit) = true
    · have still : (c == '-' && (rest ++ more).head?.any Char.isDigit) = true := by
        cases rest with
        | nil => simp at start
        | cons d rest => exact start
      rw [if_pos start] at split
      cases split
      rw [if_pos still]
    · rw [if_neg start] at split
      obtain ⟨⟨b, a⟩, found, same⟩ := Option.map_eq_some_iff.mp split
      cases same
      have still : ¬ (c == '-' && (rest ++ more).head?.any Char.isDigit) = true := by
        cases rest with
        | nil => cases found
        | cons d rest => exact start
      rw [if_neg still, ih found]
      rfl

theorem splitVersion_name {name rest : List Char} {digit : Char} (plain : splitVersion name = none)
    (isDigit : digit.isDigit) :
    splitVersion (name ++ '-' :: digit :: rest) = some (name, digit :: rest) := by
  induction name with
  | nil => simp [splitVersion, isDigit]
  | cons c more ih =>
    rw [splitVersion] at plain
    have start : ¬ (c == '-' && more.head?.any Char.isDigit) = true := by
      intro start
      rw [if_pos start] at plain
      cases plain
    rw [if_neg start, Option.map_eq_none_iff] at plain
    have still : ¬ (c == '-' && (more ++ '-' :: digit :: rest).head?.any Char.isDigit) = true := by
      cases more with
      | nil => simp
      | cons d more => exact start
    rw [List.cons_append, splitVersion, if_neg still, ih plain]
    rfl

theorem splitVersion_spec {name before after : List Char}
    (split : splitVersion name = some (before, after)) :
    name = before ++ '-' :: after ∧ ∃ digit rest, after = digit :: rest ∧ digit.isDigit := by
  induction name generalizing before with
  | nil => cases split
  | cons c rest ih =>
    rw [splitVersion] at split
    split at split
    · rename_i start
      cases split
      obtain ⟨dash, digit⟩ := (Bool.and_eq_true _ _).mp start
      cases after with
      | nil => simp at digit
      | cons d after => exact ⟨by rw [beq_iff_eq.mp dash]; rfl, d, after, rfl, by simpa using digit⟩
    · obtain ⟨⟨b, a⟩, found, same⟩ := Option.map_eq_some_iff.mp split
      cases same
      obtain ⟨cut, digit⟩ := ih found
      exact ⟨by rw [cut]; rfl, digit⟩

theorem hasVersionStart_iff {name : String} :
    HasVersionStart name ↔ ∃ before after, splitVersion name.toList = some (before, after) := by
  constructor
  · rintro ⟨before, digit, after, cut, isDigit⟩
    cases found : splitVersion before with
    | some split => exact ⟨split.1, _, by rw [cut]; exact splitVersion_append found _⟩
    | none => exact ⟨before, _, by rw [cut]; exact splitVersion_name found isDigit⟩
  · rintro ⟨before, after, split⟩
    obtain ⟨cut, digit, rest, rfl, isDigit⟩ := splitVersion_spec split
    exact ⟨before, digit, rest, cut, isDigit⟩

theorem stripRpmSuffix_rpm (stem : String) : stripRpmSuffix (stem ++ ".rpm") = some stem := by
  have chars : (stem ++ ".rpm").toList = stem.toList ++ ".rpm".toList := String.toList_append
  have short : (stem ++ ".rpm").toList.length - 4 = stem.toList.length := by rw [chars]; simp
  rw [stripRpmSuffix]
  simp only [short]
  rw [chars, List.drop_left, List.take_left]
  rw [if_pos ⟨by simp, by decide⟩, String.ofList_toList]

theorem endsWith_iff_suffix {s suffix : String} :
    Text.endsWith s suffix = true ↔ suffix.toList <:+ s.toList := by
  rw [Text.endsWith, List.isPrefixOf_iff_prefix, List.reverse_prefix]

theorem knownArches_apart : ∀ a ∈ KNOWN_ARCHES, ∀ b ∈ KNOWN_ARCHES, ∀ sep ∈ [".", "_"],
    (sep ++ b).toList <:+ ("." ++ a).toList ∨ ("." ++ a).toList <:+ (sep ++ b).toList → b = a := by
  decide +kernel

theorem arch_found {stem arch : String} (known : arch ∈ KNOWN_ARCHES)
    (ends : ("." ++ arch).toList <:+ stem.toList) :
    (KNOWN_ARCHES.find? fun a =>
      Text.endsWith stem ("." ++ a) || Text.endsWith stem ("_" ++ a)) = some arch := by
  cases found : KNOWN_ARCHES.find? fun a =>
      Text.endsWith stem ("." ++ a) || Text.endsWith stem ("_" ++ a) with
  | none =>
    have absent := List.find?_eq_none.mp found arch known
    rw [endsWith_iff_suffix.mpr ends] at absent
    exact absurd rfl absent
  | some other =>
    have listed := List.mem_of_find?_eq_some found
    have holds := List.find?_some found
    rw [Bool.or_eq_true, endsWith_iff_suffix, endsWith_iff_suffix] at holds
    rcases holds with dotted | underscored
    · rw [knownArches_apart arch known other listed "." (by simp)
        (List.suffix_or_suffix_of_suffix dotted ends)]
    · rw [knownArches_apart arch known other listed "_" (by simp)
        (List.suffix_or_suffix_of_suffix underscored ends)]

section Build

variable {pkg : PackageEntry} {version release : String}

def buildChars (pkg : PackageEntry) (version release : String) : List Char :=
  pkg.name.toList ++ '-' :: (version ++ "-" ++ release).toList

theorem parseUntrusted_build {name versionRelease : List Char} (known : pkg.arch ∈ KNOWN_ARCHES)
    (split : splitVersion (buildChars pkg version release) = some (name, versionRelease)) :
    RpmFilename.parseUntrusted (buildFilename pkg version release) =
      if name.isEmpty then none
      else some ⟨String.ofList name, pkg.arch, some (String.ofList versionRelease)⟩ := by
  have chars : (pkg.name ++ "-" ++ (version ++ "-" ++ release) ++ "." ++ pkg.arch).toList =
      buildChars pkg version release ++ ("." ++ pkg.arch).toList := by
    simp [buildChars]
  have before : (pkg.name ++ "-" ++ (version ++ "-" ++ release) ++ "." ++ pkg.arch).toList.take
      ((pkg.name ++ "-" ++ (version ++ "-" ++ release) ++ "." ++ pkg.arch).toList.length -
        pkg.arch.toList.length - 1) = buildChars pkg version release := by
    have count : (buildChars pkg version release ++ ("." ++ pkg.arch).toList).length -
        pkg.arch.toList.length - 1 = (buildChars pkg version release).length := by
      simp only [List.length_append, String.toList_append]
      have dot : ".".toList.length = 1 := rfl
      omega
    rw [chars, count, List.take_left]
  have occupied : (buildChars pkg version release).isEmpty = false := by
    simp [buildChars]
  rw [RpmFilename.parseUntrusted, buildFilename, stripRpmSuffix_rpm, Option.bind_some,
    arch_found known (chars ▸ List.suffix_append ..), Option.bind_some]
  simp only [before, occupied, split]
  simp

theorem intercalate_splitOn (name : String) : "-".intercalate (Text.splitOn (· == '-') name) = name := by
  have dash : "-".toList = ['-'] := rfl
  have whole : ['-'].intercalate (name.toList.splitOn '-') = name.toList := List.intercalate_splitOn '-'
  apply String.toList_inj.mp
  rw [String.toList_intercalate, dash, Text.splitOn, List.map_map]
  have pieces : (Text.splitChars (· == '-') name.toList).map (String.toList ∘ String.ofList) =
      name.toList.splitOn '-' := by
    rw [Text.splitChars_eq_splitOnP, ← List.splitOn_eq_splitOnP]
    exact (List.map_congr_left fun piece _ => String.toList_ofList).trans (List.map_id _)
  rw [pieces, whole]

theorem splitOn_ne_nil (name : String) : Text.splitOn (· == '-') name ≠ [] := by
  rw [Text.splitOn, Text.splitChars_eq_splitOnP]
  exact fun empty => List.splitOnP_ne_nil _ _ (List.map_eq_nil_iff.mp empty)

theorem nameCandidates_eq (name : String) : ∃ shorter, nameCandidates name = name :: shorter := by
  obtain ⟨piece, more, cut⟩ := List.exists_cons_of_ne_nil (splitOn_ne_nil name)
  have whole : "-".intercalate (piece :: more) = name := cut ▸ intercalate_splitOn name
  rw [nameCandidates]
  simp only [cut, List.length_cons, List.range_succ_eq_map, List.map_cons, Nat.sub_zero]
  rw [← List.length_cons (a := piece), List.take_length, whole, List.filter_cons_of_pos (by simp)]
  exact ⟨_, rfl⟩

theorem length_of_mem_nameCandidates {name candidate : String} (mem : candidate ∈ nameCandidates name) :
    candidate.toList.length ≤ name.toList.length := by
  obtain ⟨listed, -⟩ := List.mem_filter.mp mem
  obtain ⟨n, -, rfl⟩ := List.mem_map.mp listed
  have whole := intercalate_splitOn name
  generalize Text.splitOn (· == '-') name = pieces at whole ⊢
  rw [← List.take_append_drop (pieces.length - n) pieces] at whole
  cases front : pieces.take (pieces.length - n) with
  | nil => simp
  | cons first more =>
    cases back : pieces.drop (pieces.length - n) with
    | nil =>
      rw [front, back, List.append_nil] at whole
      rw [whole]
    | cons next rest =>
      rw [front, back, String.intercalate_append_of_ne_nil (List.cons_ne_nil first more)
        (List.cons_ne_nil next rest)] at whole
      rw [← whole]
      simp only [String.toList_append, List.length_append]
      omega

end Build

theorem nevraFilename_eq (pkg : PackageEntry) :
    nevraFilename pkg = buildFilename pkg pkg.version pkg.release := by
  rw [nevraFilename, buildFilename]
  simp only [String.append_assoc]

theorem buildFilename_inj {pkg : PackageEntry} {version release version' release' : String} :
    buildFilename pkg version release = buildFilename pkg version' release' ↔
      version ++ "-" ++ release = version' ++ "-" ++ release' := by
  rw [buildFilename, buildFilename]
  generalize version ++ "-" ++ release = vr
  generalize version' ++ "-" ++ release' = vr'
  constructor
  · intro same
    apply String.toList_inj.mp
    have chars := congrArg String.toList same
    simpa using chars
  · intro same
    rw [same]

theorem append_cut {a b s t u w : List Char} (dashed : a ++ '-' :: s = b ++ '-' :: t)
    (dotted : a ++ '.' :: u = b ++ '.' :: w) : a = b := by
  induction a generalizing b with
  | nil =>
    cases b with
    | nil => rfl
    | cons c b =>
      have dash := (List.cons.inj dashed).1
      have dot := (List.cons.inj dotted).1
      exact absurd (dash.trans dot.symm) (by decide)
  | cons c a ih =>
    cases b with
    | nil =>
      have dash := (List.cons.inj dashed).1
      have dot := (List.cons.inj dotted).1
      exact absurd (dash.symm.trans dot) (by decide)
    | cons d b =>
      obtain ⟨same, dashed⟩ := List.cons.inj dashed
      rw [same, ih dashed (List.cons.inj dotted).2]

theorem same_name_arch {p q : PackageEntry}
    (id : canonicalPackageId p.name p.arch = canonicalPackageId q.name q.arch)
    (file : nevraFilename p = nevraFilename q) : p.name = q.name ∧ p.arch = q.arch := by
  have dotted := congrArg String.toList id
  have dashed := congrArg String.toList file
  simp only [canonicalPackageId, nevraFilename, String.toList_append, List.append_assoc] at dotted dashed
  have name : p.name.toList = q.name.toList := append_cut dashed dotted
  rw [name] at dotted
  have arch : p.arch.toList = q.arch.toList := by simpa using dotted
  exact ⟨String.toList_inj.mp name, String.toList_inj.mp arch⟩

section Match

variable {packages : List PackageEntry} {pkg : PackageEntry} {version release : String}

theorem mem_repoless {p : PackageEntry} :
    p ∈ repoless packages ↔ p ∈ packages ∧ p.repolessAnnotation.isEmpty = false := by
  simp [repoless]

theorem find_name_arch (distinct : (packages.map fun p => (p.name, p.arch)).Nodup)
    (listed : pkg ∈ repoless packages) :
    ((repoless packages).find? fun p => p.name == pkg.name && p.arch == pkg.arch) = some pkg := by
  cases found : (repoless packages).find? fun p => p.name == pkg.name && p.arch == pkg.arch with
  | none =>
    have absent := List.find?_eq_none.mp found pkg listed
    simp at absent
  | some other =>
    have same := List.find?_some found
    rw [Bool.and_eq_true, beq_iff_eq, beq_iff_eq] at same
    have there := List.mem_of_find?_eq_some found
    rw [List.inj_on_of_nodup_map distinct (mem_repoless.mp there).1 (mem_repoless.mp listed).1
      (Prod.ext same.1 same.2)]

theorem relaxed_iff (distinct : (packages.map fun p => (p.name, p.arch)).Nodup)
    (listed : pkg ∈ repoless packages) (known : pkg.arch ∈ KNOWN_ARCHES)
    (starts : version.toList.head?.any Char.isDigit) :
    ((RpmFilename.parseUntrusted (buildFilename pkg version release)).bind fun parsed =>
      (nameCandidates parsed.name).findSome? fun candidate =>
        ((repoless packages).find? fun p => p.name == candidate && p.arch == parsed.arch).map
          (relaxedMatch parsed)) = some (matchOf pkg (version ++ "-" ++ release)) ↔
      pkg.name ≠ "" ∧ ¬ HasVersionStart pkg.name := by
  obtain ⟨digit, rest, chars, isDigit⟩ : ∃ digit rest, version.toList = digit :: rest ∧ digit.isDigit := by
    cases chars : version.toList with
    | nil => rw [chars] at starts; cases starts
    | cons digit rest => exact ⟨digit, rest, rfl, by simpa [chars] using starts⟩
  have tail : (version ++ "-" ++ release).toList = digit :: (rest ++ '-' :: release.toList) := by
    simp [chars]
  cases inner : splitVersion pkg.name.toList with
  | none =>
    have plain : ¬ HasVersionStart pkg.name := by
      rw [hasVersionStart_iff, inner]
      rintro ⟨_, _, ⟨⟩⟩
    have split : splitVersion (buildChars pkg version release) =
        some (pkg.name.toList, (version ++ "-" ++ release).toList) := by
      rw [buildChars, tail]
      exact splitVersion_name inner isDigit
    rw [parseUntrusted_build known split]
    by_cases empty : pkg.name = ""
    · simp [empty]
    · have named : pkg.name.toList.isEmpty = false := by simpa [List.isEmpty_eq_false_iff] using empty
      obtain ⟨shorter, candidates⟩ := nameCandidates_eq pkg.name
      rw [named, if_neg Bool.false_ne_true, Option.bind_some]
      simp only [String.ofList_toList, candidates, List.findSome?_cons,
        find_name_arch distinct listed, Option.map_some]
      have same : relaxedMatch ⟨pkg.name, pkg.arch, some (version ++ "-" ++ release)⟩ pkg =
          matchOf pkg (version ++ "-" ++ release) := by
        rw [relaxedMatch, matchOf]
        by_cases host : version ++ "-" ++ release = hostVersion pkg
        · simp [host]
        · simp [host, bne]
      simp [same, empty, plain]
  | some parts =>
    obtain ⟨before, after⟩ := parts
    have start : HasVersionStart pkg.name := hasVersionStart_iff.mpr ⟨before, after, inner⟩
    have split : splitVersion (buildChars pkg version release) = some (before, _) :=
      splitVersion_append inner _
    rw [parseUntrusted_build known split]
    simp only [start, not_true_eq_false, and_false, iff_false]
    by_cases empty : before.isEmpty
    · simp [empty]
    · rw [if_neg empty, Option.bind_some]
      intro found
      obtain ⟨candidate, mem, made⟩ := List.exists_of_findSome?_eq_some found
      obtain ⟨other, there, same⟩ := Option.map_eq_some_iff.mp made
      have holds := List.find?_some there
      rw [Bool.and_eq_true, beq_iff_eq, beq_iff_eq] at holds
      -- The other package has the same id and architecture, so the same name; but the
      -- candidate is too short for it.
      have id : canonicalPackageId other.name other.arch = canonicalPackageId pkg.name pkg.arch :=
        congrArg UploadMatch.canonical same
      have name : other.name = pkg.name := by
        apply String.toList_inj.mp
        have chars := congrArg String.toList id
        rw [holds.2] at chars
        simpa [canonicalPackageId] using chars
      have short := length_of_mem_nameCandidates mem
      rw [← holds.1, name, String.toList_ofList] at short
      have cut := (splitVersion_spec inner).1
      rw [cut, List.length_append, List.length_cons] at short
      omega

theorem matchUploadedRpm_eq (filename : String) :
    matchUploadedRpm packages filename =
      match (repoless packages).find? fun p => filename == nevraFilename p with
      | some first => some
          { canonical := canonicalPackageId first.name first.arch
            exact := true
            hostVersion := hostVersion first
            uploadedVersion := none }
      | none =>
        (RpmFilename.parseUntrusted filename).bind fun parsed =>
          (nameCandidates parsed.name).findSome? fun candidate =>
            ((repoless packages).find? fun p => p.name == candidate && p.arch == parsed.arch).map
              (relaxedMatch parsed) := rfl

end Match

theorem upload_matched_iff {packages : List PackageEntry}
    (distinct : (packages.map fun p => (p.name, p.arch)).Nodup) {pkg : PackageEntry}
    (listed : pkg ∈ packages) (without : pkg.repolessAnnotation.isEmpty = false)
    (known : pkg.arch ∈ KNOWN_ARCHES) (version release : String)
    (starts : version.toList.head?.any Char.isDigit) :
    matchUploadedRpm packages (buildFilename pkg version release) =
        some (matchOf pkg (version ++ "-" ++ release)) ↔
      NamesNoOther packages pkg (buildFilename pkg version release) ∧
        (version ++ "-" ++ release = hostVersion pkg ∨ (pkg.name ≠ "" ∧ ¬ HasVersionStart pkg.name)) := by
  have mem : pkg ∈ repoless packages := mem_repoless.mpr ⟨listed, without⟩
  have own : nevraFilename pkg = buildFilename pkg version release ↔
      version ++ "-" ++ release = hostVersion pkg := by
    rw [nevraFilename_eq, buildFilename_inj, hostVersion]
    exact eq_comm
  rw [matchUploadedRpm_eq]
  cases found : (repoless packages).find? fun p => buildFilename pkg version release == nevraFilename p with
  | none =>
    have other : version ++ "-" ++ release ≠ hostVersion pkg := by
      intro host
      have absent := List.find?_eq_none.mp found pkg mem
      rw [own.mpr host] at absent
      simp at absent
    have alone : NamesNoOther packages pkg (buildFilename pkg version release) := by
      intro q there
      rw [found] at there
      cases there
    simp only [alone, other, true_and, false_or]
    exact relaxed_iff distinct mem known starts
  | some first =>
    have file : buildFilename pkg version release = nevraFilename first := by
      simpa using List.find?_some found
    have there := (mem_repoless.mp (List.mem_of_find?_eq_some found)).1
    constructor
    · intro same
      have id := congrArg UploadMatch.canonical (Option.some.inj same)
      have exactly := congrArg UploadMatch.exact (Option.some.inj same)
      have host : version ++ "-" ++ release = hostVersion pkg := by
        simpa [matchOf] using exactly.symm
      obtain ⟨name, arch⟩ := same_name_arch id (file.symm.trans (own.mpr host).symm)
      have is := List.inj_on_of_nodup_map distinct there listed (Prod.ext name arch)
      refine ⟨fun q found' => ?_, .inl host⟩
      rw [found] at found'
      cases found'
      exact is
    · rintro ⟨alone, -⟩
      have is := alone first found
      subst is
      have host := own.mp file.symm
      simp [matchOf, host]

def strayPackage (name version release : String) : PackageEntry :=
  { name := name, arch := "x86_64", version := version, release := release, repolessAnnotation := "no repo" }

/-- An upgrade of a plainly named package is matched. -/
theorem zoom_upgrade_matched :
    matchUploadedRpm [strayPackage "zoom" "6.0" "1"] (buildFilename (strayPackage "zoom" "6.0" "1") "6.1" "2") =
      some (matchOf (strayPackage "zoom" "6.0" "1") "6.1-2") := by
  refine (@upload_matched_iff [strayPackage "zoom" "6.0" "1"] (by simp) (strayPackage "zoom" "6.0" "1")
    List.mem_cons_self (by decide +kernel) (by decide +kernel) "6.1" "2" (by decide +kernel)).mpr ⟨?_, .inr ⟨by decide, ?_⟩⟩
  · intro other found
    rw [show (repoless [strayPackage "zoom" "6.0" "1"]).find? (fun p =>
      buildFilename (strayPackage "zoom" "6.0" "1") "6.1" "2" == nevraFilename p) = none by decide +kernel] at found
    cases found
  · rw [hasVersionStart_iff]
    have none_inside : splitVersion (strayPackage "zoom" "6.0" "1").name.toList = none := by decide +kernel
    rintro ⟨_, _, split⟩
    rw [none_inside] at split
    cases split

/-- An upgrade of `java-1.8.0-openjdk` is taken for one of `java`. -/
theorem openjdk_upgrade_mismatched :
    let java := strayPackage "java" "21" "3"
    let openjdk := strayPackage "java-1.8.0-openjdk" "1.8.0.402" "6"
    buildFilename openjdk "1.8.0.412" "8" = "java-1.8.0-openjdk-1.8.0.412-8.x86_64.rpm" ∧
      matchUploadedRpm [java, openjdk] (buildFilename openjdk "1.8.0.412" "8") ≠
        some (matchOf openjdk "1.8.0.412-8") ∧
      (matchUploadedRpm [java, openjdk] (buildFilename openjdk "1.8.0.412" "8")).map (·.canonical) =
        some "java.x86_64" := by
  decide +kernel

end Inspectah
