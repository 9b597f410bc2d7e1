import Inspectah.Core.Packages

/-!
The tier of a repo by the segments of its id. A keyword counts where dashes or the ends of the id
stand around it; the test reads the first place of the keyword only.
-/
namespace Inspectah

def Delimited (id keyword : String) : Prop :=
  ∃ before after, id.toList = before ++ keyword.toList ++ after ∧
    (before = [] ∨ before.getLast? = some '-') ∧ (after = [] ∨ after.head? = some '-')

def HasSegment (keywords : List String) (id : String) : Prop := ∃ k ∈ keywords, Delimited id k

structure TierBySegments (sectionId : String) : Prop where
  folded : ∀ other, Text.asciiLower other = Text.asciiLower sectionId →
    repoTier other = repoTier sectionId
  distro : repoTier sectionId = .distro ↔ Text.asciiLower sectionId ∈ DISTRO_REPOS ∨
    Text.asciiLower sectionId ∉ OFFICIAL_OPTIONAL_REPOS ∧
      HasSegment DISTRO_REPO_KEYWORDS (Text.asciiLower sectionId)
  officialOptional : repoTier sectionId = .officialOptional ↔
    Text.asciiLower sectionId ∈ OFFICIAL_OPTIONAL_REPOS ∨
      Text.asciiLower sectionId ∉ DISTRO_REPOS ∧
        HasSegment OFFICIAL_OPTIONAL_KEYWORDS (Text.asciiLower sectionId) ∧
          ¬HasSegment DISTRO_REPO_KEYWORDS (Text.asciiLower sectionId)

structure FirstPlacesCount (sectionId : String) : Prop where
  distro : HasSegment DISTRO_REPO_KEYWORDS (Text.asciiLower sectionId) →
    DISTRO_REPO_KEYWORDS.any (containsKeywordSegment (Text.asciiLower sectionId)) = true
  officialOptional : ¬HasSegment DISTRO_REPO_KEYWORDS (Text.asciiLower sectionId) →
    HasSegment OFFICIAL_OPTIONAL_KEYWORDS (Text.asciiLower sectionId) →
      OFFICIAL_OPTIONAL_KEYWORDS.any
        (containsKeywordSegment (Text.asciiLower sectionId)) = true

theorem delimited_of_first {id keyword : String}
    (first : containsKeywordSegment id keyword = true) : Delimited id keyword := by
  rw [containsKeywordSegment] at first
  split at first
  · next before after found =>
    rw [Bool.and_eq_true, Bool.or_eq_true, Bool.or_eq_true, List.isEmpty_iff, List.isEmpty_iff,
      beq_iff_eq, beq_iff_eq] at first
    exact ⟨before, after, findChars_split found, first⟩
  · cases first

theorem hasSegment_of_any {keywords : List String} {id : String}
    (any : keywords.any (containsKeywordSegment id) = true) : HasSegment keywords id := by
  obtain ⟨k, listed, first⟩ := List.any_eq_true.mp any
  exact ⟨k, listed, delimited_of_first first⟩

theorem not_hasSegment {keywords : List String} {id : String}
    (none : keywords.all fun k => !Text.contains id k) : ¬HasSegment keywords id := by
  rintro ⟨k, listed, before, after, whole, -⟩
  have absent := List.all_eq_true.mp none k listed
  rw [Bool.not_eq_true', Text.contains, ← Bool.not_eq_true, containsChars_iff] at absent
  exact absent ⟨before, after, whole.symm⟩

theorem isEmpty_of_folded {a b : String} (same : Text.asciiLower a = Text.asciiLower b) :
    a.isEmpty = b.isEmpty := by
  have chars : (a.toList.map Char.toLower).length = (b.toList.map Char.toLower).length := by
    have lists := congrArg String.toList same
    rw [Text.asciiLower, Text.asciiLower, String.toList_ofList, String.toList_ofList] at lists
    rw [lists]
  rw [List.length_map, List.length_map] at chars
  rw [Bool.eq_iff_iff, String.isEmpty_iff, String.isEmpty_iff, ← String.toList_eq_nil_iff,
    ← String.toList_eq_nil_iff, ← List.length_eq_zero_iff, ← List.length_eq_zero_iff, chars]

theorem repoTier_folded {a b : String} (same : Text.asciiLower a = Text.asciiLower b) :
    repoTier a = repoTier b := by
  rw [repoTier, repoTier, isEmpty_of_folded same, same]

theorem repoTier_distro {id : String} : repoTier id = .distro ↔
    Text.asciiLower id ∈ DISTRO_REPOS ∨ Text.asciiLower id ∉ OFFICIAL_OPTIONAL_REPOS ∧
      DISTRO_REPO_KEYWORDS.any (containsKeywordSegment (Text.asciiLower id)) = true := by
  rw [repoTier]
  split
  · next empty =>
    rw [String.isEmpty_iff.mp empty]
    decide +kernel
  · dsimp only
    split
    · next commandline =>
      rw [commandline]
      decide +kernel
    · simp only [List.contains_iff_mem]
      split
      · next listed => simp [listed]
      · next unlisted =>
        split
        · next listed => simp [unlisted, listed]
        · next optional =>
          split
          · next first => simp [first, optional]
          · next not_first => split <;> simp [unlisted, not_first]

theorem repoTier_officialOptional {id : String} : repoTier id = .officialOptional ↔
    Text.asciiLower id ∈ OFFICIAL_OPTIONAL_REPOS ∨ Text.asciiLower id ∉ DISTRO_REPOS ∧
      OFFICIAL_OPTIONAL_KEYWORDS.any (containsKeywordSegment (Text.asciiLower id)) = true ∧
        ¬DISTRO_REPO_KEYWORDS.any (containsKeywordSegment (Text.asciiLower id)) = true := by
  rw [repoTier]
  split
  · next empty =>
    rw [String.isEmpty_iff.mp empty]
    decide +kernel
  · dsimp only
    split
    · next commandline =>
      rw [commandline]
      decide +kernel
    · simp only [List.contains_iff_mem]
      split
      · next listed =>
        have apart : Text.asciiLower id ∉ OFFICIAL_OPTIONAL_REPOS := by
          have each : ∀ name ∈ DISTRO_REPOS, name ∉ OFFICIAL_OPTIONAL_REPOS := by decide +kernel
          exact each _ listed
        simp [listed, apart]
      · next unlisted =>
        split
        · next listed => simp [listed]
        · next optional =>
          split
          · next first => simp [first, optional]
          · next not_first => split <;> simp_all

theorem exact_first {id : String} (listed : id ∈ DISTRO_REPOS ++ OFFICIAL_OPTIONAL_REPOS)
    {keywords : List String} (tier : keywords = DISTRO_REPO_KEYWORDS ∨
      keywords = OFFICIAL_OPTIONAL_KEYWORDS) (some : HasSegment keywords id) :
    keywords.any (containsKeywordSegment id) = true := by
  have each : ∀ id ∈ DISTRO_REPOS ++ OFFICIAL_OPTIONAL_REPOS,
      ∀ keywords ∈ [DISTRO_REPO_KEYWORDS, OFFICIAL_OPTIONAL_KEYWORDS],
        keywords.any (containsKeywordSegment id) = true ∨
          (keywords.all fun k => !Text.contains id k) = true := by decide +kernel
  exact (each id listed keywords (by simpa using tier)).resolve_right fun none =>
    not_hasSegment none some

end Inspectah
