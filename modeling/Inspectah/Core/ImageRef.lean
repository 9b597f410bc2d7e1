import Inspectah.Core.Text

/-!
References to container images: the reference a raw one is normalized to, and the parts that a
reference names. What a normalized reference promises its consumers, and when it does.
-/
namespace Inspectah

variable (r : String)

def TRANSPORT_PREFIXES : List String :=
  ["ostree-image-signed:docker://", "docker://", "containers-storage:"]

def stripTransportPrefix (s : String) : String :=
  (TRANSPORT_PREFIXES.findSome? fun transport => Text.afterPrefix s transport).getD s

/-- A colon after the last slash. -/
def refHasTag : Bool :=
  match Text.rsplitOnce '/' r with
  | some (_, last) => last.toList.contains ':'
  | none => r.toList.contains ':'

/-- The sixth is the backquote. -/
def SHELL_METACHARACTERS : List Char :=
  ['$', '\x60', '|', ';', '&', '(', ')', '\x7b', '\x7d', '<', '>', '\n', '\r', '!', '#']

structure NormalizedImageRef where
  refString : String
  deriving DecidableEq

inductive NormalizationError where
  | empty
  | invalidCharacters (reference : String)
  | notFullyQualified (reference : String)
  | localOnly (reference : String)
  deriving DecidableEq

def NormalizationError.text : NormalizationError → String
  | .empty => "image reference is empty"
  | .invalidCharacters s => "invalid characters in reference: " ++ s
  | .notFullyQualified s => "reference not fully qualified: " ++ s
  | .localOnly s => "local-only reference not allowed: " ++ s

def normalizeImageRef (raw : String) : Except NormalizationError NormalizedImageRef :=
  if raw.isEmpty then .error .empty
  else if raw.toList.any Text.isWhitespace then .error (.invalidCharacters raw)
  else if raw.toList.any SHELL_METACHARACTERS.contains then .error (.invalidCharacters raw)
  else
    let working := stripTransportPrefix raw
    if Text.startsWith working "localhost/" then .error (.localOnly working)
    else if Text.startsWith raw "containers-storage:" then .error (.localOnly working)
    else
      match Text.splitOnce '/' working with
      | none => .error (.notFullyQualified working)
      | some (firstComponent, _) =>
        if !firstComponent.toList.contains '.' && !firstComponent.toList.contains ':' then
          .error (.notFullyQualified working)
        else if working.toList.contains '@' then .ok ⟨working⟩
        else if refHasTag working then .ok ⟨working⟩
        else .ok ⟨working ++ ":latest"⟩

def upTo (sep : Char) (s : String) : String :=
  match Text.splitOnce sep s with
  | some (before, _) => before
  | none => s

def lastComponent : String :=
  match Text.rsplitOnce '/' r with
  | some (_, last) => last
  | none => r

def digestOf : Option String :=
  (Text.splitOnce '@' (lastComponent r)).map (·.2)

def tagOf : Option String :=
  (Text.splitOnce ':' (upTo '@' (lastComponent r))).map (·.2)

def imageName : String := upTo ':' (upTo '@' (lastComponent r))

def registryOf : Option String := (Text.splitOnce '/' r).map (·.1)

/-- What stands between the registry and the tag or digest. -/
def repositoryPath : String :=
  match Text.splitOnce '/' r with
  | none => ""
  | some (_, rest) =>
    match Text.rsplitOnce '/' rest with
    | none => imageName r
    | some (dirs, _) => dirs ++ "/" ++ imageName r

def IsClean : Prop :=
  ∀ c ∈ r.toList, Text.isWhitespace c = false ∧ c ∉ SHELL_METACHARACTERS

def HasRegistry : Prop :=
  ∃ registry ∈ registryOf r, '.' ∈ registry.toList ∨ ':' ∈ registry.toList

def IsPinned : Prop :=
  (∃ digest ∈ digestOf r, digest ≠ "") ∨ ∃ tag ∈ tagOf r, tag ≠ ""

/-- What consumers of a normalized reference rely on. -/
structure IsNormalized (raw r : String) : Prop where
  settled : normalizeImageRef r = .ok ⟨r⟩
  bare : ∀ transport ∈ TRANSPORT_PREFIXES, Text.startsWith r transport = false
  clean : IsClean r
  remote : Text.startsWith r "localhost/" = false
  registry : HasRegistry r
  path : repositoryPath r ≠ ""
  pinned : IsPinned r
  tagKept : ∀ tag ∈ tagOf raw, tagOf r = some tag
  digestKept : ∀ digest ∈ digestOf raw, digestOf r = some digest

structure PassesChecks (raw : String) : Prop where
  clean : IsClean raw
  remote : Text.startsWith (stripTransportPrefix raw) "localhost/" = false
  stored : Text.startsWith raw "containers-storage:" = false
  registry : HasRegistry (stripTransportPrefix raw)

/-- One transport at most, some path, and a digest or a tag wherever one is announced. -/
structure IsWellWritten (working : String) : Prop where
  bare : ∀ transport ∈ TRANSPORT_PREFIXES, Text.startsWith working transport = false
  path : repositoryPath working ≠ ""
  announced : '@' ∈ working.toList ∨ refHasTag working = true → IsPinned working

theorem splitOnce_behind {sep : Char} {s before after : String}
    (found : Text.splitOnce sep s = some (before, after)) (t : String) :
    Text.splitOnce sep (s ++ t) = some (before, after ++ t) := by
  obtain ⟨whole, plain⟩ := splitOnce_some found
  have parts : s ++ t = before ++ (String.singleton sep ++ (after ++ t)) := by
    apply String.toList_inj.mp
    simp [whole]
  rw [parts, splitOnce_append fun mem => plain sep mem rfl]

theorem lastComponent_behind {t : String} (plain : '/' ∉ t.toList) (r : String) :
    lastComponent (r ++ t) = lastComponent r ++ t := by
  rw [lastComponent, lastComponent, rsplitOnce_concat plain]
  cases Text.rsplitOnce '/' r <;> rfl

theorem lastComponent_after {r : String} (slash : '/' ∈ r.toList) (t : String) :
    lastComponent (t ++ r) = lastComponent r := by
  obtain ⟨before, last, rfl, plain⟩ := exists_lastCut slash
  rw [lastComponent, lastComponent, ← String.append_assoc, rsplitOnce_append plain,
    rsplitOnce_append plain]

theorem mem_of_mem_lastComponent {r : String} {c : Char} (mem : c ∈ (lastComponent r).toList) :
    c ∈ r.toList := by
  by_cases slash : '/' ∈ r.toList
  · obtain ⟨before, last, rfl, plain⟩ := exists_lastCut slash
    rw [lastComponent, rsplitOnce_append plain] at mem
    simp [mem]
  · rwa [lastComponent, rsplitOnce_plain slash] at mem

theorem refHasTag_iff {r : String} : refHasTag r = true ↔ ':' ∈ (lastComponent r).toList := by
  rw [refHasTag, lastComponent]
  cases Text.rsplitOnce '/' r with
  | none => simp
  | some cut => simp

theorem untagged_lastComponent {r : String} (untagged : refHasTag r = false) :
    ':' ∉ (lastComponent r).toList := fun mem => by
  rw [refHasTag_iff.mpr mem] at untagged
  cases untagged

theorem slash_of_hasRegistry {r : String} (registry : HasRegistry r) : '/' ∈ r.toList := by
  obtain ⟨first, named, -⟩ := registry
  obtain ⟨cut, found, -⟩ := Option.map_eq_some_iff.mp named
  rw [(splitOnce_some found).1]
  simp

theorem isClean_iff {r : String} :
    IsClean r ↔ r.toList.any Text.isWhitespace = false ∧
      r.toList.any SHELL_METACHARACTERS.contains = false := by
  simp only [IsClean, List.any_eq_false, List.contains_iff_mem, Bool.not_eq_true]
  exact ⟨fun clean => ⟨fun c mem => (clean c mem).1, fun c mem => (clean c mem).2⟩,
    fun clean c mem => ⟨clean.1 c mem, clean.2 c mem⟩⟩

section Latest

variable {w : String} (unsigned : '@' ∉ w.toList) (untagged : refHasTag w = false)

include untagged in
theorem splitOnce_latest : Text.splitOnce ':' (lastComponent w ++ ":latest") =
    some (lastComponent w, "latest") :=
  splitOnce_append (untagged_lastComponent untagged) "latest"

include unsigned

theorem upTo_lastComponent : upTo '@' (lastComponent w) = lastComponent w := by
  rw [upTo, splitOnce_plain fun mem => unsigned (mem_of_mem_lastComponent mem)]

theorem lastComponent_latest :
    upTo '@' (lastComponent (w ++ ":latest")) = lastComponent w ++ ":latest" := by
  have longer : '@' ∉ (w ++ ":latest").toList := by simp [unsigned]
  rw [upTo_lastComponent longer, lastComponent_behind (by decide)]

include untagged

theorem tagOf_latest : tagOf (w ++ ":latest") = some "latest" := by
  rw [tagOf, lastComponent_latest unsigned, splitOnce_latest untagged]
  rfl

theorem imageName_latest : imageName (w ++ ":latest") = imageName w := by
  rw [imageName, imageName, lastComponent_latest unsigned, upTo_lastComponent unsigned, upTo,
    splitOnce_latest untagged, upTo,
    splitOnce_plain (untagged_lastComponent untagged)]

theorem repositoryPath_latest (slash : '/' ∈ w.toList) :
    repositoryPath (w ++ ":latest") = repositoryPath w := by
  obtain ⟨first, rest, whole, plain⟩ := exists_firstCut slash
  have found : Text.splitOnce '/' w = some (first, rest) := by
    rw [whole, splitOnce_append plain]
  rw [repositoryPath, repositoryPath, imageName_latest unsigned untagged, splitOnce_behind found,
    found]
  dsimp only
  rw [rsplitOnce_concat (by decide)]
  cases Text.rsplitOnce '/' rest <;> rfl

end Latest

/-- What a reference that passes the checks becomes. -/
def defaultTagged (w : String) : String :=
  if '@' ∈ w.toList ∨ refHasTag w = true then w else w ++ ":latest"

theorem defaultTagged_eq_ite (w : String) : defaultTagged w =
    if w.toList.contains '@' then w else if refHasTag w then w else w ++ ":latest" := by
  rw [defaultTagged]
  by_cases signed : '@' ∈ w.toList <;> simp [signed]

theorem defaultTagged_cases (w : String) :
    ('@' ∈ w.toList ∨ refHasTag w = true) ∧ defaultTagged w = w ∨
      '@' ∉ w.toList ∧ refHasTag w = false ∧ defaultTagged w = w ++ ":latest" := by
  by_cases told : '@' ∈ w.toList ∨ refHasTag w = true
  · exact .inl ⟨told, if_pos told⟩
  · refine .inr ⟨fun signed => told (.inl signed), ?_, if_neg told⟩
    exact Bool.eq_false_iff.mpr fun has => told (.inr has)

theorem defaultTagged_eq_append (w : String) : ∃ t, defaultTagged w = w ++ t := by
  rcases defaultTagged_cases w with ⟨-, same⟩ | ⟨-, -, same⟩
  · exact ⟨"", by rw [same, String.append_empty]⟩
  · exact ⟨_, same⟩

section Tagged

variable {w : String}

theorem defaultTagged_tagged : defaultTagged (defaultTagged w) = defaultTagged w := by
  rcases defaultTagged_cases w with ⟨told, same⟩ | ⟨unsigned, untagged, same⟩
  · rw [same, same]
  · have has : refHasTag (w ++ ":latest") = true := by
      rw [refHasTag_iff, lastComponent_behind (by decide)]
      simp
    rw [same, defaultTagged, if_pos (.inr has)]

theorem startsWith_tagged (slash : '/' ∈ w.toList) {t : String}
    (colon : ':' ∉ t.toList.dropWhile (· != '/')) :
    Text.startsWith (defaultTagged w) t = Text.startsWith w t := by
  rcases defaultTagged_cases w with ⟨-, same⟩ | ⟨-, -, same⟩
  · rw [same]
  · rw [same, Bool.eq_iff_iff, Text.startsWith_iff, Text.startsWith_iff, String.toList_append]
    refine ⟨fun starts => ?_, fun starts => starts.trans (List.prefix_append _ _)⟩
    rcases List.prefix_or_prefix_of_prefix starts (List.prefix_append _ _) with
      within | ⟨more, whole⟩
    · exact within
    · cases more with
      | nil => rw [← whole, List.append_nil]
      | cons c more =>
        have begun : c :: more <+: ":latest".toList := by
          rwa [← whole, List.prefix_append_right_inj] at starts
        have first : c = ':' := (List.cons_prefix_cons.mp begun).1
        refine absurd ?_ colon
        have stays : (List.dropWhile (· != '/') w.toList).isEmpty = false := by
          rw [List.isEmpty_eq_false_iff, Ne, List.dropWhile_eq_nil_iff]
          exact fun all => absurd (all _ slash) (by decide)
        rw [← whole, first, List.dropWhile_append, if_neg (by simp [stays])]
        simp

theorem repositoryPath_tagged (slash : '/' ∈ w.toList) :
    repositoryPath (defaultTagged w) = repositoryPath w := by
  rcases defaultTagged_cases w with ⟨-, same⟩ | ⟨unsigned, untagged, same⟩
  · rw [same]
  · rw [same, repositoryPath_latest unsigned untagged slash]

theorem isClean_tagged (clean : IsClean w) : IsClean (defaultTagged w) := by
  rcases defaultTagged_cases w with ⟨-, same⟩ | ⟨-, -, same⟩
  · rwa [same]
  · rw [same]
    intro c mem
    rcases List.mem_append.mp (String.toList_append ▸ mem) with inside | latest
    · exact clean c inside
    · have all : ∀ c ∈ ":latest".toList, Text.isWhitespace c = false ∧
          c ∉ SHELL_METACHARACTERS := by decide
      exact all c latest

theorem hasRegistry_tagged (registry : HasRegistry w) : HasRegistry (defaultTagged w) := by
  obtain ⟨first, named, marked⟩ := registry
  obtain ⟨⟨_, after⟩, found, rfl⟩ := Option.map_eq_some_iff.mp named
  obtain ⟨t, same⟩ := defaultTagged_eq_append w
  refine ⟨_, ?_, marked⟩
  rw [same, registryOf, splitOnce_behind found]
  rfl

theorem isPinned_tagged (announced : '@' ∈ w.toList ∨ refHasTag w = true → IsPinned w) :
    IsPinned (defaultTagged w) := by
  rcases defaultTagged_cases w with ⟨told, same⟩ | ⟨unsigned, untagged, same⟩
  · rw [same]
    exact announced told
  · rw [same]
    refine .inr ⟨"latest", ?_, ?_⟩
    · exact Option.mem_def.mpr (tagOf_latest unsigned untagged)
    · decide

theorem tagOf_tagged {tag : String} (given : tagOf w = some tag) :
    tagOf (defaultTagged w) = some tag := by
  rcases defaultTagged_cases w with ⟨-, same⟩ | ⟨unsigned, untagged, same⟩
  · rw [same]
    exact given
  · rw [tagOf, upTo_lastComponent unsigned, splitOnce_plain (untagged_lastComponent untagged)]
      at given
    cases given

theorem digestOf_tagged {digest : String} (given : digestOf w = some digest) :
    digestOf (defaultTagged w) = some digest := by
  rcases defaultTagged_cases w with ⟨-, same⟩ | ⟨unsigned, untagged, same⟩
  · rw [same]
    exact given
  · rw [digestOf, splitOnce_plain fun mem => unsigned (mem_of_mem_lastComponent mem)] at given
    cases given

end Tagged

theorem exists_transport (raw : String) : ∃ t, raw = t ++ stripTransportPrefix raw := by
  rw [stripTransportPrefix]
  cases found : TRANSPORT_PREFIXES.findSome? fun transport => Text.afterPrefix raw transport with
  | none => exact ⟨"", by simp⟩
  | some rest =>
    obtain ⟨transport, -, cut⟩ := List.exists_of_findSome?_eq_some found
    refine ⟨transport, String.toList_inj.mp ?_⟩
    rw [afterPrefix_some cut]
    simp

theorem stripTransportPrefix_bare {r : String}
    (bare : ∀ transport ∈ TRANSPORT_PREFIXES, Text.startsWith r transport = false) :
    stripTransportPrefix r = r := by
  have none : TRANSPORT_PREFIXES.findSome? (fun transport => Text.afterPrefix r transport) =
      none := by
    rw [List.findSome?_eq_none_iff]
    intro transport mem
    rw [Text.afterPrefix, if_neg (by simp [bare transport mem])]
  rw [stripTransportPrefix, none, Option.getD_none]

theorem normalizeImageRef_iff {raw : String} {r : NormalizedImageRef} :
    normalizeImageRef raw = .ok r ↔
      PassesChecks raw ∧ r = ⟨defaultTagged (stripTransportPrefix raw)⟩ := by
  constructor
  · intro normalized
    unfold normalizeImageRef at normalized
    split at normalized
    · cases normalized
    split at normalized
    · cases normalized
    split at normalized
    · cases normalized
    next blank special =>
    dsimp only at normalized
    split at normalized
    · cases normalized
    split at normalized
    · cases normalized
    next distant stored =>
    split at normalized
    · cases normalized
    next first rest found =>
    split at normalized
    · cases normalized
    next marked =>
    have clean : IsClean raw := by
      refine isClean_iff.mpr ⟨?_, ?_⟩
      · exact Bool.eq_false_iff.mpr blank
      · exact Bool.eq_false_iff.mpr special
    have registry : HasRegistry (stripTransportPrefix raw) := by
      refine ⟨first, Option.mem_def.mpr ?_, ?_⟩
      · rw [registryOf, found]
        rfl
      · by_contra none
        rw [not_or] at none
        exact marked (by simp [none])
    refine ⟨⟨clean, Bool.eq_false_iff.mpr distant, Bool.eq_false_iff.mpr stored, registry⟩, ?_⟩
    rw [defaultTagged_eq_ite]
    split at normalized
    next signed =>
      cases normalized
      rw [if_pos signed]
    next unsigned =>
      rw [if_neg unsigned]
      split at normalized
      next has =>
        cases normalized
        rw [if_pos has]
      next bare =>
        cases normalized
        rw [if_neg bare]
  · rintro ⟨⟨clean, remote, stored, registry⟩, rfl⟩
    have slash := slash_of_hasRegistry registry
    obtain ⟨_, named, marked⟩ := registry
    obtain ⟨⟨first, after⟩, found, rfl⟩ := Option.map_eq_some_iff.mp named
    have filled : raw.isEmpty = false := by
      obtain ⟨t, whole⟩ := exists_transport raw
      rw [← Bool.not_eq_true, String.isEmpty_iff]
      intro empty
      have mem : '/' ∈ raw.toList := by
        rw [whole]
        simp [slash]
      rw [empty] at mem
      cases mem
    obtain ⟨blank, special⟩ := isClean_iff.mp clean
    have known : ¬ (!first.toList.contains '.' && !first.toList.contains ':') = true := by
      rcases marked with dot | colon
      · simp [dot]
      · simp [colon]
    unfold normalizeImageRef
    rw [filled, blank, special, if_neg Bool.false_ne_true, if_neg Bool.false_ne_true,
      if_neg Bool.false_ne_true]
    dsimp only
    rw [remote, stored, if_neg Bool.false_ne_true, if_neg Bool.false_ne_true, found]
    dsimp only
    rw [if_neg known, defaultTagged_eq_ite]
    split
    · rfl
    · split <;> rfl

theorem isNormalized_iff {raw : String} (passes : PassesChecks raw) :
    IsNormalized raw (defaultTagged (stripTransportPrefix raw)) ↔
      IsWellWritten (stripTransportPrefix raw) := by
  have slash := slash_of_hasRegistry passes.registry
  have colon : ∀ transport ∈ TRANSPORT_PREFIXES,
      ':' ∉ transport.toList.dropWhile (· != '/') := by decide
  constructor
  · intro normal
    refine ⟨fun transport mem => ?_, ?_, fun told => ?_⟩
    · rw [← startsWith_tagged slash (colon transport mem)]
      exact normal.bare transport mem
    · rw [← repositoryPath_tagged slash]
      exact normal.path
    · have same : defaultTagged (stripTransportPrefix raw) = stripTransportPrefix raw := if_pos told
      rw [← same]
      exact normal.pinned
  · intro written
    have bare : ∀ transport ∈ TRANSPORT_PREFIXES,
        Text.startsWith (defaultTagged (stripTransportPrefix raw)) transport = false := by
      intro transport mem
      rw [startsWith_tagged slash (colon transport mem)]
      exact written.bare transport mem
    have clean : IsClean (defaultTagged (stripTransportPrefix raw)) := by
      obtain ⟨t, whole⟩ := exists_transport raw
      refine isClean_tagged fun c mem => passes.clean c ?_
      rw [whole]
      simp [mem]
    have remote :
        Text.startsWith (defaultTagged (stripTransportPrefix raw)) "localhost/" = false := by
      rw [startsWith_tagged slash (by decide)]
      exact passes.remote
    have registry := hasRegistry_tagged passes.registry
    have same := stripTransportPrefix_bare bare
    have settled : normalizeImageRef (defaultTagged (stripTransportPrefix raw)) =
        .ok ⟨defaultTagged (stripTransportPrefix raw)⟩ := by
      refine normalizeImageRef_iff.mpr ⟨⟨clean, ?_, ?_, ?_⟩, ?_⟩
      · rw [same]
        exact remote
      · exact bare _ (by decide)
      · rw [same]
        exact registry
      · rw [same, defaultTagged_tagged]
    have last : lastComponent raw = lastComponent (stripTransportPrefix raw) := by
      obtain ⟨t, whole⟩ := exists_transport raw
      conv_lhs => rw [whole]
      exact lastComponent_after slash t
    refine ⟨settled, bare, clean, remote, registry, ?_, isPinned_tagged written.announced, ?_, ?_⟩
    · rw [repositoryPath_tagged slash]
      exact written.path
    · intro tag given
      rw [tagOf, last] at given
      exact tagOf_tagged given
    · intro digest given
      rw [digestOf, last] at given
      exact digestOf_tagged given

/-- Which references are normalized to what a consumer relies on. -/
theorem normalizedRef_iff (raw : String) :
    (∀ r, normalizeImageRef raw = .ok r → IsNormalized raw r.refString) ↔
      (PassesChecks raw → IsWellWritten (stripTransportPrefix raw)) := by
  constructor
  · intro all passes
    exact (isNormalized_iff passes).mp (all _ (normalizeImageRef_iff.mpr ⟨passes, rfl⟩))
  · intro written r normalized
    obtain ⟨passes, rfl⟩ := normalizeImageRef_iff.mp normalized
    exact (isNormalized_iff passes).mpr (written passes)

theorem empty_repository_accepted : ¬ ∀ raw r, normalizeImageRef raw = .ok r →
    IsNormalized raw r.refString := by
  intro all
  have normalized : normalizeImageRef "quay.io/" = .ok ⟨"quay.io/:latest"⟩ := by decide +kernel
  have path := (all _ _ normalized).path
  revert path
  decide +kernel

end Inspectah
