import Inspectah.Refine.UserPreview

/-!
What the masks of the preview hide: a hash from its first `$5$`, `$6$` or `$y$` on, and a blob
where the word before it ends in a key type.
-/
namespace Inspectah

open Replacing
open Words (takeWhile_run)

theorem cryptPattern_eq_some {text put : List Char} {n : Nat} :
    cryptPattern text = some (put, n) ↔ ∃ scheme rest, scheme ∈ ['6', '5', 'y'] ∧
      text = '$' :: scheme :: '$' :: rest ∧ rest.takeWhile (fun c => !isHashEnd c) ≠ [] ∧
      put = REDACTED_SECRET ∧ n = 3 + (rest.takeWhile fun c => !isHashEnd c).length := by
  constructor
  · intro found
    unfold cryptPattern at found
    split at found
    next scheme rest =>
      dsimp only at found
      split at found
      next known =>
        cases found
        rw [Bool.and_eq_true, List.contains_iff_mem] at known
        exact ⟨scheme, rest, known.1, rfl, by simpa using known.2, rfl, rfl⟩
      · cases found
    · cases found
  · rintro ⟨scheme, rest, known, rfl, filled, rfl, rfl⟩
    refine if_pos ?_
    rw [Bool.and_eq_true, List.contains_iff_mem]
    exact ⟨known, by simpa using filled⟩

theorem cryptPattern_eq_none {c : Char} (other : c ≠ '$') (rest : List Char) :
    cryptPattern (c :: rest) = none := by
  cases found : cryptPattern (c :: rest) with
  | none => rfl
  | some result =>
    obtain ⟨scheme, more, -, shape, -⟩ := cryptPattern_eq_some.mp found
    exact absurd (List.cons.inj shape).1 other

theorem head_apart {c : Char} (h : isHashEnd c = true) : c ∉ ['$', '6', '5', 'y'] := by
  intro mem
  have none : ∀ d ∈ ['$', '6', '5', 'y'], isHashEnd d = false := by decide
  rw [none c mem] at h
  cases h

theorem takeWhile_hash {c : Char} (h : isHashEnd c = true) (u v : List Char) :
    (u ++ c :: v).takeWhile (fun d => !isHashEnd d) = u.takeWhile fun d => !isHashEnd d := by
  induction u with
  | nil => simp [h]
  | cons d rest ih => simp only [List.cons_append, List.takeWhile_cons, ih]

theorem cryptPattern_local : IsLocal cryptPattern isHashEnd where
  before := by
    intro u c v ne h
    refine Option.ext fun result => ?_
    obtain ⟨put, n⟩ := result
    rw [cryptPattern_eq_some, cryptPattern_eq_some]
    have apart := head_apart h
    constructor
    · rintro ⟨scheme, rest, known, shape, filled, rfl, rfl⟩
      match u, ne with
      | [d], _ =>
        rw [← (List.cons.inj (List.cons.inj shape).2).1] at known
        exact absurd (List.mem_cons_of_mem '$' known) apart
      | [d, e], _ =>
        rw [(List.cons.inj (List.cons.inj (List.cons.inj shape).2).2).1] at apart
        exact absurd List.mem_cons_self apart
      | d :: e :: f :: u, _ =>
        simp only [List.cons_append, List.cons.injEq] at shape
        obtain ⟨rfl, rfl, rfl, rfl⟩ := shape
        rw [takeWhile_hash h] at filled ⊢
        exact ⟨_, u, known, rfl, filled, rfl, rfl⟩
    · rintro ⟨scheme, rest, known, rfl, filled, rfl, rfl⟩
      refine ⟨scheme, rest ++ c :: v, known, rfl, ?_⟩
      rw [takeWhile_hash h]
      exact ⟨filled, rfl, rfl⟩
  here := fun h => cryptPattern_eq_none (fun same => head_apart h (same ▸ List.mem_cons_self)) _
  length := by
    intro u put n found
    obtain ⟨scheme, rest, -, rfl, -, -, rfl⟩ := cryptPattern_eq_some.mp found
    have short := (List.takeWhile_sublist (l := rest) fun d => !isHashEnd d).length_le
    simp only [List.length_cons]
    omega

theorem areWords_keyTypes : AreWords KEY_TYPES Text.isWhitespace := by
  unfold AreWords
  decide

theorem isHashEnd_blank (c : Char) (h : Text.isWhitespace c = true) : isHashEnd c = true := by
  simp [isHashEnd, h]

theorem redactSensitiveContent_text (content : String) :
    (redactSensitiveContent content).toList = maskText cryptPattern Text.isWhitespace
      (endsIn KEY_TYPES) REDACTED_SECRET content.toList := by
  rw [redactSensitiveContent, String.toList_ofList, sshPattern, replaceAll_behind areWords_keyTypes]
  rfl

/-- The text after masking the hashes of it and what follows is the two apart. -/
def Parts (text : List Char) : Prop := ∀ rest, Replacing.replaceAll cryptPattern (text ++ rest) =
  Replacing.replaceAll cryptPattern text ++ Replacing.replaceAll cryptPattern rest

theorem crypt_quiet {quiet : List Char} (plain : '$' ∉ quiet) (rest : List Char) :
    Replacing.replaceAll cryptPattern (quiet ++ rest) =
      quiet ++ Replacing.replaceAll cryptPattern rest := by
  refine replaceAll_append_miss fun c after suffix => ?_
  refine cryptPattern_eq_none (fun same => plain ?_) _
  exact suffix.subset (same ▸ List.mem_cons_self)

theorem crypt_quiet_self {quiet : List Char} (plain : '$' ∉ quiet) :
    Replacing.replaceAll cryptPattern quiet = quiet := by
  simpa using crypt_quiet plain []

theorem parts_quiet {quiet : List Char} (plain : '$' ∉ quiet) : Parts quiet := by
  intro rest
  rw [crypt_quiet plain, crypt_quiet_self plain]

theorem parts_end {c : Char} (h : isHashEnd c = true) (text : List Char) :
    Parts (text ++ [c]) := by
  intro rest
  rw [List.append_assoc, List.singleton_append, replaceAll_append_cons cryptPattern_local h,
    replaceAll_append_cons cryptPattern_local h, replaceAll_nil, List.append_assoc,
    List.singleton_append]

theorem Parts.append {a b : List Char} (ha : Parts a) (hb : Parts b) : Parts (a ++ b) := by
  intro rest
  rw [List.append_assoc, ha, hb, ha, List.append_assoc]

/-- The text of a hash in front of the first scheme that is masked. -/
def shownOfHash : List Char → Option (List Char)
  | [] => none
  | c :: rest =>
    if (cryptPattern (c :: rest)).isSome then some [] else (shownOfHash rest).map (c :: ·)

/-- The same, or both masked behind the same text. -/
def HashHidden (h h' : String) : Prop :=
  h = h' ∨ ∃ v, shownOfHash h.toList = some v ∧ shownOfHash h'.toList = some v

theorem crypt_hash {hash : List Char} (plain : ∀ c ∈ hash, isHashEnd c = false) :
    Replacing.replaceAll cryptPattern hash =
      match shownOfHash hash with
      | some v => v ++ REDACTED_SECRET
      | none => hash := by
  induction hash with
  | nil => rfl
  | cons c rest ih =>
    rw [shownOfHash]
    cases found : cryptPattern (c :: rest) with
    | none =>
      rw [replaceAll_none found, ih fun d mem => plain d (List.mem_cons_of_mem c mem)]
      cases shownOfHash rest <;> rfl
    | some result =>
      obtain ⟨put, n⟩ := result
      obtain ⟨scheme, more, -, shape, -, rfl, rfl⟩ := cryptPattern_eq_some.mp found
      obtain ⟨rfl, rfl⟩ := List.cons.inj shape
      have all : more.takeWhile (fun d => !isHashEnd d) = more := by
        refine List.takeWhile_eq_self_iff.mpr fun d mem => ?_
        simp [plain d (by simp [mem])]
      have hit : cryptPattern ('$' :: scheme :: '$' :: more) =
          some (REDACTED_SECRET, (scheme :: '$' :: more).length + 1) := by
        rw [found, all, List.length_cons, List.length_cons]
        congr 2
        omega
      rw [replaceAll_some hit, List.drop_length, replaceAll_nil, List.append_nil]
      rfl

theorem shownOfHash_sublist {hash v : List Char} (h : shownOfHash hash = some v) : v <+: hash := by
  induction hash generalizing v with
  | nil => cases h
  | cons c rest ih =>
    rw [shownOfHash] at h
    split at h
    · cases h
      exact List.nil_prefix
    · obtain ⟨more, below, rfl⟩ := Option.map_eq_some_iff.mp h
      exact List.cons_prefix_cons.mpr ⟨rfl, ih below⟩

theorem redactedSecret_plain : ∀ c ∈ REDACTED_SECRET, isHashEnd c = false := by decide

theorem crypt_hash_solid {hash : List Char} (plain : ∀ c ∈ hash, isHashEnd c = false) :
    (∀ c ∈ Replacing.replaceAll cryptPattern hash, isHashEnd c = false) ∧
      (hash ≠ [] → Replacing.replaceAll cryptPattern hash ≠ []) := by
  rw [crypt_hash plain]
  cases shown : shownOfHash hash with
  | none => exact ⟨plain, fun ne => ne⟩
  | some v =>
    refine ⟨fun c mem => ?_, fun _ empty => ?_⟩
    · rcases List.mem_append.mp mem with own | put
      · exact plain c ((shownOfHash_sublist shown).subset own)
      · exact redactedSecret_plain c put
    · exact absurd (List.append_eq_nil_iff.mp empty).2 (by decide)

/-- A hash shows what is in front of the mask, and a hash is never taken for a mask. -/
theorem crypt_hash_iff {h h' : String} (hash : IsHash h) (hash' : IsHash h') :
    Replacing.replaceAll cryptPattern h.toList = Replacing.replaceAll cryptPattern h'.toList ↔
      HashHidden h h' := by
  have bracket : '<' ∈ REDACTED_SECRET := by decide
  have never : ∀ {h : String}, IsHash h → ∀ v, v ++ REDACTED_SECRET ≠ h.toList := by
    intro h hash v same
    exact (hash.2 '<' (same ▸ List.mem_append_right v bracket)).2 rfl
  rw [crypt_hash fun c mem => (hash.2 c mem).1, crypt_hash fun c mem => (hash'.2 c mem).1,
    HashHidden]
  cases shown : shownOfHash h.toList with
  | none =>
    cases shown' : shownOfHash h'.toList with
    | none => simp [String.toList_inj]
    | some v' =>
      refine iff_of_false (fun same => never hash v' same.symm) ?_
      rintro (rfl | ⟨v, none, -⟩)
      · rw [shown] at shown'
        cases shown'
      · cases none
  | some v =>
    cases shown' : shownOfHash h'.toList with
    | none =>
      refine iff_of_false (never hash' v) ?_
      rintro (rfl | ⟨w, -, none⟩)
      · rw [shown] at shown'
        cases shown'
      · cases none
    | some v' =>
      simp only [List.append_cancel_right_eq, Option.some.injEq, exists_eq_left']
      constructor
      · rintro rfl
        exact .inr rfl
      · rintro (rfl | same)
        · rw [shown] at shown'
          exact Option.some.inj shown'
        · exact same.symm

/-- Where the second pass stands behind a text. -/
def keyState (state : Reading Char) (text : List Char) : Reading Char :=
  after Text.isWhitespace (endsIn KEY_TYPES) state text

def AwaitsBlob (text : List Char) : Prop :=
  keyState (.word []) (Replacing.replaceAll cryptPattern text) = .waiting

instance (text : List Char) : Decidable (AwaitsBlob text) :=
  inferInstanceAs (Decidable (keyState _ _ = _))

theorem keyState_append (state : Reading Char) (a b : List Char) :
    keyState state (a ++ b) = keyState (keyState state a) b := after_append state a b

theorem isFresh_keyState {c : Char} (h : Text.isWhitespace c = true) (state : Reading Char)
    (text : List Char) :
    (keyState state (Replacing.replaceAll cryptPattern (text ++ [c]))).IsFresh := by
  rw [replaceAll_append_cons cryptPattern_local (isHashEnd_blank c h), keyState_append]
  exact isFresh_next h _

/-- A word that makes nothing be taken for a blob, however the line above it ends. -/
structure StartsLine (lead : List Char) (read : List Char) : Prop where
  quiet : '$' ∉ lead
  below : keyState (.word []) lead = .word read
  waiting : keyState .waiting lead = .word read

theorem StartsLine.state {lead read : List Char} (starts : StartsLine lead read)
    {state : Reading Char} (fresh : state.IsFresh) (rest : List Char) :
    keyState state (Replacing.replaceAll cryptPattern (lead ++ rest)) =
      keyState (.word read) (Replacing.replaceAll cryptPattern rest) := by
  rw [crypt_quiet starts.quiet, keyState_append]
  rcases fresh with rfl | rfl
  · rw [starts.below]
  · rw [starts.waiting]

def IsLawfulLine (line : SecretLine Char) : Prop :=
  line.Lawful cryptPattern isHashEnd Text.isWhitespace (endsIn KEY_TYPES)

def LineHides (line : SecretLine Char) : Prop :=
  line.Hides cryptPattern Text.isWhitespace (endsIn KEY_TYPES)

theorem lineHides_iff {line : SecretLine Char} (lawful : IsLawfulLine line) :
    LineHides line ↔ masked Text.isWhitespace (endsIn KEY_TYPES) REDACTED_SECRET (.word [])
        (Replacing.replaceAll cryptPattern line.leftText) =
      masked Text.isWhitespace (endsIn KEY_TYPES) REDACTED_SECRET (.word [])
        (Replacing.replaceAll cryptPattern line.rightText) := by
  have nothing : Opens isHashEnd ([] : List Char) := fun c none => nomatch none
  refine Iff.symm ?_
  simpa [LineHides] using masked_line_iff cryptPattern_local isHashEnd_blank lawful (.inl rfl)
    nothing nothing

theorem hash_line {front read behind : List Char} {h h' : String} (parts : Parts front)
    (state : ∀ state : Reading Char, state.IsFresh →
      keyState state (Replacing.replaceAll cryptPattern front) = .word read)
    (ends : Opens isHashEnd behind) (hash : IsHash h) (hash' : IsHash h') :
    IsLawfulLine ⟨front, h.toList, h'.toList, behind⟩ ∧
      (LineHides ⟨front, h.toList, h'.toList, behind⟩ ↔ HashHidden h h') := by
  have solid : ∀ {h : String}, IsHash h → (∀ c ∈ Replacing.replaceAll cryptPattern h.toList,
      isHashEnd c = false) ∧ Replacing.replaceAll cryptPattern h.toList ≠ [] := by
    intro h hash
    obtain ⟨plain, filled⟩ := crypt_hash_solid fun c mem => (hash.2 c mem).1
    exact ⟨plain, filled fun empty => hash.1 (String.toList_inj.mp empty)⟩
  constructor
  · refine ⟨ends, fun secret mem => ?_, fun _ => ?_⟩
    · rcases List.mem_pair.mp mem with rfl | rfl
      · exact ⟨(solid hash).1, fun rest _ => parts _⟩
      · exact ⟨(solid hash').1, fun rest _ => parts _⟩
    · refine ⟨(solid hash).2, (solid hash').2, fun st fresh => ?_⟩
      exact (state st fresh).trans (state _ (.inl rfl)).symm
  · rw [← crypt_hash_iff hash hash', LineHides, SecretLine.Hides]
    exact or_iff_left fun covered => covered read (state _ (.inl rfl))

theorem blob_plain {blob : List Char} (h : IsBlob blob) :
    Replacing.replaceAll cryptPattern blob = blob ∧ ∀ c ∈ blob, isHashEnd c = false := by
  have apart : ∀ {c : Char}, isBase64 c = true → c ≠ '$' ∧ isHashEnd c = false := by
    intro c base
    simp only [isBase64, Bool.or_eq_true, beq_iff_eq] at base
    rcases base with ((letter | rfl) | rfl) | rfl
    · have range := Text.isAlphanum_toNat letter
      refine ⟨fun same => ?_, ?_⟩
      · rw [same] at letter
        exact absurd letter (by decide)
      · simp only [isHashEnd, Text.isWhitespace_alphanum letter, Bool.false_or,
          Bool.or_eq_false_iff, beq_eq_false_iff_ne]
        exact ⟨fun same => absurd (same ▸ letter) (by decide),
          fun same => absurd (same ▸ letter) (by decide)⟩
    · exact ⟨by decide, by decide⟩
    · exact ⟨by decide, by decide⟩
    · exact ⟨by decide, by decide⟩
  exact ⟨crypt_quiet_self fun mem => (apart (h.2 _ mem)).1 rfl, fun c mem => (apart (h.2 c mem)).2⟩

theorem blob_line {front lead read rest behind : List Char} {blob blob' : List Char} {c : Char}
    (starts : StartsLine front read) (blank : Text.isWhitespace c = true)
    (shape : lead = front ++ rest) (spaced : lead.getLast? = some c)
    (ends : Opens isHashEnd behind) (isBlob : IsBlob blob) (isBlob' : IsBlob blob') :
    IsLawfulLine ⟨lead, blob, blob', behind⟩ ∧
      (LineHides ⟨lead, blob, blob', behind⟩ ↔ blob = blob' ∨ AwaitsBlob lead) := by
  obtain ⟨text, rfl⟩ := List.getLast?_eq_some_iff.mp spaced
  obtain ⟨same, plain⟩ := blob_plain isBlob
  obtain ⟨same', plain'⟩ := blob_plain isBlob'
  have parts := parts_end (isHashEnd_blank c blank) text
  constructor
  · refine ⟨ends, fun secret mem => ?_, fun _ => ⟨?_, ?_, fun st fresh => ?_⟩⟩
    · rcases List.mem_pair.mp mem with rfl | rfl
      · exact ⟨same.symm ▸ plain, fun rest _ => parts _⟩
      · exact ⟨same'.symm ▸ plain', fun rest _ => parts _⟩
    · exact same.symm ▸ isBlob.1
    · exact same'.symm ▸ isBlob'.1
    · have apart := starts.state fresh rest
      have start := starts.state (.inl rfl) rest
      rw [← shape] at apart start
      exact apart.trans start.symm
  · have fresh := isFresh_keyState blank (.word []) text
    rw [LineHides, SecretLine.Hides, same, same']
    refine or_congr Iff.rfl ⟨fun covered => ?_, fun awaits read => ?_⟩
    · rcases fresh with word | waiting
      · exact absurd word (covered [])
      · exact waiting
    · intro word
      cases awaits.symm.trans word

def LinesHide (ls ls' : List String) (condition : Prop) : Prop :=
  ∃ lines : List (SecretLine Char), (∀ l ∈ lines, IsLawfulLine l) ∧
    lines.map SecretLine.leftText = ls.map String.toList ∧
    lines.map SecretLine.rightText = ls'.map String.toList ∧
    ((∀ l ∈ lines, LineHides l) ↔ condition)

def sameLine (line : String) : SecretLine Char := ⟨line.toList, [], [], []⟩

theorem linesHide_same (ls : List String) : LinesHide ls ls True := by
  have texts : ∀ line : String, (sameLine line).leftText = line.toList ∧
      (sameLine line).rightText = line.toList := fun line =>
    ⟨List.append_nil line.toList, List.append_nil line.toList⟩
  refine ⟨ls.map sameLine, fun l mem => ?_, ?_, ?_, ?_⟩
  · obtain ⟨line, -, rfl⟩ := List.mem_map.mp mem
    refine ⟨fun c none => (nomatch none), fun secret mem => ?_, fun other => absurd rfl other⟩
    have empty : secret = [] := by simpa [sameLine] using mem
    subst empty
    exact ⟨fun c none => (nomatch none), fun rest ends =>
      replaceAll_append_opens cryptPattern_local ends line.toList⟩
  · rw [List.map_map]
    exact List.map_congr_left fun line _ => (texts line).1
  · rw [List.map_map]
    exact List.map_congr_left fun line _ => (texts line).2
  · refine iff_of_true (fun l mem => ?_) trivial
    obtain ⟨line, -, rfl⟩ := List.mem_map.mp mem
    exact .inl rfl

theorem linesHide_line {line : SecretLine Char} (lawful : IsLawfulLine line) {l l' : String}
    (left : line.leftText = l.toList) (right : line.rightText = l'.toList) :
    LinesHide [l] [l'] (LineHides line) :=
  ⟨[line], List.forall_mem_singleton.mpr lawful, congrArg (fun text => [text]) left,
    congrArg (fun text => [text]) right, List.forall_mem_singleton⟩

theorem LinesHide.append {a a' b b' : List String} {p q : Prop} (ha : LinesHide a a' p)
    (hb : LinesHide b b' q) : LinesHide (a ++ b) (a' ++ b') (p ∧ q) := by
  obtain ⟨lines, lawful, left, right, hides⟩ := ha
  obtain ⟨more, lawful_more, left_more, right_more, hides_more⟩ := hb
  refine ⟨lines ++ more, List.forall_mem_append.mpr ⟨lawful, lawful_more⟩, ?_, ?_, ?_⟩
  · rw [List.map_append, List.map_append, left, left_more]
  · rw [List.map_append, List.map_append, right, right_more]
  · rw [List.forall_mem_append, hides, hides_more]

theorem LinesHide.congr {ls ls' : List String} {p q : Prop} (h : LinesHide ls ls' p)
    (same : p ↔ q) : LinesHide ls ls' q := by
  obtain ⟨lines, lawful, left, right, hides⟩ := h
  exact ⟨lines, lawful, left, right, hides.trans same⟩

theorem linesHide_flatMap {β : Type} {alike hidden : β → β → Prop} {f : β → List String}
    (each : ∀ a b, alike a b → LinesHide (f a) (f b) (hidden a b)) {as bs : List β}
    (all : List.Forall₂ alike as bs) :
    LinesHide (as.flatMap f) (bs.flatMap f) (List.Forall₂ hidden as bs) := by
  induction all with
  | nil => exact (linesHide_same []).congr (by simp)
  | cons first rest ih =>
    rw [List.flatMap_cons, List.flatMap_cons]
    exact ((each _ _ first).append ih).congr List.forall₂_cons.symm

theorem redact_lines_iff {ls ls' : List String} {condition : Prop}
    (h : LinesHide ls ls' condition) :
    redactSensitiveContent ("\n".intercalate ls) = redactSensitiveContent ("\n".intercalate ls') ↔
      condition := by
  obtain ⟨lines, lawful, left, right, hides⟩ := h
  rw [← String.toList_inj, redactSensitiveContent_text, redactSensitiveContent_text,
    String.toList_intercalate, String.toList_intercalate, ← left, ← right, ← hides]
  exact maskText_lines_iff cryptPattern_local isHashEnd_blank (by decide) lines lawful

def KeyHidden (front : String) (k k' : String) : Prop :=
  k = k' ∨ ∃ key : KeyLine, ∃ blob blob', IsBlob blob ∧ IsBlob blob' ∧ k = key.text blob ∧
    k' = key.text blob' ∧ AwaitsBlob (front.toList ++ key.lead)

theorem KeyLine.toList_text (key : KeyLine) (blob : List Char) :
    (key.text blob).toList = key.lead ++ (blob ++ key.comment) := String.toList_ofList

theorem KeyLine.last (key : KeyLine) :
    ∃ c, key.lead.getLast? = some c ∧ Text.isWhitespace c = true := by
  obtain ⟨gap, c, shape⟩ := (List.eq_nil_or_concat' key.gap).resolve_left key.blank.1
  refine ⟨c, ?_, key.blank.2 c (shape ▸ List.mem_append_right gap List.mem_cons_self)⟩
  rw [KeyLine.lead, shape, List.getLast?_append_of_ne_nil _ (by simp), List.getLast?_concat]

theorem linesHide_key {lead read rest : List Char} {front : String} (starts : StartsLine lead read)
    (shape : front.toList = lead ++ rest) {k k' : String} (alike : KeyAlike k k') :
    LinesHide [front ++ k ++ "\""] [front ++ k' ++ "\""] (KeyHidden front k k') := by
  have quoted : ∀ key : KeyLine, Opens isHashEnd (key.comment ++ ['"']) := by
    intro key
    refine Opens.append (fun c first => isHashEnd_blank c (key.behind c first)) fun c first => ?_
    rw [← Option.some.inj first]
    decide
  have shape_lead : ∀ key : KeyLine, front.toList ++ key.lead = lead ++ (rest ++ key.lead) := by
    intro key
    rw [shape, List.append_assoc]
  have line : ∀ (key : KeyLine) {blob blob' : List Char}, IsBlob blob → IsBlob blob' →
      IsLawfulLine ⟨front.toList ++ key.lead, blob, blob', key.comment ++ ['"']⟩ ∧
      (LineHides ⟨front.toList ++ key.lead, blob, blob', key.comment ++ ['"']⟩ ↔
        blob = blob' ∨ AwaitsBlob (front.toList ++ key.lead)) := by
    intro key blob blob' isBlob isBlob'
    obtain ⟨c, last, blank⟩ := key.last
    refine blob_line starts blank (shape_lead key) ?_ (quoted key) isBlob isBlob'
    rw [List.getLast?_append, last]
    rfl
  have text : ∀ (key : KeyLine) (blob : List Char), (front ++ key.text blob ++ "\"").toList =
      front.toList ++ key.lead ++ (blob ++ (key.comment ++ ['"'])) := by
    intro key blob
    rw [String.toList_append, String.toList_append, key.toList_text, List.append_assoc,
      List.append_assoc, List.append_assoc, List.append_assoc]
    rfl
  rcases alike with rfl | ⟨key, blob, blob', isBlob, isBlob', rfl, rfl⟩
  · exact (linesHide_same _).congr (by simp [KeyHidden])
  · obtain ⟨lawful, hides⟩ := line key isBlob isBlob'
    have shown := linesHide_line lawful (text key blob).symm (text key blob').symm
    refine shown.congr ⟨fun h => ?_, ?_⟩
    · rcases hides.mp h with rfl | awaits
      · exact .inl rfl
      · exact .inr ⟨key, blob, blob', isBlob, isBlob', rfl, rfl, awaits⟩
    · rintro (same | ⟨other, b, b', isB, isB', left, right, awaits⟩)
      · rw [KeyLine.text, KeyLine.text, String.ofList_inj, List.append_cancel_left_eq,
          List.append_cancel_right_eq] at same
        exact hides.mpr (.inl same)
      · obtain ⟨lawful_other, hides_other⟩ := line other isB isB'
        have shown := (lineHides_iff lawful_other).mp (hides_other.mpr (.inr awaits))
        rw [lineHides_iff lawful]
        have eqs : ∀ {b : List Char} {blob : List Char}, key.text blob = other.text b →
            front.toList ++ other.lead ++ (b ++ (other.comment ++ ['"'])) =
              front.toList ++ key.lead ++ (blob ++ (key.comment ++ ['"'])) := by
          intro b blob same
          rw [← text, ← text, same]
        have first := eqs left
        have second := eqs right
        simp only [SecretLine.leftText, SecretLine.rightText] at shown ⊢
        rwa [first, second] at shown

/-- What the kickstart writes in front of a key. -/
def sshkeyFront (name : String) : String := "sshkey --username=" ++ name ++ " \""

structure SecretsHidden (u u' : Json) : Prop where
  hash : HashHidden (strField u "password_hash") (strField u' "password_hash")
  keys : List.Forall₂ (KeyHidden (sshkeyFront (strField u "name"))) (sshKeys u) (sshKeys u')
  first : List.Forall₂ (KeyHidden "key = \"") ((sshKeys u).take 1) ((sshKeys u').take 1)

/-- The secrets of an account that is written out are the same or masked, hashes, keys and the
    blueprint's first key alike. -/
def AccountHidden (u u' : Json) : Prop := strField u "name" ≠ "" → SecretsHidden u u'

def KickstartHidden (u u' : Json) : Prop := strField u "name" ≠ "" →
  HashHidden (strField u "password_hash") (strField u' "password_hash") ∧
    List.Forall₂ (KeyHidden (sshkeyFront (strField u "name"))) (sshKeys u) (sshKeys u')

def BlueprintHidden (u u' : Json) : Prop := strField u "name" ≠ "" →
  HashHidden (strField u "password_hash") (strField u' "password_hash") ∧
    List.Forall₂ (KeyHidden "key = \"") ((sshKeys u).take 1) ((sshKeys u').take 1)

theorem linesHide_hash {front read : List Char} {lead tail : String} (parts : Parts front)
    (state : ∀ state : Reading Char, state.IsFresh →
      keyState state (Replacing.replaceAll cryptPattern front) = .word read)
    (shape : lead.toList = front) (ends : Opens isHashEnd tail.toList) {h h' : String}
    (alike : h = h' ∨ IsHash h ∧ IsHash h') :
    LinesHide [lead ++ h ++ tail] [lead ++ h' ++ tail] (HashHidden h h') := by
  rcases alike with rfl | ⟨hash, hash'⟩
  · exact (linesHide_same _).congr (by simp [HashHidden])
  · obtain ⟨lawful, hides⟩ := hash_line parts state ends hash hash'
    refine (linesHide_line lawful ?_ ?_).congr hides
    · simp [SecretLine.leftText, shape]
    · simp [SecretLine.rightText, shape]

section

variable {u u' : Json}

theorem AccountAlike.strField_eq (alike : AccountAlike u u') {field : String}
    (other : field ≠ "password_hash") (others : field ≠ "ssh_keys") :
    strField u field = strField u' field := by
  rw [strField, strField, alike.others field other others]

theorem AccountAlike.hashes (alike : AccountAlike u u') :
    strField u "password_hash" = strField u' "password_hash" ∨
      IsHash (strField u "password_hash") ∧ IsHash (strField u' "password_hash") := by
  rcases alike.hash with same | ⟨h, h', left, right, hash, hash'⟩
  · exact .inl (by rw [strField, strField, same])
  · refine .inr ?_
    rw [strField, strField, left, right]
    exact ⟨hash, hash'⟩

theorem AccountAlike.name (alike : AccountAlike u u') : strField u "name" = strField u' "name" :=
  alike.strField_eq (by decide) (by decide)

theorem AccountAlike.options (alike : AccountAlike u u') :
    kickstartOptions u = kickstartOptions u' ∧ blueprintAccount u = blueprintAccount u' := by
  have shell : strField u "shell" = strField u' "shell" := alike.strField_eq (by decide) (by decide)
  have home : strField u "home" = strField u' "home" := alike.strField_eq (by decide) (by decide)
  have uid : uidField u "uid" = uidField u' "uid" := by
    rw [uidField, uidField, alike.others "uid" (by decide) (by decide)]
  have gid : uidField u "gid" = uidField u' "gid" := by
    rw [uidField, uidField, alike.others "gid" (by decide) (by decide)]
  have groups : suppGroups u = suppGroups u' := by
    rw [suppGroups, suppGroups, strings, strings,
      alike.others "supplementary_groups" (by decide) (by decide)]
  constructor
  · unfold kickstartOptions
    rw [alike.name, shell, home, uid, gid, groups]
  · unfold blueprintAccount
    rw [alike.name, shell, home, uid, gid, groups]

theorem linesHide_password (alike : AccountAlike u u') :
    LinesHide
      [kickstartOptions u ++ optionText (!(strField u "password_hash").isEmpty)
        (" --iscrypted --password=" ++ strField u "password_hash")]
      [kickstartOptions u' ++ optionText (!(strField u' "password_hash").isEmpty)
        (" --iscrypted --password=" ++ strField u' "password_hash")]
      (HashHidden (strField u "password_hash") (strField u' "password_hash")) := by
  rw [alike.options.1]
  rcases alike.hashes with same | ⟨hash, hash'⟩
  · rw [same]
    exact (linesHide_same _).congr (by simp [HashHidden])
  · have given : ∀ {h : String}, IsHash h → ∀ lead : String,
        lead ++ optionText (!h.isEmpty) (" --iscrypted --password=" ++ h) =
          lead ++ " --iscrypted --password=" ++ h ++ "" := by
      intro h hash lead
      rw [optionText, if_pos (by simpa using hash.1), String.append_empty, String.append_assoc]
    rw [given hash, given hash']
    have word : StartsLine "--iscrypted --password=".toList "--password=".toList :=
      ⟨by decide, by decide +kernel, by decide +kernel⟩
    have shape : (kickstartOptions u' ++ " --iscrypted --password=").toList =
        (kickstartOptions u').toList ++ [' '] ++ "--iscrypted --password=".toList := by
      rw [String.toList_append, List.append_assoc]
      rfl
    have space : Text.isWhitespace ' ' = true := by decide
    have blank := parts_end (isHashEnd_blank ' ' space) (kickstartOptions u').toList
    have nothing : Opens isHashEnd "".toList := by
      intro c none
      rw [String.toList_empty] at none
      cases none
    have option : ∀ state : Reading Char, state.IsFresh →
        keyState state (Replacing.replaceAll cryptPattern ((kickstartOptions u').toList ++ [' '] ++
          "--iscrypted --password=".toList)) = .word "--password=".toList := by
      intro state _
      rw [blank, crypt_quiet_self word.quiet, keyState_append]
      rcases isFresh_keyState space state (kickstartOptions u').toList with below | waiting
      · rw [below, word.below]
      · rw [waiting, word.waiting]
    exact linesHide_hash (blank.append (parts_quiet word.quiet)) option shape nothing
      (.inr ⟨hash, hash'⟩)

theorem kickstartKey_eq (name key : String) :
    kickstartKey name key = sshkeyFront name ++ key ++ "\"" := rfl

theorem sshkeyFront_words (name : String) : (sshkeyFront name).toList =
    "sshkey ".toList ++ ("--username=".toList ++ name.toList ++ " \"".toList) := by
  have cut : "sshkey --username=".toList = "sshkey ".toList ++ "--username=".toList := rfl
  unfold sshkeyFront
  rw [String.toList_append, String.toList_append, cut, List.append_assoc, List.append_assoc,
    List.append_assoc]

theorem linesHide_kickstartUser (alike : AccountAlike u u') :
    LinesHide (kickstartUser u) (kickstartUser u') (KickstartHidden u u') := by
  rw [kickstartUser, kickstartUser, ← alike.name]
  by_cases unnamed : strField u "name" = ""
  · rw [if_pos (by simp [unnamed]), if_pos (by simp [unnamed])]
    exact (linesHide_same []).congr (by simp [KickstartHidden, unnamed])
  · rw [if_neg (by simpa using unnamed), if_neg (by simpa using unnamed)]
    have starts : StartsLine "sshkey ".toList [] :=
      ⟨by decide, by decide +kernel, by decide +kernel⟩
    have each : ∀ k k', KeyAlike k k' → LinesHide [kickstartKey (strField u "name") k]
        [kickstartKey (strField u "name") k']
        (KeyHidden (sshkeyFront (strField u "name")) k k') := by
      intro k k' both
      rw [kickstartKey_eq, kickstartKey_eq]
      exact linesHide_key starts (sshkeyFront_words _) both
    have keys := linesHide_flatMap each alike.keys
    rw [← List.map_eq_flatMap, ← List.map_eq_flatMap] at keys
    exact ((linesHide_password alike).append keys).congr (by simp [KickstartHidden, unnamed])

theorem linesHide_blueprintPassword (alike : AccountAlike u u') :
    LinesHide
      (optionLine (!(strField u "password_hash").isEmpty)
        (tomlText "password" (strField u "password_hash")))
      (optionLine (!(strField u' "password_hash").isEmpty)
        (tomlText "password" (strField u' "password_hash")))
      (HashHidden (strField u "password_hash") (strField u' "password_hash")) := by
  rcases alike.hashes with same | ⟨hash, hash'⟩
  · rw [same]
    exact (linesHide_same _).congr (by simp [HashHidden])
  · have given : ∀ {h : String}, IsHash h → optionLine (!h.isEmpty) (tomlText "password" h) =
        ["password = \"" ++ h ++ "\""] := by
      intro h hash
      rw [optionLine, if_pos (by simpa using hash.1), tomlText]
      rfl
    rw [given hash, given hash']
    have word : StartsLine "password = \"".toList ['"'] :=
      ⟨by decide, by decide +kernel, by decide +kernel⟩
    have quote : Opens isHashEnd "\"".toList := by
      intro c first
      rw [← Option.some.inj first]
      decide
    have start : ∀ state : Reading Char, state.IsFresh →
        keyState state (Replacing.replaceAll cryptPattern "password = \"".toList) =
          .word ['"'] := by
      intro state fresh
      have alone := word.state fresh []
      rwa [List.append_nil] at alone
    exact linesHide_hash (parts_quiet word.quiet) start rfl quote (.inr ⟨hash, hash'⟩)

theorem linesHide_blueprintKeys {keys keys' : List String}
    (alike : List.Forall₂ KeyAlike keys keys') :
    LinesHide (blueprintKeys keys) (blueprintKeys keys')
      (List.Forall₂ (KeyHidden "key = \"") (keys.take 1) (keys'.take 1)) := by
  cases alike with
  | nil => exact (linesHide_same []).congr (by simp)
  | @cons k k' others others' both rest =>
    have starts : StartsLine "key = \"".toList ['"'] :=
      ⟨by decide, by decide +kernel, by decide +kernel⟩
    have line : LinesHide [tomlText "key" k] [tomlText "key" k'] (KeyHidden "key = \"" k k') :=
      linesHide_key starts (List.append_nil _).symm both
    rw [blueprintKeys, blueprintKeys, rest.length_eq]
    exact (line.append (linesHide_same _)).congr (by simp)

theorem linesHide_blueprintUser (alike : AccountAlike u u') :
    LinesHide (blueprintUser u) (blueprintUser u') (BlueprintHidden u u') := by
  rw [blueprintUser, blueprintUser, ← alike.name]
  by_cases unnamed : strField u "name" = ""
  · rw [if_pos (by simp [unnamed]), if_pos (by simp [unnamed])]
    exact (linesHide_same []).congr (by simp [BlueprintHidden, unnamed])
  · rw [if_neg (by simpa using unnamed), if_neg (by simpa using unnamed), alike.options.2]
    have account := linesHide_same (blueprintAccount u')
    have lines := ((account.append (linesHide_blueprintPassword alike)).append
      (linesHide_blueprintKeys alike.keys)).append (linesHide_same [""])
    exact lines.congr (by simp [BlueprintHidden, unnamed])

end

theorem renderKickstart_eq (snap : InspectionSnapshot) :
    renderKickstart snap = "\n".intercalate (kickstartLines snap) := by
  rw [renderKickstart]
  split
  next empty =>
    rw [Bool.and_eq_true, List.isEmpty_iff, List.isEmpty_iff] at empty
    rw [kickstartLines, empty.1, empty.2]
    rfl
  · rfl

theorem renderBlueprintToml_eq (snap : InspectionSnapshot) :
    renderBlueprintToml snap = "\n".intercalate (blueprintLines snap) := by
  rw [renderBlueprintToml]
  split
  next empty =>
    rw [Bool.and_eq_true, List.isEmpty_iff, List.isEmpty_iff] at empty
    rw [blueprintLines, empty.1, empty.2]
    rfl
  · rfl

theorem forall₂_and {β : Type} {p q : β → β → Prop} {as bs : List β} :
    List.Forall₂ p as bs ∧ List.Forall₂ q as bs ↔
      List.Forall₂ (fun a b => p a b ∧ q a b) as bs := by
  constructor
  · rintro ⟨left, right⟩
    induction left with
    | nil => exact .nil
    | cons first _ ih =>
      obtain ⟨second, rest⟩ := List.forall₂_cons.mp right
      exact .cons ⟨first, second⟩ (ih rest)
  · exact fun both => ⟨both.imp fun _ _ h => h.1, both.imp fun _ _ h => h.2⟩

theorem DifferInSecrets.includedUsers {s s' : InspectionSnapshot} (alike : DifferInSecrets s s') :
    List.Forall₂ AccountAlike (includedUsers s) (includedUsers s') := by
  have users := alike.users
  unfold Inspectah.includedUsers
  generalize rowsOf (·.users) s.usersGroups = us at users ⊢
  generalize rowsOf (·.users) s'.usersGroups = us' at users ⊢
  induction users with
  | nil => exact .nil
  | @cons u u' us us' first _ ih =>
    have same : jsonIncluded u = jsonIncluded u' := by
      rw [jsonIncluded, jsonIncluded, first.others "include" (by decide) (by decide)]
    by_cases kept : jsonIncluded u = true
    · rw [List.filter_cons_of_pos kept, List.filter_cons_of_pos (same ▸ kept)]
      exact .cons first ih
    · rw [List.filter_cons_of_neg kept, List.filter_cons_of_neg (same ▸ kept)]
      exact ih

theorem DifferInSecrets.customGroups {s s' : InspectionSnapshot} (alike : DifferInSecrets s s') :
    customGroups s = customGroups s' := by
  unfold Inspectah.customGroups
  rw [alike.rest]
  cases s.usersGroups <;> rfl

theorem preview_hides_iff {s s' : InspectionSnapshot} (alike : DifferInSecrets s s')
    (sensitive : isSensitive s = true) (sensitive' : isSensitive s' = true) {reveal : Option Bool}
    (unrevealed : reveal ≠ some true) :
    ((userPreview reveal s).kickstart = (userPreview reveal s').kickstart ∧
      (userPreview reveal s).blueprintToml = (userPreview reveal s').blueprintToml) ↔
    List.Forall₂ AccountHidden (includedUsers s) (includedUsers s') := by
  have closed : reveal.getD false = false := by
    cases reveal with
    | none => rfl
    | some b =>
      cases b with
      | false => rfl
      | true => exact absurd rfl unrevealed
  have masked : ∀ {s : InspectionSnapshot}, isSensitive s = true →
      userPreview reveal s = ⟨redactSensitiveContent (renderKickstart s),
        redactSensitiveContent (renderBlueprintToml s), true⟩ := by
    intro s sensitive
    rw [userPreview, sensitive, closed]
    rfl
  have users := alike.includedUsers
  have kickstart : LinesHide (kickstartLines s) (kickstartLines s')
      (True ∧ List.Forall₂ KickstartHidden (includedUsers s) (includedUsers s')) := by
    rw [kickstartLines, kickstartLines, alike.customGroups]
    exact (linesHide_same _).append
      (linesHide_flatMap (fun _ _ account => linesHide_kickstartUser account) users)
  have blueprint : LinesHide (blueprintLines s) (blueprintLines s')
      (True ∧ List.Forall₂ BlueprintHidden (includedUsers s) (includedUsers s')) := by
    rw [blueprintLines, blueprintLines, alike.customGroups]
    exact (linesHide_same _).append
      (linesHide_flatMap (fun _ _ account => linesHide_blueprintUser account) users)
  rw [masked sensitive, masked sensitive', renderKickstart_eq, renderKickstart_eq,
    renderBlueprintToml_eq, renderBlueprintToml_eq, redact_lines_iff kickstart,
    redact_lines_iff blueprint, true_and, true_and, forall₂_and]
  constructor
  · refine fun both => both.imp fun u u' account named => ?_
    exact ⟨(account.1 named).1, (account.1 named).2, (account.2 named).2⟩
  · refine fun all => all.imp fun u u' account => ⟨fun named => ?_, fun named => ?_⟩
    · exact ⟨(account named).hash, (account named).keys⟩
    · exact ⟨(account named).hash, (account named).first⟩

def aliceWith (hash key : String) : InspectionSnapshot where
  sensitiveSnapshot := true
  usersGroups := some { users := [.obj [("name", .str "alice"), ("password_hash", .str hash),
    ("ssh_keys", .arr [.str key])]] }

theorem aliceWith_differ {hash hash' key key' : String} (hashes : IsHash hash ∧ IsHash hash')
    (keys : KeyAlike key key') : DifferInSecrets (aliceWith hash key) (aliceWith hash' key') := by
  refine ⟨rfl, .cons ⟨.inr ⟨hash, hash', rfl, rfl, hashes⟩, .cons keys .nil, ?_⟩ .nil, rfl⟩
  intro field other others
  simp only [Json.get, List.find?_cons, beq_false_of_ne other.symm, beq_false_of_ne others.symm]

instance (hash : String) : Decidable (IsHash hash) :=
  inferInstanceAs (Decidable (hash ≠ "" ∧ ∀ c ∈ hash.toList, isHashEnd c = false ∧ c ≠ '<'))

def commentedKey (type : List Char) (word : type ≠ [] ∧ ∀ c ∈ type, Text.isWhitespace c = false) :
    KeyLine where
  options := []
  type := type
  gap := [' ']
  comment := " alice".toList
  apart := fun c none => nomatch none
  word := word
  blank := by decide
  behind := fun c first => by
    rw [← Option.some.inj first]
    decide

theorem keyAlike_commented (type : String) (word : type.toList ≠ [] ∧
    ∀ c ∈ type.toList, Text.isWhitespace c = false) :
    KeyAlike (type ++ " AAAA alice") (type ++ " BBBB alice") := by
  refine .inr ⟨commentedKey type.toList word, "AAAA".toList, "BBBB".toList, ?_, ?_, ?_, ?_⟩
  · exact ⟨by decide, by decide⟩
  · exact ⟨by decide, by decide⟩
  · rw [← String.toList_inj, String.toList_append, KeyLine.toList_text, KeyLine.lead,
      List.append_assoc]
    rfl
  · rw [← String.toList_inj, String.toList_append, KeyLine.toList_text, KeyLine.lead,
      List.append_assoc]
    rfl

theorem preview_hides_iff_alice :
    ((userPreview none (aliceWith "$6$salt$one" "ssh-rsa AAAA alice")).kickstart =
        (userPreview none (aliceWith "$y$j9T$two" "ssh-rsa BBBB alice")).kickstart ∧
      (userPreview none (aliceWith "$6$salt$one" "ssh-rsa AAAA alice")).blueprintToml =
        (userPreview none (aliceWith "$y$j9T$two" "ssh-rsa BBBB alice")).blueprintToml) ↔
    List.Forall₂ AccountHidden (includedUsers (aliceWith "$6$salt$one" "ssh-rsa AAAA alice"))
      (includedUsers (aliceWith "$y$j9T$two" "ssh-rsa BBBB alice")) :=
  preview_hides_iff (aliceWith_differ (by decide) (keyAlike_commented "ssh-rsa" (by decide)))
    rfl rfl (by decide)

def Shown (s s' : InspectionSnapshot) : Prop :=
  DifferInSecrets s s' ∧ isSensitive s = true ∧ isSensitive s' = true ∧
    (userPreview none s).kickstart ≠ (userPreview none s').kickstart

/-- A bcrypt hash is shown, and so is the key of a security token. -/
theorem bcrypt_and_token_shown :
    Shown (aliceWith "$2b$05$one" "ssh-rsa AAAA alice")
      (aliceWith "$2b$05$two" "ssh-rsa AAAA alice") ∧
    Shown (aliceWith "$6$salt$one" "sk-ssh-ed25519@openssh.com AAAA alice")
      (aliceWith "$6$salt$one" "sk-ssh-ed25519@openssh.com BBBB alice") := by
  have token := keyAlike_commented "sk-ssh-ed25519@openssh.com" (by decide)
  refine ⟨⟨aliceWith_differ (by decide) (.inl rfl), rfl, rfl, ?_⟩,
    aliceWith_differ (by decide) token, rfl, rfl, ?_⟩
  · refine fun same => absurd (String.ofList_inj.mp same) ?_
    decide +kernel
  · refine fun same => absurd (String.ofList_inj.mp same) ?_
    decide +kernel

end Inspectah
