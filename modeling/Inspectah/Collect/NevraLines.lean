import Inspectah.Core.Packages

/-!
Packages as a line names them: the query format, and the two formats of a version lock. The lock's
reader expects the epoch in front of the name, where only one of the two has it.
-/
namespace Inspectah

def I32_RANGE : Int := 2 ^ 31

/-- `str::parse::<i32>`. -/
def parseI32 (s : String) : Option Int :=
  let (negative, digits) := match s.toList with
    | '-' :: rest => (true, rest)
    | '+' :: rest => (false, rest)
    | cs => (false, cs)
  if digits.isEmpty || !(digits.all fun c => '0' ≤ c && c ≤ '9') then none
  else
    let value : Int := if negative then -digitsValue digits else digitsValue digits
    if -I32_RANGE ≤ value ∧ value < I32_RANGE then some value else none

theorem parseI32_toString (n : Nat) :
    parseI32 (toString n) = if (n : Int) < I32_RANGE then some (n : Int) else none := by
  have chars : (toString n).toList = Nat.toDigits 10 n := by simp
  have digit : ∀ c ∈ Nat.toDigits 10 n, c.isDigit = true := fun c mem =>
    digit_of_toString (chars ▸ mem)
  obtain ⟨c, rest, digits⟩ := List.exists_cons_of_ne_nil (@Nat.toDigits_ne_nil n 10)
  have first := digit c (by rw [digits]; exact List.mem_cons_self)
  have unsigned : (match c :: rest with
      | '-' :: rest => (true, rest)
      | '+' :: rest => (false, rest)
      | cs => (false, cs)) = (false, c :: rest) := by
    split
    · next same =>
      rw [(List.cons.inj same).1] at first
      cases first
    · next same =>
      rw [(List.cons.inj same).1] at first
      cases first
    · rfl
  have all : (c :: rest).all (fun c => '0' ≤ c && c ≤ '9') = true := by
    refine List.all_eq_true.mpr fun d mem => ?_
    simpa [Char.isDigit, Char.le_def] using digit d (digits ▸ mem)
  have low : -I32_RANGE ≤ (n : Int) := le_trans (by decide) (Int.natCast_nonneg n)
  rw [parseI32, chars, digits, unsigned]
  dsimp only
  rw [all, ← digits, digitsValue_toDigits, digits]
  simp [low]

/-- A line of `epoch:name-version-release.arch`. -/
def parseNevra (line : String) : Option PackageEntry := do
  let trimmed := Text.trim line
  if trimmed.isEmpty then none
  else
    let (epochStr, rest) ← Text.splitOnce ':' trimmed
    let epoch := if epochStr = "(none)" then "0" else epochStr
    let (nameVerRel, arch) ← Text.rsplitOnce '.' rest
    let (nameVer, release) ← Text.rsplitOnce '-' nameVerRel
    let (name, version) ← Text.rsplitOnce '-' nameVer
    some { name, epoch, version, release, arch }

/-- The last three parts between dashes, the ones missing empty. -/
def rsplitThree (nvr : String) : String × String × String :=
  match Text.rsplitOnce '-' nvr with
  | none => ("", "", nvr)
  | some (nameVer, release) =>
    match Text.rsplitOnce '-' nameVer with
    | none => ("", nameVer, release)
    | some (name, version) => (name, version, release)

def parseVersionlockLine (line : String) : Option VersionLockEntry :=
  match Text.splitOn (· == ':') line with
  | epochStr :: rest :: _ =>
    let epoch := (parseI32 epochStr).getD 0
    let (nvr, arch) := (Text.rsplitOnce '.' rest).getD (rest, rest)
    let (name, version, release) := rsplitThree nvr
    some { rawPattern := line, name, epoch, version, release, arch }
  | _ => some { rawPattern := line }

theorem number_plain (n : Nat) {c : Char} (mem : c ∈ (toString n).toList) :
    Text.isWhitespace c = false ∧ c ≠ ':' := by
  have digit := digit_of_toString mem
  refine ⟨Text.isWhitespace_alphanum (by simp [Char.isAlphanum, digit]), ?_⟩
  rintro rfl
  cases digit

abbrev IsRpmText (s : String) : Prop :=
  s ≠ "" ∧ ∀ c ∈ s.toList, Text.isWhitespace c = false ∧ c ≠ ':'

/-- A package as rpm names it. -/
structure Nevra where
  name : String
  epoch : Option Nat
  version : String
  release : String
  arch : String
  named : IsRpmText name
  counted : ∀ n ∈ epoch, n < 2 ^ 32
  versioned : IsRpmText version ∧ '-' ∉ version.toList
  released : IsRpmText release ∧ '-' ∉ release.toList
  built : IsRpmText arch ∧ '.' ∉ arch.toList

/-- The formats a line names a package in. -/
inductive NevraFormat where
  /-- The query's `epoch:name-version-release.arch`, the epoch `(none)` where there is none. -/
  | query
  /-- A lock `epoch:name-version-release.arch`. -/
  | epochFirst
  /-- A lock `name-epoch:version-release.arch`. -/
  | epochInside
  deriving DecidableEq

namespace Nevra

variable (p : Nevra)

def number : Nat := p.epoch.getD 0

def vra : String := p.version ++ "-" ++ p.release ++ "." ++ p.arch

def write : NevraFormat → String
  | .query => ((p.epoch.map toString).getD "(none)") ++ ":" ++ p.name ++ "-" ++ p.vra
  | .epochFirst => toString p.number ++ ":" ++ p.name ++ "-" ++ p.vra
  | .epochInside => p.name ++ "-" ++ toString p.number ++ ":" ++ p.vra

/-- The line is read as exactly this package; a lock keeps the line. -/
def ReadsBack : NevraFormat → Prop
  | .query => parseNevra (p.write .query) = some
      { name := p.name, epoch := toString p.number, version := p.version, release := p.release,
        arch := p.arch }
  | format => parseVersionlockLine (p.write format) = some
      { rawPattern := p.write format, name := p.name, epoch := p.number, version := p.version,
        release := p.release, arch := p.arch }

def IsExpected : NevraFormat → Prop
  | .query => True
  | .epochFirst => (p.number : Int) < I32_RANGE
  | .epochInside => False

theorem rsplit_arch (front : String) : Text.rsplitOnce '.' (front ++ p.vra) =
    some (front ++ p.version ++ "-" ++ p.release, p.arch) := by
  have parts : front ++ p.vra =
      (front ++ p.version ++ "-" ++ p.release) ++ (String.singleton '.' ++ p.arch) := by
    rw [vra, show String.singleton '.' = "." from rfl]
    simp only [String.append_assoc]
  rw [parts, rsplitOnce_append p.built.2]

theorem rsplit_release (front : String) :
    Text.rsplitOnce '-' (front ++ p.version ++ "-" ++ p.release) =
      some (front ++ p.version, p.release) := by
  rw [String.append_assoc, show "-" = String.singleton '-' from rfl,
    rsplitOnce_append p.released.2]

theorem rsplit_version : Text.rsplitOnce '-' (p.name ++ "-" ++ p.version) =
    some (p.name, p.version) := by
  rw [String.append_assoc, show "-" = String.singleton '-' from rfl,
    rsplitOnce_append p.versioned.2]

theorem rsplitThree_named : rsplitThree (p.name ++ "-" ++ p.version ++ "-" ++ p.release) =
    (p.name, p.version, p.release) := by
  rw [rsplitThree, p.rsplit_release]
  dsimp only
  rw [p.rsplit_version]

/-- Without the name in front the version is the first part. -/
theorem rsplitThree_unnamed : rsplitThree (p.version ++ "-" ++ p.release) =
    ("", p.version, p.release) := by
  have cut := p.rsplit_release ""
  rw [String.empty_append] at cut
  rw [rsplitThree, cut]
  dsimp only
  rw [rsplitOnce_plain p.versioned.2]

theorem epochText_plain {c : Char} (mem : c ∈ ((p.epoch.map toString).getD "(none)").toList) :
    Text.isWhitespace c = false ∧ c ≠ ':' := by
  cases given : p.epoch with
  | none =>
    rw [given] at mem
    have all : ∀ c ∈ "(none)".toList, Text.isWhitespace c = false ∧ c ≠ ':' := by decide
    exact all c mem
  | some n =>
    rw [given] at mem
    exact number_plain n mem

theorem vra_plain {c : Char} (mem : c ∈ p.vra.toList) : Text.isWhitespace c = false ∧ c ≠ ':' := by
  have dash : Text.isWhitespace '-' = false ∧ '-' ≠ ':' := by decide
  have dot : Text.isWhitespace '.' = false ∧ '.' ≠ ':' := by decide
  simp only [vra, String.toList_append, List.mem_append] at mem
  rcases mem with (((inside | mark) | inside) | mark) | inside
  · exact p.versioned.1.2 c inside
  · rw [List.mem_singleton.mp mark]
    exact dash
  · exact p.released.1.2 c inside
  · rw [List.mem_singleton.mp mark]
    exact dot
  · exact p.built.1.2 c inside

theorem query_reads : p.ReadsBack .query := by
  have dash : Text.isWhitespace '-' = false ∧ '-' ≠ ':' := by decide
  have solid : ∀ c ∈ (p.write .query).toList, Text.isWhitespace c = false := by
    intro c mem
    simp only [write, String.toList_append, List.mem_append] at mem
    rcases mem with (((epoch | colon) | name) | mark) | inside
    · exact (p.epochText_plain epoch).1
    · rw [List.mem_singleton.mp colon]
      rfl
    · exact (p.named.2 c name).1
    · rw [List.mem_singleton.mp mark]
      exact dash.1
    · exact (p.vra_plain inside).1
  have trimmed : Text.trim (p.write .query) = p.write .query := by
    rw [Text.trim, trimChars_plain solid, String.ofList_toList]
  have filled : (p.write .query).isEmpty = false := by
    have mem : '-' ∈ (p.write .query).toList := by
      simp [write]
    rw [← Bool.not_eq_true, String.isEmpty_iff]
    intro empty
    rw [empty] at mem
    cases mem
  have cut : Text.splitOnce ':' (p.write .query) =
      some ((p.epoch.map toString).getD "(none)", p.name ++ "-" ++ p.vra) := by
    have parts : p.write .query = ((p.epoch.map toString).getD "(none)") ++
        (String.singleton ':' ++ (p.name ++ "-" ++ p.vra)) := by
      rw [write, show String.singleton ':' = ":" from rfl]
      simp only [String.append_assoc]
    rw [parts]
    exact splitOnce_append (fun mem => (p.epochText_plain mem).2 rfl) _
  have epoch : (if (p.epoch.map toString).getD "(none)" = "(none)" then "0"
      else (p.epoch.map toString).getD "(none)") = toString p.number := by
    cases given : p.epoch with
    | none =>
      rw [number, given]
      rfl
    | some n =>
      have other : toString n ≠ "(none)" := by
        intro same
        have mem : '(' ∈ (toString n).toList := by
          rw [same]
          decide
        cases digit_of_toString mem
      rw [number, given]
      exact if_neg other
  rw [ReadsBack, parseNevra]
  simp only [trimmed, filled, Bool.false_eq_true, if_false, cut, Option.bind_eq_bind,
    Option.bind_some, p.rsplit_arch, p.rsplit_release, p.rsplit_version, epoch]

theorem epochFirst_reads : p.ReadsBack .epochFirst ↔ p.IsExpected .epochFirst := by
  have numbered : ':' ∉ (toString p.number).toList := fun mem => (number_plain p.number mem).2 rfl
  have rest : ':' ∉ (p.name ++ "-" ++ p.vra).toList := by
    simp only [String.toList_append, List.mem_append]
    rintro ((inside | mark) | inside)
    · exact (p.named.2 _ inside).2 rfl
    · exact absurd mark (by decide)
    · exact (p.vra_plain inside).2 rfl
  have pieces : Text.splitOn (· == ':') (p.write .epochFirst) =
      [toString p.number, p.name ++ "-" ++ p.vra] := by
    have parts : p.write .epochFirst =
        toString p.number ++ (String.singleton ':' ++ (p.name ++ "-" ++ p.vra)) := by
      rw [write, show String.singleton ':' = ":" from rfl]
      simp only [String.append_assoc]
    rw [parts, splitOn_pair numbered rest]
  have read : parseVersionlockLine (p.write .epochFirst) = some
      { rawPattern := p.write .epochFirst, name := p.name
        epoch := if (p.number : Int) < I32_RANGE then p.number else 0
        version := p.version, release := p.release, arch := p.arch } := by
    unfold parseVersionlockLine
    simp only [pieces, parseI32_toString, p.rsplit_arch, Option.getD_some, p.rsplitThree_named]
    split <;> rfl
  rw [ReadsBack, IsExpected, read]
  · constructor
    · intro same
      by_contra big
      rw [if_neg big] at same
      have zero : (0 : Int) = p.number :=
        congrArg VersionLockEntry.epoch (Option.some.inj same)
      rw [← zero] at big
      exact big (by decide)
    · intro small
      rw [if_pos small]
  · rintro ⟨⟩

theorem epochInside_unread : ¬ p.ReadsBack .epochInside := by
  have front : ':' ∉ (p.name ++ "-" ++ toString p.number).toList := by
    simp only [String.toList_append, List.mem_append]
    rintro ((inside | mark) | inside)
    · exact (p.named.2 _ inside).2 rfl
    · exact absurd mark (by decide)
    · exact (number_plain p.number inside).2 rfl
  have rest : ':' ∉ p.vra.toList := fun mem => (p.vra_plain mem).2 rfl
  have pieces : Text.splitOn (· == ':') (p.write .epochInside) =
      [p.name ++ "-" ++ toString p.number, p.vra] := by
    have parts : p.write .epochInside =
        (p.name ++ "-" ++ toString p.number) ++ (String.singleton ':' ++ p.vra) := by
      rw [write, show String.singleton ':' = ":" from rfl]
      simp only [String.append_assoc]
    rw [parts, splitOn_pair front rest]
  have cut := p.rsplit_arch ""
  simp only [String.empty_append] at cut
  intro same
  rw [ReadsBack] at same
  · unfold parseVersionlockLine at same
    simp only [pieces, cut, Option.getD_some, p.rsplitThree_unnamed] at same
    exact p.named.1 (congrArg VersionLockEntry.name (Option.some.inj same)).symm
  · rintro ⟨⟩

/-- Which lines are read as the package they were written for. -/
theorem readsBack_iff (format : NevraFormat) : p.ReadsBack format ↔ p.IsExpected format := by
  cases format with
  | query => exact iff_of_true p.query_reads trivial
  | epochFirst => exact p.epochFirst_reads
  | epochInside => exact iff_of_false p.epochInside_unread id

end Nevra

def lockedBash : Nevra where
  name := "bash"
  epoch := none
  version := "5.2.26"
  release := "3.el10"
  arch := "x86_64"
  named := by decide
  counted := by decide
  versioned := by decide
  released := by decide
  built := by decide

theorem locked_bash_unnamed : ¬ ∀ (p : Nevra) (format : NevraFormat), p.ReadsBack format := by
  intro all
  have same := congrArg (Option.map VersionLockEntry.name) (all lockedBash .epochInside)
  revert same
  decide +kernel

end Inspectah
