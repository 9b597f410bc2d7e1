import Inspectah.Core.Text

/-!
Text cut at a byte, as slices cut it: at the beginning of a character, or not at all.
-/
namespace Inspectah

/-- What a parser does with a line; a slice inside a character panics. -/
inductive Parsed (α : Type) where
  | panics
  | nothing
  | entry (a : α)
  deriving DecidableEq

/-- `&s[..n]` and `&s[n..]`, where the byte is in the text and begins a character. -/
def splitAtByte : Nat → List Char → Option (List Char × List Char)
  | 0, cs => some ([], cs)
  | _ + 1, [] => none
  | n + 1, c :: cs =>
    if c.utf8Size ≤ n + 1 then
      (splitAtByte (n + 1 - c.utf8Size) cs).map fun (head, tail) => (c :: head, tail)
    else none

def lineBytes (cs : List Char) : Nat := (cs.map Char.utf8Size).sum

def trimStart (cs : List Char) : List Char := cs.dropWhile Text.isWhitespace

/-- `s.get(n..)`. -/
def fromByte (n : Nat) (cs : List Char) : Option (List Char) := (splitAtByte n cs).map (·.2)

/-- `str::find`: the byte at which the first such character begins. -/
def findByte (p : Char → Bool) : List Char → Option Nat
  | [] => none
  | c :: cs => if p c then some 0 else (findByte p cs).map (c.utf8Size + ·)

/-- The byte at which the first non-blank begins. -/
def leadingBytes (cs : List Char) : Nat := lineBytes cs - lineBytes (trimStart cs)

theorem splitAtByte_zero (cs : List Char) : splitAtByte 0 cs = some ([], cs) := by
  cases cs <;> rfl

theorem splitAtByte_append {n : Nat} {cs head tail : List Char}
    (h : splitAtByte n cs = some (head, tail)) : cs = head ++ tail ∧ lineBytes head = n := by
  induction cs generalizing n head with
  | nil =>
    cases n with
    | zero =>
      cases h
      exact ⟨rfl, rfl⟩
    | succ n => cases h
  | cons c cs ih =>
    cases n with
    | zero =>
      cases h
      exact ⟨rfl, rfl⟩
    | succ n =>
      rw [splitAtByte] at h
      split at h
      next fits =>
        obtain ⟨⟨head', tail'⟩, found, same⟩ := Option.map_eq_some_iff.mp h
        cases same
        obtain ⟨whole, size⟩ := ih found
        refine ⟨by rw [whole, List.cons_append], ?_⟩
        rw [lineBytes, List.map_cons, List.sum_cons, ← lineBytes, size]
        omega
      · cases h

theorem lineBytes_append (a b : List Char) : lineBytes (a ++ b) = lineBytes a + lineBytes b := by
  simp [lineBytes]

theorem splitAtByte_past (before cs : List Char) (n : Nat) :
    splitAtByte (lineBytes before + n) (before ++ cs) =
      (splitAtByte n cs).map fun parts => (before ++ parts.1, parts.2) := by
  induction before with
  | nil =>
    rw [lineBytes, List.map_nil, List.sum_nil, Nat.zero_add]
    exact Option.map_id'.symm
  | cons c before ih =>
    have size := c.utf8Size_pos
    obtain ⟨m, more⟩ : ∃ m, lineBytes (c :: before) + n = m + 1 :=
      ⟨lineBytes (c :: before) + n - 1, by
        rw [lineBytes, List.map_cons, List.sum_cons]
        omega⟩
    have less : m + 1 - c.utf8Size = lineBytes before + n := by
      rw [← more, lineBytes, List.map_cons, List.sum_cons, ← lineBytes]
      omega
    have fits : c.utf8Size ≤ m + 1 := by
      rw [← more, lineBytes, List.map_cons, List.sum_cons]
      omega
    rw [more, List.cons_append, splitAtByte, if_pos fits, less, ih, Option.map_map]
    rfl

theorem splitAtByte_lineBytes (before rest : List Char) :
    splitAtByte (lineBytes before) (before ++ rest) = some (before, rest) := by
  have past := splitAtByte_past before rest 0
  rw [Nat.add_zero, splitAtByte_zero] at past
  rw [past]
  simp

theorem fromByte_lineBytes (before rest : List Char) :
    fromByte (lineBytes before) (before ++ rest) = some rest := by
  rw [fromByte, splitAtByte_lineBytes]
  rfl

theorem leadingBytes_eq (cs : List Char) :
    leadingBytes cs = lineBytes (cs.takeWhile Text.isWhitespace) := by
  have whole : lineBytes cs =
      lineBytes (cs.takeWhile Text.isWhitespace) + lineBytes (trimStart cs) := by
    rw [← lineBytes_append, trimStart, List.takeWhile_append_dropWhile]
  rw [leadingBytes, whole, Nat.add_sub_cancel]

theorem findByte_eq (p : Char → Bool) (cs : List Char) :
    findByte p cs = match cs.dropWhile (!p ·) with
      | [] => none
      | _ :: _ => some (lineBytes (cs.takeWhile (!p ·))) := by
  induction cs with
  | nil => rfl
  | cons c cs ih =>
    rw [findByte]
    cases hit : p c with
    | true => simp [hit, lineBytes]
    | false =>
      rw [if_neg Bool.false_ne_true, ih, List.dropWhile_cons_of_pos (by simp [hit]),
        List.takeWhile_cons_of_pos (by simp [hit])]
      cases cs.dropWhile (!p ·) with
      | nil => rfl
      | cons d more => simp [lineBytes]

end Inspectah
