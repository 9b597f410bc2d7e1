import Inspectah.Library.Words
import Mathlib.Algebra.GroupWithZero.Nat

/-!
The words of a shell command: text by itself, between single or double quotes, a backslash
before a character. Nothing is expanded.
-/
namespace ShellQuoting

inductive Mode where
  | bare
  | single
  | double
  | bareEscape
  | doubleEscape
  deriving DecidableEq

/-- What one character leaves after quotes are removed. A quote keeps an empty word. -/
inductive Piece where
  | char (c : Char)
  | gap
  | quote
  | bar
  deriving DecidableEq

def QUOTE : Char := Char.ofNat 39

def DOUBLE_QUOTE : Char := '"'

/-- What a shell would expand or act on outside quotes. -/
def SPECIAL : List Char :=
  ['\n', ';', '&', '<', '>', '(', ')', '$', Char.ofNat 96, '*', '?', '[', '#', '~',
    Char.ofNat 123, Char.ofNat 125]

def ESCAPABLE : List Char := ['$', Char.ofNat 96, DOUBLE_QUOTE, '\\']

def step : Mode → Char → Option (List Piece × Mode)
  | .bare, c =>
    if c = QUOTE then some ([.quote], .single)
    else if c = DOUBLE_QUOTE then some ([.quote], .double)
    else if c = '\\' then some ([], .bareEscape)
    else if c = ' ' ∨ c = '\t' then some ([.gap], .bare)
    else if c = '|' then some ([.bar], .bare)
    else if c ∈ SPECIAL then none
    else some ([.char c], .bare)
  | .single, c => if c = QUOTE then some ([], .bare) else some ([.char c], .single)
  | .double, c =>
    if c = DOUBLE_QUOTE then some ([], .bare)
    else if c = '\\' then some ([], .doubleEscape)
    else if c ∈ ESCAPABLE then none
    else some ([.char c], .double)
  | .bareEscape, c => if c = '\n' then some ([], .bare) else some ([.char c], .bare)
  | .doubleEscape, c =>
    if c = '\n' then some ([], .double)
    else if c ∈ ESCAPABLE then some ([.char c], .double)
    else some ([.char '\\', .char c], .double)

def run : Mode → List Char → Option (List Piece × Mode)
  | m, [] => some ([], m)
  | m, c :: cs => (step m c).bind fun r => (run r.2 cs).map fun s => (r.1 ++ s.1, s.2)

def Piece.char? : Piece → Option Char
  | char c => some c
  | _ => none

def wordOf (stretch : List Piece) : Option (List Char) :=
  if stretch = [] then none else some (stretch.filterMap Piece.char?)

def commandWords (pieces : List Piece) : List (List Char) :=
  (pieces.splitOn .gap).filterMap wordOf

def pipeline (text : List Char) : Option (List (List (List Char))) :=
  match run .bare text with
  | some (pieces, .bare) => some ((pieces.splitOn .bar).map commandWords)
  | _ => none

theorem run_cons {m m' : Mode} {c : Char} {ps : List Piece} (h : step m c = some (ps, m'))
    (cs : List Char) : run m (c :: cs) = (run m' cs).map fun s => (ps ++ s.1, s.2) := by
  rw [run, h, Option.bind_some]

theorem run_append (m : Mode) (xs ys : List Char) :
    run m (xs ++ ys) = (run m xs).bind fun r => (run r.2 ys).map fun s => (r.1 ++ s.1, s.2) := by
  induction xs generalizing m with
  | nil => simp [run]
  | cons c rest ih =>
    cases took : step m c with
    | none => simp [run, took]
    | some r =>
      rw [List.cons_append, run_cons took, run_cons took, ih]
      cases run r.2 rest with
      | none => rfl
      | some s => simp [Function.comp_def, List.append_assoc]

theorem run_append_some {m n : Mode} {xs ys : List Char} {ps : List Piece}
    (h : run m (xs ++ ys) = some (ps, n)) :
    ∃ k as bs, run m xs = some (as, k) ∧ run k ys = some (bs, n) ∧ ps = as ++ bs := by
  rw [run_append, Option.bind_eq_some_iff] at h
  obtain ⟨⟨as, k⟩, first, second⟩ := h
  obtain ⟨⟨bs, n'⟩, after, same⟩ := Option.map_eq_some_iff.mp second
  cases same
  exact ⟨k, as, bs, first, after, rfl⟩

theorem step_open : step .bare QUOTE = some ([.quote], .single) := by decide

theorem step_close : step .single QUOTE = some ([], .bare) := by decide

theorem run_single {cs : List Char} (plain : QUOTE ∉ cs) :
    run .single cs = some (cs.map .char, .single) := by
  induction cs with
  | nil => rfl
  | cons c rest ih =>
    rw [List.mem_cons, not_or] at plain
    have took : step .single c = some ([.char c], .single) := by
      simp [step, Ne.symm plain.1]
    rw [run_cons took, ih plain.2]
    rfl

theorem run_double {cs : List Char} (plain : ∀ c ∈ cs, c ∉ ESCAPABLE) :
    run .double cs = some (cs.map .char, .double) := by
  induction cs with
  | nil => rfl
  | cons c rest ih =>
    have here := plain c (List.mem_cons_self ..)
    have took : step .double c = some ([.char c], .double) := by
      have apart : c ≠ DOUBLE_QUOTE ∧ c ≠ '\\' := by
        constructor <;> rintro rfl <;> exact here (by decide)
      simp [step, apart.1, apart.2, here]
    rw [run_cons took, ih fun x hx => plain x (List.mem_cons_of_mem _ hx)]
    rfl

/-! ### What a reading can leave

Each character of the result comes from one of the text, so a sum over the result is at
most that over the text. A backslash is counted when what it takes has been read. -/

def cost (g : Char → Nat) (cs : List Char) : Nat := (cs.map g).sum

def Piece.cost (g : Char → Nat) : Piece → Nat
  | char c => g c
  | gap => g ' '
  | quote => 0
  | bar => 0

def piecesCost (g : Char → Nat) (ps : List Piece) : Nat := (ps.map (Piece.cost g)).sum

def pending : Mode → Nat
  | .bareEscape => 1
  | .doubleEscape => 1
  | _ => 0

section

variable {g : Char → Nat}

@[simp] theorem cost_nil : cost g [] = 0 := rfl

@[simp] theorem cost_cons (c : Char) (cs : List Char) : cost g (c :: cs) = g c + cost g cs := rfl

@[simp] theorem cost_append (xs ys : List Char) : cost g (xs ++ ys) = cost g xs + cost g ys := by
  simp [cost]

@[simp] theorem piecesCost_nil : piecesCost g [] = 0 := rfl

@[simp] theorem piecesCost_cons (p : Piece) (ps : List Piece) :
    piecesCost g (p :: ps) = p.cost g + piecesCost g ps := rfl

@[simp] theorem piecesCost_append (xs ys : List Piece) :
    piecesCost g (xs ++ ys) = piecesCost g xs + piecesCost g ys := by
  simp [piecesCost]

theorem step_cost (tab : g ' ' ≤ g '\t') {m m' : Mode} {c : Char} {ps : List Piece}
    (h : step m c = some (ps, m')) :
    piecesCost g ps + pending m' * g '\\' ≤ g c + pending m * g '\\' := by
  cases m <;> simp only [step] at h
  case bare =>
    split_ifs at h with _ _ escape space <;> cases h
    any_goals simp [pending, Piece.cost]
    · exact le_of_eq (congrArg g escape.symm)
    · obtain rfl | rfl := space
      · exact le_rfl
      · exact tab
  case single => split_ifs at h <;> cases h <;> simp [pending, Piece.cost]
  case double =>
    split_ifs at h with _ escape <;> cases h
    any_goals simp [pending, Piece.cost]
    exact le_of_eq (congrArg g escape.symm)
  case bareEscape => split_ifs at h <;> cases h <;> simp [pending, Piece.cost]
  case doubleEscape =>
    split_ifs at h <;> cases h <;> simp [pending, Piece.cost]
    omega

theorem run_cost (tab : g ' ' ≤ g '\t') {m m' : Mode} {cs : List Char} {ps : List Piece}
    (h : run m cs = some (ps, m')) :
    piecesCost g ps + pending m' * g '\\' ≤ cost g cs + pending m * g '\\' := by
  induction cs generalizing m ps with
  | nil =>
    cases h
    simp
  | cons c rest ih =>
    rw [run, Option.bind_eq_some_iff] at h
    obtain ⟨⟨qs, k⟩, took, more⟩ := h
    obtain ⟨⟨rs, n⟩, after, same⟩ := Option.map_eq_some_iff.mp more
    cases same
    have here := step_cost tab took
    have later := ih after
    simp only [piecesCost_append, cost_cons] at here later ⊢
    omega

theorem cost_wordOf {stretch : List Piece} {w : List Char} (h : wordOf stretch = some w) :
    cost g w ≤ piecesCost g stretch := by
  unfold wordOf at h
  split at h
  · cases h
  · cases h
    clear *-
    induction stretch with
    | nil => simp
    | cons p rest ih =>
      have left : cost g ((p :: rest).filterMap Piece.char?) ≤
          p.cost g + cost g (rest.filterMap Piece.char?) := by
        cases p <;> simp [List.filterMap_cons, Piece.char?, Piece.cost]
      rw [piecesCost_cons]
      omega

theorem cost_unwords (stretches : List (List Piece)) :
    cost g (Words.unwords ' ' (stretches.filterMap wordOf)) ≤
      piecesCost g ([Piece.gap].intercalate stretches) := by
  induction stretches with
  | nil => simp [Words.unwords]
  | cons stretch rest ih =>
    have whole : piecesCost g stretch + piecesCost g ([Piece.gap].intercalate rest) ≤
        piecesCost g ([Piece.gap].intercalate (stretch :: rest)) := by
      cases rest with
      | nil => simp
      | cons next more => simp [List.intercalate_cons_cons]
    cases word : wordOf stretch with
    | none =>
      rw [List.filterMap_cons_none word]
      omega
    | some w =>
      have here := @cost_wordOf g _ _ word
      rw [List.filterMap_cons_some word]
      cases others : rest.filterMap wordOf with
      | nil =>
        simp only [Words.unwords]
        omega
      | cons v vs =>
        have later : rest ≠ [] := by
          rintro rfl
          cases others
        obtain ⟨next, more, rfl⟩ := List.exists_cons_of_ne_nil later
        rw [Words.unwords_cons _ _ (List.cons_ne_nil _ _), ← others]
        simp only [List.intercalate_cons_cons, cost_append, cost_cons, piecesCost_append,
          piecesCost_cons, piecesCost_nil, Piece.cost]
        omega

theorem cost_commandWords (ps : List Piece) :
    cost g (Words.unwords ' ' (commandWords ps)) ≤ piecesCost g ps := by
  have bound := @cost_unwords g (ps.splitOn .gap)
  rwa [List.intercalate_splitOn] at bound

end

/-! ### A text between single quotes

The quotes are written around a text that may have quotes of its own. -/

/-- Nothing in it opens, closes or escapes. -/
def NoQuoting (tail : List Char) : Prop := QUOTE ∉ tail ∧ ∀ c ∈ tail, c ∉ ESCAPABLE

/-- Reading starts in single quotes; after the closing one it is in quotes again or behind a
    backslash. -/
theorem run_quoted {text tail : List Char} (plain : NoQuoting tail) {ps : List Piece}
    (h : run .bare (QUOTE :: text ++ QUOTE :: tail) = some (ps, .bare)) :
    ∃ m qs last ts, run .single text = some (qs, m) ∧ run .bare tail = some (ts, .bare) ∧
      ps = .quote :: (qs ++ last ++ ts) ∧
      (m = .single ∧ last = [] ∨ m = .bareEscape ∧ last = [.char QUOTE]) := by
  rw [List.cons_append, run_cons step_open] at h
  obtain ⟨⟨rs, n⟩, rest, same⟩ := Option.map_eq_some_iff.mp h
  cases same
  obtain ⟨m, qs, us, inner, after, rfl⟩ := run_append_some rest
  have closed : ∀ {k as}, step m QUOTE = some (as, k) →
      ∃ ts, run k tail = some (ts, .bare) ∧ us = as ++ ts := by
    intro k as took
    rw [run_cons took] at after
    obtain ⟨⟨ts, e⟩, tailed, same⟩ := Option.map_eq_some_iff.mp after
    cases same
    exact ⟨ts, tailed, rfl⟩
  cases m with
  | bare =>
    obtain ⟨ts, tailed, -⟩ := closed step_open
    rw [run_single plain.1] at tailed
    cases tailed
  | single =>
    obtain ⟨ts, tailed, same⟩ := closed step_close
    exact ⟨_, qs, [], ts, inner, tailed, by simp [same], .inl ⟨rfl, rfl⟩⟩
  | double =>
    obtain ⟨ts, tailed, -⟩ := closed
      (show step .double QUOTE = some ([.char QUOTE], .double) by decide)
    rw [run_double plain.2] at tailed
    cases tailed
  | bareEscape =>
    obtain ⟨ts, tailed, same⟩ := closed
      (show step .bareEscape QUOTE = some ([.char QUOTE], .bare) by decide)
    exact ⟨_, qs, [.char QUOTE], ts, inner, tailed, by simp [same], .inr ⟨rfl, rfl⟩⟩
  | doubleEscape =>
    obtain ⟨ts, tailed, -⟩ := closed
      (show step .doubleEscape QUOTE = some ([.char '\\', .char QUOTE], .double) by decide)
    rw [run_double plain.2] at tailed
    cases tailed

theorem run_quoted_cost {g : Char → Nat} (tab : g ' ' ≤ g '\t') (quote : g QUOTE ≤ g '\\')
    {text : List Char} {m : Mode} {qs last : List Piece} (h : run .single text = some (qs, m))
    (ends : m = .single ∧ last = [] ∨ m = .bareEscape ∧ last = [.char QUOTE]) :
    piecesCost g (qs ++ last) + (if QUOTE ∈ text then g QUOTE else 0) ≤ cost g text := by
  have tail : ∀ {k cs as}, run k cs = some (as, m) →
      piecesCost g (as ++ last) ≤ cost g cs + pending k * g '\\' := by
    intro k cs as reads
    have bound := run_cost tab reads
    obtain ⟨rfl, rfl⟩ | ⟨rfl, rfl⟩ := ends
    · simpa [pending] using bound
    · rw [show pending .bareEscape = 1 from rfl, Nat.one_mul] at bound
      simp only [piecesCost_append, piecesCost_cons, piecesCost_nil, Piece.cost]
      omega
  by_cases quoted : QUOTE ∈ text
  · obtain ⟨as, bs, rfl, plain⟩ := List.eq_append_cons_of_mem quoted
    obtain ⟨k, ps, rs, first, rest, rfl⟩ := run_append_some h
    rw [run_single plain] at first
    cases first
    rw [run_cons step_close] at rest
    obtain ⟨⟨ts, e⟩, after, same⟩ := Option.map_eq_some_iff.mp rest
    cases same
    have bound := tail after
    have chars : piecesCost g (as.map .char) = cost g as := by
      simp [piecesCost, cost, Piece.cost, Function.comp_def]
    simp only [pending, List.nil_append, piecesCost_append, chars, cost_append, cost_cons,
      List.append_assoc] at bound ⊢
    rw [if_pos quoted]
    omega
  · rw [if_neg quoted]
    simpa [pending] using tail h

end ShellQuoting
