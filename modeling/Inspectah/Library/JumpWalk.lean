import Mathlib.Data.List.Nodup
import Mathlib.Data.List.Pairwise
import Mathlib.Data.List.Perm.Basic
import Mathlib.Logic.Relation

/-!
A walk over a forest that goes down into some nodes and jumps to others, once each. It is the
plain descent from the start and from every node it can jump to.
-/
namespace JumpWalk

open Relation

variable {α : Type}

inductive Move (α : Type) where
  | report
  | into (b : α)
  | jump (t : α)

/-- What was reported so far, and the nodes that were jumped to. -/
structure Trace (α : Type) where
  reported : List α := []
  seen : List α := []

section Walk

variable [DecidableEq α]

/-- Make the moves of a node one after the other. -/
def run (enter : α → Trace α → Option (Trace α)) (a : α) :
    List (Move α) → Trace α → Option (Trace α)
  | [], s => some s
  | .report :: ms, s => run enter a ms { s with reported := s.reported ++ [a] }
  | .into b :: ms, s => (enter b s).bind (run enter a ms)
  | .jump t :: ms, s =>
    if t ∈ s.seen then run enter a ms s
    else (enter t { s with seen := t :: s.seen }).bind (run enter a ms)

/-- Each level of calls takes one unit of fuel; without fuel there is no result. -/
def walk (moves : α → List (Move α)) : Nat → α → Trace α → Option (Trace α)
  | 0, _, _ => none
  | fuel + 1, a, s => run (walk moves fuel) a (moves a) s

end Walk

section Graph

variable (moves : α → List (Move α))

def Into (a b : α) : Prop := Move.into b ∈ moves a

/-- Reached by going down only. -/
def Below : α → α → Prop := ReflTransGen (Into moves)

def Reaches : α → α → Prop :=
  ReflTransGen fun a b => Move.into b ∈ moves a ∨ Move.jump b ∈ moves a

/-- A node a walk from `a` can jump to. -/
def Followed (a t : α) : Prop := ∃ d, Reaches moves a d ∧ Move.jump t ∈ moves d

structure Finite (height : α → Nat) (top : Nat) (targets : List α) : Prop where
  falls : ∀ {a b}, Into moves a b → height b < height a
  bounded : ∀ a, height a ≤ top
  known : ∀ {a t}, Move.jump t ∈ moves a → t ∈ targets

end Graph

section Ends

variable [DecidableEq α] {moves : α → List (Move α)} {height : α → Nat} {top : Nat}
  {targets : List α}

def unseen (targets seen : List α) : Nat := (targets.filter (· ∉ seen)).length

theorem unseen_le {seen seen' : List α} (grown : seen ⊆ seen') :
    unseen targets seen' ≤ unseen targets seen := by
  refine List.Sublist.length_le (List.monotone_filter_right targets fun t fresh => ?_)
  simp only [decide_eq_true_eq] at fresh ⊢
  exact fun old => fresh (grown old)

theorem unseen_lt {seen : List α} {t : α} (known : t ∈ targets) (fresh : t ∉ seen) :
    unseen targets (t :: seen) < unseen targets seen := by
  have narrower : targets.filter (· ∉ t :: seen) =
      (targets.filter (· ∉ seen)).filter (· ≠ t) := by
    rw [List.filter_filter]
    congr 1
    funext u
    simp only [List.mem_cons, not_or, ne_eq, Bool.decide_and]
  rw [unseen, narrower]
  exact List.length_filter_lt_length_iff_exists.mpr ⟨t, by simp [known, fresh], by simp⟩

theorem run_total (fin : Finite moves height top targets) {enter : α → Trace α → Option (Trace α)}
    {fuel : Nat} (ends : ∀ b s, unseen targets s.seen * (top + 1) + height b < fuel →
      ∃ s', enter b s = some s' ∧ s.seen ⊆ s'.seen) {a : α} {ms : List (Move α)}
    (own : ms ⊆ moves a) (s : Trace α)
    (enough : unseen targets s.seen * (top + 1) + height a ≤ fuel) :
    ∃ s', run enter a ms s = some s' ∧ s.seen ⊆ s'.seen := by
  induction ms generalizing s with
  | nil => exact ⟨s, rfl, fun _ old => old⟩
  | cons m ms ih =>
    have later : ms ⊆ moves a := fun x mem => own (List.mem_cons_of_mem m mem)
    have here : m ∈ moves a := own List.mem_cons_self
    -- Whatever was entered, the rest of the moves is left with no more to see.
    have continues : ∀ s₁ : Trace α, s.seen ⊆ s₁.seen →
        ∃ s', run enter a ms s₁ = some s' ∧ s.seen ⊆ s'.seen := by
      intro s₁ grown
      have less : unseen targets s₁.seen ≤ unseen targets s.seen := unseen_le grown
      obtain ⟨s', ran, more⟩ := ih later s₁
        (Nat.le_trans (Nat.add_le_add_right (Nat.mul_le_mul_right _ less) _) enough)
      exact ⟨s', ran, fun x old => more (grown old)⟩
    cases m with
    | report => exact continues _ fun _ old => old
    | into b =>
      have lower := fin.falls here
      obtain ⟨s₁, entered, grown⟩ := ends b s (by omega)
      obtain ⟨s', ran, more⟩ := continues s₁ grown
      exact ⟨s', by rw [run, entered]; exact ran, more⟩
    | jump t =>
      by_cases old : t ∈ s.seen
      · obtain ⟨s', ran, more⟩ := continues s fun _ kept => kept
        exact ⟨s', by rw [run, if_pos old]; exact ran, more⟩
      · have fewer := unseen_lt (fin.known here) old
        have low := fin.bounded t
        have spare := Nat.mul_le_mul_right (top + 1) fewer
        rw [Nat.succ_mul] at spare
        obtain ⟨s₁, entered, grown⟩ := ends t { s with seen := t :: s.seen } (by
          dsimp only
          omega)
        obtain ⟨s', ran, more⟩ := continues s₁ fun _ kept => grown (List.mem_cons_of_mem _ kept)
        exact ⟨s', by rw [run, if_neg old, entered]; exact ran, more⟩

theorem walk_total (fin : Finite moves height top targets) (fuel : Nat) (a : α) (s : Trace α)
    (enough : unseen targets s.seen * (top + 1) + height a < fuel) :
    ∃ s', walk moves fuel a s = some s' ∧ s.seen ⊆ s'.seen := by
  induction fuel generalizing a s with
  | zero => exact absurd enough (Nat.not_lt_zero _)
  | succ fuel ih => exact run_total fin ih (fun _ own => own) s (Nat.le_of_lt_succ enough)

end Ends

section Descent

variable (moves : α → List (Move α)) (height : α → Nat)

/-- What a node reports when it is gone down from, so many levels deep. -/
def descend : Nat → α → List α
  | 0, _ => []
  | depth + 1, a => (moves a).flatMap fun m =>
    match m with
    | .report => [a]
    | .into b => descend depth b
    | .jump _ => []

/-- The plain descent from a node, deep enough. -/
def reports (a : α) : List α := descend moves (height a + 1) a

/-- What one move contributes to the plain descent. -/
def piece (a : α) : Move α → List α
  | .report => [a]
  | .into b => reports moves height b
  | .jump _ => []

variable {moves height}
variable (falls : ∀ {a b}, Into moves a b → height b < height a)
include falls

theorem descend_eq {n : Nat} {a : α} (deep : height a < n) :
    descend moves n a = reports moves height a := by
  suffices ∀ n m a, height a < n → height a < m → descend moves n a = descend moves m a from
    this n (height a + 1) a deep (Nat.lt_succ_self _)
  intro n
  induction n with
  | zero => intro m a none; exact absurd none (Nat.not_lt_zero _)
  | succ n ih =>
    intro m a deep deep'
    cases m with
    | zero => exact absurd deep' (Nat.not_lt_zero _)
    | succ m =>
      rw [descend, descend]
      refine List.flatMap_congr fun move mem => ?_
      cases move with
      | report => rfl
      | jump t => rfl
      | into b =>
        have lower := falls mem
        exact ih m b (by omega) (by omega)

theorem reports_eq (a : α) :
    reports moves height a = (moves a).flatMap (piece moves height a) := by
  rw [reports, descend]
  refine List.flatMap_congr fun move mem => ?_
  cases move with
  | report => rfl
  | jump t => rfl
  | into b => exact descend_eq falls (falls mem)

theorem mem_reports {a d : α} :
    d ∈ reports moves height a ↔ Below moves a d ∧ Move.report ∈ moves d := by
  induction size : height a using Nat.strongRecOn generalizing a with
  | ind n ih =>
    rw [reports_eq falls, List.mem_flatMap]
    constructor
    · rintro ⟨move, mem, there⟩
      cases move with
      | report =>
        obtain rfl := List.mem_singleton.mp there
        exact ⟨.refl, mem⟩
      | jump t => cases there
      | into b =>
        obtain ⟨below, reported⟩ := (ih (height b) (size ▸ falls mem) rfl).mp there
        exact ⟨.head mem below, reported⟩
    · rintro ⟨below, reported⟩
      rcases ReflTransGen.cases_head below with rfl | ⟨b, step, below⟩
      · exact ⟨.report, reported, List.mem_singleton_self a⟩
      · exact ⟨.into b, step, (ih (height b) (size ▸ falls step) rfl).mpr ⟨below, reported⟩⟩

theorem height_le_of_below {a d : α} (below : Below moves a d) : height d ≤ height a := by
  induction below with
  | refl => exact Nat.le_refl _
  | tail _ step ih => exact Nat.le_trans (Nat.le_of_lt (falls step)) ih

theorem reports_nodup
    (distinct : ∀ a, (moves a).Pairwise fun m m' => m = m' → ∃ t, m = .jump t)
    (apart : ∀ {a b c d}, Into moves a b → Into moves a c → Below moves b d → Below moves c d →
      b = c) (a : α) : (reports moves height a).Nodup := by
  induction size : height a using Nat.strongRecOn generalizing a with
  | ind n ih =>
    rw [reports_eq falls, List.nodup_flatMap]
    refine ⟨fun move mem => ?_, ?_⟩
    · cases move with
      | report => exact List.nodup_singleton a
      | jump t => exact List.nodup_nil
      | into b => exact ih (height b) (size ▸ falls mem) b rfl
    · have own : ∀ {b}, Into moves a b → a ∉ reports moves height b := by
        intro b step there
        have low := height_le_of_below falls ((mem_reports falls).mp there).1
        exact absurd (falls step) (Nat.not_lt.mpr low)
      refine (distinct a).imp_of_mem fun {m m'} mem mem' differ => ?_
      have ne : m = m' → ∀ d, d ∉ piece moves height a m := by
        intro same d there
        obtain ⟨t, rfl⟩ := differ same
        cases there
      intro d here here'
      cases m with
      | jump t => cases here
      | report =>
        obtain rfl := List.mem_singleton.mp here
        cases m' with
        | jump t => cases here'
        | report => exact ne rfl _ here
        | into b => exact own mem' here'
      | into b =>
        cases m' with
        | jump t => cases here'
        | report =>
          obtain rfl := List.mem_singleton.mp here'
          exact own mem here
        | into c =>
          have below := ((mem_reports falls).mp here).1
          have same := apart mem mem' below ((mem_reports falls).mp here').1
          exact ne (same ▸ rfl) d here

end Descent

section Outcome

variable (moves : α → List (Move α)) (height : α → Nat)

def Covered (seen : List α) (a : α) : Prop :=
  ∀ d, Below moves a d → ∀ t, Move.jump t ∈ moves d → t ∈ seen

/-- After some moves: the nodes `new` were jumped to and reported, and nothing below is left to
    jump to. -/
structure Made (a : α) (ms : List (Move α)) (s s' : Trace α) (new : List α) : Prop where
  seen : s'.seen = new ++ s.seen
  once : new.Nodup
  fresh : ∀ t ∈ new, t ∉ s.seen
  reported : s'.reported.Perm
    (s.reported ++ (ms.flatMap (piece moves height a) ++ new.flatMap (reports moves height)))
  followed : ∀ t ∈ new, Followed moves a t
  jumped : ∀ t, Move.jump t ∈ ms → t ∈ s'.seen
  below : ∀ b, Move.into b ∈ ms → Covered moves s'.seen b
  covered : ∀ t ∈ new, Covered moves s'.seen t

variable {moves height}

theorem Covered.grow {seen seen' : List α} {a : α} (grown : seen ⊆ seen')
    (covered : Covered moves seen a) : Covered moves seen' a :=
  fun d below t jump => grown (covered d below t jump)

theorem Followed.into {a b t : α} (step : Into moves a b) (followed : Followed moves b t) :
    Followed moves a t := by
  obtain ⟨d, reached, jump⟩ := followed
  exact ⟨d, .head (.inl step) reached, jump⟩

theorem Followed.jump {a b t : α} (step : Move.jump b ∈ moves a) (followed : Followed moves b t) :
    Followed moves a t := by
  obtain ⟨d, reached, jump⟩ := followed
  exact ⟨d, .head (.inr step) reached, jump⟩

theorem Below.reaches {a d : α} (below : Below moves a d) : Reaches moves a d := by
  induction below with
  | refl => exact .refl
  | tail _ step ih => exact ih.tail (.inl step)

theorem reaches_iff {root d : α} : Reaches moves root d ↔
    Below moves root d ∨ ∃ t, Followed moves root t ∧ Below moves t d := by
  constructor
  · intro reached
    induction reached with
    | refl => exact .inl .refl
    | @tail b c before step ih =>
      rcases step with into | jump
      · rcases ih with below | ⟨t, followed, below⟩
        · exact .inl (below.tail into)
        · exact .inr ⟨t, followed, below.tail into⟩
      · exact .inr ⟨c, ⟨b, before, jump⟩, .refl⟩
  · rintro (below | ⟨t, ⟨b, before, jump⟩, below⟩)
    · exact below.reaches
    · exact (before.tail (.inr jump)).trans below.reaches

theorem Made.covers {a : α} {s s' : Trace α} {new : List α}
    (made : Made moves height a (moves a) s s' new) : Covered moves s'.seen a := by
  intro d below t jump
  rcases ReflTransGen.cases_head below with rfl | ⟨b, step, below⟩
  · exact made.jumped t jump
  · exact made.below b step d below t jump

theorem Made.grown {a : α} {ms : List (Move α)} {s s' : Trace α} {new : List α}
    (made : Made moves height a ms s s' new) : s.seen ⊆ s'.seen := by
  rw [made.seen]
  exact List.subset_append_right _ _

theorem made_nil (a : α) (s : Trace α) : Made moves height a [] s s [] where
  seen := rfl
  once := List.nodup_nil
  fresh := by simp
  reported := by simp
  followed := by simp
  jumped := by simp
  below := by simp
  covered := by simp

theorem Made.cons {a : α} {m : Move α} {ms : List (Move α)} {s s₁ s' : Trace α}
    {new₁ new : List α} (first : Made moves height a [m] s s₁ new₁)
    (rest : Made moves height a ms s₁ s' new) :
    Made moves height a (m :: ms) s s' (new ++ new₁) where
  seen := by rw [rest.seen, first.seen, List.append_assoc]
  once := by
    rw [List.nodup_append]
    refine ⟨rest.once, first.once, ?_⟩
    rintro t later u before rfl
    refine rest.fresh t later ?_
    rw [first.seen]
    exact List.mem_append_left _ before
  fresh := by
    intro t mem
    rcases List.mem_append.mp mem with later | before
    · exact fun old => rest.fresh t later (first.grown old)
    · exact first.fresh t before
  reported := by
    refine rest.reported.trans ((first.reported.append_right _).trans ?_)
    rw [List.flatMap_cons, List.flatMap_cons, List.flatMap_nil, List.append_nil,
      List.flatMap_append, List.append_assoc, List.append_assoc, List.append_assoc]
    refine (List.Perm.append_left _ (List.Perm.append_left _ ?_))
    rw [← List.append_assoc, ← List.append_assoc]
    exact (List.perm_append_comm.append_right _).trans
      (by rw [List.append_assoc, List.append_assoc]; exact List.Perm.append_left _ List.perm_append_comm)
  followed := by
    intro t mem
    rcases List.mem_append.mp mem with later | before
    · exact rest.followed t later
    · exact first.followed t before
  jumped := by
    intro t mem
    rcases List.mem_cons.mp mem with rfl | later
    · exact rest.grown (first.jumped t List.mem_cons_self)
    · exact rest.jumped t later
  below := by
    intro b mem
    rcases List.mem_cons.mp mem with rfl | later
    · exact (first.below b List.mem_cons_self).grow rest.grown
    · exact rest.below b later
  covered := by
    intro t mem
    rcases List.mem_append.mp mem with later | before
    · exact rest.covered t later
    · exact (first.covered t before).grow rest.grown

theorem made_report (a : α) (s : Trace α) :
    Made moves height a [.report] s { s with reported := s.reported ++ [a] } [] where
  seen := rfl
  once := List.nodup_nil
  fresh := by simp
  reported := by simp [piece]
  followed := by simp
  jumped := by simp
  below := by simp
  covered := by simp

theorem made_skip {a t : α} {s : Trace α} (old : t ∈ s.seen) :
    Made moves height a [.jump t] s s [] where
  seen := rfl
  once := List.nodup_nil
  fresh := by simp
  reported := by simp [piece]
  followed := by simp
  jumped := by simpa using old
  below := by simp
  covered := by simp

theorem below_of_reaches {root d : α} {s s' : Trace α} {new : List α}
    (made : Made moves height root (moves root) s s' new) (start : s.seen = [])
    (reached : Reaches moves root d) : Below moves root d ∨ ∃ t ∈ new, Below moves t d := by
  have known : s'.seen = new := by rw [made.seen, start, List.append_nil]
  induction reached with
  | refl => exact .inl .refl
  | tail _ step ih =>
    rcases step with into | jump
    · rcases ih with below | ⟨t, mem, below⟩
      · exact .inl (below.tail into)
      · exact .inr ⟨t, mem, below.tail into⟩
    · refine .inr ⟨_, ?_, .refl⟩
      rw [← known]
      rcases ih with below | ⟨t, mem, below⟩
      · exact made.covers _ below _ jump
      · exact made.covered t mem _ below _ jump

section Falling

variable (falls : ∀ {a b}, Into moves a b → height b < height a)
include falls

theorem Made.into {a b : α} {s s' : Trace α} {new : List α} (step : Into moves a b)
    (made : Made moves height b (moves b) s s' new) : Made moves height a [.into b] s s' new where
  seen := made.seen
  once := made.once
  fresh := made.fresh
  reported := by
    have whole := made.reported
    rw [← reports_eq falls] at whole
    simpa [piece] using whole
  followed := fun t mem => (made.followed t mem).into step
  jumped := by simp
  below := by
    intro c mem
    obtain rfl : c = b := by simpa using mem
    exact made.covers
  covered := made.covered

theorem Made.jump {a t : α} {s s' : Trace α} {new : List α} (step : Move.jump t ∈ moves a)
    (unseen : t ∉ s.seen)
    (made : Made moves height t (moves t) { s with seen := t :: s.seen } s' new) :
    Made moves height a [.jump t] s s' (new ++ [t]) where
  seen := by rw [made.seen, List.append_assoc]; rfl
  once := by
    rw [List.nodup_append]
    refine ⟨made.once, List.nodup_singleton t, ?_⟩
    rintro u later v own rfl
    exact made.fresh u later (List.mem_singleton.mp own ▸ List.mem_cons_self)
  fresh := by
    intro u mem
    rcases List.mem_append.mp mem with later | own
    · exact fun old => made.fresh u later (List.mem_cons_of_mem t old)
    · exact List.mem_singleton.mp own ▸ unseen
  reported := by
    have whole := made.reported
    rw [← reports_eq falls] at whole
    refine whole.trans (List.Perm.append_left _ ?_)
    rw [List.flatMap_append, List.flatMap_singleton, List.flatMap_singleton]
    exact List.perm_append_comm
  followed := by
    intro u mem
    rcases List.mem_append.mp mem with later | own
    · exact (made.followed u later).jump step
    · exact ⟨a, .refl, List.mem_singleton.mp own ▸ step⟩
  jumped := by
    intro u mem
    obtain rfl : u = t := by simpa using mem
    exact made.grown List.mem_cons_self
  below := by simp
  covered := by
    intro u mem
    rcases List.mem_append.mp mem with later | own
    · exact made.covered u later
    · exact List.mem_singleton.mp own ▸ made.covers

variable [DecidableEq α]

theorem run_made {enter : α → Trace α → Option (Trace α)}
    (enters : ∀ b s s', enter b s = some s' → ∃ new, Made moves height b (moves b) s s' new) {a : α}
    {ms : List (Move α)} (own : ms ⊆ moves a) {s s' : Trace α} (ran : run enter a ms s = some s') :
    ∃ new, Made moves height a ms s s' new := by
  induction ms generalizing s with
  | nil =>
    cases ran
    exact ⟨[], made_nil a _⟩
  | cons m ms ih =>
    have later : ms ⊆ moves a := fun x mem => own (List.mem_cons_of_mem m mem)
    have here : m ∈ moves a := own List.mem_cons_self
    cases m with
    | report =>
      obtain ⟨new, rest⟩ := ih later ran
      exact ⟨_, (made_report a _).cons rest⟩
    | into b =>
      obtain ⟨s₁, entered, ran⟩ := Option.bind_eq_some_iff.mp ran
      obtain ⟨new₁, first⟩ := enters b s s₁ entered
      obtain ⟨new, rest⟩ := ih later ran
      exact ⟨_, (first.into falls here).cons rest⟩
    | jump t =>
      rw [run] at ran
      split at ran
      · rename_i old
        obtain ⟨new, rest⟩ := ih later ran
        exact ⟨_, (made_skip old).cons rest⟩
      · rename_i unseen
        obtain ⟨s₁, entered, ran⟩ := Option.bind_eq_some_iff.mp ran
        obtain ⟨new₁, first⟩ := enters t _ s₁ entered
        obtain ⟨new, rest⟩ := ih later ran
        exact ⟨_, (first.jump falls here unseen).cons rest⟩

theorem walk_made {fuel : Nat} {a : α} {s s' : Trace α} (ended : walk moves fuel a s = some s') :
    ∃ new, Made moves height a (moves a) s s' new := by
  induction fuel generalizing a s s' with
  | zero => cases ended
  | succ fuel ih => exact run_made falls (fun _ _ _ => ih) (fun _ own => own) ended

theorem walk_reports {fuel : Nat} {root : α} {s : Trace α}
    (ended : walk moves fuel root {} = some s) :
    s.reported.Perm (reports moves height root ++ s.seen.flatMap (reports moves height)) ∧
      s.seen.Nodup ∧ ∀ t, t ∈ s.seen ↔ Followed moves root t := by
  obtain ⟨new, made⟩ := walk_made falls ended
  have known : s.seen = new := by rw [made.seen, List.append_nil]
  have whole := made.reported
  rw [← reports_eq falls, List.nil_append] at whole
  refine ⟨known ▸ whole, known ▸ made.once, fun t => ⟨fun mem => made.followed t (known ▸ mem), ?_⟩⟩
  rintro ⟨d, reached, jump⟩
  rcases below_of_reaches made rfl reached with below | ⟨u, mem, below⟩
  · exact made.covers d below t jump
  · exact made.covered u mem d below t jump

structure OneStart (moves : α → List (Move α)) (root d : α) : Prop where
  descent : Below moves root d → ∀ t, Followed moves root t → ¬ Below moves t d
  jumps : ∀ t u, Followed moves root t → Followed moves root u → Below moves t d →
    Below moves u d → t = u

theorem walk_nodup_iff (single : ∀ a, (reports moves height a).Nodup) {fuel : Nat} {root : α}
    {s : Trace α} (ended : walk moves fuel root {} = some s) :
    s.reported.Nodup ↔ ∀ d, Move.report ∈ moves d → OneStart moves root d := by
  obtain ⟨perm, once, followed⟩ := walk_reports falls ended
  rw [perm.nodup_iff, List.nodup_append, List.nodup_flatMap]
  constructor
  · rintro ⟨-, ⟨-, apart⟩, disjoint⟩ d reported
    refine ⟨fun below t jump there => ?_, fun t u jump jump' below below' => ?_⟩
    · have first := (mem_reports falls).mpr ⟨below, reported⟩
      have again := (mem_reports falls).mpr ⟨there, reported⟩
      exact disjoint d first d (List.mem_flatMap.mpr ⟨t, (followed t).mpr jump, again⟩) rfl
    · by_contra ne
      have here := (mem_reports falls).mpr ⟨below, reported⟩
      have there := (mem_reports falls).mpr ⟨below', reported⟩
      have symmetric : Std.Symm (Function.onFun List.Disjoint (reports moves height)) :=
        ⟨fun _ _ h _ there here => h here there⟩
      exact apart.forall ((followed t).mpr jump) ((followed u).mpr jump') ne here there
  · intro one
    refine ⟨single root, ⟨fun t _ => single t, ?_⟩, ?_⟩
    · refine once.imp_of_mem fun {t u} mem mem' ne => ?_
      intro d here there
      obtain ⟨below, reported⟩ := (mem_reports falls).mp here
      obtain ⟨below', -⟩ := (mem_reports falls).mp there
      have from_t := (followed t).mp mem
      have from_u := (followed u).mp mem'
      exact ne ((one d reported).jumps t u from_t from_u below below')
    · rintro d first e again rfl
      obtain ⟨below, reported⟩ := (mem_reports falls).mp first
      obtain ⟨t, mem, there⟩ := List.mem_flatMap.mp again
      exact (one d reported).descent below t ((followed t).mp mem) ((mem_reports falls).mp there).1

theorem mem_walk_iff {fuel : Nat} {root d : α} {s : Trace α}
    (ended : walk moves fuel root {} = some s) :
    d ∈ s.reported ↔ Move.report ∈ moves d ∧ Reaches moves root d := by
  obtain ⟨perm, -, followed⟩ := walk_reports falls ended
  rw [perm.mem_iff, List.mem_append, List.mem_flatMap, mem_reports falls, reaches_iff]
  constructor
  · rintro (⟨below, reported⟩ | ⟨t, mem, there⟩)
    · exact ⟨reported, .inl below⟩
    · obtain ⟨below, reported⟩ := (mem_reports falls).mp there
      exact ⟨reported, .inr ⟨t, (followed t).mp mem, below⟩⟩
  · rintro ⟨reported, below | ⟨t, jump, below⟩⟩
    · exact .inl ⟨below, reported⟩
    · exact .inr ⟨t, (followed t).mpr jump, (mem_reports falls).mpr ⟨below, reported⟩⟩

end Falling

end Outcome

end JumpWalk
