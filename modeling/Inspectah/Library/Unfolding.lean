import Mathlib.Data.Fintype.Card
import Mathlib.Logic.Relation
import Mathlib.Order.WellFounded

/-!
A graph searched without a memory. With finitely many nodes in reach the search ends exactly
where none of them is on a cycle.
-/
namespace Unfolding

variable {α : Type*} {next : α → List α}

/-- The search from a node comes to an end, so many calls deep. -/
def Settles (next : α → List α) : Nat → α → Prop
  | 0, _ => False
  | depth + 1, a => ∀ b ∈ next a, Settles next depth b

def Edge (next : α → List α) (a b : α) : Prop := b ∈ next a

def InReach (next : α → List α) : α → α → Prop := Relation.ReflTransGen (Edge next)

def OnCycle (next : α → List α) (a : α) : Prop := Relation.TransGen (Edge next) a a

theorem Settles.mono {depth : Nat} {a : α} (settles : Settles next depth a) (more : Nat) :
    Settles next (depth + more) a := by
  induction depth generalizing a with
  | zero => exact settles.elim
  | succ depth ih =>
    rw [Nat.add_right_comm]
    exact fun b mem => ih (settles b mem)

theorem Settles.reached {depth : Nat} {a b : α} (settles : Settles next depth a)
    (reach : InReach next a b) : ∃ left ≤ depth, Settles next left b := by
  induction reach with
  | refl => exact ⟨depth, le_rfl, settles⟩
  | tail _ edge ih =>
    obtain ⟨left, le, here⟩ := ih
    cases left with
    | zero => exact here.elim
    | succ left => exact ⟨left, Nat.le_of_succ_le le, here _ edge⟩

theorem OnCycle.later {a : α} (cycle : OnCycle next a) : ∃ b, Edge next a b ∧ OnCycle next b := by
  obtain ⟨b, edge, back⟩ := Relation.TransGen.head'_iff.mp cycle
  exact ⟨b, edge, Relation.TransGen.tail'_iff.mpr ⟨a, back, edge⟩⟩

theorem Settles.not_onCycle {depth : Nat} {a : α} (settles : Settles next depth a) :
    ¬OnCycle next a := by
  induction depth generalizing a with
  | zero => exact settles.elim
  | succ depth ih =>
    intro cycle
    obtain ⟨b, edge, onwards⟩ := cycle.later
    exact ih (settles b edge) onwards

theorem settles_of_each {a : α} (each : ∀ b ∈ next a, ∃ depth, Settles next depth b) :
    ∃ depth, Settles next depth a := by
  have common : ∀ bs : List α, (∀ b ∈ bs, ∃ depth, Settles next depth b) →
      ∃ depth, ∀ b ∈ bs, Settles next depth b := by
    intro bs
    induction bs with
    | nil => exact fun _ => ⟨0, fun b mem => absurd mem (List.not_mem_nil)⟩
    | cons b bs ih =>
      intro each
      obtain ⟨n, first⟩ := each b List.mem_cons_self
      obtain ⟨m, others⟩ := ih fun c mem => each c (List.mem_cons_of_mem _ mem)
      refine ⟨n + m, fun c mem => ?_⟩
      rcases List.mem_cons.mp mem with rfl | mem
      · exact first.mono m
      · rw [Nat.add_comm]
        exact (others c mem).mono n
  obtain ⟨depth, all⟩ := common (next a) each
  exact ⟨depth + 1, all⟩

theorem settles_iff {a : α} (finite : {b | InReach next a b}.Finite) :
    (∃ depth, Settles next depth a) ↔ ∀ b, InReach next a b → ¬OnCycle next b := by
  constructor
  · rintro ⟨depth, settles⟩ b reach
    obtain ⟨left, -, there⟩ := settles.reached reach
    exact there.not_onCycle
  · intro acyclic
    let Below (b c : {b | InReach next a b}) : Prop := Relation.TransGen (Edge next) c.1 b.1
    have : Finite {b | InReach next a b} := finite
    have : IsTrans _ Below := ⟨fun _ _ _ first second => second.trans first⟩
    have : Std.Irrefl Below := ⟨fun b cycle => acyclic b.1 b.2 cycle⟩
    have founded : WellFounded Below := Finite.wellFounded_of_trans_of_irrefl Below
    have all : ∀ b : {b | InReach next a b}, ∃ depth, Settles next depth b.1 := by
      intro b
      induction b using founded.induction with
      | _ b ih =>
        refine settles_of_each fun c edge => ?_
        exact ih ⟨c, b.2.tail edge⟩ (.single edge)
    exact all ⟨a, .refl⟩

end Unfolding
