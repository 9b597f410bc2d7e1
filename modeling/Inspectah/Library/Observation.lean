import Inspectah.Library.FirstMatch

/-!
Seeing a state through an observation. A change respects it when states observed alike are
observed alike after it.
-/
namespace Observation

open FirstMatch

variable {σ τ : Type}

/-- States observed alike before the change are observed alike after it. -/
def Respects (observe : σ → τ) (f : σ → σ) : Prop :=
  ∀ a b, observe a = observe b → observe (f a) = observe (f b)

variable {observe : σ → τ}

theorem Respects.keep : Respects observe id := fun _ _ same => same

theorem Respects.whole (f : σ → σ) : Respects id f := fun _ _ same => congrArg f same

theorem Respects.of_unseen {f : σ → σ} (unseen : ∀ a, observe (f a) = observe a) :
    Respects observe f := fun a b same => by rw [unseen a, unseen b, same]

theorem Respects.comp {f g : σ → σ} (outer : Respects observe g) (inner : Respects observe f) :
    Respects observe (g ∘ f) := fun a b same => outer _ _ (inner a b same)

theorem Respects.part {κ κ' : Type} {seen : κ → κ'} {f : σ → σ} {g : κ → κ} (part : σ → κ)
    (put : τ → κ' → τ) (shown : ∀ a b, observe a = observe b → seen (part a) = seen (part b))
    (respects : Respects seen g) (onto : ∀ a, observe (f a) = put (observe a) (seen (g (part a)))) :
    Respects observe f := fun a b same => by
  rw [onto a, onto b, same, respects (part a) (part b) (shown a b same)]

theorem Respects.foldl {ι : Type} {step : σ → ι → σ} (each : ∀ i, Respects observe fun s => step s i)
    (is : List ι) : Respects observe fun s => is.foldl step s := by
  induction is with
  | nil => exact Respects.keep
  | cons i is ih => exact ih.comp (each i)

theorem Respects.option {f : σ → σ} (respects : Respects observe f) :
    Respects (Option.map observe) (Option.map f) := by
  intro a b same
  cases a with
  | none =>
    cases b with
    | none => rfl
    | some b => cases same
  | some a =>
    cases b with
    | none => cases same
    | some b => exact congrArg some (respects a b (Option.some.inj same))

theorem map_eq_iff {rows rows' : List σ} : rows.map observe = rows'.map observe ↔
    List.Forall₂ (fun a b => observe a = observe b) rows rows' := by
  rw [← List.forall₂_map_right_iff, ← List.forall₂_map_left_iff, List.forall₂_eq_eq_eq]

theorem Respects.updateFirst {p : σ → Bool} {f : σ → σ}
    (agree : ∀ a b, observe a = observe b → p a = p b) (respects : Respects observe f) :
    Respects (List.map observe) (updateFirst p f) := fun _ _ same =>
  map_eq_iff.mpr (forall_updateFirst_both _ p p f f agree respects (map_eq_iff.mp same))

theorem Respects.updateWhere {p : σ → Bool} {f : σ → σ}
    (agree : ∀ a b, observe a = observe b → p a = p b) (respects : Respects observe f) :
    Respects (List.map observe) (updateWhere p f) := by
  intro rows rows' same
  rw [map_eq_iff] at same
  unfold FirstMatch.updateWhere
  rw [List.map_map, List.map_map]
  induction same with
  | nil => rfl
  | cons head tail ih =>
    rename_i a b as bs
    have here : observe (if p a then f a else a) = observe (if p b then f b else b) := by
      rw [agree a b head]
      split
      · exact respects a b head
      · exact head
    exact congrArg₂ List.cons here ih

theorem foldl_unseen {ι : Type} {step : σ → ι → σ} {s : σ} {is : List ι}
    (respects : ∀ i, Respects observe fun s => step s i)
    (unseen : ∀ i ∈ is, observe (step s i) = observe s) :
    observe (is.foldl step s) = observe s := by
  have run : ∀ t, observe t = observe s → observe (is.foldl step t) = observe s := by
    induction is with
    | nil => exact fun t same => same
    | cons i is ih =>
      intro t same
      apply ih (fun j mem => unseen j (List.mem_cons_of_mem i mem))
      exact (respects i t s same).trans (unseen i List.mem_cons_self)
  exact run s rfl

end Observation
