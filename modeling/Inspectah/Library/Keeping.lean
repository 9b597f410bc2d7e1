import Mathlib.Data.List.Basic

/-!
Programs over a state that keep an invariant of it: one rule for each way a program is
made.
-/
namespace Keeping

variable {σ α β : Type} {inv : σ → Prop}

def Keeps (inv : σ → Prop) (run : StateM σ α) : Prop := ∀ s, inv s → inv (run s).2

theorem keeps_pure (a : α) : Keeps inv (pure a : StateM σ α) := fun _ held => held

theorem keeps_bind {run : StateM σ α} {next : α → StateM σ β} (first : Keeps inv run)
    (rest : ∀ a, Keeps inv (next a)) : Keeps inv (run >>= next) :=
  fun s held => rest (run s).1 (run s).2 (first s held)

theorem keeps_map {run : StateM σ α} (f : α → β) (first : Keeps inv run) :
    Keeps inv (f <$> run) := first

theorem keeps_modify {f : σ → σ} (step : ∀ s, inv s → inv (f s)) :
    Keeps inv (modify f : StateM σ PUnit) := step

theorem keeps_ite {c : Prop} [Decidable c] {yes no : StateM σ α} (left : Keeps inv yes)
    (right : Keeps inv no) : Keeps inv (if c then yes else no) := by
  split
  · exact left
  · exact right

theorem keeps_mapM {f : α → StateM σ β} (step : ∀ a, Keeps inv (f a)) (rows : List α) :
    Keeps inv (rows.mapM f) := by
  induction rows with
  | nil => exact keeps_pure _
  | cons a rest ih =>
    rw [List.mapM_cons]
    exact keeps_bind (step a) fun b => keeps_bind ih fun bs => keeps_pure (b :: bs)

theorem keeps_forM {f : α → StateM σ PUnit} (step : ∀ a, Keeps inv (f a)) (rows : List α) :
    Keeps inv (rows.forM f) := by
  induction rows with
  | nil => exact keeps_pure _
  | cons a rest ih => exact keeps_bind (step a) fun _ => ih

theorem keeps_foldlM {f : β → α → StateM σ β} (step : ∀ b a, Keeps inv (f b a)) (rows : List α)
    (start : β) : Keeps inv (rows.foldlM f start) := by
  induction rows generalizing start with
  | nil => exact keeps_pure _
  | cons a rest ih =>
    rw [List.foldlM_cons]
    exact keeps_bind (step start a) fun b => ih b

theorem keeps_option {f : α → StateM σ β} (step : ∀ a, Keeps inv (f a)) (row : Option α) :
    Keeps inv (row.mapM f) := by
  cases row with
  | none => exact keeps_pure _
  | some a => exact keeps_map some (step a)

end Keeping
