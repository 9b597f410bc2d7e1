import Mathlib.Data.List.Basic

/-!
A program that writes files asks for one thing after the other, and the file system
grants or refuses. A refusal of a step that is required ends the program; a refusal of
any other is passed over.
-/
namespace Writers

variable {ρ : Type} (Grantable : ρ → Prop)

structure Step (ρ : Type) where
  request : ρ
  required : Bool

/-- What a file system grants after what it has granted; never what none can. -/
structure Disk where
  grants : List ρ → ρ → Bool
  lawful : ∀ {granted r}, grants granted r → Grantable r

variable {Grantable}

def perform (disk : Disk Grantable) (granted : List ρ) : List (Step ρ) → List ρ
  | [] => granted
  | s :: rest =>
    if disk.grants granted s.request then perform disk (granted ++ [s.request]) rest
    else if s.required then granted
    else perform disk granted rest

variable [DecidablePred Grantable]

/-- The file system that refuses nothing it could grant. -/
def willing : Disk Grantable where
  grants _ r := decide (Grantable r)
  lawful h := of_decide_eq_true h

theorem grants_willing (granted : List ρ) (r : ρ) :
    (willing : Disk Grantable).grants granted r = decide (Grantable r) := rfl

/-- What a program gets at most. -/
def reached (Grantable : ρ → Prop) [DecidablePred Grantable] : List (Step ρ) → List ρ
  | [] => []
  | s :: rest =>
    if Grantable s.request then s.request :: reached Grantable rest
    else if s.required then []
    else reached Grantable rest

theorem perform_willing (granted : List ρ) (steps : List (Step ρ)) :
    perform (willing : Disk Grantable) granted steps =
      granted ++ reached Grantable steps := by
  induction steps generalizing granted with
  | nil => simp [perform, reached]
  | cons s rest ih =>
    by_cases can : Grantable s.request
    · simp [perform, reached, grants_willing, can, ih]
    · cases required : s.required <;> simp [perform, reached, grants_willing, can, required, ih]

theorem mem_perform {disk : Disk Grantable} {granted : List ρ} {steps : List (Step ρ)} {r : ρ}
    (h : r ∈ perform disk granted steps) : r ∈ granted ∨ r ∈ reached Grantable steps := by
  induction steps generalizing granted with
  | nil => exact .inl h
  | cons s rest ih =>
    unfold perform at h
    by_cases yes : disk.grants granted s.request
    · rw [if_pos yes] at h
      have can := disk.lawful yes
      simp only [reached, can, if_true, List.mem_cons]
      obtain before | later := ih h
      · obtain old | new := List.mem_append.mp before
        · exact .inl old
        · exact .inr (.inl (List.mem_singleton.mp new))
      · exact .inr (.inr later)
    · rw [if_neg yes] at h
      cases required : s.required with
      | true =>
        rw [required, if_pos rfl] at h
        exact .inl h
      | false =>
        rw [required, if_neg Bool.false_ne_true] at h
        obtain before | later := ih h
        · exact .inl before
        · refine .inr ?_
          unfold reached
          split
          · exact List.mem_cons_of_mem _ later
          · simpa [required] using later

/-- What holds of all a program gets, under every file system, is what holds of all it
    gets from the willing one. -/
theorem forall_disks_iff {P : ρ → Prop} (steps : List (Step ρ)) :
    (∀ (disk : Disk Grantable), ∀ r ∈ perform disk [] steps, P r) ↔
      ∀ r ∈ reached Grantable steps, P r := by
  constructor
  · intro all r hr
    exact all willing r (by rw [perform_willing]; simpa using hr)
  · intro all disk r hr
    obtain none | got := mem_perform hr
    · cases none
    · exact all r got

/-- No refusal ends the program here. -/
def Goes (Grantable : ρ → Prop) (steps : List (Step ρ)) : Prop :=
  ∀ s ∈ steps, s.required → Grantable s.request

instance (steps : List (Step ρ)) : Decidable (Goes Grantable steps) :=
  inferInstanceAs (Decidable (∀ _ ∈ _, _))

theorem reached_append_of_goes {xs : List (Step ρ)} (ys : List (Step ρ))
    (goes : Goes Grantable xs) :
    reached Grantable (xs ++ ys) = reached Grantable xs ++ reached Grantable ys := by
  induction xs with
  | nil => rfl
  | cons s rest ih =>
    have tail : Goes Grantable rest := fun t ht => goes t (List.mem_cons_of_mem _ ht)
    by_cases can : Grantable s.request
    · simp [reached, can, ih tail]
    · have optional : s.required = false := by
        by_contra required
        exact can (goes s (List.mem_cons_self ..) (Bool.not_eq_false _ ▸ required))
      simp [reached, can, optional, ih tail]

theorem reached_append_of_stops {xs : List (Step ρ)} (ys : List (Step ρ))
    (stops : ¬ Goes Grantable xs) : reached Grantable (xs ++ ys) = reached Grantable xs := by
  induction xs with
  | nil => exact absurd (fun _ h => by cases h) stops
  | cons s rest ih =>
    by_cases can : Grantable s.request
    · have later : ¬ Goes Grantable rest := by
        intro goes
        refine stops fun t ht => ?_
        obtain rfl | inRest := List.mem_cons.mp ht
        · exact fun _ => can
        · exact goes t inRest
      simp [reached, can, ih later]
    · cases required : s.required with
      | true => simp [reached, can, required]
      | false =>
        have later : ¬ Goes Grantable rest := by
          intro goes
          refine stops fun t ht => ?_
          obtain rfl | inRest := List.mem_cons.mp ht
          · intro needed
            rw [required] at needed
            cases needed
          · exact goes t inRest
        simp [reached, can, required, ih later]

theorem reached_of_required {steps : List (Step ρ)} (all : ∀ s ∈ steps, s.required) :
    reached Grantable steps =
      (steps.map (·.request)).takeWhile fun r => decide (Grantable r) := by
  induction steps with
  | nil => rfl
  | cons s rest ih =>
    have tail := ih fun t ht => all t (List.mem_cons_of_mem _ ht)
    by_cases can : Grantable s.request
    · simp [reached, can, tail]
    · simp [reached, can, all s (List.mem_cons_self ..)]

theorem reached_flatMap {α : Type} {block : α → List (Step ρ)} (ok : α → Bool) {xs : List α}
    (goes : ∀ x ∈ xs, ok x = true → Goes Grantable (block x))
    (stops : ∀ x ∈ xs, ok x = false →
      ¬ Goes Grantable (block x) ∧ reached Grantable (block x) = []) :
    reached Grantable (xs.flatMap block) =
      (xs.takeWhile ok).flatMap fun x => reached Grantable (block x) := by
  induction xs with
  | nil => rfl
  | cons x rest ih =>
    have tail := ih (fun y hy => goes y (List.mem_cons_of_mem _ hy))
      (fun y hy => stops y (List.mem_cons_of_mem _ hy))
    rw [List.flatMap_cons]
    cases here : ok x with
    | true =>
      rw [reached_append_of_goes _ (goes x (List.mem_cons_self ..) here), tail,
        List.takeWhile_cons_of_pos here, List.flatMap_cons]
    | false =>
      obtain ⟨ends, nothing⟩ := stops x (List.mem_cons_self ..) here
      rw [reached_append_of_stops _ ends, nothing, List.takeWhile_cons_of_neg (by simp [here])]
      rfl

theorem forall_takeWhile_filter {can : ρ → Bool} {P : ρ → Prop} {asked : ρ → Bool}
    {rs : List ρ} (harmless : ∀ r ∈ rs, asked r = false → can r = true ∧ P r) :
    (∀ r ∈ rs.takeWhile can, P r) ↔ ∀ r ∈ (rs.filter asked).takeWhile can, P r := by
  induction rs with
  | nil => rfl
  | cons r rest ih =>
    have tail := ih fun t ht => harmless t (List.mem_cons_of_mem _ ht)
    cases about : asked r with
    | true =>
      rw [List.filter_cons_of_pos about]
      cases granted : can r with
      | true => simp [granted, tail]
      | false => simp [granted]
    | false =>
      obtain ⟨granted, holds⟩ := harmless r (List.mem_cons_self ..) about
      rw [List.filter_cons_of_neg (by simp [about])]
      simp [granted, holds, tail]

theorem forall_takeWhile_map {α : Type} {f : ρ → α} {can : ρ → Bool} {ok : α → Bool}
    {P : ρ → Prop} {Q : α → Prop} {rs : List ρ} (same : ∀ r ∈ rs, can r = ok (f r))
    (asks : ∀ r ∈ rs, P r ↔ Q (f r)) :
    (∀ r ∈ rs.takeWhile can, P r) ↔ ∀ a ∈ (rs.map f).takeWhile ok, Q a := by
  induction rs with
  | nil => simp
  | cons r rest ih =>
    have tail := ih (fun t ht => same t (List.mem_cons_of_mem _ ht))
      (fun t ht => asks t (List.mem_cons_of_mem _ ht))
    have here := same r (List.mem_cons_self ..)
    rw [List.map_cons]
    cases granted : can r with
    | true => simp [granted, ← here, tail, asks r (List.mem_cons_self ..)]
    | false => simp [granted, ← here]

theorem mem_reached_of_goes {steps : List (Step ρ)} (goes : Goes Grantable steps) {r : ρ} :
    r ∈ reached Grantable steps ↔ Grantable r ∧ ∃ s ∈ steps, s.request = r := by
  induction steps with
  | nil => simp [reached]
  | cons s rest ih =>
    have tail := ih fun t ht => goes t (List.mem_cons_of_mem _ ht)
    by_cases can : Grantable s.request
    · simp only [reached, can, if_true, List.mem_cons, tail, exists_eq_or_imp]
      constructor
      · rintro (rfl | ⟨h, found⟩)
        · exact ⟨can, .inl rfl⟩
        · exact ⟨h, .inr found⟩
      · rintro ⟨h, rfl | found⟩
        · exact .inl rfl
        · exact .inr ⟨h, found⟩
    · have optional : s.required = false := by
        by_contra required
        exact can (goes s (List.mem_cons_self ..) (Bool.not_eq_false _ ▸ required))
      simp only [reached, can, if_false, optional, Bool.false_eq_true, tail, List.mem_cons,
        exists_eq_or_imp]
      constructor
      · rintro ⟨h, found⟩
        exact ⟨h, .inr found⟩
      · rintro ⟨h, rfl | found⟩
        · exact absurd h can
        · exact ⟨h, found⟩

theorem of_mem_reached {steps : List (Step ρ)} {r : ρ} (h : r ∈ reached Grantable steps) :
    Grantable r ∧ ∃ s ∈ steps, s.request = r := by
  induction steps with
  | nil => cases h
  | cons s rest ih =>
    unfold reached at h
    split at h
    next can =>
      obtain rfl | inRest := List.mem_cons.mp h
      · exact ⟨can, s, List.mem_cons_self .., rfl⟩
      · obtain ⟨ok, t, ht, eq⟩ := ih inRest
        exact ⟨ok, t, List.mem_cons_of_mem _ ht, eq⟩
    next =>
      split at h
      · cases h
      · obtain ⟨ok, t, ht, eq⟩ := ih h
        exact ⟨ok, t, List.mem_cons_of_mem _ ht, eq⟩

end Writers
