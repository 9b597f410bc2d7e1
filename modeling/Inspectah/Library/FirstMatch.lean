import Mathlib.Data.List.Forall2

/-!
Keyed rows in a list. A row store is searched by a Boolean key test, the first
hit is the row an identifier names, and an update touches that row (or every
row the test selects). Nothing here knows what a row is.
-/
namespace FirstMatch

variable {α β : Type}

/-- Change the first row that passes the test and leave every other row. -/
def updateFirst (p : α → Bool) (f : α → α) : List α → List α
  | [] => []
  | a :: as => if p a then f a :: as else a :: updateFirst p f as

/-- Change every row that passes the test. -/
def updateWhere (p : α → Bool) (f : α → α) (rows : List α) : List α :=
  rows.map fun a => if p a then f a else a

/-- Revise each row by the report at its position; rows past the reports stay. -/
def overlay (f : β → α → α) : List β → List α → List α
  | b :: bs, a :: as => f b a :: overlay f bs as
  | _, as => as

@[simp] theorem updateFirst_nil (p : α → Bool) (f : α → α) : updateFirst p f [] = [] := rfl

@[simp] theorem updateWhere_nil (p : α → Bool) (f : α → α) : updateWhere p f [] = [] := rfl

theorem find_updateFirst (p : α → Bool) (f : α → α) (keep : ∀ a, p a → p (f a)) (rows : List α) :
    (updateFirst p f rows).find? p = (rows.find? p).map f := by
  induction rows with
  | nil => rfl
  | cons a as ih =>
    by_cases h : p a
    · simp [updateFirst, h, keep a h]
    · simp [updateFirst, h, ih]

/-- A search that sees the changed row neither before nor after is undisturbed. -/
theorem find_updateFirst_unseen (p q : α → Bool) (f : α → α) (rows : List α)
    (unseen : ∀ a, rows.find? p = some a → q a = false ∧ q (f a) = false) :
    (updateFirst p f rows).find? q = rows.find? q := by
  induction rows with
  | nil => rfl
  | cons a as ih =>
    by_cases h : p a
    · obtain ⟨before, after⟩ := unseen a (by simp [h])
      simp [updateFirst, h, before, after]
    · have rest := ih fun b found => unseen b (by simpa [h] using found)
      by_cases hq : q a <;> simp [updateFirst, h, hq, rest]

theorem updateFirst_forall (R : α → α → Prop) (refl : ∀ a, R a a) (p : α → Bool) (f : α → α)
    (change : ∀ a, p a → R a (f a)) (rows : List α) :
    List.Forall₂ R rows (updateFirst p f rows) := by
  induction rows with
  | nil => exact .nil
  | cons a as ih =>
    by_cases h : p a
    · rw [updateFirst, if_pos h]
      exact .cons (change a h) (List.forall₂_same.mpr fun b _ => refl b)
    · rw [updateFirst, if_neg h]
      exact .cons (refl a) ih

theorem map_forall (R : α → α → Prop) (f : α → α) (change : ∀ a, R a (f a)) (rows : List α) :
    List.Forall₂ R rows (rows.map f) := by
  induction rows with
  | nil => exact .nil
  | cons a as ih => exact .cons (change a) ih

theorem forall_updateWhere (R : α → β → Prop) (p : β → Bool) (f : β → β)
    (change : ∀ a b, R a b → p b → R a (f b)) {rows : List α} {rows' : List β}
    (related : List.Forall₂ R rows rows') : List.Forall₂ R rows (updateWhere p f rows') := by
  induction related with
  | nil => exact .nil
  | cons head tail ih =>
    rename_i a b as bs
    refine .cons ?_ ih
    by_cases h : p b
    · simpa [h] using change a b head h
    · simpa [h] using head

theorem forall_updateFirst (R : α → β → Prop) (p : β → Bool) (f : β → β)
    (change : ∀ a b, R a b → p b → R a (f b)) {rows : List α} {rows' : List β}
    (related : List.Forall₂ R rows rows') : List.Forall₂ R rows (updateFirst p f rows') := by
  induction related with
  | nil => exact .nil
  | cons head tail ih =>
    rename_i a b as bs
    by_cases h : p b
    · rw [updateFirst, if_pos h]
      exact .cons (change a b head h) tail
    · rw [updateFirst, if_neg h]
      exact .cons head ih

theorem find_related (R : α → β → Prop) (p : α → Bool) (q : β → Bool)
    (agree : ∀ a b, R a b → p a = q b) {rows : List α} {rows' : List β}
    (related : List.Forall₂ R rows rows') :
    Option.Rel R (rows.find? p) (rows'.find? q) := by
  induction related with
  | nil => exact .none
  | cons head tail ih =>
    rename_i a b as bs
    by_cases h : p a
    · have h' : q b := by rw [← agree a b head]; exact h
      simp only [List.find?_cons, h, h']
      exact .some head
    · have h' : ¬ q b := by rw [← agree a b head]; exact h
      simp only [List.find?_cons, h, h']
      exact ih

theorem any_related (R : α → β → Prop) (p : α → Bool) (q : β → Bool)
    (agree : ∀ a b, R a b → p a = q b) {rows : List α} {rows' : List β}
    (related : List.Forall₂ R rows rows') : rows.any p = rows'.any q := by
  induction related with
  | nil => rfl
  | cons head tail ih =>
    rename_i a b as bs
    rw [List.any_cons, List.any_cons, agree a b head, ih]

theorem countP_related (R : α → β → Prop) (p : α → Bool) (q : β → Bool)
    (agree : ∀ a b, R a b → p a = q b) {rows : List α} {rows' : List β}
    (related : List.Forall₂ R rows rows') : rows.countP p = rows'.countP q := by
  induction related with
  | nil => rfl
  | cons head tail ih =>
    rename_i a b as bs
    rw [List.countP_cons, List.countP_cons, agree a b head, ih]

theorem mem_related {R : α → β → Prop} {rows : List α} {rows' : List β}
    (related : List.Forall₂ R rows rows') {b : β} (mem : b ∈ rows') : ∃ a ∈ rows, R a b := by
  induction related with
  | nil => cases mem
  | cons head tail ih =>
    rename_i a b' as bs
    rcases List.mem_cons.mp mem with rfl | mem
    · exact ⟨a, List.mem_cons_self, head⟩
    · obtain ⟨c, hc, cb⟩ := ih mem
      exact ⟨c, List.mem_cons_of_mem a hc, cb⟩

theorem related_mem {R : α → β → Prop} {rows : List α} {rows' : List β}
    (related : List.Forall₂ R rows rows') {a : α} (mem : a ∈ rows) : ∃ b ∈ rows', R a b :=
  mem_related (List.Forall₂.flip related) mem

theorem map_related {γ : Type} {f : α → γ} {g : β → γ} {rows : List α} {rows' : List β}
    (related : List.Forall₂ (fun a b => g b = f a) rows rows') : rows'.map g = rows.map f := by
  induction related with
  | nil => rfl
  | cons head tail ih => rw [List.map_cons, List.map_cons, head, ih]

theorem overlay_map (f : β → α → α) (report : α → β) (rows : List α) :
    overlay f (rows.map report) rows = rows.map fun a => f (report a) a := by
  induction rows with
  | nil => rfl
  | cons a as ih => rw [List.map_cons, overlay, ih, List.map_cons]

theorem overlay_again (f : β → α → α) {bs cs : List β} (again : List.Forall₂ (fun b c =>
    ∀ a, f c (f b a) = f b a) bs cs) (rows : List α) :
    overlay f cs (overlay f bs rows) = overlay f bs rows := by
  induction again generalizing rows with
  | nil => cases rows <;> rfl
  | cons head tail ih =>
    cases rows with
    | nil => rfl
    | cons a as =>
      rw [overlay, overlay, head a, ih]

theorem forall_overlay (R : α → α → Prop) (refl : ∀ a, R a a) (f : β → α → α)
    (change : ∀ b a, R a (f b a)) (bs : List β) (rows : List α) :
    List.Forall₂ R rows (overlay f bs rows) := by
  induction rows generalizing bs with
  | nil => cases bs <;> exact .nil
  | cons a as ih =>
    cases bs with
    | nil => exact List.forall₂_same.mpr fun a _ => refl a
    | cons b bs => exact .cons (change b a) (ih bs)

theorem map_overlay_iff {γ : Type} {f : β → α → α} {change : α → α} {after before : α → γ} {bs : List β}
    {rows : List α} (length : bs.length = rows.length) :
    (overlay f bs (rows.map change)).map after = rows.map before ↔
      List.Forall₂ (fun b a => after (f b (change a)) = before a) bs rows := by
  induction bs generalizing rows with
  | nil =>
    cases rows with
    | nil => simp [overlay]
    | cons a rows => cases length
  | cons b bs ih =>
    cases rows with
    | nil => cases length
    | cons a rows =>
      rw [List.length_cons, List.length_cons, Nat.add_right_cancel_iff] at length
      rw [List.map_cons, overlay, List.map_cons, List.map_cons, List.cons.injEq, ih length,
        List.forall₂_cons]

theorem overlay_nil (f : β → α → α) (bs : List β) : overlay f bs [] = [] := by
  cases bs <;> rfl

theorem overlay_reading {γ : Type} (f : γ → α → α) (part : β → γ) (bs : List β) (rows : List α) :
    overlay (fun b => f (part b)) bs rows = overlay f (bs.map part) rows := by
  induction bs generalizing rows with
  | nil => cases rows <;> rfl
  | cons b bs ih =>
    cases rows with
    | nil => rfl
    | cons a rows => rw [overlay, List.map_cons, overlay, ih]

theorem forall_updateFirst_both {γ : Type} (R : α → γ → Prop) (p : α → Bool) (q : γ → Bool)
    (f : α → α) (g : γ → γ) (agree : ∀ a c, R a c → p a = q c)
    (change : ∀ a c, R a c → R (f a) (g c)) {rows : List α} {rows' : List γ}
    (related : List.Forall₂ R rows rows') :
    List.Forall₂ R (updateFirst p f rows) (updateFirst q g rows') := by
  induction related with
  | nil => exact .nil
  | cons head tail ih =>
    rename_i a c as cs
    by_cases h : p a
    · have h' : q c := by rw [← agree a c head]; exact h
      rw [updateFirst, updateFirst, if_pos h, if_pos h']
      exact .cons (change a c head) tail
    · have h' : ¬ q c := by rw [← agree a c head]; exact h
      rw [updateFirst, updateFirst, if_neg h, if_neg h']
      exact .cons head ih

theorem updateFirst_fixed (p : α → Bool) (f : α → α) (rows : List α)
    (fixed : ∀ a, rows.find? p = some a → f a = a) : updateFirst p f rows = rows := by
  induction rows with
  | nil => rfl
  | cons a as ih =>
    by_cases h : p a
    · rw [updateFirst, if_pos h, fixed a (by simp [h])]
    · rw [updateFirst, if_neg h, ih fun b hb => fixed b (by simpa [h] using hb)]

theorem updateFirst_absent (p : α → Bool) (f : α → α) (rows : List α)
    (absent : rows.find? p = none) : updateFirst p f rows = rows :=
  updateFirst_fixed p f rows fun a found => by rw [absent] at found; cases found

theorem mem_updateFirst {p : α → Bool} {f : α → α} {rows : List α} {b : α}
    (mem : b ∈ updateFirst p f rows) :
    b ∈ rows ∨ ∃ a, rows.find? p = some a ∧ b = f a := by
  induction rows with
  | nil => cases mem
  | cons a as ih =>
    by_cases h : p a
    · rw [updateFirst, if_pos h] at mem
      rcases List.mem_cons.mp mem with rfl | tail
      · exact .inr ⟨a, by simp [h], rfl⟩
      · exact .inl (List.mem_cons_of_mem _ tail)
    · rw [updateFirst, if_neg h] at mem
      rcases List.mem_cons.mp mem with rfl | tail
      · exact .inl List.mem_cons_self
      · rcases ih tail with old | ⟨c, found, rfl⟩
        · exact .inl (List.mem_cons_of_mem _ old)
        · exact .inr ⟨c, by simpa [h] using found, rfl⟩

theorem modify_findIdx {p : α → Bool} {f : α → α} {rows : List α} {idx : Nat}
    (found : rows.findIdx? p = some idx)
    (once : rows.Pairwise fun a b => p a = true → p b = false) :
    rows.modify idx f = updateWhere p f rows := by
  induction rows generalizing idx with
  | nil => cases found
  | cons a as ih =>
    rw [List.pairwise_cons] at once
    rw [List.findIdx?_cons] at found
    by_cases h : p a
    · rw [if_pos h] at found
      cases found
      have rest : updateWhere p f as = as := by
        rw [updateWhere, List.map_congr_left (g := id), List.map_id]
        intro b mem
        simp [once.1 b mem h]
      have tail : as.map (fun a => if p a then f a else a) = as := rest
      simp [updateWhere, h, tail]
    · rw [if_neg h] at found
      obtain ⟨before, rest, rfl⟩ := Option.map_eq_some_iff.mp found
      rw [List.modify_succ_cons, ih rest once.2]
      simp [updateWhere, h]

/-! Updates under a filter. -/

theorem filter_updateFirst_inside {p q : α → Bool} {f : α → α} (inside : ∀ a, p a → q a)
    (keep : ∀ a, q (f a) = q a) (rows : List α) :
    (updateFirst p f rows).filter q = updateFirst p f (rows.filter q) := by
  induction rows with
  | nil => rfl
  | cons a rest ih =>
    by_cases hit : p a
    · rw [updateFirst, if_pos hit, List.filter_cons_of_pos ((keep a).trans (inside a hit)),
        List.filter_cons_of_pos (inside a hit), updateFirst, if_pos hit]
    · rw [updateFirst, if_neg hit]
      by_cases kept : q a
      · rw [List.filter_cons_of_pos kept, List.filter_cons_of_pos kept, updateFirst, if_neg hit, ih]
      · rw [List.filter_cons_of_neg kept, List.filter_cons_of_neg kept, ih]

theorem filter_updateFirst_outside {p q : α → Bool} {f : α → α}
    (outside : ∀ a, p a → q a = false) (keep : ∀ a, q (f a) = q a) (rows : List α) :
    (updateFirst p f rows).filter q = rows.filter q := by
  induction rows with
  | nil => rfl
  | cons a rest ih =>
    by_cases hit : p a
    · have skipped : ¬ q a = true := by rw [outside a hit]; exact Bool.false_ne_true
      have skipped' : ¬ q (f a) = true := by rwa [keep]
      rw [updateFirst, if_pos hit, List.filter_cons_of_neg skipped, List.filter_cons_of_neg skipped']
    · rw [updateFirst, if_neg hit, List.filter_cons, List.filter_cons, ih]

theorem exists_find {p : α → Bool} {rows : List α} {a : α} (mem : a ∈ rows) (hit : p a = true) :
    ∃ b, rows.find? p = some b :=
  Option.isSome_iff_exists.mp (List.find?_isSome.mpr ⟨a, mem, hit⟩)

/-! Folds that only append. -/

section Appending

variable {step : List α → β → List α} (grows : ∀ rows b, rows <+: step rows b)
include grows

theorem prefix_foldl (rows : List α) (bs : List β) : rows <+: bs.foldl step rows := by
  induction bs generalizing rows with
  | nil => exact List.prefix_refl rows
  | cons b bs ih => exact (grows rows b).trans (ih _)

theorem foldl_establishes {P : List α → Prop} (stable : ∀ r r', P r → r <+: r' → P r')
    {b : β} {bs : List β} (mem : b ∈ bs) {rows : List α}
    (hit : ∀ r, rows <+: r → P (step r b)) : P (bs.foldl step rows) := by
  obtain ⟨before, after, rfl⟩ := List.append_of_mem mem
  rw [List.foldl_append, List.foldl_cons]
  have here : P (step (before.foldl step rows) b) := hit _ (prefix_foldl grows rows before)
  exact stable _ _ here (prefix_foldl grows _ after)

end Appending

end FirstMatch
