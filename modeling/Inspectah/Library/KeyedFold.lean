import Mathlib.Data.Finmap
import Mathlib.Data.List.Sigma
import Inspectah.Library.FirstMatch

/-!
Passes over the keys of a finite map. A pass visits each key once and touches
only what lies at it: it marks the rows there, or it appends rows there.
-/
namespace KeyedFold

open FirstMatch

variable {κ ε α : Type}

section Mark

variable {at_ : κ → α → Bool} {mark : κ → Nat → α → α}

def markAt (at_ : κ → α → Bool) (mark : κ → Nat → α → α) (rows : List α) (k : κ) : List α :=
  updateWhere (at_ k) (mark k (rows.countP (at_ k))) rows

def marked (at_ : κ → α → Bool) (mark : κ → Nat → α → α) (ks : List κ) (rows : List α) (a : α) : α :=
  match ks.find? fun k => at_ k a with
  | none => a
  | some k => mark k (rows.countP (at_ k)) a

theorem countP_markAt (keeps : ∀ k n a q, at_ q (mark k n a) = at_ q a) (rows : List α) (k q : κ) :
    (markAt at_ mark rows k).countP (at_ q) = rows.countP (at_ q) := by
  rw [markAt, updateWhere, List.countP_map]
  apply List.countP_congr
  intro a _
  by_cases here : at_ k a <;> simp [here, keeps]

theorem foldl_markAt (keeps : ∀ k n a q, at_ q (mark k n a) = at_ q a)
    (apart : ∀ k q a, at_ k a = true → at_ q a = true → k = q) {ks : List κ} (once : ks.Nodup)
    (rows : List α) :
    ks.foldl (markAt at_ mark) rows = rows.map (marked at_ mark ks rows) := by
  induction ks generalizing rows with
  | nil =>
    have still : marked at_ mark [] rows = id := rfl
    rw [List.foldl_nil, still, List.map_id]
  | cons k ks ih =>
    obtain ⟨fresh, once⟩ := List.nodup_cons.mp once
    rw [List.foldl_cons, ih once, markAt, updateWhere, List.map_map]
    apply List.map_congr_left
    intro a _
    by_cases here : at_ k a = true
    · -- No later key has the row: it keeps the mark of this one.
      have later : (ks.find? fun q => at_ q (mark k (rows.countP (at_ k)) a)) = none := by
        rw [List.find?_eq_none]
        intro q mem there
        rw [keeps] at there
        exact fresh (apart k q a here there ▸ mem)
      simp [marked, here, later]
    · have count := countP_markAt keeps rows k
      rw [markAt, updateWhere] at count
      simp [marked, here, count]

end Mark

section Append

variable {at_ : ε → α → Bool} {piece : List α → ε → List α}

/-- A step that appends what it makes of the rows at its key, at no later key, appends the first
    rows' pieces. -/
theorem foldl_pieces
    (reads : ∀ r r' e, r.filter (at_ e) = r'.filter (at_ e) → piece r e = piece r' e)
    {es : List ε} (apart : es.Pairwise fun e e' => ∀ r, ∀ a ∈ piece r e, at_ e' a = false)
    (rows : List α) :
    es.foldl (fun rows e => rows ++ piece rows e) rows = rows ++ es.flatMap (piece rows) := by
  induction es generalizing rows with
  | nil => simp
  | cons e es ih =>
    obtain ⟨first, apart⟩ := List.pairwise_cons.mp apart
    rw [List.foldl_cons, ih apart, List.flatMap_cons, List.append_assoc]
    have same : es.flatMap (piece (rows ++ piece rows e)) = es.flatMap (piece rows) := by
      apply List.flatMap_congr
      intro e' mem
      apply reads
      have none_there : (piece rows e).filter (at_ e') = [] := by
        rw [List.filter_eq_nil_iff]
        intro a ha
        simp [first e' mem rows a ha]
      rw [List.filter_append, none_there, List.append_nil]
    rw [same]

theorem flatMap_keep (p : ε → Bool) (f : ε → α) (es : List ε) :
    (es.flatMap fun e => if p e then [f e] else []) = (es.filter p).map f := by
  induction es with
  | nil => rfl
  | cons e es ih => by_cases kept : p e <;> simp [kept, ih]

theorem any_congr_filter {p : α → Bool} {rows rows' : List α}
    (same : rows.filter p = rows'.filter p) : rows.any p = rows'.any p := by
  have self : ∀ r : List α, r.any p = (r.filter p).any p := fun r => by simp [List.any_filter]
  rw [self rows, self rows', same]

end Append

section Lookup

variable [DecidableEq κ] {V : Type} {es : List (Sigma fun _ : κ => V)}

theorem filter_flatMap_entries {p : α → Bool} {k : κ} {piece : (Sigma fun _ : κ => V) → List α}
    (nodup : es.NodupKeys) (own : ∀ e ∈ es, ∀ a ∈ piece e, p a = true ↔ e.1 = k) :
    (es.flatMap piece).filter p =
      match es.dlookup k with
      | none => []
      | some v => piece ⟨k, v⟩ := by
  induction es with
  | nil => rfl
  | cons e es ih =>
    obtain ⟨key, v⟩ := e
    obtain ⟨fresh, nodup⟩ := List.nodupKeys_cons.mp nodup
    have rest := ih nodup fun e mem => own e (List.mem_cons_of_mem _ mem)
    have here := own ⟨key, v⟩ List.mem_cons_self
    rw [List.flatMap_cons, List.filter_append, rest]
    by_cases same : key = k
    · subst same
      have all : (piece ⟨key, v⟩).filter p = piece ⟨key, v⟩ := by
        rw [List.filter_eq_self]
        exact fun a ha => (here a ha).mpr rfl
      have gone : es.dlookup key = none := List.dlookup_eq_none.mpr fresh
      rw [all, gone, List.dlookup_cons_eq, List.append_nil]
    · have none_here : (piece ⟨key, v⟩).filter p = [] := by
        rw [List.filter_eq_nil_iff]
        exact fun a ha at_k => same ((here a ha).mp at_k)
      rw [none_here, List.nil_append, List.dlookup_cons_ne _ _ (Ne.symm same)]

theorem kerase_eq_filter (nodup : es.NodupKeys) (k : κ) :
    es.kerase k = es.filter fun e => !decide (e.1 = k) := by
  induction es with
  | nil => rfl
  | cons e es ih =>
    obtain ⟨fresh, nodup⟩ := List.nodupKeys_cons.mp nodup
    by_cases same : k = e.1
    · have rest : es.filter (fun e => !decide (e.1 = k)) = es := by
        rw [List.filter_eq_self]
        intro e' mem
        have ne : e'.1 ≠ k := fun hit => fresh (same ▸ hit ▸ List.mem_keys_of_mem mem)
        simp [ne]
      rw [List.kerase_cons_eq same, List.filter_cons_of_neg (by simp [same]), rest]
    · rw [List.kerase_cons_ne same, ih nodup, List.filter_cons_of_pos (by simp [Ne.symm same])]

theorem countP_key (nodup : es.NodupKeys) {k : κ} (known : k ∈ es.keys) :
    es.countP (fun e => e.1 == k) = 1 := by
  have once := List.count_eq_one_of_mem nodup known
  rwa [List.keys, List.count_eq_countP, List.countP_map] at once

end Lookup

section Build

variable [DecidableEq κ] [BEq κ] [LawfulBEq κ] {V : Type}

theorem lookup_foldl_insert (key : α → κ) (val : α → V) (rows : List α) (k : κ) :
    (rows.foldl (fun (m : AList fun _ : κ => V) a => m.insert (key a) (val a)) ∅).lookup k =
      (rows.reverse.find? fun a => key a == k).map val := by
  induction rows using List.reverseRecOn with
  | nil => rfl
  | append_singleton rows a ih =>
    rw [List.foldl_concat, List.reverse_concat, List.find?_cons]
    by_cases same : key a = k
    · subst same
      rw [AList.lookup_insert, beq_self_eq_true]
      rfl
    · rw [AList.lookup_insert_ne (Ne.symm same), ih]
      have miss : (key a == k) = false := by simpa using same
      rw [miss]

theorem lookup_finmap_foldl_insert (key : α → κ) (val : α → V) (rows : List α) (k : κ) :
    (rows.foldl (fun (m : Finmap fun _ : κ => V) a => m.insert (key a) (val a)) ∅).lookup k =
      (rows.reverse.find? fun a => key a == k).map val := by
  have step : ∀ (m : AList fun _ : κ => V) (a : α), Finmap.insert (key a) (val a) m.toFinmap =
      (m.insert (key a) (val a)).toFinmap := fun m a => Finmap.insert_toFinmap (key a) (val a) m
  have built : rows.foldl (fun (m : Finmap fun _ : κ => V) a => m.insert (key a) (val a)) ∅ =
      (rows.foldl (fun (m : AList fun _ : κ => V) a => m.insert (key a) (val a)) ∅).toFinmap := by
    rw [← Finmap.empty_toFinmap]
    exact List.foldl_hom AList.toFinmap step
  rw [built, Finmap.lookup_toFinmap, lookup_foldl_insert]

theorem mem_entries_foldl_insert {key : α → κ} {val : α → V} {rows : List α}
    {e : Sigma fun _ : κ => V} :
    e ∈ (rows.foldl (fun (m : AList fun _ : κ => V) a => m.insert (key a) (val a)) ∅).entries ↔
      ∃ a, rows.reverse.find? (fun a => key a == e.1) = some a ∧ val a = e.2 := by
  rw [← Option.map_eq_some_iff, ← lookup_foldl_insert]
  exact AList.mem_lookup_iff.symm

end Build

section Observe

variable {σ τ ρ : Type} {step : σ → ρ → σ} (obs : σ → τ)

theorem foldl_observed (see : τ → ρ → τ) (at_ : ρ → Bool)
    (hit : ∀ s r, at_ r = true → obs (step s r) = see (obs s) r)
    (miss : ∀ s r, at_ r = false → obs (step s r) = obs s) (rows : List ρ) (s : σ) :
    obs (rows.foldl step s) = (rows.filter at_).foldl see (obs s) := by
  induction rows generalizing s with
  | nil => rfl
  | cons r rows ih =>
    rw [List.foldl_cons, ih]
    cases here : at_ r with
    | true => rw [hit s r here, List.filter_cons_of_pos here, List.foldl_cons]
    | false => rw [miss s r here, List.filter_cons_of_neg (by simp [here])]

theorem foldl_unobserved (miss : ∀ s r, obs (step s r) = obs s) (rows : List ρ) (s : σ) :
    obs (rows.foldl step s) = obs s := by
  induction rows generalizing s with
  | nil => rfl
  | cons r rows ih => rw [List.foldl_cons, ih, miss]

end Observe

end KeyedFold
