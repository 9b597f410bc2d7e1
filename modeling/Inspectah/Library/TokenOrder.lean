import Mathlib.Data.List.Basic

/-!
Comparing two sources token by token. A reader gives the next token of a source and what is left
of it; one token ends every source. The comparison is the order of the token lists, when these
are finite.
-/
namespace TokenOrder

section Order

variable {τ : Type*} [Ord τ] [Std.LawfulEqOrd τ] {x y : τ} {xs ys : List τ}

@[simp] theorem compare_cons_self : compare (x :: xs) (x :: ys) = compare xs ys := by
  simp [Ordering.then]

theorem compare_cons_of_ne (differ : x ≠ y) : compare (x :: xs) (y :: ys) = compare x y := by
  rw [List.compare_cons_cons]
  cases decided : compare x y with
  | eq => exact absurd (Std.LawfulEqOrd.eq_of_compare decided) differ
  | lt | gt => rfl

theorem compare_append (ts : List τ) : compare (ts ++ xs) (ts ++ ys) = compare xs ys := by
  induction ts with
  | nil => rfl
  | cons t ts ih => rw [List.cons_append, List.cons_append, compare_cons_self, ih]

end Order

section Reading

variable {σ τ : Type*} {next : σ → τ × σ} {last : τ}

def tokens [DecidableEq τ] (next : σ → τ × σ) (last : τ) : Nat → σ → List τ
  | 0, _ => []
  | fuel + 1, s =>
    (next s).1 :: if (next s).1 = last then [] else tokens next last fuel (next s).2

/-- These tokens, none of them the last, are read from the first source and leave the second. -/
inductive Reads (next : σ → τ × σ) (last : τ) : σ → List τ → σ → Prop
  | stay (s : σ) : Reads next last s [] s
  | token {s r : σ} {ts : List τ} : (next s).1 ≠ last → Reads next last (next s).2 ts r →
      Reads next last s ((next s).1 :: ts) r

inductive Ends (next : σ → τ × σ) (last : τ) : σ → List τ → Prop
  | done {s : σ} : (next s).1 = last → Ends next last s [last]
  | token {s : σ} {keys : List τ} : (next s).1 ≠ last → Ends next last (next s).2 keys →
      Ends next last s ((next s).1 :: keys)

theorem Reads.ends {s r : σ} {ts keys : List τ} (reads : Reads next last s ts r)
    (ends : Ends next last r keys) : Ends next last s (ts ++ keys) := by
  induction reads with
  | stay => exact ends
  | token inner _ ih => exact .token inner (ih ends)

/-- A reader that shortens its source reads it to the end. -/
theorem ends_tokens [DecidableEq τ] (size : σ → Nat)
    (shrinks : ∀ s, (next s).1 ≠ last → size (next s).2 < size s) {fuel : Nat} {s : σ}
    (enough : size s < fuel) : Ends next last s (tokens next last fuel s) := by
  induction fuel generalizing s with
  | zero => omega
  | succ fuel ih =>
    rw [tokens]
    by_cases done : (next s).1 = last
    · rw [if_pos done, done]
      exact .done done
    · rw [if_neg done]
      have := shrinks s done
      exact .token done (ih (by omega))

theorem Ends.unique {s : σ} {keys keys' : List τ} (one : Ends next last s keys)
    (two : Ends next last s keys') : keys = keys' := by
  induction one generalizing keys' with
  | done done =>
    cases two with
    | done => rfl
    | token inner _ => exact absurd done inner
  | token inner _ ih =>
    cases two with
    | done done => exact absurd done inner
    | token _ rest => rw [ih rest]

theorem Reads.unique {s r q : σ} {ts : List τ} (one : Reads next last s ts r)
    (two : Reads next last s ts q) : r = q := by
  induction one with
  | stay => cases two; rfl
  | token _ _ ih => cases two with | token _ rest => exact ih rest

theorem Ends.last_mem {s : σ} {keys : List τ} (ends : Ends next last s keys) : last ∈ keys := by
  induction ends with
  | done => exact List.mem_singleton_self _
  | token _ _ ih => exact List.mem_cons_of_mem _ ih

end Reading

section Run

variable {σ τ : Type*} [DecidableEq τ] [Ord τ] {next : σ → τ × σ} {last : τ}

def compareBy (next : σ → τ × σ) (last : τ) : Nat → σ → σ → Option Ordering
  | 0, _, _ => none
  | fuel + 1, a, b =>
    match compare (next a).1 (next b).1 with
    | .eq => if (next a).1 = last then some .eq else compareBy next last fuel (next a).2 (next b).2
    | decided => some decided

variable [Std.LawfulEqOrd τ] {a b r q : σ} {ts keys keys' : List τ}

theorem compareBy_ne (fuel : Nat) (differ : (next a).1 ≠ (next b).1) :
    compareBy next last (fuel + 1) a b = some (compare (next a).1 (next b).1) := by
  rw [compareBy]
  split
  · next same => exact absurd (Std.LawfulEqOrd.eq_of_compare same) differ
  · rfl

theorem compareBy_last (fuel : Nat) (doneA : (next a).1 = last) (doneB : (next b).1 = last) :
    compareBy next last (fuel + 1) a b = some .eq := by
  simp [compareBy, doneA, doneB]

theorem compareBy_token (fuel : Nat) (same : (next a).1 = (next b).1) (inner : (next a).1 ≠ last) :
    compareBy next last (fuel + 1) a b = compareBy next last fuel (next a).2 (next b).2 := by
  rw [compareBy, same, Std.ReflOrd.compare_self]
  exact if_neg (same ▸ inner)

theorem compareBy_reads (readsA : Reads next last a ts r) (readsB : Reads next last b ts q)
    (fuel : Nat) :
    compareBy next last (ts.length + fuel) a b = compareBy next last fuel r q := by
  induction readsA generalizing b with
  | stay s =>
    cases readsB
    simp
  | @token s r ts inner _ ih =>
    generalize shared : (next s).1 = t at readsB
    cases readsB with
    | token _ rest =>
      rw [List.length_cons, Nat.add_right_comm, compareBy_token _ shared inner]
      exact ih rest

theorem compareBy_ends (endsA : Ends next last a keys) (endsB : Ends next last b keys') :
    ∃ fuel, compareBy next last fuel a b = some (compare keys keys') := by
  induction endsA generalizing b keys' with
  | @done s done =>
    by_cases done' : (next b).1 = last
    · have : keys' = [last] := endsB.unique (.done done')
      exact ⟨1, by rw [this, compareBy_last 0 done done', Std.ReflOrd.compare_self]⟩
    · have differ : last ≠ (next b).1 := fun same => done' same.symm
      cases endsB with
      | done h => exact absurd h done'
      | token _ _ =>
        exact ⟨1, by rw [compareBy_ne 0 (done ▸ differ), compare_cons_of_ne differ, done]⟩
  | @token s keys inner _ ih =>
    by_cases same : (next s).1 = (next b).1
    · cases endsB with
      | done h => exact absurd (same.trans h) inner
      | token _ rest =>
        obtain ⟨fuel, run⟩ := ih rest
        exact ⟨fuel + 1, by rw [compareBy_token _ same inner, run, same, compare_cons_self]⟩
    · cases endsB with
      | done h => exact ⟨1, by rw [compareBy_ne 0 same, compare_cons_of_ne inner, h]⟩
      | token _ _ => exact ⟨1, by rw [compareBy_ne 0 same, compare_cons_of_ne same]⟩

theorem compareBy_mono {fuel : Nat} {o : Ordering}
    (run : compareBy next last fuel a b = some o) (more : Nat) :
    compareBy next last (fuel + more) a b = some o := by
  induction fuel generalizing a b with
  | zero => cases run
  | succ fuel ih =>
    rw [Nat.add_right_comm]
    by_cases same : (next a).1 = (next b).1
    · by_cases done : (next a).1 = last
      · rwa [compareBy_last _ done (same ▸ done)] at run ⊢
      · rw [compareBy_token _ same done] at run ⊢
        exact ih run
    · rwa [compareBy_ne _ same] at run ⊢

theorem compareBy_unique {fuel fuel' : Nat} {o o' : Ordering}
    (run : compareBy next last fuel a b = some o)
    (run' : compareBy next last fuel' a b = some o') : o = o' := by
  have one := compareBy_mono run fuel'
  have two := compareBy_mono run' fuel
  rw [Nat.add_comm, two] at one
  exact (Option.some.inj one).symm

end Run

end TokenOrder
