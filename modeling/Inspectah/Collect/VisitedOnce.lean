import Inspectah.Collect.LanguageWalk
import Mathlib.Algebra.Order.BigOperators.Group.List
import Mathlib.Algebra.Order.Group.Nat

/-!
The walk for one file name as a walk with jumps: it ends, and visits directories once exactly
where none is below two starts.
-/
namespace Inspectah

open JumpWalk Relation

namespace LinkedHost

variable {host : LinkedHost} {filename scanRoot : String}

structure Agrees (host : LinkedHost) (s : Finding) (t : Trace Place) : Prop where
  visited : s.visited = t.seen.map placeText
  handled : s.handled.map host.directoryOf = t.reported.map some
  real : ∀ q ∈ t.seen, host.IsReal q

theorem Agrees.seen_iff {s : Finding} {t : Trace Place} (agrees : host.Agrees s t) {q : Place}
    (real : host.IsReal q) : placeText q ∈ s.visited ↔ q ∈ t.seen := by
  rw [agrees.visited, List.mem_map]
  constructor
  · rintro ⟨u, old, same⟩
    exact (agrees.real u old).placeText_inj real same ▸ old
  · exact fun old => ⟨q, old, rfl⟩

theorem Agrees.visit {s : Finding} {t : Trace Place} (agrees : host.Agrees s t) {q : Place}
    (real : host.IsReal q) :
    host.Agrees { s with visited := placeText q :: s.visited } { t with seen := q :: t.seen } where
  visited := by rw [List.map_cons, ← agrees.visited]
  handled := agrees.handled
  real := List.forall_mem_cons.mpr ⟨real, agrees.real⟩

theorem rel_bind {α β γ δ : Type} {R : α → β → Prop} {R' : γ → δ → Prop} {a : Option α}
    {b : Option β} {f : α → Option γ} {g : β → Option δ} (first : Option.Rel R a b)
    (next : ∀ x y, R x y → Option.Rel R' (f x) (g y)) :
    Option.Rel R' (a.bind f) (b.bind g) := by
  cases first with
  | none => exact .none
  | some rel => exact next _ _ rel

section Moves

variable {p q : Place} {name : String} {e : LinkedEntry}

theorem moveOf_report :
    host.moveOf filename scanRoot p (name, e) = some .report ↔ name = filename := by
  rw [moveOf]
  constructor
  · intro moved
    by_contra other
    rw [if_neg other] at moved
    grind
  · exact fun same => if_pos same

theorem moveOf_into : host.moveOf filename scanRoot p (name, e) = some (.into q) ↔
    name ≠ filename ∧ e.isLink = false ∧ q = p ++ [name] ∧ host.isListed q = true ∧
      PRUNE_DIRS.contains name = false := by
  rw [moveOf]
  by_cases same : name = filename
  · simp [same]
  · cases e with
    | file | dir =>
      simp only [same, if_false, LinkedEntry.leads, LinkedEntry.isLink]
      grind
    | link target =>
      simp only [same, if_false, LinkedEntry.leads, LinkedEntry.isLink]
      grind

theorem moveOf_jump : host.moveOf filename scanRoot p (name, e) = some (.jump q) ↔
    name ≠ filename ∧ e = .link (some q) ∧ host.isListed q = true ∧
      PRUNE_DIRS.contains name = false ∧ pathStartsWith (placeText q) scanRoot = true := by
  rw [moveOf]
  by_cases same : name = filename
  · simp [same]
  · cases e with
    | file | dir =>
      simp only [same, if_false, LinkedEntry.leads]
      grind
    | link target =>
      simp only [same, if_false, LinkedEntry.leads]
      grind

end Moves

theorem find_agrees {fuel : Nat} {dir : String} {p : Place} {s : Finding} {t : Trace Place}
    (there : host.placeAt dir = some p) (agrees : host.Agrees s t) :
    Option.Rel host.Agrees (host.exec.findFilesMatching filename scanRoot fuel dir s)
      (walk (host.movesOf filename scanRoot) fuel p t) := by
  induction fuel generalizing dir p s t with
  | zero => exact .none
  | succ fuel ih =>
    have read : host.exec.readDir dir = host.readAt p := by
      have same : host.exec.readDir dir = ((host.placeAt dir).map host.readAt).getD .missing := rfl
      rw [same, there]
      rfl
    rw [WalkExec.findFilesMatching, walk, read, LinkedEtc.readAt, movesOf]
    cases listed : host.listing p with
    | none | denied => exact .some agrees
    | entries es =>
      dsimp only
      -- The entries that are left, whatever was found before.
      suffices ∀ (rows : List (String × LinkedEntry)) (s : Finding) (t : Trace Place),
          rows ⊆ es → host.Agrees s t → Option.Rel host.Agrees
            ((rows.map Prod.fst).foldlM (host.exec.findEntry filename scanRoot
              (host.exec.findFilesMatching filename scanRoot fuel) dir) s)
            (run (walk (host.movesOf filename scanRoot) fuel) p
              (rows.filterMap (host.moveOf filename scanRoot p)) t) from
        this es s t (fun _ own => own) agrees
      intro rows
      induction rows with
      | nil => exact fun s t _ agrees => .some agrees
      | cons e rows later =>
        intro s t own agrees
        obtain ⟨name, e⟩ := e
        have mem : (name, e) ∈ es := own List.mem_cons_self
        have rest : rows ⊆ es := fun x below => own (List.mem_cons_of_mem _ below)
        rw [List.map_cons, List.foldlM_cons, findEntry_eq there listed mem, List.filterMap_cons]
        cases moved : host.moveOf filename scanRoot p (name, e) with
        | none => exact later s t rest agrees
        | some m =>
          cases m with
          | report =>
            refine later _ _ rest ⟨agrees.visited, ?_, agrees.real⟩
            rw [List.map_append, List.map_append, agrees.handled, List.map_singleton,
              List.map_singleton, directoryOf_entry there listed mem]
          | into q =>
            obtain ⟨-, plain, rfl, -, -⟩ := moveOf_into.mp moved
            rw [run]
            refine rel_bind (ih ?_ agrees) fun s' t' agrees' => later s' t' rest agrees'
            rw [placeAt_entry there listed mem]
            cases e with
            | file | dir => rfl
            | link target => cases plain
          | jump q =>
            obtain ⟨-, rfl, -, -, -⟩ := moveOf_jump.mp moved
            have real := host.real p es name q listed mem
            dsimp only
            rw [run]
            by_cases old : q ∈ t.seen
            · rw [if_pos ((agrees.seen_iff real).mpr old), if_pos old]
              exact later s t rest agrees
            · rw [if_neg fun seen => old ((agrees.seen_iff real).mp seen), if_neg old]
              exact rel_bind (ih (placeAt_entry there listed mem) (agrees.visit real))
                fun s' t' agrees' => later s' t' rest agrees'

end LinkedHost

namespace WalkExec

variable {exec : WalkExec} {filename scanRoot : String}

theorem handled_entered {fuel : Nat} {dir : String} {s s' : Finding}
    (entered : exec.CanEnter filename scanRoot dir)
    (found : exec.findFilesMatching filename scanRoot fuel dir s = some s') :
    ∀ path ∈ s'.handled, path ∈ s.handled ∨
      ∃ d, exec.CanEnter filename scanRoot d ∧ path = d ++ "/" ++ filename := by
  induction fuel generalizing dir s s' with
  | zero => cases found
  | succ fuel ih =>
    rw [findFilesMatching] at found
    split at found
    · next entries read =>
      suffices ∀ (rows : List String) (s : Finding), rows ⊆ entries →
          rows.foldlM (exec.findEntry filename scanRoot
            (exec.findFilesMatching filename scanRoot fuel) dir) s = some s' →
          ∀ path ∈ s'.handled, path ∈ s.handled ∨
            ∃ d, exec.CanEnter filename scanRoot d ∧ path = d ++ "/" ++ filename from
        this entries s (fun _ own => own) found
      intro rows
      induction rows with
      | nil =>
        intro s _ done path mem
        exact .inl (Option.some.inj done ▸ mem)
      | cons entry rows later =>
        intro s own done path mem
        rw [List.foldlM_cons] at done
        obtain ⟨s₁, first, done⟩ := Option.bind_eq_some_iff.mp done
        have rest : rows ⊆ entries := fun x below => own (List.mem_cons_of_mem _ below)
        rcases later s₁ rest done path mem with old | new
        · rw [findEntry] at first
          dsimp only at first
          split at first
          · next same =>
            cases first
            rcases List.mem_append.mp old with before | here
            · exact .inl before
            · exact .inr ⟨dir, entered, same ▸ List.mem_singleton.mp here⟩
          · next other =>
            split at first
            · next below readable =>
              split at first
              · exact .inl (Option.some.inj first ▸ old)
              · next unpruned =>
                split at first
                · cases first
                  exact .inl old
                · next kept =>
                  have enters := entered.child read (own List.mem_cons_self) other readable
                    (Bool.not_eq_true _ ▸ unpruned) (Bool.not_eq_true _ ▸ kept)
                  exact ih enters first path old
            · exact .inl (Option.some.inj first ▸ old)
        · exact .inr new
    · exact fun path mem => .inl (Option.some.inj found ▸ mem)

end WalkExec

namespace LinkedHost

variable {host : LinkedHost} {filename scanRoot : String}

theorem mem_movesOf {p : Place} {m : Move Place} : m ∈ host.movesOf filename scanRoot p ↔
    ∃ es name e, host.listing p = .entries es ∧ (name, e) ∈ es ∧
      host.moveOf filename scanRoot p (name, e) = some m := by
  rw [movesOf]
  cases host.listing p <;> simp [List.mem_filterMap]

theorem report_iff {p : Place} :
    Move.report ∈ host.movesOf filename scanRoot p ↔ host.Holds filename p := by
  rw [mem_movesOf, Holds]
  constructor
  · rintro ⟨es, name, e, listed, mem, moved⟩
    exact ⟨es, listed, moveOf_report.mp moved ▸ List.mem_map_of_mem mem⟩
  · rintro ⟨es, listed, here⟩
    obtain ⟨⟨name, e⟩, mem, same⟩ := List.mem_map.mp here
    exact ⟨es, name, e, listed, mem, moveOf_report.mpr same⟩

theorem into_iff {p q : Place} : Into (host.movesOf filename scanRoot) p q ↔
    ∃ es name e, host.listing p = .entries es ∧ (name, e) ∈ es ∧ name ≠ filename ∧
      e.isLink = false ∧ q = p ++ [name] ∧ host.isListed q = true ∧
        PRUNE_DIRS.contains name = false := by
  rw [Into, mem_movesOf]
  simp only [moveOf_into]

theorem mem_places {p : Place} (listed : host.isListed p = true) : p ∈ host.places := by
  rw [LinkedEtc.isListed, LinkedEtc.readAt] at listed
  cases held : host.listing p with
  | none | denied => simp [held, DirRead.isRead] at listed
  | entries es => exact host.finite p es held

def deepest (host : LinkedHost) : Nat := (host.places.map List.length).sum

theorem moves_finite : Finite (host.movesOf filename scanRoot)
    (fun p => host.deepest - p.length) host.deepest host.places where
  falls := by
    intro a b step
    obtain ⟨es, name, e, -, -, -, -, rfl, listed, -⟩ := into_iff.mp step
    have shallow : (a ++ [name]).length ≤ host.deepest :=
      List.le_sum_of_mem (List.mem_map_of_mem (mem_places listed))
    rw [List.length_append, List.length_singleton] at shallow ⊢
    omega
  bounded a := Nat.sub_le _ _
  known := by
    intro a t jump
    obtain ⟨es, name, e, -, -, moved⟩ := mem_movesOf.mp jump
    exact mem_places (moveOf_jump.mp moved).2.2.1

theorem below_above {p d : Place} (below : Below (host.movesOf filename scanRoot) p d) :
    p <+: d := by
  induction below with
  | refl => exact List.prefix_rfl
  | tail _ step ih =>
    obtain ⟨es, name, e, -, -, -, -, rfl, -, -⟩ := into_iff.mp step
    exact ih.trans (List.prefix_append _ _)

/-- The names in a directory differ, and so do the directories gone down into. -/
theorem plain_once (p : Place) : (reports (host.movesOf filename scanRoot)
    (fun p => host.deepest - p.length) p).Nodup := by
  refine reports_nodup moves_finite.falls (fun a => ?_) ?_ p
  · rw [movesOf]
    split
    · next es listed =>
      have distinct := host.distinct a es listed
      rw [List.Nodup, List.pairwise_map] at distinct
      refine List.Pairwise.filterMap _ ?_ distinct
      rintro ⟨name, e⟩ ⟨name', e'⟩ differ m moved m' moved' rfl
      cases m with
      | report =>
        exact absurd ((moveOf_report.mp moved).trans (moveOf_report.mp moved').symm) differ
      | into q =>
        have same := (moveOf_into.mp moved).2.2.1.symm.trans (moveOf_into.mp moved').2.2.1
        exact absurd (by simpa using same) differ
      | jump t => exact ⟨t, rfl⟩
    · exact .nil
  · intro a b c d step step' below below'
    obtain ⟨es, name, e, -, -, -, -, rfl, -, -⟩ := into_iff.mp step
    obtain ⟨es', name', e', -, -, -, -, rfl, -, -⟩ := into_iff.mp step'
    have longer := List.prefix_or_prefix_of_prefix (below_above below) (below_above below')
    rcases longer with above | above
    · exact above.eq_of_length (by simp)
    · exact (above.eq_of_length (by simp)).symm

end LinkedHost

namespace LinkedHost

variable (host : LinkedHost) (filename scanRoot : String)

/-- The walk ends, stays below the root, visits no directory twice, and misses none it can reach
    without links. -/
structure WalksOnce : Prop where
  terminates : ∃ enough, ∀ fuel, enough ≤ fuel →
    (host.exec.findFilesMatching filename scanRoot fuel scanRoot {}).isSome
  confined : ∀ r0, host.placeAt scanRoot = some r0 → ∀ path,
    host.exec.CanEnter filename scanRoot path → ∃ p, host.placeAt path = some p ∧ r0 <+: p
  entered : ∀ fuel s, host.exec.findFilesMatching filename scanRoot fuel scanRoot {} = some s →
    ∀ path ∈ s.handled, ∃ d, host.exec.CanEnter filename scanRoot d ∧ path = d ++ "/" ++ filename
  once : ∀ fuel s, host.exec.findFilesMatching filename scanRoot fuel scanRoot {} = some s →
    (s.handled.map host.directoryOf).Nodup
  complete : ∀ fuel s, host.exec.findFilesMatching filename scanRoot fuel scanRoot {} = some s →
    ∀ r0, host.placeAt scanRoot = some r0 → ∀ rest, host.RealBelow r0 rest →
      host.Holds filename (r0 ++ rest) → some (r0 ++ rest) ∈ s.handled.map host.directoryOf

/-- No directory with the file is below two starts, and what is below one named like the file is
    reached by a link. -/
structure OneWayIn (r0 : Place) : Prop where
  once : ∀ d, host.Holds filename d → OneStart (host.movesOf filename scanRoot) r0 d
  uncut : ∀ rest, host.RealBelow r0 rest → host.Holds filename (r0 ++ rest) → filename ∈ rest →
    Reaches (host.movesOf filename scanRoot) r0 (r0 ++ rest)

variable {host filename scanRoot}

/-- Directories are gone down into until one is named like the file. -/
theorem below_of_realBelow {r0 : Place} {rest : List String} (real : host.RealBelow r0 rest)
    (uncut : filename ∉ rest) (listed : host.isListed (r0 ++ rest) = true) :
    Below (host.movesOf filename scanRoot) r0 (r0 ++ rest) := by
  induction real with
  | root => rw [List.append_nil]; exact .refl
  | @child rest es name _ held mem unpruned ih =>
    rw [List.mem_append, List.mem_singleton, not_or] at uncut
    have readable : host.isListed (r0 ++ rest) = true := by
      rw [LinkedEtc.isListed, LinkedEtc.readAt, held]
      rfl
    rw [← List.append_assoc] at listed ⊢
    exact (ih uncut.1 readable).tail
      (into_iff.mpr ⟨es, name, .dir, held, mem, Ne.symm uncut.2, rfl, rfl, listed, unpruned⟩)

theorem Holds.isListed {p : Place} (holds : host.Holds filename p) : host.isListed p = true := by
  obtain ⟨es, held, -⟩ := holds
  rw [LinkedEtc.isListed, LinkedEtc.readAt, held]
  rfl

theorem find_unrooted (nowhere : host.placeAt scanRoot = none) (fuel : Nat) (s : Finding) :
    host.exec.findFilesMatching filename scanRoot (fuel + 1) scanRoot s = some s := by
  have read : host.exec.readDir scanRoot =
    ((host.placeAt scanRoot).map host.readAt).getD .missing := rfl
  rw [WalkExec.findFilesMatching, read, nowhere]
  rfl

section Rooted

variable {r0 : Place} (rooted : host.placeAt scanRoot = some r0)
include rooted

theorem find_walks (fuel : Nat) : Option.Rel host.Agrees
    (host.exec.findFilesMatching filename scanRoot fuel scanRoot {})
    (walk (host.movesOf filename scanRoot) fuel r0 {}) :=
  find_agrees rooted ⟨rfl, rfl, by simp⟩

theorem find_ends : ∃ enough, ∀ fuel, enough ≤ fuel →
    (host.exec.findFilesMatching filename scanRoot fuel scanRoot {}).isSome := by
  refine ⟨unseen host.places [] * (host.deepest + 1) + (host.deepest - r0.length) + 1,
    fun fuel enough => ?_⟩
  have fin : Finite (host.movesOf filename scanRoot) (fun p => host.deepest - p.length)
    host.deepest host.places := moves_finite
  obtain ⟨t, ended, -⟩ := walk_total fin fuel r0 {} enough
  have same : Option.Rel host.Agrees _ (walk (host.movesOf filename scanRoot) fuel r0 {}) :=
    find_walks rooted fuel
  rw [ended] at same
  generalize host.exec.findFilesMatching filename scanRoot fuel scanRoot {} = found at same
  cases same
  rfl

theorem find_reports {fuel : Nat} {s : Finding}
    (found : host.exec.findFilesMatching filename scanRoot fuel scanRoot {} = some s) :
    ∃ t, walk (host.movesOf filename scanRoot) fuel r0 {} = some t ∧
      s.handled.map host.directoryOf = t.reported.map some := by
  have same : Option.Rel host.Agrees _ (walk (host.movesOf filename scanRoot) fuel r0 {}) :=
    find_walks rooted fuel
  rw [found] at same
  cases walked : walk (host.movesOf filename scanRoot) fuel r0 {} with
  | none => rw [walked] at same; cases same
  | some t =>
    rw [walked] at same
    cases same with
    | some agrees => exact ⟨t, rfl, agrees.handled⟩

theorem once_iff {fuel : Nat} {s : Finding}
    (found : host.exec.findFilesMatching filename scanRoot fuel scanRoot {} = some s) :
    (s.handled.map host.directoryOf).Nodup ↔
      ∀ d, host.Holds filename d → OneStart (host.movesOf filename scanRoot) r0 d := by
  obtain ⟨t, walked, same⟩ := find_reports rooted found
  rw [same, List.nodup_map_iff (Option.some_injective _),
    walk_nodup_iff moves_finite.falls plain_once walked]
  simp only [report_iff]

theorem handed_iff {fuel : Nat} {s : Finding}
    (found : host.exec.findFilesMatching filename scanRoot fuel scanRoot {} = some s) {d : Place} :
    some d ∈ s.handled.map host.directoryOf ↔
      host.Holds filename d ∧ Reaches (host.movesOf filename scanRoot) r0 d := by
  obtain ⟨t, walked, same⟩ := find_reports rooted found
  rw [same, List.mem_map_of_injective (Option.some_injective _),
    mem_walk_iff moves_finite.falls walked, report_iff]

end Rooted

/-- The walk is as it should be exactly where each directory with the file has one way in. -/
theorem walksOnce_iff (host : LinkedHost) (filename scanRoot : String) :
    host.WalksOnce filename scanRoot ↔
      ∀ r0, host.placeAt scanRoot = some r0 → host.OneWayIn filename scanRoot r0 := by
  constructor
  · intro good r0 rooted
    obtain ⟨enough, ends⟩ := good.terminates
    obtain ⟨s, found⟩ := Option.isSome_iff_exists.mp (ends enough (Nat.le_refl _))
    refine ⟨(once_iff rooted found).mp (good.once _ s found), fun rest real holds _ => ?_⟩
    exact ((handed_iff rooted found).mp (good.complete _ s found r0 rooted rest real holds)).2
  · intro one
    refine ⟨?_, fun r0 rooted path entered => canEnter_confined entered rooted, ?_, ?_, ?_⟩
    · cases rooted : host.placeAt scanRoot with
      | some r0 => exact find_ends rooted
      | none =>
        refine ⟨1, fun fuel enough => ?_⟩
        obtain ⟨fuel, rfl⟩ := Nat.exists_eq_add_of_le' enough
        rw [find_unrooted rooted]
        rfl
    · intro fuel s found path mem
      rcases WalkExec.handled_entered .root found path mem with no | there
      · cases no
      · exact there
    · intro fuel s found
      cases rooted : host.placeAt scanRoot with
      | some r0 => exact (once_iff rooted found).mpr (one r0 rooted).once
      | none =>
        cases fuel with
        | zero => cases found
        | succ fuel =>
          rw [find_unrooted rooted] at found
          cases found
          exact List.nodup_nil
    · intro fuel s found r0 rooted rest real holds
      refine (handed_iff rooted found).mpr ⟨holds, ?_⟩
      by_cases cut : filename ∈ rest
      · exact (one r0 rooted).uncut rest real holds cut
      · exact (below_of_realBelow real cut holds.isListed).reaches

end LinkedHost

/-- A project with a link to itself in its directory. -/
def relinkedEtc : LinkedEtc where
  listing p :=
    if p = [] then .entries [("opt", .dir)]
    else if p = ["opt"] then .entries [("app", .dir)]
    else if p = ["opt", "app"] then
      .entries [("package.json", .file), ("current", .link (some ["opt", "app"]))]
    else .none
  places := [[], ["opt"], ["opt", "app"]]
  finite p es h := by grind
  distinct p es h := by grind
  named p es h := by
    split at h
    · cases h; decide
    · split at h
      · cases h; decide
      · split at h
        · cases h; decide
        · cases h
  plain p es name h mem := by
    split at h
    · cases h; simp at mem
    · split at h
      · cases h; simp at mem
      · split at h
        · next here =>
          subst here
          cases h
          obtain rfl : name = "package.json" := by simpa using mem
          simp
        · cases h

theorem relinkedEtc_app : relinkedEtc.IsReal ["opt", "app"] := by
  have opt : relinkedEtc.IsReal ["opt"] :=
    .child (e := .dir) .root (show relinkedEtc.listing [] = .entries [("opt", .dir)] from rfl)
      (by simp) (by simp)
  exact .child (e := .dir) opt
    (show relinkedEtc.listing ["opt"] = .entries [("app", .dir)] from rfl) (by simp) (by simp)

def relinkedProject : LinkedHost where
  toLinkedEtc := relinkedEtc
  real p es name target h mem := by
    have own : target = ["opt", "app"] := by
      simp only [relinkedEtc] at h
      grind
    exact own ▸ relinkedEtc_app

/-- The project is handed over twice, by its own path and through the link. -/
theorem relinked_project_twice : ¬relinkedProject.WalksOnce "package.json" "/opt" := by
  intro good
  have found : relinkedProject.exec.findFilesMatching "package.json" "/opt" 4 "/opt" {} =
      some { handled := ["/opt/app/package.json", "/opt/app/current/package.json"]
             visited := ["/opt/app"] } := by decide +kernel
  have twice := good.once 4 _ found
  revert twice
  decide +kernel

end Inspectah
