import Inspectah.Build.Extract
import Inspectah.Refine.ExportConfined

/-!
What the extraction of an archive leaves behind. Links lead down only, so writes stay below; a
file keeps its bytes unless a later entry leads to its place.
-/
namespace Inspectah

variable {out : List String} {st : Extraction} {e : ArchiveEntry}
open LinkedTree

theorem infix_intercalate {sep piece : List Char} {pieces : List (List Char)}
    (mem : piece ∈ pieces) : piece <:+: sep.intercalate pieces := by
  induction pieces with
  | nil => cases mem
  | cons first rest ih =>
    cases rest with
    | nil =>
      rw [List.mem_singleton.mp mem, List.intercalate_singleton]
    | cons second rest =>
      rw [List.intercalate_cons_cons]
      rcases List.mem_cons.mp mem with rfl | later
      · exact ((List.prefix_append _ _).trans (List.prefix_append _ _)).isInfix
      · exact (ih later).trans (List.suffix_append _ _).isInfix

theorem down_filterMap {cs : List Component} (none_up : .parentDir ∉ cs) :
    Down (cs.filterMap stepOf) := by
  intro s mem
  obtain ⟨c, inside, step⟩ := List.mem_filterMap.mp mem
  cases c with
  | parentDir => exact absurd inside none_up
  | normal name =>
    cases step
    nofun
  | rootDir => cases step
  | curDir => cases step

theorem down_strippedSteps {path : String}
    (checked : Text.contains (strippedPath path) ".." = false) : Down (strippedSteps path) := by
  apply down_filterMap
  intro up
  have dots : "..".toList <:+: (strippedPath path).toList := by
    have piece : Component.parentDir.text.toList ∈
        (strippedComponents path).map fun c => c.text.toList := List.mem_map_of_mem up
    have chars : (strippedPath path).toList =
        ['/'].intercalate ((strippedComponents path).map fun c => c.text.toList) :=
      String.toList_ofList
    rw [chars]
    exact infix_intercalate piece
  rw [Text.contains, containsChars_iff.mpr dots] at checked
  cases checked

theorem down_pathSteps {target : String} (checked : Text.contains target ".." = false) :
    Down (pathSteps target) := by
  apply down_filterMap
  intro up
  have dots : "..".toList <:+: target.toList := by
    have whole : ['/'].intercalate (pathPieces target) = target.toList := by
      rw [pathPieces, Text.splitChars_eq_splitOnP, ← List.splitOn_eq_splitOnP]
      exact List.intercalate_splitOn '/'
    have chars : "..".toList = ['.', '.'] := by decide
    rw [← whole, chars]
    exact infix_intercalate (mem_components_parentDir.mp up)
  rw [Text.contains, containsChars_iff.mpr dots] at checked
  cases checked

/-- Between two moments everything written is below `out`, and nothing is removed. -/
structure Kept (out : List String) (before after : Log String) : Prop where
  writes : ∃ made, after.writes = before.writes ++ made ∧ ∀ w ∈ made, out <+: w.1
  ext : before.tree.Extends after.tree
  descends : after.tree.Descends out

theorem Kept.refl {l : Log String} (descends : l.tree.Descends out) :
    Kept out l l :=
  ⟨⟨[], by simp, by simp⟩, FileTree.Extends.refl _, descends⟩

theorem Kept.trans {a b c : Log String} (hab : Kept out a b)
    (hbc : Kept out b c) : Kept out a c where
  writes := by
    obtain ⟨made, first, here⟩ := hab.writes
    obtain ⟨more, second, there⟩ := hbc.writes
    refine ⟨made ++ more, by rw [second, first, List.append_assoc], ?_⟩
    intro w mem
    rcases List.mem_append.mp mem with old | new
    · exact here w old
    · exact there w new
  ext := hab.ext.trans hbc.ext
  descends := hbc.descends

theorem kept_of_grown {before after : Log String}
    (grown : Grown before after out) : Kept out before after :=
  ⟨grown.writes, grown.ext, grown.descends⟩

theorem createFileAt_spec {l : Log String} {steps : List (Step String)}
    (descends : l.tree.Descends out) (down : Down steps) :
    Grown l (createFileAt out l steps).1 out ∧
      ∀ there, (createFileAt out l steps).2 = some there →
        l.tree.resolve MAX_LINKS out steps = some there ∧
          (createFileAt out l steps).1.tree.get there = some .file := by
  rw [createFileAt]
  cases leads : l.tree.resolve MAX_LINKS out steps with
  | none => exact ⟨Grown.refl descends, by simp⟩
  | some there =>
    have inside := descends.resolve_inside List.prefix_rfl down leads
    have written (free : l.tree.get there = none ∨ l.tree.get there = some .file) :
        Grown l (l.write there .file) out ∧ ∀ place, some there = some place →
          some there = some place ∧ (l.write there .file).tree.get place = some .file := by
      refine ⟨Grown.write descends inside (by simp) free, ?_⟩
      rintro place ⟨⟩
      exact ⟨rfl, FileTree.get_set_self _ _ _⟩
    dsimp only
    split
    · rename_i found
      exact written (.inr found)
    · rename_i absent
      split
      · exact written (.inl absent)
      · exact ⟨Grown.refl descends, by simp⟩
    · exact ⟨Grown.refl descends, by simp⟩

theorem createLinkAt_spec (out : List String) (l : Log String) (steps : List (Step String))
    (target : String) :
    (createLinkAt out l steps target = (l, false)) ∨
    ∃ parent name, l.tree.resolve MAX_LINKS out steps.dropLast = some parent ∧
      steps.getLast? = some (.into name) ∧ l.tree.get (parent ++ [name]) = none ∧
      createLinkAt out l steps target =
        (l.write (parent ++ [name]) (.link (Text.startsWith target "/") (pathSteps target)), true) := by
  rw [createLinkAt]
  split
  · exact .inl rfl
  · split
    · rename_i parent name leads last
      rw [Log.createLink]
      split
      · exact .inl rfl
      · rename_i free
        rw [Bool.not_eq_true, Option.isSome_eq_false_iff, Option.isNone_iff_eq_none] at free
        exact .inr ⟨parent, name, leads, last, free, rfl⟩
    · exact .inl rfl

theorem extractRegular_spec (descends : st.log.tree.Descends out) (down : Down (strippedSteps e.path)) :
    Grown st.log (extractRegular out st e).1.log out ∧
      ((extractRegular out st e).2 = none → ∃ there,
        (extractRegular out st e).1.contents = (there, e.data) :: st.contents ∧
        (extractRegular out st e).1.log.tree.resolve MAX_LINKS out (strippedSteps e.path) =
          some there ∧
        (extractRegular out st e).1.log.tree.get there = some .file) := by
  have above : Down (strippedSteps e.path).dropLast :=
    fun s mem => down s (List.mem_of_mem_dropLast mem)
  have made := makeDirs_grown MAX_LINKS descends List.prefix_rfl above
  unfold extractRegular
  dsimp only
  cases dirs : st.log.makeDirs MAX_LINKS out (strippedSteps e.path).dropLast with
  | mk l reached =>
    rw [dirs] at made
    cases reached with
    | none => exact ⟨made, by simp⟩
    | some parent =>
      obtain ⟨grown, place⟩ := createFileAt_spec made.descends down
      dsimp only
      cases created : createFileAt out l (strippedSteps e.path) with
      | mk l' at_place =>
        rw [created] at grown place
        have all := made.trans grown
        cases at_place with
        | none => exact ⟨all, by simp⟩
        | some there =>
          obtain ⟨leads, is_file⟩ := place there rfl
          dsimp only
          cases again : l'.tree.resolve MAX_LINKS out (strippedSteps e.path) with
          | none => exact ⟨all, by simp⟩
          | some canonical =>
            dsimp only
            -- The links are what they were, so the path leads where it led.
            have before : follow l'.tree.linkAt MAX_LINKS out (strippedSteps e.path) = some there :=
              resolve_follow made.descends
              (fun p _ => grown.linkAt p) List.prefix_rfl down leads
            have after : follow l'.tree.linkAt MAX_LINKS out (strippedSteps e.path) = some canonical :=
              resolve_follow grown.descends
              (fun p _ => rfl) List.prefix_rfl down again
            obtain rfl : there = canonical := Option.some.inj (before.symm.trans after)
            split
            · exact ⟨all, fun _ => ⟨there, rfl, again, is_file⟩⟩
            · exact ⟨all, by simp⟩

theorem extractDirectory_spec (descends : st.log.tree.Descends out) (down : Down (strippedSteps e.path)) :
    Grown st.log (extractDirectory out st e).1.log out ∧
      (extractDirectory out st e).1.contents = st.contents := by
  have made := makeDirs_grown MAX_LINKS descends List.prefix_rfl down
  unfold extractDirectory
  cases dirs : st.log.makeDirs MAX_LINKS out (strippedSteps e.path) with
  | mk l reached =>
    rw [dirs] at made
    cases reached <;> exact ⟨made, rfl⟩

theorem extractSymlink_spec {links : List String → Option (List (Step String))}
    (descends : st.log.tree.Descends out) (known : ∀ p, out <+: p → links p = st.log.tree.linkAt p)
    (down : Down (strippedSteps e.path))
    (checked : ∀ target, e.linkName = some target → linkEscapes target = false) :
    Kept out st.log (extractSymlink out st e).1.log ∧
      (extractSymlink out st e).1.contents = st.contents ∧
      ((extractSymlink out st e).2 = none →
        (e.linkName = none ∧ (extractSymlink out st e).1 = st) ∨
        ∃ target parent name, e.linkName = some target ∧
          follow links MAX_LINKS out (strippedSteps e.path).dropLast = some parent ∧
          (strippedSteps e.path).getLast? = some (.into name) ∧
          ∀ p, (extractSymlink out st e).1.log.tree.linkAt p =
            if parent ++ [name] = p then some (pathSteps target) else st.log.tree.linkAt p) := by
  have above : Down (strippedSteps e.path).dropLast :=
    fun s mem => down s (List.mem_of_mem_dropLast mem)
  have made := makeDirs_grown MAX_LINKS descends List.prefix_rfl above
  unfold extractSymlink
  cases held : e.linkName with
  | none => exact ⟨Kept.refl descends, rfl, fun _ => .inl ⟨rfl, rfl⟩⟩
  | some target =>
    dsimp only
    cases dirs : st.log.makeDirs MAX_LINKS out (strippedSteps e.path).dropLast with
    | mk l reached =>
      rw [dirs] at made
      cases reached with
      | none => exact ⟨kept_of_grown made, rfl, nofun⟩
      | some _ =>
        dsimp only
        have safe := checked target held
        rw [linkEscapes, Bool.or_eq_false_iff] at safe
        rcases createLinkAt_spec out l (strippedSteps e.path) target with failed |
          ⟨parent, name, leads, last, free, done⟩
        · rw [failed]
          exact ⟨kept_of_grown made, rfl, nofun⟩
        · rw [done, safe.2]
          have inside := made.descends.resolve_inside List.prefix_rfl above leads
          have link_down := down_pathSteps safe.1
          have linked : Kept out l (l.write (parent ++ [name]) (.link false (pathSteps target))) :=
            ⟨⟨_, rfl, by simpa using inside_child inside name⟩, FileTree.extends_set (.inl free),
              made.descends.set_link _ link_down⟩
          refine ⟨(kept_of_grown made).trans linked, rfl, fun _ => .inr ⟨target, parent, name, rfl, ?_, last, ?_⟩⟩
          · exact resolve_follow made.descends
              (fun p inside => (known p inside).trans (made.linkAt p).symm) List.prefix_rfl above leads
          · intro p
            dsimp only [Log.tree_write]
            split
            · rename_i here
              rw [← here, FileTree.linkAt, FileTree.get_set_self]
            · rename_i elsewhere
              rw [← made.linkAt p, FileTree.linkAt, FileTree.linkAt,
                FileTree.get_set_of_ne _ _ elsewhere]

/-- A file below the archive's top directory. -/
def isRegularEntry (e : ArchiveEntry) : Bool :=
  (e.entryType == .regular || e.entryType == .gnuSparse) && !(strippedPath e.path).isEmpty

def heldBy (links : List (List String × List (Step String))) (p : List String) :
    Option (List (Step String)) :=
  (links.find? fun l => l.1 == p).map (·.2)

def addLink (out : List String) (links : List (List String × List (Step String)))
    (e : ArchiveEntry) : List (List String × List (Step String)) :=
  if e.entryType = .symlink ∧ (strippedPath e.path).isEmpty = false then
    match e.linkName, follow (heldBy links) MAX_LINKS out (strippedSteps e.path).dropLast,
      (strippedSteps e.path).getLast? with
    | some target, some parent, some (.into name) => (parent ++ [name], pathSteps target) :: links
    | _, _, _ => links
  else links

def archiveLinks (out : List String) (entries : List ArchiveEntry) :
    List (List String × List (Step String)) :=
  entries.foldl (addLink out) []

def placeOf (out : List String) (entries : List ArchiveEntry) (e : ArchiveEntry) :
    Option (List String) :=
  follow (heldBy (archiveLinks out entries)) MAX_LINKS out (strippedSteps e.path)

def readBack (out : List String) (st : Extraction) (e : ArchiveEntry) : Option (List UInt8) :=
  match st.log.tree.resolve MAX_LINKS out (strippedSteps e.path) with
  | none => none
  | some there => if st.log.tree.get there = some .file then st.contentAt there else none

def Faithful (out : List String) (st : Extraction) (entries : List ArchiveEntry) : Prop :=
  ∀ e ∈ entries, isRegularEntry e = true → readBack out st e = some e.data

/-- Files of different bytes lead to different places. -/
def LandApart (out : List String) (entries : List ArchiveEntry) : Prop :=
  ∀ a ∈ entries, ∀ b ∈ entries, isRegularEntry a = true → isRegularEntry b = true →
    ∀ place, placeOf out entries a = some place → placeOf out entries b = some place →
      a.data = b.data

structure Lands (out : List String) (t : FileTree String) (c : List String × List UInt8)
    (e : ArchiveEntry) : Prop where
  leads : t.resolve MAX_LINKS out (strippedSteps e.path) = some c.1
  is_file : t.get c.1 = some .file
  bytes : c.2 = e.data
  down : Down (strippedSteps e.path)

theorem Lands.extends {t t' : FileTree String} (ext : t.Extends t')
    {c : List String × List UInt8} {e : ArchiveEntry} (lands : Lands out t c e) : Lands out t' c e where
  leads := FileTree.resolve_extends ext (by rw [lands.is_file]; rfl) lands.leads
  is_file := ext _ _ lands.is_file
  bytes := lands.bytes
  down := lands.down

/-- What holds between entries: the links are the archive's, and each file written is where its
    path leads. -/
structure Sound (out : List String) (done : List ArchiveEntry) (st : Extraction) : Prop where
  descends : st.log.tree.Descends out
  known : ∀ p, out <+: p → heldBy (archiveLinks out done) p = st.log.tree.linkAt p
  files : List.Forall₂ (Lands out st.log.tree) st.contents (done.filter isRegularEntry).reverse

theorem checkEntry_ok {kind : EntryKind}
    (passed : checkEntry st e = .ok kind) :
    Text.contains (strippedPath e.path) ".." = false ∧ entryKind e.entryType = .ok kind ∧
      (kind = .symlink → ∀ target, e.linkName = some target → linkEscapes target = false) := by
  unfold checkEntry at passed
  split at passed
  · cases passed
  · rename_i dots
    refine ⟨Bool.eq_false_iff.mpr dots, ?_⟩
    split at passed
    · cases passed
    · split at passed
      · cases passed
      · split at passed
        · cases passed
        · rename_i found
          split at passed
          · split at passed
            · cases passed
            · split at passed
              · cases passed
              · rename_i directory
                obtain rfl := Except.ok.inj passed
                refine ⟨found, ?_⟩
                rintro rfl
                exact absurd nofun directory
          · split at passed
            · split at passed
              · cases passed
              · rename_i target held safe
                obtain rfl := Except.ok.inj passed
                refine ⟨found, fun _ other same => ?_⟩
                rw [held, Option.some.injEq] at same
                exact same ▸ Bool.eq_false_iff.mpr safe
            · rename_i other
              obtain rfl := Except.ok.inj passed
              refine ⟨found, ?_⟩
              rintro rfl target held
              have symlink : e.entryType = .symlink := by
                cases type : e.entryType <;> rw [type] at found <;> cases found
              exact absurd held (other target symlink)

theorem extractArchiveEntry_kept (e : ArchiveEntry)
    (descends : st.log.tree.Descends out) :
    Kept out st.log (extractArchiveEntry out st e).1.log := by
  rw [extractArchiveEntry]
  split
  · exact Kept.refl descends
  · cases passed : checkEntry st e with
    | error violation => exact Kept.refl descends
    | ok kind =>
      obtain ⟨dots, -, escapes⟩ := checkEntry_ok passed
      have down := down_strippedSteps dots
      cases kind with
      | directory =>
        exact kept_of_grown (@extractDirectory_spec out (markSeen st _ _) e descends down).1
      | regular => exact kept_of_grown (@extractRegular_spec out (markSeen st _ _) e descends down).1
      | symlink =>
        exact (@extractSymlink_spec out (markSeen st _ _) e st.log.tree.linkAt descends
          (fun _ _ => rfl) down (escapes rfl)).1

theorem extractTarball_kept (entries : List (Option ArchiveEntry))
    (descends : st.log.tree.Descends out) :
    Kept out st.log (extractTarball out st entries).1.log := by
  induction entries generalizing st with
  | nil => exact Kept.refl descends
  | cons first rest ih =>
    cases first with
    | none => exact Kept.refl descends
    | some e =>
      have step := extractArchiveEntry_kept e descends
      rw [extractTarball]
      cases done : extractArchiveEntry out st e with
      | mk st' failure =>
        rw [done] at step
        cases failure with
        | some _ => exact step
        | none => exact step.trans (ih step.descends)

theorem archiveLinks_concat (out : List String) (done : List ArchiveEntry) (e : ArchiveEntry) :
    archiveLinks out (done ++ [e]) = addLink out (archiveLinks out done) e := by
  rw [archiveLinks, List.foldl_append]
  rfl

theorem addLink_other (other : ¬(e.entryType = .symlink ∧ (strippedPath e.path).isEmpty = false))
    (links : List (List String × List (Step String))) : addLink out links e = links := by
  rw [addLink, if_neg other]

theorem isRegularEntry_iff (below : (strippedPath e.path).isEmpty = false) :
    isRegularEntry e = true ↔ entryKind e.entryType = .ok .regular := by
  rw [isRegularEntry, below]
  cases e.entryType <;> simp [entryKind]

theorem entryKind_symlink {t : ArchiveEntryType} : entryKind t = .ok .symlink ↔ t = .symlink := by
  cases t <;> simp [entryKind]

theorem Sound.grown {out : List String} {done : List ArchiveEntry} {st st' : Extraction}
    (sound : Sound out done st) (grown : Grown st.log st'.log out)
    (same : st'.contents = st.contents) {e : ArchiveEntry}
    (no_link : ¬(e.entryType = .symlink ∧ (strippedPath e.path).isEmpty = false))
    (no_file : isRegularEntry e = false) : Sound out (done ++ [e]) st' where
  descends := grown.descends
  known p inside := by
    rw [archiveLinks_concat, addLink_other no_link, sound.known p inside, grown.linkAt]
  files := by
    rw [List.filter_append, List.filter_singleton, no_file, same]
    simpa using sound.files.imp fun _ _ lands => lands.extends grown.ext

theorem Sound.step {done : List ArchiveEntry} {st st' : Extraction}
    {e : ArchiveEntry} (sound : Sound out done st)
    (extracted : extractArchiveEntry out st e = (st', none)) : Sound out (done ++ [e]) st' := by
  rw [extractArchiveEntry] at extracted
  split at extracted
  · rename_i top
    obtain rfl := (Prod.mk.inj extracted).1
    refine sound.grown (Grown.refl sound.descends) rfl (fun both => ?_) ?_
    · rw [top] at both
      cases both.2
    · rw [isRegularEntry, top, Bool.not_true, Bool.and_false]
  · rename_i below
    rw [Bool.not_eq_true] at below
    cases passed : checkEntry st e with
    | error violation =>
      rw [passed] at extracted
      cases extracted
    | ok kind =>
      rw [passed] at extracted
      obtain ⟨dots, found, escapes⟩ := checkEntry_ok passed
      have down := down_strippedSteps dots
      cases kind with
      | directory =>
        dsimp only at extracted
        have spec := @extractDirectory_spec out (markSeen st (strippedPath e.path) .directory) e
          sound.descends down
        rw [extracted] at spec
        refine sound.grown spec.1 spec.2 (fun both => ?_) ?_
        · rw [both.1] at found
          cases found
        · rw [← Bool.not_eq_true, isRegularEntry_iff below, found]
          nofun
      | regular =>
        dsimp only at extracted
        have spec := @extractRegular_spec out (markSeen st (strippedPath e.path) .regular) e
          sound.descends down
        rw [extracted] at spec
        obtain ⟨grown, placed⟩ := spec
        obtain ⟨there, contents, leads, is_file⟩ := placed rfl
        have no_link : ¬(e.entryType = .symlink ∧ (strippedPath e.path).isEmpty = false) := by
          intro both
          rw [both.1] at found
          cases found
        refine ⟨grown.descends, fun p inside => ?_, ?_⟩
        · rw [archiveLinks_concat, addLink_other no_link, sound.known p inside]
          exact (grown.linkAt p).symm
        · have file := (isRegularEntry_iff below).mpr found
          rw [List.filter_append, List.filter_singleton, file, contents]
          simp only [cond_true, List.reverse_append, List.reverse_singleton, List.singleton_append]
          exact .cons ⟨leads, is_file, rfl, down⟩ (sound.files.imp fun _ _ lands => lands.extends grown.ext)
      | symlink =>
        dsimp only at extracted
        have spec := @extractSymlink_spec out (markSeen st (strippedPath e.path) .symlink) e _
          sound.descends sound.known down (escapes rfl)
        rw [extracted] at spec
        obtain ⟨kept, contents, linked⟩ := spec
        have type := entryKind_symlink.mp found
        have no_file : isRegularEntry e = false := by
          rw [← Bool.not_eq_true, isRegularEntry_iff below, found]
          nofun
        refine ⟨kept.descends, fun p inside => ?_, ?_⟩
        · rw [archiveLinks_concat, addLink, if_pos ⟨type, below⟩]
          rcases linked rfl with ⟨held, same⟩ | ⟨target, parent, name, held, leads, last, at_link⟩
          · rw [held]
            dsimp only at same ⊢
            rw [same]
            exact sound.known p inside
          · rw [held, leads, last, at_link]
            dsimp only
            rw [heldBy, List.find?_cons]
            by_cases here : parent ++ [name] = p
            · rw [if_pos here, beq_iff_eq.mpr here]
              rfl
            · rw [if_neg here, beq_eq_false_iff_ne.mpr here]
              exact sound.known p inside
        · rw [List.filter_append, List.filter_singleton, no_file, contents]
          have kept_files := sound.files.imp fun _ _ lands => lands.extends kept.ext
          simpa [markSeen] using kept_files

theorem Sound.run {done : List ArchiveEntry} {st : Extraction}
    (sound : Sound out done st) (entries : List (Option ArchiveEntry))
    (ok : (extractTarball out st entries).2 = none) :
    Sound out (done ++ entries.filterMap id) (extractTarball out st entries).1 := by
  induction entries generalizing done st with
  | nil =>
    rw [List.filterMap_nil, List.append_nil]
    exact sound
  | cons first rest ih =>
    cases first with
    | none => cases ok
    | some e =>
      rw [extractTarball] at ok ⊢
      cases extracted : extractArchiveEntry out st e with
      | mk st' failure =>
        rw [extracted] at ok
        cases failure with
        | some _ => cases ok
        | none =>
          have later := ih (sound.step extracted) ok
          simpa using later

/-- The directory extracted into: it is there, and nothing is in it. -/
structure EmptyRoot (t : FileTree String) (out : List String) : Prop where
  is_dir : t.get out = some .dir
  empty : ∀ p, out <+: p → p ≠ out → t.get p = none

theorem EmptyRoot.not_link {t : FileTree String} {out : List String} (root : EmptyRoot t out)
    {p : List String} (inside : out <+: p) (fromRoot : Bool) (target : List (Step String)) :
    t.get p ≠ some (.link fromRoot target) := by
  intro found
  by_cases here : p = out
  · rw [here, root.is_dir] at found
    cases found
  · rw [root.empty p inside here] at found
    cases found

theorem EmptyRoot.sound {t : FileTree String} {out : List String} (root : EmptyRoot t out) :
    Sound out [] { log := { tree := t } } where
  descends p fromRoot target inside found := absurd found (root.not_link inside fromRoot target)
  known p inside := by
    rw [FileTree.linkAt]
    split
    · rename_i fromRoot target found
      exact absurd found (root.not_link inside fromRoot target)
    · rfl
  files := .nil

theorem exists_right {α β : Type} {R : α → β → Prop} {l : List α} {l' : List β}
    (rel : List.Forall₂ R l l') {a : α} (mem : a ∈ l) : ∃ b ∈ l', R a b := by
  induction rel with
  | nil => cases mem
  | @cons first first' rest rest' head tail ih =>
    rcases List.mem_cons.mp mem with rfl | later
    · exact ⟨first', List.mem_cons_self, head⟩
    · obtain ⟨b, listed, related⟩ := ih later
      exact ⟨b, List.mem_cons_of_mem _ listed, related⟩

/-- A file written is found at the place its path leads to. -/
theorem Sound.placed {entries : List ArchiveEntry} {st : Extraction}
    (sound : Sound out entries st) {c : List String × List UInt8} {e : ArchiveEntry}
    (lands : Lands out st.log.tree c e) :
    placeOf out entries e = some c.1 ∧ readBack out st e = st.contentAt c.1 := by
  constructor
  · exact resolve_follow sound.descends sound.known List.prefix_rfl lands.down lands.leads
  · rw [readBack, lands.leads]
    exact if_pos lands.is_file

theorem Sound.content {entries : List ArchiveEntry} {st : Extraction}
    (sound : Sound out entries st) {c : List String × List UInt8} (mem : c ∈ st.contents) :
    ∃ e ∈ entries, isRegularEntry e = true ∧ ∃ last, Lands out st.log.tree last e ∧
      last.1 = c.1 ∧ st.contentAt c.1 = some e.data := by
  have some_file : (st.contents.find? fun d => d.1 == c.1).isSome := by
    rw [List.find?_isSome]
    exact ⟨c, mem, beq_self_eq_true _⟩
  obtain ⟨last, found⟩ := Option.isSome_iff_exists.mp some_file
  have same : last.1 = c.1 := by
    have passes := List.find?_some found
    exact beq_iff_eq.mp passes
  obtain ⟨e, listed, lands⟩ := exists_right sound.files (List.mem_of_find?_eq_some found)
  rw [List.mem_reverse, List.mem_filter] at listed
  refine ⟨e, listed.1, listed.2, last, lands, same, ?_⟩
  rw [Extraction.contentAt, found, Option.map_some, lands.bytes]

theorem Sound.faithful_iff {entries : List ArchiveEntry} {st : Extraction}
    (sound : Sound out entries st) : Faithful out st entries ↔ LandApart out entries := by
  have landed : ∀ e ∈ entries, isRegularEntry e = true →
      ∃ c ∈ st.contents, Lands out st.log.tree c e := by
    intro e mem file
    exact exists_right sound.files.flip (List.mem_reverse.mpr (List.mem_filter.mpr ⟨mem, file⟩))
  constructor
  · intro faithful a ha b hb file_a file_b place lead_a lead_b
    obtain ⟨c, -, lands⟩ := landed a ha file_a
    obtain ⟨d, -, lands'⟩ := landed b hb file_b
    obtain ⟨place_a, read_a⟩ := sound.placed lands
    obtain ⟨place_b, read_b⟩ := sound.placed lands'
    have same : c.1 = d.1 := by
      rw [lead_a] at place_a
      rw [lead_b] at place_b
      exact (Option.some.inj place_a).symm.trans (Option.some.inj place_b)
    have bytes_a := faithful a ha file_a
    have bytes_b := faithful b hb file_b
    rw [read_a, same, ← read_b, bytes_b] at bytes_a
    exact (Option.some.inj bytes_a).symm
  · intro apart e mem file
    obtain ⟨c, written, lands⟩ := landed e mem file
    obtain ⟨place, read⟩ := sound.placed lands
    obtain ⟨other, there, also_file, last, lands', same, content⟩ := sound.content written
    obtain ⟨place', -⟩ := sound.placed lands'
    rw [read, content, apart other there e mem also_file file c.1 (same ▸ place') place]

theorem extract_confined_faithful_iff {t : FileTree String} {out : List String}
    (root : EmptyRoot t out) (entries : List (Option ArchiveEntry)) :
    (∀ w ∈ (extractTarball out { log := { tree := t } } entries).1.log.writes, out <+: w.1) ∧
      ((extractTarball out { log := { tree := t } } entries).2 = none →
        (Faithful out (extractTarball out { log := { tree := t } } entries).1
            (entries.filterMap id) ↔
          LandApart out (entries.filterMap id))) := by
  constructor
  · obtain ⟨made, writes, inside⟩ := (extractTarball_kept entries root.sound.descends).writes
    rw [writes]
    simpa using inside
  · intro ok
    exact (root.sound.run entries ok).faithful_iff

/-- A tree with the directory `x` only. -/
def emptyTree : FileTree String := ⟨[(["x"], .dir)]⟩

theorem emptyTree_root : EmptyRoot emptyTree ["x"] where
  is_dir := rfl
  empty p _ other := by
    have ne : ["x"] ≠ p := other.symm
    simp [FileTree.get, emptyTree, ne]

/-- `copy` is a link to `etc`, so its `hosts` is the one extracted first. -/
def aliasArchive : List (Option ArchiveEntry) :=
  [some { path := "scan/etc/hosts", data := [1] },
   some { path := "scan/copy", entryType := .symlink, linkName := some "etc" },
   some { path := "scan/copy/hosts", data := [2] }]

theorem alias_extracted :
    (∀ w ∈ (extractTarball ["x"] { log := { tree := emptyTree } } aliasArchive).1.log.writes,
        ["x"] <+: w.1) ∧
      ((extractTarball ["x"] { log := { tree := emptyTree } } aliasArchive).2 = none →
        (Faithful ["x"] (extractTarball ["x"] { log := { tree := emptyTree } } aliasArchive).1
            (aliasArchive.filterMap id) ↔
          LandApart ["x"] (aliasArchive.filterMap id))) :=
  extract_confined_faithful_iff emptyTree_root aliasArchive

theorem alias_overwritten : EmptyRoot emptyTree ["x"] ∧
    (extractTarball ["x"] { log := { tree := emptyTree } } aliasArchive).2 = none ∧
      ¬Faithful ["x"] (extractTarball ["x"] { log := { tree := emptyTree } } aliasArchive).1
        (aliasArchive.filterMap id) := by
  have second : readBack ["x"] (extractTarball ["x"] { log := { tree := emptyTree } } aliasArchive).1
      { path := "scan/etc/hosts", data := [1] } = some [2] := by decide +kernel
  refine ⟨emptyTree_root, by decide +kernel, fun faithful => ?_⟩
  have first := faithful { path := "scan/etc/hosts", data := [1] } (by simp [aliasArchive])
    (by decide)
  rw [second] at first
  cases first

end Inspectah
