import Mathlib.Data.List.TakeWhile
import Inspectah.Refine.ExportConfined
import Inspectah.Render.ExportWriters

/-!
Where the writers of an export write. Unit, quadlet, account and manifest names and the paths
of lost versions are joined unchecked.
-/
namespace Inspectah

open Writers (perform reached Goes)

variable (tools : ExportTools) (snap : InspectionSnapshot) {dir : List String}

def destination (out : String) (path : List String) : String := path.foldl joinPiece out

/-- The path leads below the output directory, and no piece replaces what is before it. -/
structure StaysBelow (out : String) (path : List String) : Prop where
  relative : ∀ piece ∈ path, Text.startsWith piece "/" = false
  descends : ∃ names, names ≠ [] ∧
    pathSteps (destination out path) = pathSteps out ++ names.map .into

def IsHarmless (piece : String) : Prop :=
  Text.startsWith piece "/" = false ∧ .parentDir ∉ components piece

instance (piece : String) : Decidable (IsHarmless piece) := inferInstanceAs (Decidable (_ ∧ _))

theorem pathSteps_eq_pieces (path : String) :
    pathSteps path = ((pathPieces path).filterMap componentOf).filterMap stepOf := by
  unfold pathSteps components
  split
  · rfl
  · split <;> rfl

theorem pathSteps_joinPiece (base : String) {piece : String}
    (relative : Text.startsWith piece "/" = false) :
    pathSteps (joinPiece base piece) = pathSteps base ++ pathSteps piece := by
  have cut : ∀ before after : String,
      pathSteps (before ++ "/" ++ after) = pathSteps before ++ pathSteps after := by
    intro before after
    simp only [pathSteps_eq_pieces, pathPieces, String.toList_append]
    rw [List.append_assoc, show "/".toList ++ after.toList = '/' :: after.toList from rfl,
      Text.splitChars_append_cut (by rfl)]
    simp only [List.filterMap_append]
  unfold joinPiece
  rw [if_neg (by simp [relative])]
  split
  next open_ended =>
    obtain empty | slash := Bool.or_eq_true_iff.mp open_ended
    · have nothing : base = "" := by simpa using empty
      subst nothing
      rw [String.empty_append]
      rfl
    · obtain ⟨front, whole⟩ := List.isPrefixOf_iff_prefix.mp slash
      have ends : base = String.ofList front.reverse ++ "/" := by
        apply String.toList_inj.mp
        rw [String.toList_append, String.toList_ofList, ← List.reverse_inj, ← whole]
        simp
      have alone := cut (String.ofList front.reverse) ""
      rw [String.append_empty] at alone
      rw [ends, cut, alone]
      simp [show pathSteps "" = [] from rfl]
  next => exact cut base piece

theorem pathSteps_destination (out : String) {path : List String}
    (relative : ∀ piece ∈ path, Text.startsWith piece "/" = false) :
    pathSteps (destination out path) = pathSteps out ++ path.flatMap pathSteps := by
  induction path generalizing out with
  | nil => simp [destination]
  | cons piece rest ih =>
    have later := ih (joinPiece out piece) fun p hp => relative p (List.mem_cons_of_mem _ hp)
    have first := pathSteps_joinPiece out (relative piece (List.mem_cons_self ..))
    simp only [destination, List.foldl_cons] at later ⊢
    rw [later, first, List.flatMap_cons, List.append_assoc]

theorem staysBelow_iff (out : String) {first : String} {rest : List String}
    (named : pathNames first ≠ []) :
    StaysBelow out (first :: rest) ↔ ∀ piece ∈ first :: rest, IsHarmless piece := by
  constructor
  · intro ⟨relative, names, _, leads⟩ piece mem
    refine ⟨relative piece mem, fun up => ?_⟩
    rw [pathSteps_destination out relative] at leads
    have steps := List.append_cancel_left leads
    have inSteps : LinkedTree.Step.up ∈ (first :: rest).flatMap pathSteps :=
      List.mem_flatMap.mpr ⟨piece, mem, List.mem_filterMap.mpr ⟨.parentDir, up, rfl⟩⟩
    rw [steps] at inSteps
    simp at inSteps
  · intro harmless
    have relative : ∀ piece ∈ first :: rest, Text.startsWith piece "/" = false :=
      fun piece mem => (harmless piece mem).1
    refine ⟨relative, (first :: rest).flatMap pathNames, ?_, ?_⟩
    · simp [named]
    · rw [pathSteps_destination out relative, List.map_flatMap]
      congr 1
      exact List.flatMap_congr fun piece mem => pathSteps_eq (harmless piece mem).2

theorem isHarmless_of_isValidPath {path : String} (valid : isValidPath path) : IsHarmless path := by
  unfold isValidPath validatePath at valid
  split at valid
  · cases valid
  · split at valid
    · cases valid
    next relative =>
      split at valid
      · cases valid
      next level =>
        refine ⟨by simpa using relative, fun up => level ?_⟩
        exact List.contains_iff_mem.mpr (mem_components_parentDir.mp up)

theorem pathPieces_of_plain {name : String} (plain : '/' ∉ name.toList) :
    pathPieces name = [name.toList] :=
  splitChars_of_plain fun x mem => by
    have other : x ≠ '/' := fun eq => plain (eq ▸ mem)
    simpa using other

theorem isHarmless_of_plain {name : String} (plain : '/' ∉ name.toList) (level : name ≠ "..") :
    IsHarmless name := by
  constructor
  · cases starts : Text.startsWith name "/" with
    | false => rfl
    | true =>
      obtain ⟨rest, whole⟩ := List.isPrefixOf_iff_prefix.mp starts
      rw [← whole] at plain
      simp at plain
  · rw [mem_components_parentDir, pathPieces_of_plain plain, List.mem_singleton]
    intro dots
    exact level (String.toList_inj.mp dots.symm)

theorem fileName_harmless (path : String) : IsHarmless ((Text.fileName path).getD "") := by
  unfold Text.fileName
  split
  next last found =>
    split
    next => decide
    next level =>
      have piece := (List.mem_filter.mp (List.mem_of_getLast? found)).1
      refine isHarmless_of_plain ?_ fun dots => level ?_
      · rw [Option.getD_some, String.toList_ofList]
        intro slash
        simpa using Text.plain_of_mem_splitChars piece slash
      · simpa using congrArg String.toList dots
  next => decide

/-- A name the file system takes for a file. -/
def isWritableName (name : String) : Bool := !name.toList.contains NUL && (finalName name).isSome

section

variable (out : String)

def StepsConfined (steps : List WriteStep) : Prop :=
  ∀ s ∈ steps, s.request.Grantable → StaysBelow out s.request.path

variable {out}

theorem stepsConfined_append {xs ys : List WriteStep} :
    StepsConfined out (xs ++ ys) ↔ StepsConfined out xs ∧ StepsConfined out ys :=
  List.forall_mem_append

theorem reached_confined {steps : List WriteStep} (confined : StepsConfined out steps) :
    ∀ r ∈ reached FileRequest.Grantable steps, StaysBelow out r.path := by
  intro r mem
  obtain ⟨can, s, hs, rfl⟩ := Writers.of_mem_reached mem
  exact confined s hs can

theorem stepsConfined_nil : StepsConfined out [] := fun _ h => by cases h

theorem stepsConfined_ite {p : Prop} [Decidable p] {xs ys : List WriteStep}
    (left : StepsConfined out xs) (right : StepsConfined out ys) :
    StepsConfined out (if p then xs else ys) := by
  split
  · exact left
  · exact right

theorem pathUnder_confined {dirs : List String} {name : String}
    (named : pathNames (dirs.headD "") ≠ []) (harmless : ∀ dir ∈ dirs, IsHarmless dir) :
    StaysBelow out (dirs ++ [name]) ↔ IsHarmless name := by
  cases dirs with
  | nil => exact absurd rfl named
  | cons first rest =>
    have starts : pathNames first ≠ [] := named
    rw [List.cons_append, staysBelow_iff out starts]
    constructor
    · intro all
      exact all _ (by simp)
    · intro last piece mem
      rw [← List.cons_append, List.mem_append, List.mem_singleton] at mem
      obtain above | rfl := mem
      · exact harmless piece above
      · exact last

theorem stepsConfined_map {α : Type} (dirs : List String) {step : α → WriteStep}
    {name : α → String} {rows : List α}
    (path : ∀ a, (step a).request.path = dirs ++ [name a])
    (named : pathNames (dirs.headD "") ≠ []) (harmless : ∀ dir ∈ dirs, IsHarmless dir) :
    StepsConfined out (rows.map step) ↔
      ∀ a ∈ rows, (step a).request.Grantable → IsHarmless (name a) := by
  have onePath : ∀ a, StaysBelow out (step a).request.path ↔ IsHarmless (name a) := by
    intro a
    rw [path]
    exact pathUnder_confined named harmless
  simp only [StepsConfined, List.forall_mem_map, onePath]

theorem configSteps_confined :
    StepsConfined out (configSteps snap) := by
  refine (stepsConfined_map [CONFIG_DIR] (fun _ => rfl) (by decide) (by decide)).mpr ?_
  intro e mem _
  have kept := (List.mem_filter.mp mem).2
  simp only [Bool.and_eq_true] at kept
  exact isHarmless_of_isValidPath kept.2

theorem treeFileSteps_confined (files : List TreeFile) :
    StepsConfined out (treeFileSteps files) := by
  refine (stepsConfined_map [CONFIG_DIR] (fun _ => rfl) (by decide) (by decide)).mpr ?_
  intro f mem _
  have kept := (List.mem_filter.mp mem).2
  simp only [Bool.and_eq_true] at kept
  exact isHarmless_of_isValidPath kept.2

theorem dropInSteps_confined :
    StepsConfined out (dropInSteps snap) := by
  refine (stepsConfined_map [DROP_INS_DIR] (fun _ => rfl) (by decide) (by decide)).mpr ?_
  intro d mem _
  have kept := (List.mem_filter.mp mem).2
  simp only [Bool.and_eq_true] at kept
  exact isHarmless_of_isValidPath kept.2

theorem stepsConfined_of_own {steps : List WriteStep} (paths : List (List String))
    (own : steps.map (·.request.path) = paths)
    (fixed : ∀ path ∈ paths, pathNames (path.headD "") ≠ [] ∧ ∀ piece ∈ path, IsHarmless piece) :
    StepsConfined out steps := by
  intro s mem _
  have path := fixed s.request.path (own ▸ List.mem_map_of_mem mem)
  cases pieces : s.request.path with
  | nil =>
    rw [pieces] at path
    exact absurd rfl path.1
  | cons first rest =>
    rw [pieces] at path
    exact (staysBelow_iff out path.1).mpr path.2

theorem kernelSteps_confined (kb : KernelBootSection) : StepsConfined out (kernelSteps kb) := by
  unfold kernelSteps
  refine stepsConfined_append.mpr ⟨?_, ?_⟩
  · exact stepsConfined_ite stepsConfined_nil
      (stepsConfined_of_own [[SYSCTL_DIR], [SYSCTL_DIR, SYNTHESIZED_SYSCTL_FILE]] rfl (by decide))
  · exact stepsConfined_ite stepsConfined_nil
      (stepsConfined_of_own
        [[CONFIG_DIR, KARGS_DIR], [CONFIG_DIR, KARGS_DIR, "inspectah-migrated.toml"]] rfl (by decide))

theorem flatpakSteps_confined :
    StepsConfined out (flatpakSteps snap) := by
  unfold flatpakSteps
  exact stepsConfined_ite stepsConfined_nil
    (stepsConfined_of_own
      [["flatpak"], ["flatpak", "flatpak-install.json"], ["flatpak", "flatpak-provision.service"]]
      rfl (by decide))

theorem subscriptionFiles_paths {place : SubscriptionFile → Option (List String × String)}
    {decode : String → Option String} {files : List SubscriptionFile} {s : WriteStep}
    (mem : s ∈ (subscriptionFiles place decode files).1) :
    ∃ f dir name, place f = some (dir, name) ∧
      (s.request.path = dir ∨ s.request.path = dir ++ [name]) := by
  induction files with
  | nil => cases mem
  | cons f rest ih =>
    unfold subscriptionFiles at mem
    cases placed : place f with
    | none =>
      rw [placed] at mem
      exact ih mem
    | some found =>
      obtain ⟨dir, name⟩ := found
      rw [placed] at mem
      cases decoded : f.content |> decode with
      | none =>
        simp only [subscriptionFile, decoded, Bool.false_eq_true, if_false, List.mem_singleton] at mem
        exact ⟨f, dir, name, placed, .inl (mem ▸ rfl)⟩
      | some content =>
        simp only [subscriptionFile, decoded, if_true, List.cons_append, List.nil_append,
          List.mem_cons] at mem
        obtain made | written | later := mem
        · exact ⟨f, dir, name, placed, .inl (made ▸ rfl)⟩
        · exact ⟨f, dir, name, placed, .inr (written ▸ rfl)⟩
        · exact ih later

def SubscriptionPlace (dir : List String) (name : String) : Prop :=
  IsHarmless name ∧ ∃ below, dir = "subscription" :: below ∧ ∀ piece ∈ below, IsHarmless piece

theorem ownPlace_place {below : List String} (harmless : ∀ piece ∈ below, IsHarmless piece)
    {f : SubscriptionFile} {dir : List String} {name : String}
    (placed : ownPlace ("subscription" :: below) f = some (dir, name)) :
    SubscriptionPlace dir name := by
  obtain ⟨rfl, rfl⟩ := Prod.mk.inj (Option.some.inj placed)
  exact ⟨fileName_harmless f.path, below, rfl, harmless⟩

theorem configPlace_place {f : SubscriptionFile} {dir : List String} {name : String}
    (placed : configPlace f = some (dir, name)) : SubscriptionPlace dir name := by
  unfold configPlace at placed
  split at placed
  · obtain ⟨rfl, rfl⟩ := Prod.mk.inj (Option.some.inj placed)
    exact ⟨by decide, ["rhsm"], rfl, by decide⟩
  · split at placed
    · obtain ⟨rfl, rfl⟩ := Prod.mk.inj (Option.some.inj placed)
      exact ⟨by decide, [], rfl, by decide⟩
    · cases placed

theorem subscriptionSteps_place {decode : String → Option String} {sub : SubscriptionSection}
    {s : WriteStep} (mem : s ∈ subscriptionSteps decode sub) :
    ∃ dir name, SubscriptionPlace dir name ∧
      (s.request.path = dir ∨ s.request.path = dir ++ [name]) := by
  have own : ∀ {below : List String} {files : List SubscriptionFile},
      (∀ piece ∈ below, IsHarmless piece) →
      s ∈ (subscriptionFiles (ownPlace ("subscription" :: below)) decode files).1 →
      ∃ dir name, SubscriptionPlace dir name ∧
        (s.request.path = dir ∨ s.request.path = dir ++ [name]) := by
    intro below files harmless inside
    obtain ⟨f, dir, name, placed, path⟩ := subscriptionFiles_paths inside
    exact ⟨dir, name, ownPlace_place harmless placed, path⟩
  simp only [subscriptionSteps, List.mem_append] at mem
  obtain certs | later := mem
  · exact own (by decide) certs
  · split at later
    · obtain cas | configs := List.mem_append.mp later
      · exact own (by decide) cas
      · split at configs
        · obtain ⟨f, dir, name, placed, path⟩ := subscriptionFiles_paths configs
          exact ⟨dir, name, configPlace_place placed, path⟩
        · cases configs
    · cases later

theorem subscriptionSteps_confined (decode : String → Option String) (sub : SubscriptionSection) :
    StepsConfined out (subscriptionSteps decode sub) := by
  have top : pathNames "subscription" ≠ [] ∧ IsHarmless "subscription" := by decide
  intro s mem _
  obtain ⟨dir, name, ⟨last, below, rfl, harmless⟩, path | path⟩ := subscriptionSteps_place mem
  · rw [path, staysBelow_iff out top.1]
    exact List.forall_mem_cons.mpr ⟨top.2, harmless⟩
  · rw [path, List.cons_append, staysBelow_iff out top.1]
    exact List.forall_mem_cons.mpr
      ⟨top.2, List.forall_mem_append.mpr ⟨harmless, List.forall_mem_singleton.mpr last⟩⟩

theorem grantable_write (dirs : List String) {name content : String}
    (clean : ∀ dir ∈ dirs, NUL ∉ dir.toList) :
    (FileRequest.write (dirs ++ [name]) content).Grantable ↔ isWritableName name = true := by
  simp only [FileRequest.Grantable, FileRequest.path, FileRequest.isWrite, isWritableName,
    List.mem_append, List.mem_singleton, List.getLast?_append, List.getLast?_singleton,
    Option.some_or, Option.bind_some, true_implies, Bool.and_eq_true, Bool.not_eq_true',
    ← Bool.not_eq_true, List.contains_iff_mem]
  constructor
  · intro ⟨no, ends⟩
    exact ⟨no name (.inr rfl), ends⟩
  · intro ⟨no, ends⟩
    refine ⟨fun piece mem => ?_, ends⟩
    obtain above | rfl := mem
    · exact clean piece above
    · exact no

theorem scheduledSteps_confined :
    StepsConfined out (scheduledSteps snap) ↔
      ∀ file ∈ scheduledUnitFiles snap, isWritableName file.1 → IsHarmless file.1 := by
  have made : StepsConfined out [attempt (.makeDirs [CONFIG_DIR, UNIT_DIR])] :=
    stepsConfined_of_own [[CONFIG_DIR, UNIT_DIR]] rfl (by decide)
  have files : StepsConfined out ((scheduledUnitFiles snap).map unitFileStep) ↔
      ∀ file ∈ scheduledUnitFiles snap, isWritableName file.1 → IsHarmless file.1 := by
    refine (stepsConfined_map [CONFIG_DIR, UNIT_DIR] (fun _ => rfl) (by decide) (by decide)).trans ?_
    refine forall₂_congr fun file _ => imp_congr_left ?_
    exact grantable_write [CONFIG_DIR, UNIT_DIR] (by decide)
  unfold scheduledSteps
  split
  next none =>
    simp only [Bool.and_eq_true, List.isEmpty_iff] at none
    have nothing : scheduledUnitFiles snap = [] := by
      simp [scheduledUnitFiles, generatedTimers, none.1, none.2]
    simp [nothing, stepsConfined_nil]
  next =>
    rw [← files, ← List.singleton_append, stepsConfined_append]
    exact ⟨fun all => all.2, fun rest => ⟨made, rest⟩⟩

theorem quadletSteps_confined :
    StepsConfined out (quadletSteps snap) ↔
      ∀ u ∈ writtenQuadlets snap, isWritableName u.name → IsHarmless u.name := by
  have made : StepsConfined out [attempt (.makeDirs ["quadlet"])] :=
    stepsConfined_of_own [["quadlet"]] rfl (by decide)
  have files : StepsConfined out
      ((writtenQuadlets snap).map fun u => attempt (.write ["quadlet", u.name] u.content)) ↔
      ∀ u ∈ writtenQuadlets snap, isWritableName u.name → IsHarmless u.name := by
    refine (stepsConfined_map ["quadlet"] (fun _ => rfl) (by decide) (by decide)).trans ?_
    refine forall₂_congr fun u _ => imp_congr_left ?_
    exact grantable_write ["quadlet"] (by decide)
  rw [← files]
  constructor
  · intro all s mem
    obtain ⟨u, hu, rfl⟩ := List.mem_map.mp mem
    exact all _ (List.mem_flatMap.mpr ⟨u, hu, by simp⟩)
  · intro writes s mem
    obtain ⟨u, hu, one⟩ := List.mem_flatMap.mp mem
    obtain first | second := List.mem_cons.mp one
    · exact made s (List.mem_singleton.mpr first)
    · exact writes s (List.mem_map.mpr ⟨u, hu, (List.mem_singleton.mp second).symm⟩)

/-- The parts of the config tree that are passed over when they are refused. -/
def treeAttempts : List WriteStep :=
  configSteps snap ++ treeFileSteps (sectionFiles snap) ++
    ((snap.kernelBoot.map kernelSteps).getD []) ++ dropInSteps snap ++ scheduledSteps snap ++
    quadletSteps snap ++ flatpakSteps snap

theorem treeAttempts_optional :
    ∀ s ∈ treeAttempts snap, s.required = false := by
  have kernel : ∀ s ∈ (snap.kernelBoot.map kernelSteps).getD [], s.required = false := by
    cases snap.kernelBoot with
    | none => simp
    | some kb =>
      simp only [kernelSteps, Option.map_some, Option.getD_some, List.forall_mem_append]
      constructor <;> split <;> simp [attempt]
  have scheduled : ∀ s ∈ scheduledSteps snap, s.required = false := by
    unfold scheduledSteps
    split <;> grind [attempt, unitFileStep]
  have flatpak : ∀ s ∈ flatpakSteps snap, s.required = false := by
    simp only [flatpakSteps]
    split <;> simp [attempt]
  simp only [treeAttempts, List.forall_mem_append]
  refine ⟨⟨⟨⟨⟨⟨?_, ?_⟩, kernel⟩, ?_⟩, scheduled⟩, ?_⟩, flatpak⟩
  · simp [configSteps, configFile, attempt]
  · simp [treeFileSteps, configFile, attempt]
  · simp [dropInSteps, attempt]
  · grind [quadletSteps, attempt]

def subscriptionPart (decode : String → Option String) (snap : InspectionSnapshot) :
    List WriteStep :=
  if snap.preservedSubscription then (snap.subscription.map (subscriptionSteps decode)).getD [] else []

theorem mem_reached_configTree {decode : String → Option String} {snap : InspectionSnapshot}
    {r : FileRequest} :
    r ∈ reached FileRequest.Grantable (writeConfigTree decode snap) ↔
      (r.Grantable ∧ ∃ s ∈ require (.makeDirs [CONFIG_DIR]) :: treeAttempts snap, s.request = r) ∨
        r ∈ reached FileRequest.Grantable (subscriptionPart decode snap) := by
  have whole : writeConfigTree decode snap =
      (require (.makeDirs [CONFIG_DIR]) :: treeAttempts snap) ++ subscriptionPart decode snap := by
    simp [writeConfigTree, treeAttempts, subscriptionPart]
  have goes : Goes FileRequest.Grantable (require (.makeDirs [CONFIG_DIR]) :: treeAttempts snap) := by
    intro s mem required
    obtain rfl | later := List.mem_cons.mp mem
    · decide
    · rw [treeAttempts_optional snap s later] at required
      cases required
  rw [whole, Writers.reached_append_of_goes _ goes, List.mem_append, Writers.mem_reached_of_goes goes]

theorem writeConfigTree_confined (decode : String → Option String) (snap : InspectionSnapshot) :
    (∀ r ∈ reached FileRequest.Grantable (writeConfigTree decode snap), StaysBelow out r.path) ↔
      (∀ file ∈ scheduledUnitFiles snap, isWritableName file.1 → IsHarmless file.1) ∧
        ∀ u ∈ writtenQuadlets snap, isWritableName u.name → IsHarmless u.name := by
  have tail : StepsConfined out (subscriptionPart decode snap) := by
    refine stepsConfined_ite ?_ stepsConfined_nil
    cases snap.subscription with
    | none => exact stepsConfined_nil
    | some sub => exact subscriptionSteps_confined decode sub
  have kernel : StepsConfined out ((snap.kernelBoot.map kernelSteps).getD []) := by
    cases snap.kernelBoot with
    | none => exact stepsConfined_nil
    | some kb => exact kernelSteps_confined kb
  have root : StepsConfined out [require (.makeDirs [CONFIG_DIR])] :=
    stepsConfined_of_own [[CONFIG_DIR]] rfl (by decide)
  have front : StepsConfined out (require (.makeDirs [CONFIG_DIR]) :: treeAttempts snap) ↔
      StepsConfined out (scheduledSteps snap) ∧ StepsConfined out (quadletSteps snap) := by
    rw [← List.singleton_append, stepsConfined_append]
    simp only [treeAttempts, stepsConfined_append, root, kernel, configSteps_confined,
      treeFileSteps_confined, dropInSteps_confined, flatpakSteps_confined, true_and, and_true]
  rw [← scheduledSteps_confined, ← quadletSteps_confined, ← front]
  constructor
  · intro all s mem can
    exact all _ (mem_reached_configTree.mpr (.inl ⟨can, s, mem, rfl⟩))
  · intro confined r mem
    obtain ⟨can, s, hs, rfl⟩ | subscription := mem_reached_configTree.mp mem
    · exact confined s hs can
    · exact reached_confined tail r subscription

theorem writeEnvFiles_confined :
    StepsConfined out (writeEnvFiles snap) := by
  refine stepsConfined_ite stepsConfined_nil ?_
  rw [← List.singleton_append, stepsConfined_append]
  refine ⟨?_, ?_⟩
  · exact stepsConfined_of_own [["env-files"]] rfl (by decide)
  · refine (stepsConfined_map ["env-files"] (fun _ => rfl) (by decide) (by decide)).mpr ?_
    intro e mem _
    have kept := (List.mem_filter.mp mem).2
    simp only [Bool.and_eq_true] at kept
    exact isHarmless_of_isValidPath kept.2

def isCleanDir (dir : List String) : Bool := dir.all fun piece => !piece.toList.contains NUL

theorem isCleanDir_iff :
    isCleanDir dir = true ↔ ∀ piece ∈ dir, NUL ∉ piece.toList := by
  simp [isCleanDir, List.all_eq_true]

theorem grantable_makeDirs :
    (FileRequest.makeDirs dir).Grantable ↔ isCleanDir dir = true := by
  simp [FileRequest.Grantable, FileRequest.path, FileRequest.isWrite, isCleanDir_iff]

theorem goes_fileInDir {file content : String} (writable : isWritableName file)
    (clean : isCleanDir dir = true) :
    Goes FileRequest.Grantable (fileInDir dir file content) := by
  intro s mem _
  obtain rfl | second := List.mem_cons.mp mem
  · exact grantable_makeDirs.mpr clean
  · rw [List.mem_singleton.mp second]
    exact (grantable_write dir (isCleanDir_iff.mp clean)).mpr writable

theorem fileInDir_stops {file content : String}
    (unclean : isCleanDir dir = false) :
    ¬ Goes FileRequest.Grantable (fileInDir dir file content) ∧
      reached FileRequest.Grantable (fileInDir dir file content) = [] := by
  have refused : ¬ (FileRequest.makeDirs dir).Grantable := by
    rw [grantable_makeDirs, unclean]
    decide
  constructor
  · intro goes
    exact refused (goes _ List.mem_cons_self rfl)
  · simp [fileInDir, require, reached, refused]

theorem fileInDir_confined {file content : String}
    (named : pathNames (dir.headD "") ≠ []) (writable : isWritableName file)
    (plain : IsHarmless file) (clean : isCleanDir dir = true) :
    (∀ r ∈ reached FileRequest.Grantable (fileInDir dir file content), StaysBelow out r.path) ↔
      ∀ piece ∈ dir, IsHarmless piece := by
  have both : reached FileRequest.Grantable (fileInDir dir file content) =
      [.makeDirs dir, .write (dir ++ [file]) content] := by
    have made := grantable_makeDirs.mpr clean
    have written : (FileRequest.write (dir ++ [file]) content).Grantable :=
      (grantable_write dir (isCleanDir_iff.mp clean)).mpr writable
    simp [fileInDir, require, reached, made, written]
  rw [both, List.forall_mem_cons, List.forall_mem_singleton]
  cases dir with
  | nil => exact absurd rfl named
  | cons first rest =>
    have starts : pathNames first ≠ [] := named
    rw [FileRequest.path, FileRequest.path, List.cons_append, staysBelow_iff out starts,
      staysBelow_iff out starts]
    constructor
    · intro both
      exact both.1
    · intro dirs
      refine ⟨dirs, ?_⟩
      rw [← List.cons_append, List.forall_mem_append, List.forall_mem_singleton]
      exact ⟨dirs, plain⟩

theorem forall_reached_dirs {α : Type} {rows : List α} (dir : α → List String)
    (file content : α → String) (named : ∀ a ∈ rows, pathNames ((dir a).headD "") ≠ [])
    (writable : ∀ a ∈ rows, isWritableName (file a)) (plain : ∀ a ∈ rows, IsHarmless (file a)) :
    (∀ r ∈ reached FileRequest.Grantable
        (rows.flatMap fun a => fileInDir (dir a) (file a) (content a)), StaysBelow out r.path) ↔
      ∀ a ∈ rows.takeWhile fun a => isCleanDir (dir a), ∀ piece ∈ dir a, IsHarmless piece := by
  rw [Writers.reached_flatMap (fun a => isCleanDir (dir a))
    (fun a ha clean => goes_fileInDir (writable a ha) clean)
    (fun a _ unclean => fileInDir_stops unclean), List.forall_mem_flatMap]
  refine forall₂_congr fun a ha => ?_
  have mem : a ∈ rows := (List.takeWhile_prefix _).subset ha
  have clean := List.mem_takeWhile_imp ha
  exact fileInDir_confined (named a mem) (writable a mem) (plain a mem) clean

/-- The accounts before the first whose name no path can hold. -/
def stagedUsers : List Json :=
  (keyedUsers snap).takeWhile fun u => isCleanDir [sshDir (strField u "name")]

theorem pathPieces_sshDir (name : String) :
    pathPieces (sshDir name) =
      ["users".toList, "home".toList] ++ pathPieces name ++ [".ssh".toList] := by
  have whole : (sshDir name).toList =
      "users".toList ++ '/' :: ("home".toList ++ '/' :: (name.toList ++ '/' :: ".ssh".toList)) := by
    simp [sshDir]
  unfold pathPieces
  rw [whole, Text.splitChars_append_cut rfl, Text.splitChars_append_cut rfl, Text.splitChars_append_cut rfl]
  rfl

theorem isHarmless_sshDir (name : String) :
    IsHarmless (sshDir name) ↔ .parentDir ∉ components name := by
  have relative : Text.startsWith (sshDir name) "/" = false := by
    simp [Text.startsWith, sshDir, List.isPrefixOf]
  simp [IsHarmless, relative, mem_components_parentDir, pathPieces_sshDir]

theorem stageSshKeys_confined :
    (∀ r ∈ reached FileRequest.Grantable (stageSshKeys snap), StaysBelow out r.path) ↔
      ∀ u ∈ stagedUsers snap, .parentDir ∉ components (strField u "name") := by
  have named : ∀ u ∈ keyedUsers snap, pathNames (sshDir (strField u "name")) ≠ [] := by
    intro u _
    rw [pathNames_eq, pathPieces_sshDir]
    simp [componentOf, Component.name]
  have plain : isWritableName "authorized_keys" ∧ IsHarmless "authorized_keys" := by decide
  refine (forall_reached_dirs (fun u => [sshDir (strField u "name")]) (fun _ => "authorized_keys") _
    named (fun _ _ => plain.1) (fun _ _ => plain.2)).trans ?_
  refine forall₂_congr fun u _ => ?_
  rw [List.forall_mem_singleton, isHarmless_sshDir]

/-- The lost versions before the first whose path no directory can have. -/
def stagedAlternatives : List (String × String) :=
  (alternatives snap).takeWhile fun a => isCleanDir ["aggregate/variants", variantRel a.1]

theorem shortHash_plain (content : String) :
    ∀ c ∈ (shortHash tools content).toList, c.isDigit || ('a' ≤ c && c ≤ 'f') := by
  intro c mem
  have hex := List.all_eq_true.mp (tools.digest_hex content)
  exact hex c (List.mem_of_mem_take (by simpa [shortHash, envHash] using mem))

theorem contentFile_plain (content : String) :
    isWritableName (shortHash tools content ++ ".content") ∧
      IsHarmless (shortHash tools content ++ ".content") := by
  have digits := shortHash_plain tools content
  have slash : '/' ∉ (shortHash tools content ++ ".content").toList := by
    rw [String.toList_append, List.mem_append]
    rintro (mem | mem)
    · exact absurd (digits _ mem) (by decide)
    · exact absurd mem (by decide)
  have null : NUL ∉ (shortHash tools content ++ ".content").toList := by
    rw [String.toList_append, List.mem_append]
    rintro (mem | mem)
    · exact absurd (digits _ mem) (by decide)
    · exact absurd mem (by decide)
  have long : 2 < (shortHash tools content ++ ".content").toList.length := by
    rw [String.toList_append, List.length_append]
    have : ".content".toList.length = 8 := by decide
    omega
  have ends : finalName (shortHash tools content ++ ".content") =
      some (shortHash tools content ++ ".content") := by
    unfold finalName
    have whole : (shortHash tools content ++ ".content").toList ≠ [] ∧
        (shortHash tools content ++ ".content").toList ≠ ['.'] ∧
        (shortHash tools content ++ ".content").toList ≠ ['.', '.'] := by
      refine ⟨?_, ?_, ?_⟩ <;> intro short <;> rw [short] at long <;> simp at long
    rw [pathPieces_of_plain slash]
    simp only [List.getLast?_singleton, Option.bind_some, componentOf, whole.1, whole.2.1,
      whole.2.2, or_self, if_false, String.ofList_toList]
  constructor
  · simp only [isWritableName, ends, Option.isSome_some, Bool.and_true, Bool.not_eq_true',
      ← Bool.not_eq_true, List.contains_iff_mem]
    exact null
  · refine isHarmless_of_plain slash fun dots => ?_
    rw [dots] at long
    exact absurd long (by decide)

theorem writeAggregateVariants_confined :
    (∀ r ∈ reached FileRequest.Grantable (writeAggregateVariants tools snap), StaysBelow out r.path) ↔
      ∀ a ∈ stagedAlternatives snap, IsHarmless (variantRel a.1) := by
  have under : pathNames "aggregate/variants" ≠ [] ∧ IsHarmless "aggregate/variants" := by decide
  have named : ∀ lost ∈ alternatives snap,
      pathNames (["aggregate/variants", variantRel lost.1].headD "") ≠ [] := fun _ _ => under.1
  have writable : ∀ lost ∈ alternatives snap,
      isWritableName (shortHash tools lost.2 ++ ".content") := fun lost _ =>
    (contentFile_plain tools lost.2).1
  have plain : ∀ lost ∈ alternatives snap,
      IsHarmless (shortHash tools lost.2 ++ ".content") := fun lost _ =>
    (contentFile_plain tools lost.2).2
  refine (forall_reached_dirs _ _ (fun lost => lost.2) named writable plain).trans ?_
  refine forall₂_congr fun lost _ => ?_
  rw [List.forall_mem_cons, List.forall_mem_singleton]
  exact and_iff_right under.2

def isManifestEnv (item : NonRpmItem) : Bool :=
  item.disposition.isIncluded && (ecosystemOf item).isSome

def manifestNames : List String :=
  ((rowsOf (·.items) snap.nonRpmSoftware).filter isManifestEnv).flatMap fun item =>
    (tools.listing item.manifestFiles).map (·.1)

def stagedManifests : List String :=
  (manifestNames tools snap).takeWhile isWritableName

def lastPiece (r : FileRequest) : String := r.path.getLastD ""

theorem ecosystemOf_cases {item : NonRpmItem} {ecosystem : String}
    (found : ecosystemOf item = some ecosystem) : ecosystem ∈ ["pip", "npm", "gem"] := by
  unfold ecosystemOf at found
  split at found
  · cases found; decide
  · split at found
    · cases found; decide
    · split at found
      · cases found; decide
      · cases found

theorem manifestDir_plain {item : NonRpmItem} {ecosystem : String}
    (found : ecosystemOf item = some ecosystem) :
    isCleanDir (manifestDir tools ecosystem item) = true ∧
      ∀ piece ∈ manifestDir tools ecosystem item, IsHarmless piece := by
  have own : ∀ name ∈ ["pip", "npm", "gem"], NUL ∉ name.toList ∧ IsHarmless name := by decide
  have digits := shortHash_plain tools item.path
  have top : NUL ∉ "language-packages".toList ∧ IsHarmless "language-packages" := by decide
  have null : NUL ∉ (envHash tools.digest item.path).toList := fun mem =>
    absurd (digits _ mem) (by decide)
  have hash : IsHarmless (envHash tools.digest item.path) := by
    refine isHarmless_of_plain (fun mem => absurd (digits _ mem) (by decide)) fun dots => ?_
    exact absurd (digits '.' (by rw [shortHash, dots]; decide)) (by decide)
  have kind := own ecosystem (ecosystemOf_cases found)
  rw [isCleanDir_iff, manifestDir, List.forall_mem_cons, List.forall_mem_cons,
    List.forall_mem_singleton, List.forall_mem_cons, List.forall_mem_cons,
    List.forall_mem_singleton]
  exact ⟨⟨top.1, kind.1, null⟩, top.2, kind.2, hash⟩

/-- A request of one environment: its directory, or a file of that name in it. -/
theorem manifestSteps_cases {redact : Bool} {item : NonRpmItem}
    {s : WriteStep} (mem : s ∈ manifestSteps tools redact item) :
    s.required = true ∧ ∃ ecosystem, ecosystemOf item = some ecosystem ∧
      (s.request = .makeDirs (manifestDir tools ecosystem item) ∨
        ∃ name content, s.request = .write (manifestDir tools ecosystem item ++ [name]) content) := by
  unfold manifestSteps at mem
  split at mem
  · cases mem
  · split at mem
    · cases mem
    next ecosystem found =>
      obtain rfl | file := List.mem_cons.mp mem
      · exact ⟨rfl, ecosystem, found, .inl rfl⟩
      · obtain ⟨entry, _, rfl⟩ := List.mem_map.mp file
        exact ⟨rfl, ecosystem, found, .inr ⟨_, _, rfl⟩⟩

theorem lastPiece_manifestStep (redact : Bool) (dir : List String)
    (entries : List (Sigma fun _ : String => String)) :
    (((entries.map (manifestStep tools redact dir)).map (·.request)).filter (·.isWrite)).map
      lastPiece = entries.map (·.1) := by
  induction entries with
  | nil => rfl
  | cons entry rest ih =>
    rw [List.map_cons, List.map_cons, List.filter_cons_of_pos rfl, List.map_cons, ih, List.map_cons]
    congr 1
    simp [manifestStep, require, lastPiece, FileRequest.path]

theorem manifestNames_eq :
    manifestNames tools snap =
      (((writeLanguagePackageManifests tools snap).map (·.request)).filter (·.isWrite)).map
        lastPiece := by
  unfold manifestNames writeLanguagePackageManifests
  induction rowsOf (·.items) snap.nonRpmSoftware with
  | nil => rfl
  | cons item rest ih =>
    have here : (if isManifestEnv item then (tools.listing item.manifestFiles).map (·.1) else []) =
        (((manifestSteps tools (isRedactionActive snap) item).map (·.request)).filter
          (·.isWrite)).map lastPiece := by
      unfold manifestSteps isManifestEnv
      cases included : item.disposition.isIncluded with
      | false => rfl
      | true =>
        cases files : tools.listing item.manifestFiles with
        | nil => simp
        | cons first others =>
          cases ecosystemOf item with
          | none => rfl
          | some ecosystem =>
            exact (lastPiece_manifestStep tools _ _ (first :: others)).symm
    rw [List.flatMap_cons, List.map_append, List.filter_append, List.map_append, ← ih, ← here]
    cases staged : isManifestEnv item <;> simp [staged]

theorem writeLanguagePackageManifests_confined :
    (∀ r ∈ reached FileRequest.Grantable (writeLanguagePackageManifests tools snap),
        StaysBelow out r.path) ↔
      ∀ name ∈ stagedManifests tools snap, IsHarmless name := by
  have cases : ∀ s ∈ writeLanguagePackageManifests tools snap, s.required = true ∧
      ∃ dir, isCleanDir dir = true ∧ pathNames (dir.headD "") ≠ [] ∧
        (∀ piece ∈ dir, IsHarmless piece) ∧ (s.request = .makeDirs dir ∨
          ∃ name content, s.request = .write (dir ++ [name]) content) := by
    intro s mem
    obtain ⟨item, _, one⟩ := List.mem_flatMap.mp mem
    obtain ⟨needed, ecosystem, found, form⟩ := manifestSteps_cases tools one
    obtain ⟨clean, harmless⟩ := manifestDir_plain tools found
    have starts : pathNames "language-packages" ≠ [] := by decide
    exact ⟨needed, _, clean, starts, harmless, form⟩
  rw [Writers.reached_of_required fun s mem => (cases s mem).1]
  have dirs : ∀ r ∈ (writeLanguagePackageManifests tools snap).map (·.request), r.isWrite = false →
      decide r.Grantable = true ∧ StaysBelow out r.path := by
    intro r mem noFile
    obtain ⟨s, hs, rfl⟩ := List.mem_map.mp mem
    obtain ⟨-, dir, clean, starts, harmless, made | ⟨name, content, written⟩⟩ := cases s hs
    · rw [made]
      refine ⟨decide_eq_true (grantable_makeDirs.mpr clean), ?_⟩
      exact stepsConfined_of_own [dir] rfl (List.forall_mem_singleton.mpr ⟨starts, harmless⟩)
        (require (.makeDirs dir)) (List.mem_singleton.mpr rfl) (grantable_makeDirs.mpr clean)
    · rw [written] at noFile
      cases noFile
  have files : ∀ r ∈ ((writeLanguagePackageManifests tools snap).map (·.request)).filter (·.isWrite),
      decide r.Grantable = isWritableName (lastPiece r) ∧
        (StaysBelow out r.path ↔ IsHarmless (lastPiece r)) := by
    intro r mem
    obtain ⟨mem, isFile⟩ := List.mem_filter.mp mem
    obtain ⟨s, hs, rfl⟩ := List.mem_map.mp mem
    obtain ⟨-, dir, clean, starts, harmless, made | ⟨name, content, written⟩⟩ := cases s hs
    · rw [made] at isFile
      cases isFile
    · have last : lastPiece s.request = name := by simp [written, lastPiece, FileRequest.path]
      rw [last, written]
      constructor
      · rw [Bool.eq_iff_iff, decide_eq_true_iff]
        exact grantable_write dir (isCleanDir_iff.mp clean)
      · exact pathUnder_confined starts harmless
  rw [Writers.forall_takeWhile_filter dirs, stagedManifests, manifestNames_eq]
  exact Writers.forall_takeWhile_map (fun r hr => (files r hr).1) (fun r hr => (files r hr).2)

theorem writeComposeFiles_confined :
    StepsConfined out (writeComposeFiles tools snap) := by
  intro s mem can
  obtain ⟨f, _, one⟩ := List.mem_flatMap.mp mem
  unfold composeSteps at one
  split at one
  · cases one
  next raw _ =>
    split at one
    next safe =>
      simp only [isSafeComposePath, Bool.and_eq_true, Bool.not_eq_true', Bool.or_eq_false_iff] at safe
      have harmless : IsHarmless f.path := by
        refine ⟨safe.1.1.2.1, fun up => ?_⟩
        have absent := safe.1.2
        rw [List.contains_iff_mem.mpr up] at absent
        cases absent
      have top : pathNames "compose" ≠ [] ∧ IsHarmless "compose" := by decide
      have confined : StaysBelow out ["compose", f.path] :=
        (staysBelow_iff out top.1).mpr
          (List.forall_mem_cons.mpr ⟨top.2, List.forall_mem_singleton.mpr harmless⟩)
      obtain rfl | second := List.mem_cons.mp one
      · exact confined
      · rw [List.mem_singleton.mp second]
        exact confined
    next => cases one

end

/-- What is joined unchecked happens to be harmless, as far as each writer gets. -/
structure NamesHarmless (tools : ExportTools) (snap : InspectionSnapshot) : Prop where
  units : ∀ file ∈ scheduledUnitFiles snap, isWritableName file.1 → IsHarmless file.1
  quadlets : ∀ u ∈ writtenQuadlets snap, isWritableName u.name → IsHarmless u.name
  accounts : ∀ u ∈ stagedUsers snap, .parentDir ∉ components (strField u "name")
  manifests : ∀ name ∈ stagedManifests tools snap, IsHarmless name
  variants : ∀ lost ∈ stagedAlternatives snap, IsHarmless (variantRel lost.1)

def WritersStay (out : String) (snap : InspectionSnapshot) : Prop :=
  ∀ writer ∈ exportWriters tools snap, ∀ disk : Writers.Disk FileRequest.Grantable,
    ∀ r ∈ perform disk [] writer, StaysBelow out r.path

theorem writers_confined_iff (out : String) (snap : InspectionSnapshot) :
    WritersStay tools out snap ↔ NamesHarmless tools snap := by
  have env := @reached_confined out _ (writeEnvFiles_confined snap)
  have compose := @reached_confined out _ (writeComposeFiles_confined tools snap)
  simp only [WritersStay, Writers.forall_disks_iff, exportWriters, List.forall_mem_cons,
    writeConfigTree_confined, stageSshKeys_confined, writeLanguagePackageManifests_confined,
    writeAggregateVariants_confined]
  constructor
  · rintro ⟨⟨units, quadlets⟩, _, accounts, manifests, variants, _⟩
    exact ⟨units, quadlets, accounts, manifests, variants⟩
  · rintro ⟨units, quadlets, accounts, manifests, variants⟩
    exact ⟨⟨units, quadlets⟩, env, accounts, manifests, variants, compose, List.forall_mem_nil _⟩

def EMPTY_DIGEST : String := "e3b0c44298fc1c149afbf4c8996fb92427ae41e4649b934ca495991b7852b855"

noncomputable def plainTools : ExportTools where
  digest _ := EMPTY_DIGEST
  digest_hex _ := show EMPTY_DIGEST.toList.all _ = true by decide
  listing table := table.entries.toList
  listing_entries table := Multiset.coe_toList table.entries
  scrubManifestAuth _ content := content
  scrubComposeSecrets content := content
  decode := some

def absoluteQuadlet : InspectionSnapshot :=
  { containers := some { quadletUnits :=
      [{ path := "/etc/containers/systemd/web.container", name := "/etc/cron.d/web",
         content := "[Container]\n" }] } }

theorem absolute_quadlet_escapes : ¬ WritersStay plainTools "/tmp/export" absoluteQuadlet := by
  intro stays
  have tree := (Writers.forall_disks_iff _).mp (stays _ (List.mem_cons_self ..))
  have quadlets := ((writeConfigTree_confined _ _).mp tree).2
  exact absurd (quadlets _ (List.mem_cons_self ..) (by decide)) (by decide)

end Inspectah
