import Inspectah.Collect.SubscriptionScan
import Inspectah.Library.HashOrder
import Inspectah.Render.ConfigTree
import Inspectah.Refine.ExportConfined
import Mathlib.Data.List.Dedup

/-!
The subscription a build mounts: the files of a section are staged into a directory of the export,
and the build looks there for what the scan looked for in the section.
-/
namespace Inspectah

open HashOrder (Order)

variable {f : SubscriptionFile} {name : String}
open Writers (perform reached willing)

def FileRequest.made : FileRequest → List String
  | makeDirs path => path.flatMap pathNames
  | makeParents path => (path.flatMap pathNames).dropLast
  | write path _ => path.flatMap pathNames
  | writeWithParents path _ => path.flatMap pathNames

def FileRequest.written : FileRequest → Option (List String × String)
  | write path content => some (path.flatMap pathNames, content)
  | writeWithParents path content => some (path.flatMap pathNames, content)
  | _ => none

section Tree

variable (granted : List FileRequest)

def existsAt (p : List String) : Bool := granted.any fun r => p.isPrefixOf r.made

def fileAt (p : List String) : Option String :=
  granted.reverse.findSome? fun r =>
    r.written.bind fun w => if w.1 = p then some w.2 else none

def namesIn (dir : List String) : List String :=
  (granted.filterMap fun r =>
    if dir.isPrefixOf r.made then r.made[dir.length]? else none).dedup

end Tree

/-- Whether every content that is staged decodes. -/
def subscriptionDecodes (decode : String → Option String) (sub : SubscriptionSection) : Bool :=
  (subscriptionFiles (ownPlace ["subscription", "entitlement"]) decode sub.entitlementCerts).2 &&
  (subscriptionFiles (ownPlace ["subscription", "rhsm/ca"]) decode sub.caCerts).2 &&
  (subscriptionFiles configPlace decode sub.configFiles).2

/-- Staging stops at the first content that does not decode and at the first refusal. -/
def stageSubscriptionFiles (disk : Writers.Disk FileRequest.Grantable)
    (decode : String → Option String) (sub : SubscriptionSection) : Option (List FileRequest) :=
  let steps := subscriptionSteps decode sub
  let granted := perform disk [] steps
  if subscriptionDecodes decode sub && granted.length == steps.length then some granted else none

def SUB_DIR : List String := ["subscription"]
def ENT_DIR : List String := SUB_DIR ++ ["entitlement"]
def CA_DIR : List String := SUB_DIR ++ ["rhsm", "ca"]
def STAGED_RHSM_CONF : List String := SUB_DIR ++ ["rhsm", "rhsm.conf"]
def STAGED_REDHAT_REPO : List String := SUB_DIR ++ ["redhat.repo"]

section Check

variable (order : Order) (subDir : String) (granted : List FileRequest)

def collectSubscriptionFiles : List SubscriptionFile :=
  ((order.iter (namesIn granted ENT_DIR)).filter (Text.endsWith · ".pem")).map fun name =>
    { path := joinPiece (joinPiece subDir "entitlement") name
      sizeBytes := ((fileAt granted (ENT_DIR ++ [name])).map String.utf8ByteSize).getD 0 }

def missingOfBundle : List String :=
  (if !existsAt granted ENT_DIR then ["entitlement directory"]
   else if (matchEntitlementPairs (collectSubscriptionFiles order subDir granted)).1.isEmpty then
     ["serial-matched entitlement cert+key pair"]
   else []) ++
  (if existsAt granted STAGED_RHSM_CONF then [] else ["rhsm.conf"]) ++
  (if existsAt granted CA_DIR &&
      (order.iter (namesIn granted CA_DIR)).any (Text.endsWith · ".pem") then []
   else ["CA certs"]) ++
  (if existsAt granted STAGED_REDHAT_REPO then [] else ["redhat.repo"])

def validateSubscriptionBundle : Except String Bool :=
  if !existsAt granted SUB_DIR then .ok false
  else
    let missing := missingOfBundle order subDir granted
    if missing.isEmpty then .ok true
    else .error ("subscription bundle incomplete (missing: " ++ ", ".intercalate missing ++
      "). Mount plan will not be emitted.")

end Check

theorem pathNames_name (own : IsName name) : pathNames name = [name] := by
  have filled : name.toList ≠ [] := by simpa using own.1
  have no_dot : name.toList ≠ ['.'] := fun same => own.2.1 (String.toList_inj.mp same)
  have no_dots : name.toList ≠ ['.', '.'] := fun same => own.2.2.1 (String.toList_inj.mp same)
  rw [pathNames_eq, pathPieces, splitChars_plain own.2.2.2]
  simp [componentOf, filled, no_dot, no_dots, Component.name]

theorem fileName_name (own : IsName name) : Text.fileName name = some name := by
  have filled : name.toList ≠ [] := by simpa using own.1
  have no_dot : name.toList ≠ ['.'] := fun same => own.2.1 (String.toList_inj.mp same)
  have no_dots : name.toList ≠ ['.', '.'] := fun same => own.2.2.1 (String.toList_inj.mp same)
  unfold Text.fileName
  rw [splitChars_plain own.2.2.2]
  simp [filled, no_dot, no_dots]

theorem fileName_joinPiece (base : String) {name : String} (own : IsName name) :
    Text.fileName (joinPiece base name) = some name := by
  have relative : Text.startsWith name "/" = false := by
    rw [Text.startsWith, Bool.eq_false_iff]
    intro starts
    obtain ⟨rest, whole⟩ := List.isPrefixOf_iff_prefix.mp starts
    exact own.2.2.2 (whole ▸ List.mem_cons_self)
  unfold joinPiece
  rw [if_neg (by simp [relative])]
  split
  · next opened =>
    rcases Bool.or_eq_true_iff.mp opened with empty | slash
    · have nothing : base = "" := by simpa using empty
      rw [nothing, String.empty_append]
      exact fileName_name own
    · obtain ⟨before, rfl⟩ := endsWith_iff.mp slash
      exact fileName_join before own.2.2.2 own.1 own.2.1 own.2.2.1
  · exact fileName_join base own.2.2.2 own.1 own.2.1 own.2.2.1

theorem mem_namesIn {granted : List FileRequest} {dir : List String} {name : String} :
    name ∈ namesIn granted dir ↔ existsAt granted (dir ++ [name]) := by
  rw [namesIn, List.mem_dedup, List.mem_filterMap, existsAt, List.any_eq_true]
  refine exists_congr fun r => and_congr_right fun _ => ?_
  constructor
  · intro next
    split at next
    · next inside =>
      obtain ⟨rest, whole⟩ := List.isPrefixOf_iff_prefix.mp inside
      rw [← whole, List.getElem?_append_right (Nat.le_refl _), Nat.sub_self] at next
      cases rest with
      | nil => cases next
      | cons first rest =>
        obtain rfl : first = name := Option.some.inj next
        refine List.isPrefixOf_iff_prefix.mpr ⟨rest, ?_⟩
        rw [← whole, List.append_assoc]
        rfl
    · cases next
  · intro below
    obtain ⟨rest, whole⟩ := List.isPrefixOf_iff_prefix.mp below
    rw [List.append_assoc] at whole
    rw [if_pos (List.isPrefixOf_iff_prefix.mpr ⟨_, whole⟩), ← whole,
      List.getElem?_append_right (Nat.le_refl _), Nat.sub_self]
    rfl

inductive Placed (sub : SubscriptionSection) : SubscriptionFile → List String → String → Prop
  | cert {f : SubscriptionFile} : f ∈ sub.entitlementCerts →
      Placed sub f ["subscription", "entitlement"] ((Text.fileName f.path).getD "")
  | ca {f : SubscriptionFile} : f ∈ sub.caCerts →
      Placed sub f ["subscription", "rhsm/ca"] ((Text.fileName f.path).getD "")
  | config {f : SubscriptionFile} {dir : List String} {name : String} : f ∈ sub.configFiles →
      configPlace f = some (dir, name) → Placed sub f dir name

def IsStepFor (decode : String → Option String) (f : SubscriptionFile) (dir : List String)
    (name : String) (s : WriteStep) : Prop :=
  ∃ content, decode f.content = some content ∧
    (s = require (.makeDirs dir) ∨ s = require (.write (dir ++ [name]) content))

section Steps

variable {place : SubscriptionFile → Option (List String × String)}
  {decode : String → Option String}

theorem subscriptionFiles_done {files : List SubscriptionFile}
    (decodes : ∀ f ∈ files, (decode f.content).isSome) :
    (subscriptionFiles place decode files).2 = true := by
  induction files with
  | nil => rfl
  | cons f rest ih =>
    have later := ih fun g mem => decodes g (List.mem_cons_of_mem _ mem)
    obtain ⟨content, here⟩ := Option.isSome_iff_exists.mp (decodes f List.mem_cons_self)
    rw [subscriptionFiles]
    cases place f with
    | none => exact later
    | some found => simpa [subscriptionFile, here] using later

theorem mem_subscriptionFiles {files : List SubscriptionFile}
    (done : (subscriptionFiles place decode files).2 = true) {s : WriteStep} :
    s ∈ (subscriptionFiles place decode files).1 ↔
      ∃ f ∈ files, ∃ dir name, place f = some (dir, name) ∧ IsStepFor decode f dir name s := by
  induction files with
  | nil => simp [subscriptionFiles]
  | cons f rest ih =>
    rw [subscriptionFiles] at done ⊢
    cases placed : place f with
    | none =>
      rw [placed] at done
      simpa [placed] using ih done
    | some found =>
      obtain ⟨dir, name⟩ := found
      rw [placed] at done
      cases here : decode f.content with
      | none => simp [subscriptionFile, here] at done
      | some content =>
        have later := ih (by simpa [subscriptionFile, here] using done)
        simp [subscriptionFile, here, later, placed, IsStepFor, or_assoc]

theorem mem_subscriptionSteps {sub : SubscriptionSection}
    (done : subscriptionDecodes decode sub = true) {s : WriteStep} :
    s ∈ subscriptionSteps decode sub ↔
      ∃ f dir name, Placed sub f dir name ∧ IsStepFor decode f dir name s := by
  obtain ⟨both, configs⟩ := Bool.and_eq_true_iff.mp done
  obtain ⟨certs, cas⟩ := Bool.and_eq_true_iff.mp both
  simp only [subscriptionSteps, certs, cas, if_true, List.mem_append,
    mem_subscriptionFiles certs, mem_subscriptionFiles cas, mem_subscriptionFiles configs]
  constructor
  · rintro (⟨f, mem, dir, name, placed, step⟩ | ⟨f, mem, dir, name, placed, step⟩ |
      ⟨f, mem, dir, name, placed, step⟩)
    · obtain ⟨rfl, rfl⟩ := Prod.mk.inj (Option.some.inj placed)
      exact ⟨f, _, _, .cert mem, step⟩
    · obtain ⟨rfl, rfl⟩ := Prod.mk.inj (Option.some.inj placed)
      exact ⟨f, _, _, .ca mem, step⟩
    · exact ⟨f, dir, name, .config mem placed, step⟩
  · rintro ⟨f, dir, name, placed, step⟩
    cases placed with
    | cert mem => exact .inl ⟨f, mem, _, _, rfl, step⟩
    | ca mem => exact .inr (.inl ⟨f, mem, _, _, rfl, step⟩)
    | config mem at_ => exact .inr (.inr ⟨f, mem, dir, name, at_, step⟩)

theorem perform_all {disk : Writers.Disk FileRequest.Grantable} {steps : List WriteStep}
    {before : List FileRequest}
    (all : (perform disk before steps).length = before.length + steps.length) :
    perform disk before steps = before ++ steps.map (·.request) := by
  have short : ∀ (rest : List WriteStep) (got : List FileRequest),
      (perform disk got rest).length ≤ got.length + rest.length := by
    intro rest
    induction rest with
    | nil => exact fun got => Nat.le_refl _
    | cons s rest ih =>
      intro got
      rw [perform, List.length_cons]
      split
      · have later := ih (got ++ [s.request])
        rw [List.length_append, List.length_singleton] at later
        omega
      · split
        · omega
        · have later := ih got
          omega
  induction steps generalizing before with
  | nil => simp [perform]
  | cons s rest ih =>
    rw [perform, List.length_cons] at all
    rw [perform]
    split
    · next granted =>
      rw [if_pos granted] at all
      rw [ih (by rw [all, List.length_append, List.length_singleton]; omega)]
      simp
    · next refused =>
      rw [if_neg refused] at all
      split at all
      · omega
      · have later := short rest before
        omega

theorem staged_eq {disk : Writers.Disk FileRequest.Grantable} {sub : SubscriptionSection}
    {granted : List FileRequest} (staged : stageSubscriptionFiles disk decode sub = some granted) :
    subscriptionDecodes decode sub = true ∧
      granted = (subscriptionSteps decode sub).map (·.request) := by
  unfold stageSubscriptionFiles at staged
  dsimp only at staged
  split at staged
  · next ok =>
    obtain ⟨done, all⟩ := Bool.and_eq_true_iff.mp ok
    refine ⟨done, ?_⟩
    rw [← Option.some.inj staged]
    exact perform_all (by simpa using all)
  · cases staged

end Steps

inductive Home (sub : SubscriptionSection) : SubscriptionFile → List String → Prop
  | cert {f : SubscriptionFile} {name : String} : f ∈ sub.entitlementCerts →
      Text.fileName f.path = some name → Home sub f (ENT_DIR ++ [name])
  | ca {f : SubscriptionFile} {name : String} : f ∈ sub.caCerts →
      Text.fileName f.path = some name → Home sub f (CA_DIR ++ [name])
  | conf {f : SubscriptionFile} : f ∈ sub.configFiles → f.path = RHSM_CONF →
      Home sub f STAGED_RHSM_CONF
  | repo {f : SubscriptionFile} : f ∈ sub.configFiles → f.path = REDHAT_REPO →
      Home sub f STAGED_REDHAT_REPO

theorem fileName_below (dir : String) {name : String} (own : IsName name) :
    Text.fileName (dir ++ "/" ++ name) = some name :=
  fileName_join dir own.2.2.2 own.1 own.2.1 own.2.2.1

theorem configPlace_conf (path : f.path = RHSM_CONF) :
    configPlace f = some (["subscription", "rhsm"], "rhsm.conf") := by
  rw [configPlace, path, if_pos (by decide +kernel)]

theorem configPlace_repo (path : f.path = REDHAT_REPO) :
    configPlace f = some (["subscription"], "redhat.repo") := by
  rw [configPlace, path, if_neg (by decide +kernel), if_pos (by decide +kernel)]

def sourceOf (host : SubscriptionHost) : List String → String
  | [_, _, "ca", name] => joinPiece (host.hostPath RHSM_CA_DIR) name
  | [_, "entitlement", name] => joinPiece (host.hostPath ENTITLEMENT_DIR) name
  | [_, _, _] => host.hostPath RHSM_CONF
  | _ => host.hostPath REDHAT_REPO

section Recorded

variable {host : SubscriptionHost} {encode : String → String} {sub : SubscriptionSection}
  (recorded : RecordedBundle host encode sub)
include recorded

theorem placed_home {dir : List String} {name : String}
    (placed : Placed sub f dir name) :
    Home sub f ((dir ++ [name]).flatMap pathNames) ∧
      dir.flatMap pathNames <+: (dir ++ [name]).flatMap pathNames := by
  refine ⟨?_, by rw [List.flatMap_append]; exact List.prefix_append _ _⟩
  have ent : (["subscription", "entitlement"] : List String).flatMap pathNames = ENT_DIR := by
    decide
  have ca : (["subscription", "rhsm/ca"] : List String).flatMap pathNames = CA_DIR := by decide
  cases placed with
  | cert mem =>
    obtain ⟨name, pem, path, -⟩ := recorded.certs f mem
    have named : Text.fileName f.path = some name := path ▸ fileName_below ENTITLEMENT_DIR pem.own
    rw [named, Option.getD_some, List.flatMap_append, ent, List.flatMap_singleton,
      pathNames_name pem.own]
    exact .cert mem named
  | ca mem =>
    obtain ⟨name, pem, path, -⟩ := recorded.cas f mem
    have named : Text.fileName f.path = some name := path ▸ fileName_below RHSM_CA_DIR pem.own
    rw [named, Option.getD_some, List.flatMap_append, ca, List.flatMap_singleton,
      pathNames_name pem.own]
    exact .ca mem named
  | config mem at_ =>
    rcases (recorded.configs f mem).1 with conf | repo
    · rw [configPlace_conf conf] at at_
      cases at_
      exact (by decide : ["subscription", "rhsm", "rhsm.conf"].flatMap pathNames =
        STAGED_RHSM_CONF) ▸ .conf mem conf
    · rw [configPlace_repo repo] at at_
      cases at_
      exact (by decide : ["subscription", "redhat.repo"].flatMap pathNames =
        STAGED_REDHAT_REPO) ▸ .repo mem repo

theorem home_placed {p : List String} (home : Home sub f p) :
    ∃ dir name, Placed sub f dir name ∧ (dir ++ [name]).flatMap pathNames = p := by
  cases home with
  | @cert name mem named =>
    obtain ⟨name', pem, path, -⟩ := recorded.certs f mem
    have same : Text.fileName f.path = some name' := path ▸ fileName_below ENTITLEMENT_DIR pem.own
    obtain rfl : name = name' := Option.some.inj (named.symm.trans same)
    refine ⟨_, _, .cert mem, ?_⟩
    rw [named, Option.getD_some, List.flatMap_append, List.flatMap_singleton,
      pathNames_name pem.own]
    exact congrArg (· ++ [name]) (by decide : _ = ENT_DIR)
  | @ca name mem named =>
    obtain ⟨name', pem, path, -⟩ := recorded.cas f mem
    have same : Text.fileName f.path = some name' := path ▸ fileName_below RHSM_CA_DIR pem.own
    obtain rfl : name = name' := Option.some.inj (named.symm.trans same)
    refine ⟨_, _, .ca mem, ?_⟩
    rw [named, Option.getD_some, List.flatMap_append, List.flatMap_singleton,
      pathNames_name pem.own]
    exact congrArg (· ++ [name]) (by decide : _ = CA_DIR)
  | conf mem path => exact ⟨_, _, .config mem (configPlace_conf path), by decide⟩
  | repo mem path => exact ⟨_, _, .config mem (configPlace_repo path), by decide⟩

theorem home_holds {p : List String} (home : Home sub f p) :
    host.Holds encode (sourceOf host p) f := by
  cases home with
  | cert mem named =>
    obtain ⟨stem, pem, path, held⟩ := recorded.certs f mem
    rw [path, fileName_below _ pem.own] at named
    cases named
    simpa [sourceOf, ENT_DIR, SUB_DIR] using held
  | ca mem named =>
    obtain ⟨stem, pem, path, held⟩ := recorded.cas f mem
    rw [path, fileName_below _ pem.own] at named
    cases named
    exact held
  | conf mem path =>
    have held := (recorded.configs f mem).2
    rw [path] at held
    exact held
  | repo mem path =>
    have held := (recorded.configs f mem).2
    rw [path] at held
    exact held

/-- Two files that end up in one place hold the same. -/
theorem home_content {f g : SubscriptionFile} {p : List String} (home : Home sub f p)
    (home' : Home sub g p) : f.content = g.content := by
  obtain ⟨content, read, own⟩ := home_holds recorded home
  obtain ⟨content', read', own'⟩ := home_holds recorded home'
  cases read.symm.trans read'
  exact own.trans own'.symm

end Recorded

section Found

variable {host : SubscriptionHost} {encode : String → String} {decode : String → Option String}
  {sub : SubscriptionSection} {disk : Writers.Disk FileRequest.Grantable}
  {granted : List FileRequest}
  (recorded : RecordedBundle host encode sub)
  (staged : stageSubscriptionFiles disk decode sub = some granted)
  (inverse : ∀ content, decode (encode content) = some content)

include recorded inverse in
theorem home_decodes {p : List String} (home : Home sub f p) :
    (decode f.content).isSome := by
  obtain ⟨content, -, own⟩ := home_holds recorded home
  rw [own, inverse]
  rfl

include recorded staged

theorem written_iff {q : List String} {content : String} :
    (∃ r ∈ granted, r.written = some (q, content)) ↔
      ∃ f, Home sub f q ∧ decode f.content = some content := by
  obtain ⟨done, rfl⟩ := staged_eq staged
  constructor
  · rintro ⟨r, mem, wrote⟩
    obtain ⟨s, step, rfl⟩ := List.mem_map.mp mem
    obtain ⟨f, dir, name, placed, own, decoded, rfl | rfl⟩ := (mem_subscriptionSteps done).mp step
    · cases wrote
    · cases wrote
      exact ⟨f, (placed_home recorded placed).1, decoded⟩
  · rintro ⟨f, home, decoded⟩
    obtain ⟨dir, name, placed, rfl⟩ := home_placed recorded home
    have step := (mem_subscriptionSteps done).mpr ⟨f, dir, name, placed, content, decoded, .inr rfl⟩
    exact ⟨_, List.mem_map_of_mem step, rfl⟩

theorem written_once {q : List String} {content content' : String}
    (wrote : ∃ r ∈ granted, r.written = some (q, content))
    (wrote' : ∃ r ∈ granted, r.written = some (q, content')) : content = content' := by
  obtain ⟨f, home, decoded⟩ := (written_iff recorded staged).mp wrote
  obtain ⟨g, home', decoded'⟩ := (written_iff recorded staged).mp wrote'
  rw [home_content recorded home home', decoded'] at decoded
  exact (Option.some.inj decoded).symm

theorem fileAt_home {q : List String} {content : String}
    (home : Home sub f q) (decoded : decode f.content = some content) :
    fileAt granted q = some content := by
  obtain ⟨r, mem, wrote⟩ := (written_iff recorded staged).mpr ⟨f, home, decoded⟩
  cases found : fileAt granted q with
  | none =>
    have missed := List.findSome?_eq_none_iff.mp found r (List.mem_reverse.mpr mem)
    simp [wrote] at missed
  | some other =>
    obtain ⟨r', mem', made⟩ := List.exists_of_findSome?_eq_some found
    obtain ⟨⟨q', c⟩, wrote', kept⟩ := Option.bind_eq_some_iff.mp made
    dsimp only at kept
    split at kept
    · next same =>
      cases kept
      subst same
      exact congrArg some (written_once recorded staged
        ⟨r', List.mem_reverse.mp mem', wrote'⟩ ⟨r, mem, wrote⟩)
    · cases kept

include inverse

theorem existsAt_iff {p : List String} :
    existsAt granted p = true ↔ ∃ f q, Home sub f q ∧ p <+: q := by
  obtain ⟨done, rfl⟩ := staged_eq staged
  rw [existsAt, List.any_eq_true]
  constructor
  · rintro ⟨r, mem, below⟩
    obtain ⟨s, step, rfl⟩ := List.mem_map.mp mem
    obtain ⟨f, dir, name, placed, content, -, rfl | rfl⟩ := (mem_subscriptionSteps done).mp step
    · obtain ⟨home, above⟩ := placed_home recorded placed
      exact ⟨f, _, home, (List.isPrefixOf_iff_prefix.mp below).trans above⟩
    · exact ⟨f, _, (placed_home recorded placed).1, List.isPrefixOf_iff_prefix.mp below⟩
  · rintro ⟨f, q, home, below⟩
    obtain ⟨dir, name, placed, rfl⟩ := home_placed recorded home
    obtain ⟨content, decoded⟩ :=
      Option.isSome_iff_exists.mp (home_decodes recorded inverse home)
    have step := (mem_subscriptionSteps done).mpr ⟨f, dir, name, placed, content, decoded, .inr rfl⟩
    exact ⟨_, List.mem_map_of_mem step, List.isPrefixOf_iff_prefix.mpr below⟩

theorem mem_namesIn_ent : name ∈ namesIn granted ENT_DIR ↔
    ∃ f ∈ sub.entitlementCerts, Text.fileName f.path = some name := by
  rw [mem_namesIn, existsAt_iff recorded staged inverse]
  constructor
  · rintro ⟨f, q, home, below⟩
    cases home with
    | cert mem named =>
      have same := below.eq_of_length (by simp)
      simp only [List.append_cancel_left_eq, List.cons.injEq, and_true] at same
      exact ⟨f, mem, same ▸ named⟩
    | ca mem named => simp [ENT_DIR, CA_DIR, SUB_DIR] at below
    | conf mem path => simp [ENT_DIR, STAGED_RHSM_CONF, SUB_DIR] at below
    | repo mem path => simp [ENT_DIR, STAGED_REDHAT_REPO, SUB_DIR] at below
  · rintro ⟨f, mem, named⟩
    exact ⟨f, _, .cert mem named, List.prefix_rfl⟩

theorem mem_namesIn_ca : name ∈ namesIn granted CA_DIR ↔
    ∃ f ∈ sub.caCerts, Text.fileName f.path = some name := by
  rw [mem_namesIn, existsAt_iff recorded staged inverse]
  constructor
  · rintro ⟨f, q, home, below⟩
    cases home with
    | ca mem named =>
      have same := below.eq_of_length (by simp)
      simp only [List.append_cancel_left_eq, List.cons.injEq, and_true] at same
      exact ⟨f, mem, same ▸ named⟩
    | cert mem named => simp [ENT_DIR, CA_DIR, SUB_DIR] at below
    | conf mem path => simp [CA_DIR, STAGED_RHSM_CONF, SUB_DIR] at below
    | repo mem path => simp [CA_DIR, STAGED_REDHAT_REPO, SUB_DIR] at below
  · rintro ⟨f, mem, named⟩
    exact ⟨f, _, .ca mem named, List.prefix_rfl⟩

theorem pairs_agree (order : Order) (subDir : String) :
    (matchEntitlementPairs (collectSubscriptionFiles order subDir granted)).1.isEmpty =
      (matchEntitlementPairs sub.entitlementCerts).1.isEmpty := by
  rw [Bool.eq_iff_iff, ← not_iff_not, Bool.not_eq_true, Bool.not_eq_true, exists_pair_iff,
    exists_pair_iff]
  refine exists_congr fun serial => forall_congr' fun isKey => ?_
  constructor
  · rintro ⟨g, collected, parsed⟩
    obtain ⟨name, listed, rfl⟩ := List.mem_map.mp collected
    have there := (HashOrder.mem_iter order).mp (List.mem_filter.mp listed).1
    obtain ⟨f, mem, named⟩ := (mem_namesIn_ent recorded staged inverse).mp there
    obtain ⟨stem, pem, path, -⟩ := recorded.certs f mem
    rw [path, fileName_below _ pem.own] at named
    cases named
    refine ⟨f, mem, ?_⟩
    rw [parseSerial, fileName_joinPiece _ pem.own] at parsed
    rw [parseSerial, path, fileName_below _ pem.own]
    exact parsed
  · rintro ⟨f, mem, parsed⟩
    obtain ⟨name, pem, path, -⟩ := recorded.certs f mem
    rw [parseSerial, path, fileName_below _ pem.own] at parsed
    have listed : name ∈ namesIn granted ENT_DIR :=
      (mem_namesIn_ent recorded staged inverse).mpr ⟨f, mem, path ▸ fileName_below _ pem.own⟩
    refine ⟨_, List.mem_map_of_mem (List.mem_filter.mpr
      ⟨(HashOrder.mem_iter order).mpr listed, pem.pem⟩), ?_⟩
    rw [parseSerial, fileName_joinPiece _ pem.own]
    exact parsed

theorem conf_agrees : existsAt granted STAGED_RHSM_CONF =
    sub.configFiles.any fun f => Text.contains f.path "rhsm.conf" := by
  rw [Bool.eq_iff_iff, existsAt_iff recorded staged inverse, List.any_eq_true]
  constructor
  · rintro ⟨f, q, home, below⟩
    cases home with
    | conf mem path => exact ⟨f, mem, by rw [path]; decide +kernel⟩
    | cert mem named => simp [ENT_DIR, STAGED_RHSM_CONF, SUB_DIR] at below
    | ca mem named => simp [CA_DIR, STAGED_RHSM_CONF, SUB_DIR] at below
    | repo mem path => simp [STAGED_RHSM_CONF, STAGED_REDHAT_REPO, SUB_DIR] at below
  · rintro ⟨f, mem, names⟩
    rcases (recorded.configs f mem).1 with conf | repo
    · exact ⟨f, _, .conf mem conf, List.prefix_rfl⟩
    · rw [repo] at names
      exact absurd names (by decide +kernel)

theorem repo_agrees : existsAt granted STAGED_REDHAT_REPO =
    sub.configFiles.any fun f => Text.contains f.path "redhat.repo" := by
  rw [Bool.eq_iff_iff, existsAt_iff recorded staged inverse, List.any_eq_true]
  constructor
  · rintro ⟨f, q, home, below⟩
    cases home with
    | repo mem path => exact ⟨f, mem, by rw [path]; decide +kernel⟩
    | cert mem named => simp [ENT_DIR, STAGED_REDHAT_REPO, SUB_DIR] at below
    | ca mem named => simp [CA_DIR, STAGED_REDHAT_REPO, SUB_DIR] at below
    | conf mem path => simp [STAGED_RHSM_CONF, STAGED_REDHAT_REPO, SUB_DIR] at below
  · rintro ⟨f, mem, names⟩
    rcases (recorded.configs f mem).1 with conf | repo
    · rw [conf] at names
      exact absurd names (by decide +kernel)
    · exact ⟨f, _, .repo mem repo, List.prefix_rfl⟩

theorem cas_agree (order : Order) : (existsAt granted CA_DIR &&
    (order.iter (namesIn granted CA_DIR)).any (Text.endsWith · ".pem")) =
      !sub.caCerts.isEmpty := by
  rw [Bool.eq_iff_iff, Bool.and_eq_true, List.any_eq_true, Bool.not_eq_true',
    ← Bool.not_eq_true, List.isEmpty_iff]
  constructor
  · rintro ⟨-, name, listed, -⟩
    have there := (HashOrder.mem_iter order).mp listed
    obtain ⟨f, mem, -⟩ := (mem_namesIn_ca recorded staged inverse).mp there
    exact List.ne_nil_of_mem mem
  · intro some_ca
    obtain ⟨f, mem⟩ := List.exists_mem_of_ne_nil _ some_ca
    obtain ⟨name, pem, path, -⟩ := recorded.cas f mem
    have named : Text.fileName f.path = some name := path ▸ fileName_below _ pem.own
    have listed := (mem_namesIn_ca recorded staged inverse).mpr ⟨f, mem, named⟩
    refine ⟨(existsAt_iff recorded staged inverse).mpr ⟨f, _, .ca mem named, ?_⟩, name,
      (HashOrder.mem_iter order).mpr listed, pem.pem⟩
    exact List.prefix_append _ _

theorem ent_of_pair (paired : (matchEntitlementPairs sub.entitlementCerts).1.isEmpty = false) :
    existsAt granted ENT_DIR = true := by
  obtain ⟨serial, each⟩ := exists_pair_iff.mp paired
  obtain ⟨f, mem, -⟩ := each false
  obtain ⟨name, pem, path, -⟩ := recorded.certs f mem
  have named : Text.fileName f.path = some name := path ▸ fileName_below _ pem.own
  exact (existsAt_iff recorded staged inverse).mpr
    ⟨f, _, .cert mem named, List.prefix_append _ _⟩

theorem missing_agree (order : Order) (subDir : String) :
    (missingOfBundle order subDir granted).isEmpty = (missingParts sub).isEmpty := by
  rw [missingOfBundle, missingParts, conf_agrees recorded staged inverse,
    repo_agrees recorded staged inverse, cas_agree recorded staged inverse,
    pairs_agree recorded staged inverse]
  have ent := ent_of_pair recorded staged inverse
  cases paired : (matchEntitlementPairs sub.entitlementCerts).1.isEmpty with
  | true => cases existsAt granted ENT_DIR <;> simp
  | false =>
    rw [ent paired]
    cases sub.caCerts.isEmpty <;>
      cases sub.configFiles.any fun f => Text.contains f.path "rhsm.conf" <;>
      cases sub.configFiles.any fun f => Text.contains f.path "redhat.repo" <;> rfl

theorem verdict_agrees (order : Order) (subDir : String) :
    validateSubscriptionBundle order subDir granted = .ok true ↔ sub.incomplete = false := by
  have same := missing_agree recorded staged inverse order subDir
  rw [recorded.judged, Bool.not_eq_false', ← same, validateSubscriptionBundle]
  dsimp only
  constructor
  · intro ok
    split at ok
    · cases ok
    · split at ok
      · next none => exact none
      · cases ok
  · intro none
    have paired : (matchEntitlementPairs sub.entitlementCerts).1.isEmpty = false := by
      rw [same, missingParts] at none
      cases paired : (matchEntitlementPairs sub.entitlementCerts).1.isEmpty with
      | false => rfl
      | true => simp [paired] at none
    have made : existsAt granted SUB_DIR = true := by
      obtain ⟨f, q, home, below⟩ :=
        (existsAt_iff recorded staged inverse).mp (ent_of_pair recorded staged inverse paired)
      exact (existsAt_iff recorded staged inverse).mpr
        ⟨f, q, home, (List.prefix_append _ _).trans below⟩
    rw [made, none]
    rfl

end Found

/-- The build finds the bundle usable when the scan did, every pair is staged under its names,
    and no place is written twice differently. -/
structure BundleAgrees (decode : String → Option String) (sub : SubscriptionSection)
    (granted : List FileRequest) : Prop where
  verdict : ∀ order subDir,
    validateSubscriptionBundle order subDir granted = .ok true ↔ sub.incomplete = false
  pairs : sub.incomplete = false → ∀ pair ∈ (matchEntitlementPairs sub.entitlementCerts).1,
    ∀ isKey, ∃ f ∈ sub.entitlementCerts, ∃ content, pair.pathOf isKey = some f.path ∧
      decode f.content = some content ∧
        fileAt granted (ENT_DIR ++ [pair.serial ++ if isKey then "-key.pem" else ".pem"]) =
          some content
  once : ∀ q content content', (∃ r ∈ granted, r.written = some (q, content)) →
    (∃ r ∈ granted, r.written = some (q, content')) → content = content'

theorem serialOf_eq {name serial : String} {isKey : Bool}
    (parsed : serialOf name = some (serial, isKey)) :
    name = serial ++ if isKey then "-key.pem" else ".pem" := by
  unfold serialOf at parsed
  split at parsed
  · next cut =>
    cases parsed
    exact beforeSuffix_eq_some.mp cut
  · obtain ⟨stem, cut, same⟩ := Option.map_eq_some_iff.mp parsed
    cases same
    exact beforeSuffix_eq_some.mp cut

theorem finalName_name (own : IsName name) : finalName name = some name := by
  have filled : name.toList ≠ [] := by simpa using own.1
  have no_dot : name.toList ≠ ['.'] := fun same => own.2.1 (String.toList_inj.mp same)
  have no_dots : name.toList ≠ ['.', '.'] := fun same => own.2.2.1 (String.toList_inj.mp same)
  rw [finalName, pathPieces, splitChars_plain own.2.2.2]
  simp [componentOf, filled, no_dot, no_dots]

theorem grantable_step {host : SubscriptionHost} {encode : String → String}
    {decode : String → Option String} {sub : SubscriptionSection}
    (recorded : RecordedBundle host encode sub) {f : SubscriptionFile} {dir : List String}
    {name : String} (placed : Placed sub f dir name) {s : WriteStep} (step : IsStepFor decode f dir name s) :
    s.required = true ∧ s.request.Grantable := by
  have plain : (∀ piece ∈ dir, NUL ∉ piece.toList) ∧ IsName name ∧ NUL ∉ name.toList := by
    cases placed with
    | cert mem =>
      obtain ⟨name, pem, path, -⟩ := recorded.certs f mem
      rw [path, fileName_below _ pem.own, Option.getD_some]
      exact ⟨by decide, pem.own, pem.no_nul⟩
    | ca mem =>
      obtain ⟨name, pem, path, -⟩ := recorded.cas f mem
      rw [path, fileName_below _ pem.own, Option.getD_some]
      exact ⟨by decide, pem.own, pem.no_nul⟩
    | config mem at_ =>
      rcases (recorded.configs f mem).1 with conf | repo
      · rw [configPlace_conf conf] at at_
        cases at_
        decide
      · rw [configPlace_repo repo] at at_
        cases at_
        decide
  obtain ⟨dirs, own, last⟩ := plain
  obtain ⟨content, -, rfl | rfl⟩ := step
  · exact ⟨rfl, dirs, fun no => nomatch no⟩
  · refine ⟨rfl, List.forall_mem_append.mpr ⟨dirs, List.forall_mem_singleton.mpr last⟩, fun _ => ?_⟩
    have ending : (dir ++ [name]).getLast? = some name := List.getLast?_concat
    rw [require, FileRequest.path, ending, Option.bind_some, finalName_name own]
    rfl

theorem stages {host : SubscriptionHost} {encode : String → String}
    {decode : String → Option String} {sub : SubscriptionSection}
    (recorded : RecordedBundle host encode sub)
    (inverse : ∀ content, decode (encode content) = some content) :
    (stageSubscriptionFiles willing decode sub).isSome := by
  have held : ∀ {path f}, host.Holds encode path f → (decode f.content).isSome := by
    rintro path f ⟨content, -, own⟩
    rw [own, inverse]
    rfl
  have done : subscriptionDecodes decode sub = true := by
    refine Bool.and_eq_true_iff.mpr ⟨Bool.and_eq_true_iff.mpr ⟨?_, ?_⟩, ?_⟩
    · refine subscriptionFiles_done fun f mem => ?_
      obtain ⟨name, -, -, own⟩ := recorded.certs f mem
      exact held own
    · refine subscriptionFiles_done fun f mem => ?_
      obtain ⟨name, -, -, own⟩ := recorded.cas f mem
      exact held own
    · exact subscriptionFiles_done fun f mem => held (recorded.configs f mem).2
  have each : ∀ s ∈ subscriptionSteps decode sub, s.required = true ∧ s.request.Grantable := by
    intro s mem
    obtain ⟨f, dir, name, placed, step⟩ := (mem_subscriptionSteps done).mp mem
    exact grantable_step recorded placed step
  have all : perform (willing : Writers.Disk FileRequest.Grantable) []
      (subscriptionSteps decode sub) = (subscriptionSteps decode sub).map (·.request) := by
    rw [Writers.perform_willing, Writers.reached_of_required fun s mem => (each s mem).1,
      List.takeWhile_eq_self_iff.mpr, List.nil_append]
    intro r mem
    obtain ⟨s, step, rfl⟩ := List.mem_map.mp mem
    exact decide_eq_true (each s step).2
  rw [stageSubscriptionFiles, all]
  simp [done]

/-- A host with one pair, a CA certificate and the two configuration files. -/
def subscribedHost : SubscriptionHost where
  hostRoot := "/"
  readDir path :=
    if path = "/etc/pki/entitlement" then .ok ["42.pem", "42-key.pem"]
    else if path = "/etc/rhsm/ca" then .ok ["redhat-uep.pem"]
    else .error true "not found"
  readFile path := .ok path
  isLink _ := false
  resolveFinalTarget path := .ok path
  named path names read := by
    have each : ∀ name ∈ ["42.pem", "42-key.pem", "redhat-uep.pem"],
        IsName name ∧ Char.ofNat 0 ∉ name.toList := by decide
    split at read
    · cases read
      exact fun name mem => each name (List.mem_append_left ["redhat-uep.pem"] mem)
    · split at read
      · cases read
        exact fun name mem => each name (List.mem_append_right ["42.pem", "42-key.pem"] mem)
      · cases read

end Inspectah
