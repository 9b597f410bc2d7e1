import Inspectah.Aggregate.MergeLaws
import Inspectah.Aggregate.MergePackages

/-!
The file context rules of several hosts as one list. Rules that address one entry of the
local database become one row: the first in hostname order.
-/
namespace Inspectah

open Grouping

def FcontextFileType.debug : FcontextFileType → String
  | .all => "All"
  | .regularFile => "RegularFile"
  | .directory => "Directory"
  | .charDevice => "CharDevice"
  | .blockDevice => "BlockDevice"
  | .socket => "Socket"
  | .symlink => "Symlink"
  | .namedPipe => "NamedPipe"

def fcontextRuleKey : FcontextRule → Nat × String × String
  | .label spec fileType _ _ _ => (0, spec, fileType.debug)
  | .unlabel spec fileType _ _ => (0, spec, fileType.debug)
  | .equivalence subject _ _ _ => (1, subject, "")
  | .unparsed raw => (2, raw, "")

def FcontextRule.stamp (incl : Bool) (prevalence : AggregatePrevalence) : FcontextRule → FcontextRule
  | .label spec fileType context disposition _ =>
    .label spec fileType context (disposition.withInclude incl) (some prevalence)
  | .unlabel spec fileType disposition _ =>
    .unlabel spec fileType (disposition.withInclude incl) (some prevalence)
  | .equivalence subject labeledLike disposition _ =>
    .equivalence subject labeledLike (disposition.withInclude incl) (some prevalence)
  | .unparsed raw => .unparsed raw

def mergeFcontextKey (totalHosts : Nat) (hostnames : List String) (entries : List (HostRow FcontextRule)) :
    Option FcontextRule :=
  match groupBy Prod.snd entries with
  | [] => none
  | (rule, repRows) :: others =>
    let keyHosts := hostsOf hostnames entries
    let hasDisagreement := !others.isEmpty
    let repHosts := hostsOf hostnames repRows
    some (rule.stamp (repHosts.length = totalHosts)
      { count := repHosts.length
        total := totalHosts
        hosts := repHosts
        aggregateCount := if hasDisagreement then some keyHosts.length else none
        aggregateHosts := if hasDisagreement then some keyHosts else none })

def mergeFcontextRules (sections : List (Option SelinuxSection)) (totalHosts : Nat)
    (hostnames : List String) : List FcontextRule :=
  (groupBy (fun row => fcontextRuleKey row.2) (collectItems sections (·.fcontextRules))).filterMap
    fun group => mergeFcontextKey totalHosts hostnames group.2

/-- The sections of an aggregate by host. Merging sorts the hosts by name and refuses two of
    one name. -/
structure OrderedSections (S : Type) where
  sections : List (Option S)
  hostnames : List String
  ordered : hostnames.Pairwise (· < ·)
  paired : sections.length = hostnames.length

/-- What a rule addresses. -/
inductive FcontextEntry where
  | labelling (spec : String) (fileType : FcontextFileType)
  | substitution (subject : String)
  | text (raw : String)
  deriving DecidableEq

namespace FcontextRule

def entry : FcontextRule → FcontextEntry
  | .label spec fileType _ _ _ => .labelling spec fileType
  | .unlabel spec fileType _ _ => .labelling spec fileType
  | .equivalence subject _ _ _ => .substitution subject
  | .unparsed raw => .text raw

def disposition : FcontextRule → Option FindingKind
  | .label _ _ _ disposition _ => some disposition
  | .unlabel _ _ disposition _ => some disposition
  | .equivalence _ _ disposition _ => some disposition
  | .unparsed _ => none

def aggregate : FcontextRule → Option AggregatePrevalence
  | .label _ _ _ _ aggregate => aggregate
  | .unlabel _ _ _ aggregate => aggregate
  | .equivalence _ _ _ aggregate => aggregate
  | .unparsed _ => none

def isCommand (rule : FcontextRule) : Bool := rule.disposition.isSome

def isActive (rule : FcontextRule) : Bool := rule.disposition.any (·.isIncluded)

def isActionable (rule : FcontextRule) : Bool := rule.disposition.any (·.isActionable)

/-- The rule without what merging writes. -/
def policy : FcontextRule → FcontextRule
  | .label spec fileType context _ _ => .label spec fileType context .included none
  | .unlabel spec fileType _ _ => .unlabel spec fileType .included none
  | .equivalence subject labeledLike _ _ => .equivalence subject labeledLike .included none
  | .unparsed raw => .unparsed raw

end FcontextRule

namespace OrderedSections

variable (hosts : OrderedSections SelinuxSection)

def fcontextRows : List (HostRow FcontextRule) := collectItems hosts.sections (·.fcontextRules)

def fcontextsAt (entry : FcontextEntry) : List (HostRow FcontextRule) :=
  rowsAt (fun row => row.2.entry) hosts.fcontextRows entry

def carriers (kind : FcontextRule → Prop) [DecidablePred kind] : List String :=
  ((hosts.sections.zip hosts.hostnames).filter fun host =>
    (host.1.map (·.fcontextRules)).any (·.any fun rule => kind rule)).map Prod.snd

def OnEveryHost (kind : FcontextRule → Prop) : Prop :=
  ∀ sec ∈ hosts.sections, ∃ sel, sec = some sel ∧ ∃ rule ∈ sel.fcontextRules, kind rule

def Agreed (first : FcontextRule) : Prop :=
  ∀ row ∈ hosts.fcontextsAt first.entry, row.2 = first

instance (first : FcontextRule) : Decidable (hosts.Agreed first) :=
  inferInstanceAs (Decidable (∀ row ∈ hosts.fcontextsAt first.entry, row.2 = first))

structure IsSurvivor (first rule : FcontextRule) : Prop where
  content : rule.policy = first.policy
  active : rule.isCommand →
    (rule.isActive ↔ hosts.OnEveryHost (·.entry = first.entry) ∧ hosts.Agreed first)
  prevalence : rule.isCommand → rule.aggregate = some
    { count := (hosts.carriers (· = first)).length
      total := hosts.hostnames.length
      hosts := hosts.carriers (· = first)
      aggregateCount :=
        if hosts.Agreed first then none else some (hosts.carriers (·.entry = first.entry)).length
      aggregateHosts :=
        if hosts.Agreed first then none else some (hosts.carriers (·.entry = first.entry)) }

structure FcontextsMerged (merged : List FcontextRule) : Prop where
  entries : FirstSeen (hosts.fcontextRows.map fun row => row.2.entry) (merged.map (·.entry))
  survivor : ∀ rule ∈ merged, ∃ first, (hosts.fcontextsAt rule.entry).head?.map (·.2) = some first ∧
    hosts.IsSurvivor first rule

def merged : List FcontextRule :=
  mergeFcontextRules hosts.sections hosts.hostnames.length hosts.hostnames

/-- A rule that all hosts share is no host's second rule for its entry, and is theirs to decide. -/
def SharedIsSettled : Prop :=
  ∀ entry first, (hosts.fcontextsAt entry).head?.map (·.2) = some first → first.isCommand →
    hosts.OnEveryHost (· = first) → (hosts.Agreed first ↔ first.isActionable)

variable {hosts}

theorem mem_fcontextRows {i : Nat} {rule : FcontextRule} :
    (i, rule) ∈ hosts.fcontextRows ↔
      ∃ sel, hosts.sections[i]? = some (some sel) ∧ rule ∈ sel.fcontextRules := mem_collectItems

theorem mem_carriers {kind : FcontextRule → Prop} [DecidablePred kind] {host : String} :
    host ∈ hosts.carriers kind ↔
      ∃ i rule, (i, rule) ∈ hosts.fcontextRows ∧ kind rule ∧ hosts.hostnames[i]? = some host := by
  rw [carriers, List.mem_map]
  constructor
  · rintro ⟨⟨sec, name⟩, mem, rfl⟩
    obtain ⟨mem, carries⟩ := List.mem_filter.mp mem
    obtain ⟨i, there⟩ := List.mem_iff_getElem?.mp mem
    obtain ⟨at_i, named⟩ := List.getElem?_zip_eq_some.mp there
    cases sec with
    | none => cases carries
    | some sel =>
      obtain ⟨rule, mem, kind⟩ : ∃ rule ∈ sel.fcontextRules, kind rule := by simpa using carries
      exact ⟨i, rule, mem_fcontextRows.mpr ⟨sel, at_i, mem⟩, kind, named⟩
  · rintro ⟨i, rule, mem, kind, named⟩
    obtain ⟨sel, at_i, mem⟩ := mem_fcontextRows.mp mem
    refine ⟨(some sel, host), List.mem_filter.mpr ⟨?_, ?_⟩, rfl⟩
    · exact List.mem_of_getElem? (List.getElem?_zip_eq_some.mpr ⟨at_i, named⟩)
    · simpa using ⟨rule, mem, kind⟩

theorem carriers_sorted (kind : FcontextRule → Prop) [DecidablePred kind] :
    (hosts.carriers kind).Pairwise (· < ·) := by
  have names : (hosts.sections.zip hosts.hostnames).map Prod.snd = hosts.hostnames :=
    List.map_snd_zip (le_of_eq hosts.paired.symm)
  have inside : (hosts.carriers kind).Sublist hosts.hostnames := by
    rw [← names]
    exact List.filter_sublist.map Prod.snd
  exact hosts.ordered.sublist inside

theorem hostsOf_eq_carriers {kind : FcontextRule → Prop} [DecidablePred kind]
    {rows : List (HostRow FcontextRule)}
    (are : ∀ row, row ∈ rows ↔ row ∈ hosts.fcontextRows ∧ kind row.2) :
    hostsOf hosts.hostnames rows = hosts.carriers kind := by
  apply List.Pairwise.eq_of_mem_iff (r := (· < ·)) (distinctSorted_sorted _) (carriers_sorted kind)
  intro host
  rw [← hostsOf, mem_hostsOf, mem_carriers]
  constructor
  · rintro ⟨⟨i, rule⟩, mem, named⟩
    obtain ⟨mem, kind⟩ := (are _).mp mem
    obtain ⟨sel, at_i, -⟩ := mem_fcontextRows.mp mem
    have inside : i < hosts.hostnames.length := by
      rw [← hosts.paired]
      exact (List.getElem?_eq_some_iff.mp at_i).1
    refine ⟨i, rule, mem, kind, ?_⟩
    rw [← named, hostname_at inside, List.getElem?_eq_getElem inside]
  · rintro ⟨i, rule, mem, kind, named⟩
    refine ⟨(i, rule), (are _).mpr ⟨mem, kind⟩, ?_⟩
    simp [named]

theorem mem_fcontextsAt {entry : FcontextEntry} {row : HostRow FcontextRule} :
    row ∈ hosts.fcontextsAt entry ↔ row ∈ hosts.fcontextRows ∧ row.2.entry = entry := mem_rowsAt

theorem fcontextsAt_inRange (entry : FcontextEntry) :
    InRange hosts.hostnames (hosts.fcontextsAt entry) := by
  rintro ⟨i, rule⟩ mem
  obtain ⟨sel, at_i, -⟩ := mem_fcontextRows.mp (mem_fcontextsAt.mp mem).1
  rw [← hosts.paired]
  exact (List.getElem?_eq_some_iff.mp at_i).1

theorem onEveryHost_iff {kind : FcontextRule → Prop} [DecidablePred kind]
    {rows : List (HostRow FcontextRule)}
    (are : ∀ row, row ∈ rows ↔ row ∈ hosts.fcontextRows ∧ kind row.2) :
    hosts.OnEveryHost kind ↔ (hosts.carriers kind).length = hosts.hostnames.length := by
  have inRange : InRange hosts.hostnames rows := fun row mem =>
    fcontextsAt_inRange row.2.entry row (mem_fcontextsAt.mpr ⟨((are row).mp mem).1, rfl⟩)
  rw [← hostsOf_eq_carriers are,
    hostsOf_length_eq_iff (hosts.ordered.imp fun below => ne_of_lt below) inRange]
  constructor
  · intro every i inside
    rw [← hosts.paired] at inside
    obtain ⟨sel, has, rule, mem, holds⟩ := every _ (List.getElem_mem inside)
    have at_i : hosts.sections[i]? = some (some sel) := by rw [List.getElem?_eq_getElem inside, has]
    exact ⟨(i, rule), (are _).mpr ⟨mem_fcontextRows.mpr ⟨sel, at_i, mem⟩, holds⟩, rfl⟩
  · intro every sec mem
    obtain ⟨i, inside, rfl⟩ := List.getElem_of_mem mem
    obtain ⟨⟨j, rule⟩, there, rfl⟩ := every i (hosts.paired ▸ inside)
    obtain ⟨there, holds⟩ := (are _).mp there
    obtain ⟨sel, at_j, mem⟩ := mem_fcontextRows.mp there
    rw [List.getElem?_eq_getElem inside] at at_j
    exact ⟨sel, Option.some.inj at_j, rule, mem, holds⟩

def survivorOf (hosts : OrderedSections SelinuxSection) (first : FcontextRule) : FcontextRule :=
  first.stamp ((hosts.carriers (· = first)).length = hosts.hostnames.length)
    { count := (hosts.carriers (· = first)).length
      total := hosts.hostnames.length
      hosts := hosts.carriers (· = first)
      aggregateCount :=
        if hosts.Agreed first then none else some (hosts.carriers (·.entry = first.entry)).length
      aggregateHosts :=
        if hosts.Agreed first then none else some (hosts.carriers (·.entry = first.entry)) }

theorem mergeFcontextKey_eq (hosts : OrderedSections SelinuxSection) (entry : FcontextEntry) :
    mergeFcontextKey hosts.hostnames.length hosts.hostnames (hosts.fcontextsAt entry) =
      (hosts.fcontextsAt entry).head?.map fun row => hosts.survivorOf row.2 := by
  cases rows : hosts.fcontextsAt entry with
  | nil => rfl
  | cons row rest =>
    have own : row.2.entry = entry := (mem_fcontextsAt.mp (rows ▸ List.mem_cons_self)).2
    obtain ⟨others, table⟩ : ∃ others, groupBy Prod.snd (row :: rest) =
        (row.2, rowsAt Prod.snd (row :: rest) row.2) :: others := groupBy_cons row rest
    have rep : hostsOf hosts.hostnames (rowsAt Prod.snd (row :: rest) row.2) =
        hosts.carriers (· = row.2) := by
      apply hostsOf_eq_carriers
      intro other
      rw [mem_rowsAt, ← rows, mem_fcontextsAt]
      constructor
      · rintro ⟨⟨mem, -⟩, same⟩
        exact ⟨mem, same⟩
      · rintro ⟨mem, same⟩
        exact ⟨⟨mem, same ▸ own⟩, same⟩
    have keyed : hostsOf hosts.hostnames (row :: rest) = hosts.carriers (·.entry = row.2.entry) := by
      apply hostsOf_eq_carriers
      intro other
      rw [← rows, mem_fcontextsAt, own]
    have agreed : others.isEmpty = decide (hosts.Agreed row.2) := by
      have seen : FirstSeen ((row :: rest).map Prod.snd) _ := groupBy_firstSeen (row :: rest)
      rw [table, List.map_cons] at seen
      rw [Bool.eq_iff_iff, List.isEmpty_iff, decide_eq_true_iff, Agreed, own, rows]
      constructor
      · rintro rfl other mem
        simpa using (seen.covers other.2).mpr (List.mem_map_of_mem mem)
      · intro same
        by_contra more
        obtain ⟨group, there⟩ := List.exists_mem_of_ne_nil _ more
        have listed : group.1 ∈ (row :: rest).map Prod.snd :=
          (seen.covers group.1).mp (List.mem_cons_of_mem _ (List.mem_map_of_mem there))
        obtain ⟨other, mem, at_group⟩ := List.mem_map.mp listed
        have back : row.2 ∈ others.map Prod.fst := by
          rw [← same other mem, at_group]
          exact List.mem_map_of_mem there
        exact (List.nodup_cons.mp seen.nodup).1 back
    rw [mergeFcontextKey, table]
    simp only [rep, keyed, agreed, survivorOf, List.head?_cons, Option.map_some, Bool.not_eq_true',
      decide_eq_false_iff_not, ite_not]

def FcontextEntry.key : FcontextEntry → Nat × String × String
  | .labelling spec fileType => (0, spec, fileType.debug)
  | .substitution subject => (1, subject, "")
  | .text raw => (2, raw, "")

theorem debug_injective : Function.Injective FcontextFileType.debug := by
  intro a b same
  cases a <;> cases b <;> first | rfl | exact absurd same (by decide)

theorem key_injective : Function.Injective FcontextEntry.key := by
  intro a b same
  cases a <;> cases b <;> simp_all [FcontextEntry.key]
  exact debug_injective same.2

theorem fcontextRuleKey_eq (rule : FcontextRule) : fcontextRuleKey rule = FcontextEntry.key rule.entry := by
  cases rule <;> rfl

theorem merged_eq (hosts : OrderedSections SelinuxSection) :
    hosts.merged = (groupBy (fun row => row.2.entry) hosts.fcontextRows).filterMap
      fun group => group.2.head?.map fun row => hosts.survivorOf row.2 := by
  have keys : (fun row : HostRow FcontextRule => fcontextRuleKey row.2) =
      fun row => FcontextEntry.key row.2.entry := funext fun row => fcontextRuleKey_eq row.2
  rw [merged, mergeFcontextRules, keys, groupBy_comp key_injective, List.filterMap_map]
  apply List.filterMap_congr
  intro group mem
  have rows : group.2 = hosts.fcontextsAt group.1 := (mem_groupBy.mp mem).2
  rw [Function.comp_apply, rows]
  exact mergeFcontextKey_eq hosts group.1

theorem head_entry {entry : FcontextEntry} {first : FcontextRule}
    (head : (hosts.fcontextsAt entry).head?.map (·.2) = some first) : first.entry = entry := by
  obtain ⟨row, there, rfl⟩ := Option.map_eq_some_iff.mp head
  exact (mem_fcontextsAt.mp (List.mem_of_mem_head? there)).2

theorem mem_merged {rule : FcontextRule} : rule ∈ hosts.merged ↔
    ∃ first, (hosts.fcontextsAt first.entry).head?.map (·.2) = some first ∧
      hosts.survivorOf first = rule := by
  rw [merged_eq, List.mem_filterMap]
  constructor
  · rintro ⟨group, mem, made⟩
    obtain ⟨row, head, rfl⟩ := Option.map_eq_some_iff.mp made
    have rows : group.2 = hosts.fcontextsAt group.1 := (mem_groupBy.mp mem).2
    have first : (hosts.fcontextsAt group.1).head?.map (·.2) = some row.2 := by rw [← rows, head]; rfl
    exact ⟨row.2, head_entry first ▸ first, rfl⟩
  · rintro ⟨first, head, rfl⟩
    obtain ⟨row, there, rfl⟩ := Option.map_eq_some_iff.mp head
    have mem := mem_fcontextsAt.mp (List.mem_of_mem_head? there)
    refine ⟨(row.2.entry, hosts.fcontextsAt row.2.entry), mem_groupBy.mpr ⟨⟨row, mem.1, rfl⟩, rfl⟩, ?_⟩
    rw [there]
    rfl

@[simp] theorem entry_stamp (incl : Bool) (p : AggregatePrevalence) (rule : FcontextRule) :
    (rule.stamp incl p).entry = rule.entry := by
  cases rule <;> rfl

@[simp] theorem policy_stamp (incl : Bool) (p : AggregatePrevalence) (rule : FcontextRule) :
    (rule.stamp incl p).policy = rule.policy := by
  cases rule <;> rfl

@[simp] theorem isCommand_stamp (incl : Bool) (p : AggregatePrevalence) (rule : FcontextRule) :
    (rule.stamp incl p).isCommand = rule.isCommand := by
  cases rule <;> rfl

theorem aggregate_stamp {incl : Bool} {p : AggregatePrevalence} {rule : FcontextRule}
    (command : rule.isCommand) : (rule.stamp incl p).aggregate = some p := by
  cases rule with
  | unparsed raw => cases command
  | _ => rfl

/-- An advisory or inventory row is never included. -/
theorem isIncluded_withInclude (d : FindingKind) (incl : Bool) :
    (d.withInclude incl).isIncluded = (d.isActionable && incl) := by
  cases d <;> cases incl <;> rfl

theorem isActive_stamp (incl : Bool) (p : AggregatePrevalence) (rule : FcontextRule) :
    (rule.stamp incl p).isActive = (rule.isActionable && incl) := by
  cases rule with
  | unparsed raw => rfl
  | label _ _ _ d _ => exact isIncluded_withInclude d incl
  | unlabel _ _ d _ => exact isIncluded_withInclude d incl
  | equivalence _ _ d _ => exact isIncluded_withInclude d incl

theorem onEveryHost_eq_iff (first : FcontextRule) : hosts.OnEveryHost (· = first) ↔
    (hosts.carriers (· = first)).length = hosts.hostnames.length := by
  have are : ∀ row, row ∈ hosts.fcontextRows.filter (fun row => row.2 = first) ↔
      row ∈ hosts.fcontextRows ∧ row.2 = first := by simp
  exact onEveryHost_iff are

theorem onEveryHost_of_agreed {first : FcontextRule} (agreed : hosts.Agreed first) :
    hosts.OnEveryHost (·.entry = first.entry) ↔ hosts.OnEveryHost (· = first) := by
  constructor
  · intro every sec mem
    obtain ⟨i, at_i⟩ := List.mem_iff_getElem?.mp mem
    obtain ⟨sel, rfl, rule, listed, own⟩ := every sec mem
    have same := agreed (i, rule)
      (mem_fcontextsAt.mpr ⟨mem_fcontextRows.mpr ⟨sel, at_i, listed⟩, own⟩)
    exact ⟨sel, rfl, rule, listed, same⟩
  · intro every sec mem
    obtain ⟨sel, has, rule, listed, rfl⟩ := every sec mem
    exact ⟨sel, has, rule, listed, rfl⟩

theorem survivorOf_isSurvivor_iff (first : FcontextRule) :
    hosts.IsSurvivor first (hosts.survivorOf first) ↔
      (first.isCommand → hosts.OnEveryHost (· = first) → (hosts.Agreed first ↔ first.isActionable)) := by
  have active : (hosts.survivorOf first).isActive ↔
      first.isActionable ∧ hosts.OnEveryHost (· = first) := by
    rw [survivorOf, isActive_stamp, onEveryHost_eq_iff]
    simp
  constructor
  · intro survivor command every
    have law := survivor.active (by simpa [survivorOf] using command)
    constructor
    · intro agreed
      exact (active.mp (law.mpr ⟨(onEveryHost_of_agreed agreed).mpr every, agreed⟩)).1
    · intro actionable
      exact (law.mp (active.mpr ⟨actionable, every⟩)).2
  · intro settled
    refine ⟨by simp [survivorOf], fun command => ?_, fun command => ?_⟩
    · have command : first.isCommand := by simpa [survivorOf] using command
      rw [active]
      constructor
      · rintro ⟨actionable, every⟩
        have agreed := (settled command every).mpr actionable
        exact ⟨(onEveryHost_of_agreed agreed).mpr every, agreed⟩
      · rintro ⟨every, agreed⟩
        have every := (onEveryHost_of_agreed agreed).mp every
        exact ⟨(settled command every).mp agreed, every⟩
    · exact aggregate_stamp (by simpa [survivorOf] using command)

theorem entries_merged (hosts : OrderedSections SelinuxSection) :
    FirstSeen (hosts.fcontextRows.map fun row => row.2.entry) (hosts.merged.map (·.entry)) := by
  have keys : hosts.merged.map (·.entry) =
      (groupBy (fun row => row.2.entry) hosts.fcontextRows).map Prod.fst := by
    rw [merged_eq, List.map_filterMap, ← List.filterMap_eq_map]
    apply List.filterMap_congr
    intro group mem
    obtain ⟨⟨row, there, own⟩, rows⟩ := mem_groupBy.mp mem
    obtain ⟨first, rest, cut⟩ := List.exists_cons_of_ne_nil (ne_nil_of_mem_groupBy mem)
    have at_entry : first.2.entry = group.1 := by
      have listed : first ∈ rowsAt (fun row => row.2.entry) hosts.fcontextRows group.1 := by
        rw [← rows, cut]
        exact List.mem_cons_self
      exact (mem_rowsAt.mp listed).2
    simp [cut, survivorOf, at_entry]
  rw [keys]
  exact groupBy_firstSeen hosts.fcontextRows

theorem FcontextsMerged.settled (law : hosts.FcontextsMerged hosts.merged) : hosts.SharedIsSettled := by
  intro entry first head command every
  have own := head_entry head
  subst own
  obtain ⟨first', head', survivor⟩ := law.survivor _ (mem_merged.mpr ⟨first, head, rfl⟩)
  have entry : (hosts.survivorOf first).entry = first.entry := by simp [survivorOf]
  rw [entry, head] at head'
  cases head'
  exact (survivorOf_isSurvivor_iff first).mp survivor command every

theorem fcontexts_merged_iff (hosts : OrderedSections SelinuxSection) :
    hosts.FcontextsMerged hosts.merged ↔ hosts.SharedIsSettled := by
  constructor
  · exact FcontextsMerged.settled
  · intro settled
    refine ⟨entries_merged hosts, fun rule mem => ?_⟩
    obtain ⟨first, head, rfl⟩ := mem_merged.mp mem
    refine ⟨first, ?_, (survivorOf_isSurvivor_iff first).mpr fun command every =>
      settled _ first head command every⟩
    rw [survivorOf, entry_stamp]
    exact head

def webLabel : FcontextRule :=
  .label "/srv" .all ⟨"system_u", "object_r", "httpd_t", none⟩ .included none

/-- Two hosts share the label of `/srv`, and the second also unlabels it. -/
def sharedAndContested : OrderedSections SelinuxSection where
  sections := [
    some { fcontextRules := [webLabel] },
    some { fcontextRules := [webLabel, .unlabel "/srv" .all .included none] }]
  hostnames := ["db", "web"]
  ordered := by decide
  paired := rfl

/-- The shared label is included though the hosts disagree on the entry. -/
theorem contested_rule_included : ¬ sharedAndContested.FcontextsMerged sharedAndContested.merged ∧
    sharedAndContested.merged.map (·.isActive) = [true] := by
  refine ⟨fun law => ?_, by decide +kernel⟩
  have shared : sharedAndContested.OnEveryHost (· = webLabel) := by
    intro sec mem
    simp only [sharedAndContested, List.mem_cons, List.not_mem_nil, or_false] at mem
    rcases mem with rfl | rfl <;> exact ⟨_, rfl, webLabel, List.mem_cons_self, rfl⟩
  have agreed : sharedAndContested.Agreed webLabel :=
    (law.settled (.labelling "/srv" .all) webLabel (by decide +kernel) rfl shared).mpr rfl
  have same := agreed (1, .unlabel "/srv" .all .included none) (by decide +kernel)
  cases same

end OrderedSections

end Inspectah
