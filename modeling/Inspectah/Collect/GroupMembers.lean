import Inspectah.Collect.InstalledGroups
import Inspectah.Render.InstallOperands

/-!
Package groups from the scan to the build. An installed group takes its members out of the
install; dnf brings its mandatory and default ones, not the optional.
-/
namespace Inspectah

structure GroupHost where
  hostNames : List String
  groupList : ExecResult
  infos : List GroupInfo

namespace GroupHost

variable (host : GroupHost)

def groups : Option (List InstalledGroup) :=
  (collectInstalledGroups host.groupList { stdout := printGroups host.infos }).map
    (·.map (keepInstalled host.hostNames))

def withGroups (rpm : RpmSection) : RpmSection := { rpm with installedGroups := host.groups }

/-- What `dnf group install` brings of a group when it is given no options. -/
def Installs (groupName name : String) : Prop :=
  ∃ info ∈ host.infos, info.name = groupName ∧ name ∈ info.mandatory ++ info.default

def asks : Bool :=
  host.groupList.success && !(installedGroupNames host.groupList.stdout).isEmpty

def renderedInfos (ctx : Option RenderContext) : List GroupInfo :=
  if host.asks then host.infos.filter fun info => groupStateOf ctx info.name == some .renderable else []

end GroupHost

section

variable {host : GroupHost} {rpm : RpmSection} {orig : Option (TextMap Bool)}
variable {ctx : Option RenderContext} {pkg : PackageEntry}

/-- Every package is named or brought by a group, and no installed group suppresses what it does
    not bring. -/
structure MembersAccounted (host : GroupHost) (rpm : RpmSection) (orig : Option (TextMap Bool))
    (ctx : Option RenderContext) : Prop where
  accounted : ∀ pkg ∈ rpm.packagesAdded, pkg.name ∈ host.hostNames → pkg.disposition.isIncluded →
    canonicalPackageId pkg.name pkg.arch ∉ rpm.autoPackages.getD [] →
      NamedInInstall rpm orig ctx pkg ∨ pkg.name ∈ suppressedMembers rpm ctx ∧
        ∃ g ∈ renderableGroups rpm ctx, host.Installs g.name pkg.name
  optional_kept : ∀ g ∈ renderableGroups rpm ctx, ∀ info ∈ host.infos, info.name = g.name →
    ∀ name ∈ info.optional, ¬host.Installs g.name name → name ∉ g.members

/-- No installed group has an optional member here, and what none brings can be named. -/
structure NoMemberLost (host : GroupHost) (rpm : RpmSection) (orig : Option (TextMap Bool))
    (ctx : Option RenderContext) : Prop where
  optional_absent : ∀ info ∈ host.renderedInfos ctx, ∀ name ∈ info.optional,
    name ∈ host.hostNames → host.Installs info.name name
  nameable : ∀ pkg ∈ rpm.packagesAdded, pkg.name ∈ host.hostNames → pkg.disposition.isIncluded →
    canonicalPackageId pkg.name pkg.arch ∉ rpm.autoPackages.getD [] →
      (∃ info ∈ host.renderedInfos ctx, pkg.name ∈ info.mandatory ++ info.default) ∨
        isPackageInstallable pkg ∧ PassesOwnFilters rpm orig pkg ∧ ¬IsLost rpm pkg

theorem mem_renderableGroups {g : InstalledGroup} : g ∈ renderableGroups rpm ctx ↔
    g ∈ rpm.installedGroups.getD [] ∧ groupStateOf ctx g.name = some .renderable := by
  rw [renderableGroups, sortGroups, List.mem_insertionSort, List.mem_filter, beq_iff_eq]
  cases ctx with
  | none => simp [knownGroups, groupStateOf]
  | some ctx => rfl

theorem groups_eq (host : GroupHost) : host.groups.getD [] =
    if host.asks then host.infos.map fun info => keepInstalled host.hostNames info.collected else [] := by
  unfold GroupHost.groups GroupHost.asks collectInstalledGroups
  cases host.groupList.success with
  | false => rfl
  | true =>
    cases (installedGroupNames host.groupList.stdout).isEmpty with
    | true => rfl
    | false =>
      simp [parseBatchedGroupInfo_printGroups, ExecResult.success]

theorem mem_renderableGroups_withGroups {g : InstalledGroup} :
    g ∈ renderableGroups (host.withGroups rpm) ctx ↔
      ∃ info ∈ host.renderedInfos ctx, g = keepInstalled host.hostNames info.collected := by
  rw [mem_renderableGroups, GroupHost.withGroups, groups_eq, GroupHost.renderedInfos]
  cases host.asks with
  | false => simp
  | true =>
    simp only [if_true, List.mem_map, List.mem_filter, beq_iff_eq]
    constructor
    · rintro ⟨⟨info, mem, rfl⟩, state⟩
      exact ⟨info, ⟨mem, state⟩, rfl⟩
    · rintro ⟨info, ⟨mem, state⟩, rfl⟩
      exact ⟨⟨info, mem, rfl⟩, state⟩

theorem mem_members {info : GroupInfo} {name : String} :
    name ∈ (keepInstalled host.hostNames info.collected).members ↔
      name ∈ info.listed ∧ name ∈ host.hostNames := by
  simp [keepInstalled, GroupInfo.collected, List.mem_filter]

theorem mem_renderedInfos {info : GroupInfo} (mem : info ∈ host.renderedInfos ctx) :
    info ∈ host.infos := by
  rw [GroupHost.renderedInfos] at mem
  split at mem
  · exact (List.mem_filter.mp mem).1
  · cases mem

theorem optional_kept_iff :
    (∀ g ∈ renderableGroups (host.withGroups rpm) ctx, ∀ info ∈ host.infos, info.name = g.name →
      ∀ name ∈ info.optional, ¬host.Installs g.name name → name ∉ g.members) ↔
    ∀ info ∈ host.renderedInfos ctx, ∀ name ∈ info.optional, name ∈ host.hostNames →
      host.Installs info.name name := by
  constructor
  · intro kept info mem name optional installed
    by_contra missing
    have rendered := (@mem_renderableGroups_withGroups host rpm ctx _).mpr ⟨info, mem, rfl⟩
    refine kept _ rendered info (mem_renderedInfos mem) rfl name optional missing ?_
    exact mem_members.mpr ⟨List.mem_append_right _ optional, installed⟩
  · intro absent g rendered info mem same name optional missing listed
    obtain ⟨own, own_mem, rfl⟩ := mem_renderableGroups_withGroups.mp rendered
    obtain ⟨among, installed⟩ := mem_members.mp listed
    rcases List.mem_append.mp among with brought | optional
    · exact missing ⟨own, mem_renderedInfos own_mem, rfl, brought⟩
    · exact missing (absent own own_mem name optional installed)

theorem mem_suppressedMembers {name : String} : name ∈ suppressedMembers (host.withGroups rpm) ctx ↔
    ∃ info ∈ host.renderedInfos ctx, name ∈ info.listed ∧ name ∈ host.hostNames := by
  rw [suppressedMembers, List.mem_flatMap]
  constructor
  · rintro ⟨g, rendered, listed⟩
    obtain ⟨info, mem, rfl⟩ := mem_renderableGroups_withGroups.mp rendered
    exact ⟨info, mem, mem_members.mp listed⟩
  · rintro ⟨info, mem, listed⟩
    exact ⟨_, mem_renderableGroups_withGroups.mpr ⟨info, mem, rfl⟩, mem_members.mpr listed⟩

theorem installedByGroup_iff {name : String} :
    (∃ g ∈ renderableGroups (host.withGroups rpm) ctx, host.Installs g.name name) ↔
      ∃ info ∈ host.renderedInfos ctx, name ∈ info.mandatory ++ info.default := by
  constructor
  · rintro ⟨g, rendered, info, mem, same, brought⟩
    obtain ⟨own, own_mem, rfl⟩ := mem_renderableGroups_withGroups.mp rendered
    refine ⟨info, ?_, brought⟩
    -- The state is the name's, so a group of the same name is installed with it.
    have named : info.name = own.name := same
    rw [GroupHost.renderedInfos] at own_mem ⊢
    split at own_mem
    · rename_i asks
      rw [if_pos asks]
      refine List.mem_filter.mpr ⟨mem, ?_⟩
      rw [named]
      exact (List.mem_filter.mp own_mem).2
    · cases own_mem
  · rintro ⟨info, mem, brought⟩
    exact ⟨_, mem_renderableGroups_withGroups.mpr ⟨info, mem, rfl⟩, info, mem_renderedInfos mem, rfl,
      brought⟩

theorem members_accounted_iff (host : GroupHost) (rpm : RpmSection) (orig : Option (TextMap Bool))
    (ctx : Option RenderContext) :
    MembersAccounted host (host.withGroups rpm) orig ctx ↔
      NoMemberLost host (host.withGroups rpm) orig ctx := by
  constructor
  · intro accounted
    refine ⟨optional_kept_iff.mp accounted.optional_kept, fun pkg mem installed included leaf => ?_⟩
    rcases accounted.accounted pkg mem installed included leaf with named | brought
    · obtain ⟨-, installable, passes, carried⟩ := namedInInstall_iff.mp named
      exact .inr ⟨installable, passes.toPassesOwnFilters, carried⟩
    · exact .inl (installedByGroup_iff.mp brought.2)
  · intro safe
    refine ⟨fun pkg mem installed included leaf => ?_, optional_kept_iff.mpr safe.optional_absent⟩
    by_cases brought : ∃ info ∈ host.renderedInfos ctx, pkg.name ∈ info.mandatory ++ info.default
    · obtain ⟨info, rendered, listed⟩ := brought
      exact .inr ⟨mem_suppressedMembers.mpr ⟨info, rendered, List.mem_append_left _ listed, installed⟩,
        installedByGroup_iff.mpr ⟨info, rendered, listed⟩⟩
    · obtain ⟨installable, passes, carried⟩ :=
        (safe.nameable pkg mem installed included leaf).resolve_left brought
      have unsuppressed : pkg.name ∉ suppressedMembers (host.withGroups rpm) ctx := by
        intro suppressed
        obtain ⟨info, rendered, listed, -⟩ := mem_suppressedMembers.mp suppressed
        rcases List.mem_append.mp listed with listed | optional
        · exact brought ⟨info, rendered, listed⟩
        · have brings := safe.optional_absent info rendered pkg.name optional installed
          exact brought ((@installedByGroup_iff host rpm ctx _).mp
            ⟨_, mem_renderableGroups_withGroups.mpr ⟨info, rendered, rfl⟩, brings⟩)
      exact .inl (namedInInstall_iff.mpr ⟨mem, installable, ⟨passes, unsuppressed⟩, carried⟩)

end

theorem isPackageName_plain : ∀ name ∈ ["Dev", "gcc", "strace"], IsPackageName name := by
  have checked : ∀ name ∈ ["Dev", "gcc", "strace"], name.toList ≠ [] ∧
      name.toList.all (fun c => Text.isWhitespace c = false ∧ c ≠ ':') := by decide
  intro name mem
  exact ⟨(checked name mem).1, Text.forall_of_all (checked name mem).2⟩

def devGroup : GroupInfo where
  name := "Dev"
  description := none
  mandatory := ["gcc"]
  default := []
  optional := ["strace"]
  conditional := []
  titled := ⟨(isPackageName_plain "Dev" (by decide)).isTitle, fun _ none => nomatch none⟩
  named := by
    intro p mem
    have sub : ["gcc"] ++ [] ++ ["strace"] ++ [] ⊆ ["Dev", "gcc", "strace"] := by decide
    exact isPackageName_plain p (sub mem)

def devHost : GroupHost where
  hostNames := ["gcc", "strace"]
  groupList := { stdout := "Installed Groups:\n   Dev\n" }
  infos := [devGroup]

def devPackages : RpmSection where
  packagesAdded :=
    [{ name := "strace", version := "6.4", release := "1", arch := "x86_64", sourceRepo := "baseos" }]
  leafPackages := some ["strace.x86_64"]

def devContext : RenderContext where
  groupStates := Finmap.singleton "Dev" .renderable
  verifiedUploads := ∅

/-- The group is installed as a group, and the package is in no install at all. -/
theorem optional_member_lost :
    ¬MembersAccounted devHost (devHost.withGroups devPackages) none (some devContext) := by
  intro accounted
  have state : groupStateOf (some devContext) devGroup.name = some .renderable :=
    Finmap.lookup_singleton_eq
  have asked : devHost.asks = true := by decide
  have rendered : devGroup ∈ devHost.renderedInfos (some devContext) := by
    rw [GroupHost.renderedInfos, if_pos asked]
    exact List.mem_filter.mpr ⟨List.mem_singleton_self _, by rw [state]; rfl⟩
  have suppressed : "strace" ∈ suppressedMembers (devHost.withGroups devPackages) (some devContext) :=
    mem_suppressedMembers.mpr ⟨devGroup, rendered, by decide, by decide⟩
  have missing : ¬∃ info ∈ devHost.renderedInfos (some devContext),
      "strace" ∈ info.mandatory ++ info.default := by
    rintro ⟨info, mem, brought⟩
    rw [List.mem_singleton.mp (mem_renderedInfos mem)] at brought
    exact absurd brought (by decide)
  rcases accounted.accounted _ (List.mem_singleton_self _) (by decide) rfl (by decide) with
    named | brought
  · exact (namedInInstall_iff.mp named).2.2.1.not_member suppressed
  · exact missing (installedByGroup_iff.mp brought.2)

end Inspectah
