import Inspectah.Aggregate.MergeLaws
import Inspectah.Core.HostState
import Inspectah.Library.FirstKnown

/-!
The users and the groups of several hosts. Objects of one name become one object: the
first, whose membership lists take in those of the later ones. A value's text, by which
lists are sorted, is a parameter.
-/
namespace Inspectah

open Grouping

def entryName (item : Json) : String := ((item.get "name").bind Json.asStr).getD ""

def pushNew (merged : List Json) (val : Json) : List Json :=
  if merged.contains val then merged else merged ++ [val]

def arrayAt (field : String) (item : Json) : Option (List Json) := (item.get field).bind Json.asArray

section Merge

variable (toText : Json → String)

def uniteLists (existingArr newArr : List Json) : List Json :=
  (newArr.foldl pushNew existingArr).insertionSort fun a b => toText a ≤ toText b

def uniteField (item existing : Json) (field : String) : Json :=
  match arrayAt field existing, arrayAt field item with
  | some existingArr, some newArr => Json.insert field (.arr (uniteLists toText existingArr newArr)) existing
  | _, _ => existing

def uniteFields (unionArrayFields : List String) (existing item : Json) : Json :=
  unionArrayFields.foldl (uniteField toText item) existing

def mergeItem (unionArrayFields : List String) (item : Json) :
    List (String × Json) → List (String × Json)
  | [] => [(entryName item, item)]
  | (name, existing) :: rest =>
    if name = entryName item then (name, uniteFields toText unionArrayFields existing item) :: rest
    else (name, existing) :: mergeItem unionArrayFields item rest

def mergeJsonByName (allLists : List (List Json)) (unionArrayFields : List String) : List Json :=
  let byName := allLists.flatten.foldl (fun byName item => mergeItem toText unionArrayFields item byName) []
  ((byName.map Prod.fst).insertionSort (· ≤ ·)).filterMap fun name => byName.lookup name

def USER_UNION_FIELDS : List String := ["groups", "secondary_groups"]
def GROUP_UNION_FIELDS : List String := ["members"]

/-- `users` and `groups` of `merge_usersgroups_sections`. -/
def mergeUsers (sections : List (Option UserGroupSection)) : List Json :=
  mergeJsonByName toText (sections.filterMap fun sec => sec.map (·.users)) USER_UNION_FIELDS

def mergeGroups (sections : List (Option UserGroupSection)) : List Json :=
  mergeJsonByName toText (sections.filterMap fun sec => sec.map (·.groups)) GROUP_UNION_FIELDS

end Merge

def USER_MEMBERSHIPS : List String := ["supplementary_groups", "groups", "secondary_groups"]
def GROUP_MEMBERSHIPS : List String := ["members"]

def listAt (field : String) (item : Json) : List Json := (arrayAt field item).getD []

def objectsNamed (items : List Json) (name : String) : List Json := rowsAt entryName items name

structure IsUnion (toText : Json → String) (values : List Json) (lists : List (List Json)) : Prop where
  once : values.Nodup
  sorted : values.Pairwise fun a b => toText a ≤ toText b
  same : ∀ v, v ∈ values ↔ ∃ list ∈ lists, v ∈ list

structure IdentitiesMerged (toText : Json → String) (memberships : List String)
    (items merged : List Json) : Prop where
  ordered : (merged.map entryName).Pairwise (· < ·)
  covers : ∀ name, name ∈ merged.map entryName ↔ ∃ item ∈ items, entryName item = name
  united : ∀ object ∈ merged, ∀ field ∈ memberships,
    IsUnion toText (listAt field object) ((objectsNamed items (entryName object)).map (listAt field))

def UnitedAt (unionArrayFields : List String) (field : String) (first : Json) (later : List Json) : Prop :=
  field ∈ unionArrayFields ∧ (arrayAt field first).isSome ∧ ∃ item ∈ later, (arrayAt field item).isSome

/-- The first object of each name repeats no value, and what is not united is sorted and
    complete in it. -/
def FirstHasAll (toText : Json → String) (unionArrayFields memberships : List String)
    (items : List Json) : Prop :=
  ∀ name first later, objectsNamed items name = first :: later → ∀ field ∈ memberships,
    (listAt field first).Nodup ∧
      (UnitedAt unionArrayFields field first later ∨
        ((listAt field first).Pairwise (fun a b => toText a ≤ toText b) ∧
          ∀ item ∈ later, ∀ v ∈ listAt field item, v ∈ listAt field first))

section Unite

variable {toText : Json → String}

theorem mem_pushNew {merged : List Json} {val v : Json} :
    v ∈ pushNew merged val ↔ v ∈ merged ∨ v = val := by
  unfold pushNew
  split
  · rename_i known
    constructor
    · exact .inl
    · rintro (old | rfl)
      · exact old
      · exact List.contains_iff_mem.mp known
  · simp

theorem nodup_pushNew {merged : List Json} {val : Json} : (pushNew merged val).Nodup ↔ merged.Nodup := by
  unfold pushNew
  split
  · rfl
  · rename_i fresh
    rw [List.nodup_append]
    constructor
    · exact fun all => all.1
    · intro once
      refine ⟨once, List.nodup_singleton val, ?_⟩
      rintro a mem b new rfl
      rw [List.mem_singleton.mp new] at mem
      exact fresh (List.contains_iff_mem.mpr mem)

theorem mem_uniteLists {existingArr newArr : List Json} {v : Json} :
    v ∈ uniteLists toText existingArr newArr ↔ v ∈ existingArr ∨ v ∈ newArr := by
  rw [uniteLists, List.mem_insertionSort]
  induction newArr generalizing existingArr with
  | nil => simp
  | cons val rest ih =>
    rw [List.foldl_cons, ih, mem_pushNew, List.mem_cons, or_assoc]

theorem nodup_uniteLists {existingArr newArr : List Json} :
    (uniteLists toText existingArr newArr).Nodup ↔ existingArr.Nodup := by
  rw [uniteLists, (List.perm_insertionSort _ _).nodup_iff]
  induction newArr generalizing existingArr with
  | nil => rfl
  | cons val rest ih => rw [List.foldl_cons, ih, nodup_pushNew]

theorem pairwise_uniteLists (existingArr newArr : List Json) :
    (uniteLists toText existingArr newArr).Pairwise fun a b => toText a ≤ toText b :=
  pairwise_sortBy toText _

theorem isObject_of_arrayAt {field : String} {item : Json} (has : (arrayAt field item).isSome) :
    item.isObject := by
  cases item with
  | obj fields => rfl
  | _ => cases has

theorem arrayAt_uniteField_self (item existing : Json) (field : String) :
    arrayAt field (uniteField toText item existing field) =
      match arrayAt field existing, arrayAt field item with
      | some existingArr, some newArr => some (uniteLists toText existingArr newArr)
      | _, _ => arrayAt field existing := by
  rw [uniteField]
  cases old : arrayAt field existing with
  | none => simp [old]
  | some existingArr =>
    cases new : arrayAt field item with
    | none => simp [old]
    | some newArr =>
      have object : existing.isObject := isObject_of_arrayAt (by rw [old]; rfl)
      rw [arrayAt, get_insert_self object]
      rfl

theorem get_uniteField_ne {field other : String} (apart : field ≠ other) (item existing : Json) :
    (uniteField toText item existing field).get other = existing.get other := by
  rw [uniteField]
  split
  · exact get_insert_ne apart existing
  · rfl

theorem get_uniteFields {unionArrayFields : List String} {other : String}
    (apart : other ∉ unionArrayFields) (existing item : Json) :
    (uniteFields toText unionArrayFields existing item).get other = existing.get other := by
  induction unionArrayFields generalizing existing with
  | nil => rfl
  | cons field rest ih =>
    rw [List.mem_cons, not_or] at apart
    rw [uniteFields, List.foldl_cons, ← uniteFields, ih apart.2,
      get_uniteField_ne (fun same => apart.1 same.symm)]

theorem arrayAt_uniteFields {unionArrayFields : List String} {field : String}
    (once : unionArrayFields.Nodup) (united : field ∈ unionArrayFields) (existing item : Json) :
    arrayAt field (uniteFields toText unionArrayFields existing item) =
      match arrayAt field existing, arrayAt field item with
      | some existingArr, some newArr => some (uniteLists toText existingArr newArr)
      | _, _ => arrayAt field existing := by
  induction unionArrayFields generalizing existing with
  | nil => cases united
  | cons first rest ih =>
    rw [List.nodup_cons] at once
    rw [uniteFields, List.foldl_cons, ← uniteFields]
    by_cases here : first = field
    · subst here
      rw [arrayAt, get_uniteFields once.1, ← arrayAt, arrayAt_uniteField_self]
    · have there : field ∈ rest := by
        rcases List.mem_cons.mp united with same | there
        · exact absurd same.symm here
        · exact there
      have still : arrayAt field (uniteField toText item existing first) = arrayAt field existing := by
        rw [arrayAt, get_uniteField_ne here, ← arrayAt]
      rw [ih once.2 there, still]

/-- What the objects of a name become. -/
def mergeNamed (toText : Json → String) (unionArrayFields : List String) : List Json → Json
  | [] => .null
  | first :: later => later.foldl (uniteFields toText unionArrayFields) first

variable {unionArrayFields : List String}

theorem get_mergeNamed {other : String} (apart : other ∉ unionArrayFields) (first : Json)
    (later : List Json) :
    (mergeNamed toText unionArrayFields (first :: later)).get other = first.get other := by
  rw [mergeNamed]
  induction later generalizing first with
  | nil => rfl
  | cons item rest ih => rw [List.foldl_cons, ih, get_uniteFields apart]

theorem arrayAt_mergeNamed {field : String} (once : unionArrayFields.Nodup)
    (united : field ∈ unionArrayFields) (first : Json) (later : List Json) :
    arrayAt field (mergeNamed toText unionArrayFields (first :: later)) =
      (arrayAt field first).map fun values =>
        (later.filterMap (arrayAt field)).foldl (uniteLists toText) values := by
  rw [mergeNamed]
  induction later generalizing first with
  | nil => simp
  | cons item rest ih =>
    rw [List.foldl_cons, ih, arrayAt_uniteFields once united]
    cases arrayAt field first <;> cases new : arrayAt field item <;> simp [new]

theorem mem_foldl_uniteLists {values : List Json} {lists : List (List Json)} {v : Json} :
    v ∈ lists.foldl (uniteLists toText) values ↔ v ∈ values ∨ ∃ list ∈ lists, v ∈ list := by
  induction lists generalizing values with
  | nil => simp
  | cons list rest ih =>
    rw [List.foldl_cons, ih, mem_uniteLists]
    simp [or_assoc]

theorem nodup_foldl_uniteLists {values : List Json} {lists : List (List Json)} :
    (lists.foldl (uniteLists toText) values).Nodup ↔ values.Nodup := by
  induction lists generalizing values with
  | nil => rfl
  | cons list rest ih => rw [List.foldl_cons, ih, nodup_uniteLists]

theorem pairwise_foldl_uniteLists (values : List Json) {lists : List (List Json)} (some_list : lists ≠ []) :
    (lists.foldl (uniteLists toText) values).Pairwise fun a b => toText a ≤ toText b := by
  cases lists using List.reverseRecOn with
  | nil => exact absurd rfl some_list
  | append_singleton lists list =>
    rw [List.foldl_append]
    exact pairwise_uniteLists _ list

theorem mem_listAt {field : String} {item v : Json} :
    v ∈ listAt field item ↔ ∃ values, arrayAt field item = some values ∧ v ∈ values := by
  rw [listAt]
  cases arrayAt field item <;> simp

theorem listAt_mergeNamed {field : String} {first : Json} {later : List Json}
    (once : unionArrayFields.Nodup) (alone : ¬ UnitedAt unionArrayFields field first later) :
    listAt field (mergeNamed toText unionArrayFields (first :: later)) = listAt field first := by
  by_cases united : field ∈ unionArrayFields
  · rw [listAt, arrayAt_mergeNamed once united, listAt]
    cases has : arrayAt field first with
    | none => rfl
    | some values =>
      have none_later : later.filterMap (arrayAt field) = [] := by
        rw [List.filterMap_eq_nil_iff]
        intro item mem
        by_contra there
        exact alone ⟨united, by rw [has]; rfl, item, mem, Option.isSome_iff_ne_none.mpr there⟩
      rw [none_later]
      rfl
  · rw [listAt, arrayAt, get_mergeNamed united, ← arrayAt, listAt]

theorem isUnion_mergeNamed_iff {field : String} {first : Json} {later : List Json}
    (once : unionArrayFields.Nodup) :
    IsUnion toText (listAt field (mergeNamed toText unionArrayFields (first :: later)))
        ((first :: later).map (listAt field)) ↔
      (listAt field first).Nodup ∧
        (UnitedAt unionArrayFields field first later ∨
          ((listAt field first).Pairwise (fun a b => toText a ≤ toText b) ∧
            ∀ item ∈ later, ∀ v ∈ listAt field item, v ∈ listAt field first)) := by
  by_cases joined : UnitedAt unionArrayFields field first later
  · obtain ⟨united, has, item, mem, there⟩ := joined
    obtain ⟨values, has⟩ := Option.isSome_iff_exists.mp has
    obtain ⟨more, there⟩ := Option.isSome_iff_exists.mp there
    have some_list : later.filterMap (arrayAt field) ≠ [] :=
      List.ne_nil_of_mem (List.mem_filterMap.mpr ⟨item, mem, there⟩)
    have list : listAt field (mergeNamed toText unionArrayFields (first :: later)) =
        (later.filterMap (arrayAt field)).foldl (uniteLists toText) values := by
      rw [listAt, arrayAt_mergeNamed once united, has]
      rfl
    have own : listAt field first = values := by rw [listAt, has]; rfl
    rw [list, own]
    constructor
    · intro union
      exact ⟨nodup_foldl_uniteLists.mp union.once, .inl ⟨united, by rw [has]; rfl, item, mem, by rw [there]; rfl⟩⟩
    · rintro ⟨distinct, -⟩
      refine ⟨nodup_foldl_uniteLists.mpr distinct, pairwise_foldl_uniteLists values some_list, ?_⟩
      intro v
      rw [mem_foldl_uniteLists, List.map_cons, own]
      constructor
      · rintro (inside | ⟨list, listed, inside⟩)
        · exact ⟨values, List.mem_cons_self, inside⟩
        · obtain ⟨other, listed, is⟩ := List.mem_filterMap.mp listed
          have same : listAt field other = list := by rw [listAt, is]; rfl
          exact ⟨list, List.mem_cons_of_mem _ (List.mem_map.mpr ⟨other, listed, same⟩), inside⟩
      · rintro ⟨list, listed, inside⟩
        rcases List.mem_cons.mp listed with rfl | listed
        · exact .inl inside
        · obtain ⟨other, there, rfl⟩ := List.mem_map.mp listed
          obtain ⟨list, is, inside⟩ := mem_listAt.mp inside
          exact .inr ⟨list, List.mem_filterMap.mpr ⟨other, there, is⟩, inside⟩
  · rw [listAt_mergeNamed once joined]
    constructor
    · intro union
      refine ⟨union.once, .inr ⟨union.sorted, fun item mem v inside => (union.same v).mpr ?_⟩⟩
      exact ⟨_, List.mem_map_of_mem (List.mem_cons_of_mem _ mem), inside⟩
    · rintro ⟨distinct, joined' | ⟨sorted, all⟩⟩
      · exact absurd joined' joined
      · refine ⟨distinct, sorted, fun v => ⟨fun inside => ?_, ?_⟩⟩
        · exact ⟨_, List.mem_cons_self, inside⟩
        · rintro ⟨list, mem, inside⟩
          obtain ⟨item, listed, rfl⟩ := List.mem_map.mp mem
          rcases List.mem_cons.mp listed with rfl | listed
          · exact inside
          · exact all item listed v inside

theorem mergeNamed_concat {objects : List Json} (occupied : objects ≠ []) (item : Json) :
    mergeNamed toText unionArrayFields (objects ++ [item]) =
      uniteFields toText unionArrayFields (mergeNamed toText unionArrayFields objects) item := by
  cases objects with
  | nil => exact absurd rfl occupied
  | cons first later => rw [List.cons_append, mergeNamed, List.foldl_append]; rfl

theorem mergeItem_push (item : Json) {table : List (String × List Json)}
    (occupied : ∀ group ∈ table, group.2 ≠ []) :
    mergeItem toText unionArrayFields item
        (table.map fun group => (group.1, mergeNamed toText unionArrayFields group.2)) =
      (push entryName item table).map fun group =>
        (group.1, mergeNamed toText unionArrayFields group.2) := by
  induction table with
  | nil => rfl
  | cons group rest ih =>
    obtain ⟨name, objects⟩ := group
    obtain ⟨first, others⟩ := List.forall_mem_cons.mp occupied
    by_cases here : name = entryName item
    · simp only [List.map_cons, mergeItem, push, if_pos here, mergeNamed_concat first]
    · simp only [List.map_cons, mergeItem, push, if_neg here, ih others]

theorem byName_eq (items : List Json) :
    items.foldl (fun byName item => mergeItem toText unionArrayFields item byName) [] =
      (groupBy entryName items).map fun group =>
        (group.1, mergeNamed toText unionArrayFields group.2) := by
  induction items using List.reverseRecOn with
  | nil => rfl
  | append_singleton items item ih =>
    have table : groupBy entryName (items ++ [item]) = push entryName item (groupBy entryName items) := by
      rw [groupBy, List.foldl_append]
      rfl
    rw [List.foldl_append, ih, List.foldl_cons, List.foldl_nil, table]
    exact mergeItem_push item fun group mem => ne_nil_of_mem_groupBy mem

def orderedNames (items : List Json) : List String :=
  ((groupBy entryName items).map Prod.fst).insertionSort (· ≤ ·)

theorem mem_orderedNames {items : List Json} {name : String} :
    name ∈ orderedNames items ↔ ∃ item ∈ items, entryName item = name := by
  rw [orderedNames, List.mem_insertionSort, (groupBy_firstSeen items).covers, List.mem_map]

theorem orderedNames_sorted (items : List Json) : (orderedNames items).Pairwise (· < ·) := by
  have distinct : (orderedNames items).Nodup :=
    (List.perm_insertionSort _ _).nodup_iff.mpr (groupBy_firstSeen items).nodup
  exact (List.pairwise_insertionSort (· ≤ ·) _).imp₂ (fun a b below ne => lt_of_le_of_ne below ne)
    distinct

theorem mergeJsonByName_eq (allLists : List (List Json)) :
    mergeJsonByName toText allLists unionArrayFields =
      (orderedNames allLists.flatten).map fun name =>
        mergeNamed toText unionArrayFields (objectsNamed allLists.flatten name) := by
  rw [mergeJsonByName, byName_eq]
  have keys : ((groupBy entryName allLists.flatten).map fun group =>
      (group.1, mergeNamed toText unionArrayFields group.2)).map Prod.fst =
        (groupBy entryName allLists.flatten).map Prod.fst := by
    rw [List.map_map]
    rfl
  simp only [keys]
  rw [← orderedNames, ← @List.filterMap_eq_map _ _ (fun name =>
    mergeNamed toText unionArrayFields (objectsNamed allLists.flatten name))]
  apply List.filterMap_congr
  intro name mem
  apply FirstKnown.lookup_of_mem
  · rw [keys]
    exact (groupBy_firstSeen allLists.flatten).nodup
  · refine List.mem_map.mpr ⟨(name, objectsNamed allLists.flatten name), mem_groupBy.mpr ⟨?_, rfl⟩, rfl⟩
    exact mem_orderedNames.mp mem

theorem named_cons {items : List Json} {name : String} (listed : ∃ item ∈ items, entryName item = name) :
    ∃ first later, objectsNamed items name = first :: later ∧ entryName first = name := by
  obtain ⟨item, mem, same⟩ := listed
  obtain ⟨first, later, cut⟩ := List.exists_cons_of_ne_nil
    (List.ne_nil_of_mem (mem_rowsAt.mpr ⟨mem, same⟩ : item ∈ objectsNamed items name))
  have there : first ∈ objectsNamed items name := by
    rw [objectsNamed, cut]
    exact List.mem_cons_self
  exact ⟨first, later, cut, (mem_rowsAt.mp there).2⟩

theorem entryName_mergeNamed {items : List Json} {name : String} (unnamed : "name" ∉ unionArrayFields)
    (listed : ∃ item ∈ items, entryName item = name) :
    entryName (mergeNamed toText unionArrayFields (objectsNamed items name)) = name := by
  obtain ⟨first, later, cut, own⟩ := named_cons listed
  rw [cut, entryName, get_mergeNamed unnamed, ← entryName, own]

theorem identitiesMerged_iff (once : unionArrayFields.Nodup) (unnamed : "name" ∉ unionArrayFields)
    (memberships : List String) (allLists : List (List Json)) :
    IdentitiesMerged toText memberships allLists.flatten
        (mergeJsonByName toText allLists unionArrayFields) ↔
      FirstHasAll toText unionArrayFields memberships allLists.flatten := by
  have names : (mergeJsonByName toText allLists unionArrayFields).map entryName =
      orderedNames allLists.flatten := by
    rw [mergeJsonByName_eq, List.map_map]
    apply (List.map_congr_left ?_).trans (List.map_id _)
    intro name mem
    exact entryName_mergeNamed unnamed (mem_orderedNames.mp mem)
  constructor
  · intro law name first later cut field listed
    have known : ∃ item ∈ allLists.flatten, entryName item = name := by
      have there : first ∈ objectsNamed allLists.flatten name := by
        rw [cut]
        exact List.mem_cons_self
      exact ⟨first, mem_rowsAt.mp there⟩
    have object : mergeNamed toText unionArrayFields (objectsNamed allLists.flatten name) ∈
        mergeJsonByName toText allLists unionArrayFields := by
      rw [mergeJsonByName_eq]
      exact List.mem_map_of_mem (mem_orderedNames.mpr known)
    have union := law.united _ object field listed
    rw [entryName_mergeNamed unnamed known, cut] at union
    exact (isUnion_mergeNamed_iff once).mp union
  · intro settled
    refine ⟨names ▸ orderedNames_sorted _, fun name => ?_, fun object mem field listed => ?_⟩
    · rw [names, mem_orderedNames]
    · rw [mergeJsonByName_eq] at mem
      obtain ⟨name, known, rfl⟩ := List.mem_map.mp mem
      have known := mem_orderedNames.mp known
      obtain ⟨first, later, cut, -⟩ := named_cons known
      rw [entryName_mergeNamed unnamed known, cut]
      exact (isUnion_mergeNamed_iff once).mpr (settled name first later cut field listed)

end Unite

def allUsers (sections : List (Option UserGroupSection)) : List Json :=
  (sections.filterMap fun sec => sec.map (·.users)).flatten

def allGroups (sections : List (Option UserGroupSection)) : List Json :=
  (sections.filterMap fun sec => sec.map (·.groups)).flatten

theorem identities_united_iff (toText : Json → String) (sections : List (Option UserGroupSection)) :
    (IdentitiesMerged toText USER_MEMBERSHIPS (allUsers sections) (mergeUsers toText sections) ∧
      IdentitiesMerged toText GROUP_MEMBERSHIPS (allGroups sections) (mergeGroups toText sections)) ↔
    FirstHasAll toText USER_UNION_FIELDS USER_MEMBERSHIPS (allUsers sections) ∧
      FirstHasAll toText GROUP_UNION_FIELDS GROUP_MEMBERSHIPS (allGroups sections) :=
  and_congr (identitiesMerged_iff (by decide) (by decide) _ _)
    (identitiesMerged_iff (by decide) (by decide) _ _)

def userOf (name : String) (supplementary : List String) : Json :=
  .obj [("name", .str name), ("supplementary_groups", .arr (supplementary.map .str))]

def stringText : Json → String
  | .str s => s.quote
  | _ => ""

/-- The second host's group is lost. -/
theorem supplementary_group_lost :
    ¬ IdentitiesMerged stringText USER_MEMBERSHIPS
      (allUsers [some { users := [userOf "alice" ["wheel"]] }, some { users := [userOf "alice" ["docker"]] }])
      (mergeUsers stringText
        [some { users := [userOf "alice" ["wheel"]] }, some { users := [userOf "alice" ["docker"]] }]) := by
  intro law
  have kept : userOf "alice" ["wheel"] ∈ mergeUsers stringText
      [some { users := [userOf "alice" ["wheel"]] }, some { users := [userOf "alice" ["docker"]] }] := by
    decide +kernel
  have union := law.united _ kept "supplementary_groups" (by decide)
  have lost := (union.same (.str "docker")).mpr
    ⟨[.str "docker"], by decide +kernel, List.mem_cons_self⟩
  exact absurd lost (by decide +kernel)

end Inspectah
