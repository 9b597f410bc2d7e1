import Inspectah.Collect.Executor
import Inspectah.Core.HostFiles
import Inspectah.Core.Text
import Inspectah.Library.FirstKnown

/-!
The overrides of service units a scan records: the drop-ins of a unit, and the units of
the administrator's directory that stand in for one of a package.
-/
namespace Inspectah

open FirstKnown (lookup_of_mem mem_of_lookup)

/-- The entries of `/etc/systemd/system` and its directories, what files there read as, and
    which names are files or directories. -/
structure UnitHost where
  entries : DirRead
  dirEntries : String → Option (List String)
  readDropIn : String → String → Option String
  readUnit : String → Option String
  isEtcFile : String → Bool
  isVendorFile : String → Bool
  isDropInDir : String → Bool

def etcPath (name : String) : String := "/etc/systemd/system/" ++ name

/-- The rows found, and the paths that could not be read. -/
structure Overrides where
  rows : List SystemdDropIn := []
  failures : List String := []

instance : Append Overrides where
  append a b := ⟨a.rows ++ b.rows, a.failures ++ b.failures⟩

def gatherOverrides (parts : List Overrides) : Overrides := parts.foldr (· ++ ·) {}

def detectShadowType (host : UnitHost) (unit : String) : Option ShadowType :=
  if host.isEtcFile unit && host.isVendorFile unit then some .fullShadow
  else if !host.isEtcFile unit && host.isDropInDir (unit ++ ".d") then some .dropIn
  else none

def dropInRow (host : UnitHost) (entry unit conf : String) : Overrides :=
  match host.readDropIn entry conf with
  | none => { failures := [etcPath entry ++ "/" ++ conf] }
  | some content =>
    { rows := [{
        unit := unit
        path := etcPath entry ++ "/" ++ conf
        content := content
        shadowType := detectShadowType host unit
        shadowRationale :=
          if detectShadowType host unit = some .fullShadow then
            some "Full unit shadow — base image updates to this unit will be silently ignored"
          else none }] }

def trimEnds (suffix : List Char) : Nat → List Char → List Char
  | 0, cs => cs
  | n + 1, cs =>
    if suffix.isSuffixOf cs then trimEnds suffix n (cs.take (cs.length - suffix.length)) else cs

/-- `trim_end_matches`, of a suffix that is not empty. -/
def trimEndMatches (suffix cs : List Char) : List Char := trimEnds suffix cs.length cs

def unitOfDir (entry : String) : String := String.ofList (trimEndMatches ".d".toList entry.toList)

def dropInsOf (host : UnitHost) (entry : String) : Overrides :=
  if Text.endsWith entry ".service.d" then
    match host.dirEntries entry with
    | none => { failures := [etcPath entry] }
    | some confs => gatherOverrides ((confs.filter (Text.endsWith · ".conf")).map
        (dropInRow host entry (unitOfDir entry)))
  else {}

def collectDropIns (host : UnitHost) : Overrides :=
  match host.entries with
  | .entries names => gatherOverrides (names.map (dropInsOf host))
  | .missing => {}
  | .denied => { failures := ["/etc/systemd/system"] }

def shadowRow (host : UnitHost) (unit : String) : Overrides :=
  match host.readUnit unit with
  | none => { failures := [etcPath unit] }
  | some content =>
    { rows := [{
        unit := unit
        path := etcPath unit
        content := content
        shadowType := some .fullShadow
        shadowRationale := some ("Full shadow: this unit file in /etc/systemd/system/ overrides " ++
          "the vendor unit in /usr/lib/systemd/system/. Base image updates " ++
          "to this unit will be silently ignored.") }] }

def changedShadows (host : UnitHost) (dropIns : Overrides) (changed : List String) : Overrides :=
  gatherOverrides ((changed.filter fun unit => !(dropIns.rows.map (·.unit)).contains unit &&
    detectShadowType host unit == some .fullShadow).map (shadowRow host))

def listedShadows (host : UnitHost) (found : Overrides) : Overrides :=
  match host.entries with
  | .entries names => gatherOverrides ((names.filter fun entry =>
      Text.endsWith entry ".service" && !(found.rows.map (·.unit)).contains entry &&
        host.isVendorFile entry).map (shadowRow host))
  | _ => {}

def unitOverrides (host : UnitHost) (changed : List String) : Overrides :=
  let dropIns := collectDropIns host
  let found := dropIns ++ changedShadows host dropIns changed
  found ++ listedShadows host found

/-- An entry of `/etc/systemd/system`; what has no content cannot be read. -/
inductive EtcEntry where
  | file (content : Option String)
  | toNull
  | toFile (content : Option String)
  | dangling
  | dir (files : List (String × Option String))
  deriving DecidableEq

structure UnitTree where
  etc : List (String × EtcEntry)
  vendor : List String
  names : (etc.map (·.1)).Nodup
  plain : ∀ entry ∈ etc, '/' ∉ entry.1.toList
  fileNames : ∀ entry ∈ etc, ∀ files, entry.2 = .dir files → (files.map (·.1)).Nodup

/-- A link is followed, and what `/dev/null` reads as is empty. -/
def EtcEntry.read : EtcEntry → Option String
  | file content => content
  | toNull => some ""
  | toFile content => content
  | _ => none

def EtcEntry.isFile : EtcEntry → Bool
  | file _ => true
  | toFile _ => true
  | _ => false

def EtcEntry.files : EtcEntry → Option (List (String × Option String))
  | dir files => some files
  | _ => none

def UnitTree.host (tree : UnitTree) : UnitHost where
  entries := .entries (tree.etc.map (·.1))
  dirEntries name := ((tree.etc.lookup name).bind (·.files)).map fun files => files.map (·.1)
  readDropIn name conf := ((tree.etc.lookup name).bind (·.files)).bind fun files =>
    (files.lookup conf).join
  readUnit name := (tree.etc.lookup name).bind (·.read)
  isEtcFile name := (tree.etc.lookup name).any (·.isFile)
  isVendorFile name := tree.vendor.contains name
  isDropInDir name := ((tree.etc.lookup name).bind (·.files)).isSome

def IsRecorded (rows : List SystemdDropIn) (unit path content : String) : Prop :=
  ∃ row, rows.filter (·.path == path) = [row] ∧ row.unit = unit ∧ row.content = content

structure OverridesRecorded (tree : UnitTree) (rows : List SystemdDropIn) : Prop where
  dropIns : ∀ unit files conf content, Text.endsWith unit ".service" →
    (unit ++ ".d", .dir files) ∈ tree.etc → (conf, some content) ∈ files →
    Text.endsWith conf ".conf" → IsRecorded rows unit (etcPath (unit ++ ".d") ++ "/" ++ conf) content
  shadows : ∀ unit content, Text.endsWith unit ".service" → (unit, .file (some content)) ∈ tree.etc →
    unit ∈ tree.vendor → IsRecorded rows unit (etcPath unit) content ∧
      ∀ row ∈ rows, row.path = etcPath unit → row.shadowType = some .fullShadow
  links : ∀ unit, Text.endsWith unit ".service" →
    ((unit, .toNull) ∈ tree.etc ∨ ∃ content, (unit, .toFile content) ∈ tree.etc) →
    ∀ row ∈ rows, row.path ≠ etcPath unit

def HasDropIn (tree : UnitTree) (unit : String) : Prop :=
  ∃ files, (unit ++ ".d", .dir files) ∈ tree.etc ∧ ∃ file ∈ files, Text.endsWith file.1 ".conf" = true

def ShadowsApart (tree : UnitTree) : Prop :=
  ∀ unit entry, Text.endsWith unit ".service" → (unit, entry) ∈ tree.etc → unit ∈ tree.vendor →
    match entry with
    | .file (some _) => ¬ HasDropIn tree unit
    | .toNull => HasDropIn tree unit
    | .toFile _ => HasDropIn tree unit
    | _ => True

theorem rows_gatherOverrides (parts : List Overrides) :
    (gatherOverrides parts).rows = parts.flatMap (·.rows) := by
  induction parts with
  | nil => rfl
  | cons first rest ih => exact congrArg (first.rows ++ ·) ih

theorem failures_gatherOverrides (parts : List Overrides) :
    (gatherOverrides parts).failures = parts.flatMap (·.failures) := by
  induction parts with
  | nil => rfl
  | cons first rest ih => exact congrArg (first.failures ++ ·) ih

@[simp] theorem rows_append (a b : Overrides) : (a ++ b).rows = a.rows ++ b.rows := rfl

@[simp] theorem failures_append (a b : Overrides) : (a ++ b).failures = a.failures ++ b.failures := rfl

theorem filter_path {rows : List SystemdDropIn} (nodup : (rows.map (·.path)).Nodup)
    {row : SystemdDropIn} (mem : row ∈ rows) : rows.filter (·.path == row.path) = [row] := by
  obtain ⟨front, back, rfl⟩ := List.append_of_mem mem
  rw [List.map_append, List.map_cons, List.nodup_append] at nodup
  have before : front.filter (·.path == row.path) = [] := by
    rw [List.filter_eq_nil_iff]
    intro other hother same
    exact nodup.2.2 other.path (List.mem_map_of_mem hother) row.path (List.mem_cons_self ..)
      (beq_iff_eq.mp same)
  have after : back.filter (·.path == row.path) = [] := by
    rw [List.filter_eq_nil_iff]
    intro other hother same
    exact (List.nodup_cons.mp nodup.2.1).1 (beq_iff_eq.mp same ▸ List.mem_map_of_mem hother)
  simp [List.filter_append, before, after]

theorem isRecorded_iff {rows : List SystemdDropIn} (nodup : (rows.map (·.path)).Nodup)
    {unit path content : String} : IsRecorded rows unit path content ↔
      ∃ row ∈ rows, row.path = path ∧ row.unit = unit ∧ row.content = content := by
  constructor
  · rintro ⟨row, only, own⟩
    have mem : row ∈ rows.filter (·.path == path) := by
      rw [only]
      exact List.mem_singleton_self row
    obtain ⟨mem, same⟩ := List.mem_filter.mp mem
    exact ⟨row, mem, beq_iff_eq.mp same, own⟩
  · rintro ⟨row, mem, rfl, own⟩
    exact ⟨row, filter_path nodup mem, own⟩

theorem endsWith_dir {entry : String} :
    Text.endsWith entry ".service.d" = true ↔
      ∃ unit, entry = unit ++ ".d" ∧ Text.endsWith unit ".service" = true := by
  simp only [endsWith_iff]
  have whole : ".service.d" = ".service" ++ ".d" := by decide
  constructor
  · rintro ⟨before, rfl⟩
    exact ⟨before ++ ".service", by rw [whole, String.append_assoc], before, rfl⟩
  · rintro ⟨unit, rfl, before, rfl⟩
    exact ⟨before, by rw [whole, String.append_assoc]⟩

theorem unitOfDir_eq {unit : String} (service : Text.endsWith unit ".service" = true) :
    unitOfDir (unit ++ ".d") = unit := by
  obtain ⟨before, rfl⟩ := endsWith_iff.mp service
  have stop : ∀ n, trimEnds ".d".toList n (before ++ ".service").toList =
      (before ++ ".service").toList := by
    intro n
    cases n with
    | zero => rfl
    | succ n =>
      rw [trimEnds, if_neg]
      intro suffix
      have last := List.isSuffixOf_iff_suffix.mp suffix
      rw [String.toList_append] at last
      have other : ['d'] <:+ before.toList ++ ".service".toList :=
        List.IsSuffix.trans ⟨['.'], rfl⟩ last
      obtain ⟨front, same⟩ := other
      have ends := congrArg List.getLast? same
      rw [List.getLast?_append_of_ne_nil _ (by decide), List.getLast?_append_of_ne_nil _ (by decide)]
        at ends
      exact absurd ends (by decide)
  have one : ".d".toList.isSuffixOf (before ++ ".service" ++ ".d").toList = true := by
    rw [List.isSuffixOf_iff_suffix, String.toList_append]
    exact List.suffix_append _ _
  have cut : (before ++ ".service" ++ ".d").toList.take
      ((before ++ ".service" ++ ".d").toList.length - ".d".toList.length) =
      (before ++ ".service").toList := by
    rw [@String.toList_append (before ++ ".service"), List.length_append, Nat.add_sub_cancel,
      List.take_left]
  have long : (before ++ ".service" ++ ".d").toList.length =
      (before ++ ".service").toList.length + 1 + 1 := by
    rw [@String.toList_append (before ++ ".service"), List.length_append]
    rfl
  rw [unitOfDir, trimEndMatches, long, trimEnds, if_pos one, cut, stop, String.ofList_toList]

theorem cut_inj {a b c d : List Char} (ha : '/' ∉ a) (hb : '/' ∉ b)
    (same : a ++ '/' :: c = b ++ '/' :: d) : a = b ∧ c = d := by
  induction a generalizing b with
  | nil =>
    cases b with
    | nil => exact ⟨rfl, (List.cons.inj same).2⟩
    | cons x xs =>
      obtain rfl := (List.cons.inj same).1
      exact absurd (List.mem_cons_self ..) hb
  | cons x xs ih =>
    cases b with
    | nil =>
      obtain rfl := (List.cons.inj same).1
      exact absurd (List.mem_cons_self ..) ha
    | cons y ys =>
      obtain ⟨rfl, tail⟩ := List.cons.inj same
      obtain ⟨rfl, rest⟩ := ih (fun h => ha (List.mem_cons_of_mem _ h))
        (fun h => hb (List.mem_cons_of_mem _ h)) tail
      exact ⟨rfl, rest⟩

theorem etcPath_chars : ∃ base : List Char, ∀ name, (etcPath name).toList = base ++ name.toList :=
  ⟨_, fun _ => String.toList_append⟩

theorem dropInPath_chars : ∃ base : List Char, ∀ entry conf,
    (etcPath entry ++ "/" ++ conf).toList = base ++ (entry.toList ++ '/' :: conf.toList) ∧
      (etcPath entry).toList = base ++ entry.toList := by
  obtain ⟨base, chars⟩ := etcPath_chars
  have slash : "/".toList = ['/'] := rfl
  refine ⟨base, fun entry conf => ⟨?_, chars entry⟩⟩
  rw [String.toList_append, String.toList_append, chars, slash, List.append_assoc, List.append_assoc]
  rfl

theorem dropInPath_inj {entry entry' conf conf' : String} (h : '/' ∉ entry.toList)
    (h' : '/' ∉ entry'.toList)
    (same : etcPath entry ++ "/" ++ conf = etcPath entry' ++ "/" ++ conf') :
    entry = entry' ∧ conf = conf' := by
  obtain ⟨base, chars⟩ := dropInPath_chars
  rw [← String.toList_inj, (chars _ _).1, (chars _ _).1, List.append_cancel_left_eq] at same
  obtain ⟨first, second⟩ := cut_inj h h' same
  exact ⟨String.toList_inj.mp first, String.toList_inj.mp second⟩

theorem dropInPath_ne {entry unit conf : String} (plain : '/' ∉ unit.toList) :
    etcPath entry ++ "/" ++ conf ≠ etcPath unit := by
  intro same
  obtain ⟨base, chars⟩ := dropInPath_chars
  rw [← String.toList_inj, (chars entry conf).1, (chars unit conf).2, List.append_cancel_left_eq] at same
  exact plain (same ▸ by simp)

theorem etcPath_inj {a b : String} (same : etcPath a = etcPath b) : a = b := by
  obtain ⟨base, chars⟩ := etcPath_chars
  rw [← String.toList_inj, chars, chars, List.append_cancel_left_eq] at same
  exact String.toList_inj.mp same

theorem nodup_gatherOverrides {ι : Type} {xs : List ι} (f : ι → Overrides) (nodup : xs.Nodup)
    (each : ∀ x ∈ xs, ((f x).rows.map (·.path)).Nodup)
    (apart : ∀ x ∈ xs, ∀ y ∈ xs, ∀ r ∈ (f x).rows, ∀ s ∈ (f y).rows, r.path = s.path → x = y) :
    ((gatherOverrides (xs.map f)).rows.map (·.path)).Nodup := by
  rw [rows_gatherOverrides, List.flatMap_map, List.map_flatMap, List.nodup_flatMap]
  refine ⟨each, nodup.imp_of_mem fun {x y} hx hy other => ?_⟩
  intro path hpath hpath'
  obtain ⟨r, hr, rfl⟩ := List.mem_map.mp hpath
  obtain ⟨s, hs, same⟩ := List.mem_map.mp hpath'
  exact other (apart x hx y hy r hr s hs same.symm)

theorem dropInRow_rows {host : UnitHost} {entry unit conf : String} {row : SystemdDropIn}
    (h : row ∈ (dropInRow host entry unit conf).rows) :
    row.path = etcPath entry ++ "/" ++ conf ∧ row.unit = unit ∧
      host.readDropIn entry conf = some row.content := by
  unfold dropInRow at h
  split at h
  next => cases h
  next content read =>
    obtain rfl := List.mem_singleton.mp h
    exact ⟨rfl, rfl, read⟩

theorem dropInRow_nodup (host : UnitHost) (entry unit conf : String) :
    ((dropInRow host entry unit conf).rows.map (·.path)).Nodup := by
  unfold dropInRow
  split
  · exact List.nodup_nil
  · exact List.nodup_singleton _

theorem shadowRow_rows {host : UnitHost} {unit : String} {row : SystemdDropIn}
    (h : row ∈ (shadowRow host unit).rows) :
    row.path = etcPath unit ∧ row.unit = unit ∧ host.readUnit unit = some row.content ∧
      row.shadowType = some .fullShadow := by
  unfold shadowRow at h
  split at h
  next => cases h
  next content read =>
    obtain rfl := List.mem_singleton.mp h
    exact ⟨rfl, rfl, read, rfl⟩

theorem shadowRow_nodup (host : UnitHost) (unit : String) :
    ((shadowRow host unit).rows.map (·.path)).Nodup := by
  unfold shadowRow
  split
  · exact List.nodup_nil
  · exact List.nodup_singleton _

theorem shadowRow_read {host : UnitHost} {unit : String} (clean : (shadowRow host unit).failures = []) :
    ∃ row ∈ (shadowRow host unit).rows, True := by
  unfold shadowRow at clean ⊢
  split
  next read => simp [read] at clean
  next => exact ⟨_, List.mem_singleton_self _, trivial⟩

section

variable (tree : UnitTree)

theorem mem_dropInsOf {entry : String} {row : SystemdDropIn}
    (h : row ∈ (dropInsOf tree.host entry).rows) : ∃ unit files, entry = unit ++ ".d" ∧
      Text.endsWith unit ".service" = true ∧ (entry, .dir files) ∈ tree.etc ∧ row.unit = unit ∧
      ∃ conf content, (conf, some content) ∈ files ∧ Text.endsWith conf ".conf" = true ∧
        row.path = etcPath entry ++ "/" ++ conf ∧ row.content = content := by
  unfold dropInsOf at h
  split at h
  next dir =>
    obtain ⟨unit, rfl, service⟩ := endsWith_dir.mp dir
    split at h
    next => cases h
    next confs listed =>
      rw [rows_gatherOverrides, List.mem_flatMap] at h
      obtain ⟨part, hpart, hrow⟩ := h
      obtain ⟨conf, hconf, rfl⟩ := List.mem_map.mp hpart
      obtain ⟨path, unit_eq, read⟩ := dropInRow_rows hrow
      obtain ⟨files, found, rfl⟩ := Option.map_eq_some_iff.mp listed
      obtain ⟨node, look, own⟩ := Option.bind_eq_some_iff.mp found
      have dir_node : node = .dir files := by
        cases node <;> cases own
        rfl
      subst dir_node
      have contents : tree.host.readDropIn (unit ++ ".d") conf = (files.lookup conf).join := by
        simp [UnitTree.host, look, EtcEntry.files]
      rw [contents, Option.join_eq_some_iff] at read
      refine ⟨unit, files, rfl, service, mem_of_lookup look, unit_eq.trans (unitOfDir_eq service),
        conf, row.content, mem_of_lookup read, (List.mem_filter.mp hconf).2, path, rfl⟩
  next => cases h

theorem row_of_dropIn {unit conf content : String} {files : List (String × Option String)}
    (service : Text.endsWith unit ".service" = true) (dir : (unit ++ ".d", .dir files) ∈ tree.etc)
    (mem : (conf, some content) ∈ files) (conf_file : Text.endsWith conf ".conf" = true) :
    ∃ row ∈ (collectDropIns tree.host).rows, row.path = etcPath (unit ++ ".d") ++ "/" ++ conf ∧
      row.unit = unit ∧ row.content = content := by
  have look := lookup_of_mem tree.names dir
  have listed : tree.host.dirEntries (unit ++ ".d") = some (files.map (·.1)) := by
    simp [UnitTree.host, look, EtcEntry.files]
  have read : tree.host.readDropIn (unit ++ ".d") conf = some content := by
    simp [UnitTree.host, look, EtcEntry.files, lookup_of_mem (tree.fileNames _ dir files rfl) mem]
  have row : ∃ row ∈ (dropInRow tree.host (unit ++ ".d") unit conf).rows, True := by
    rw [dropInRow, read]
    exact ⟨_, List.mem_singleton_self _, trivial⟩
  obtain ⟨row, hrow, -⟩ := row
  obtain ⟨path, unit_eq, read'⟩ := dropInRow_rows hrow
  refine ⟨row, ?_, path, unit_eq, Option.some.inj (read'.symm.trans read)⟩
  have part : row ∈ (dropInsOf tree.host (unit ++ ".d")).rows := by
    rw [dropInsOf, if_pos (endsWith_dir.mpr ⟨unit, rfl, service⟩), listed]
    simp only [rows_gatherOverrides, List.mem_flatMap, unitOfDir_eq service]
    exact ⟨_, List.mem_map_of_mem (List.mem_filter.mpr ⟨List.mem_map_of_mem mem, conf_file⟩), hrow⟩
  simp only [collectDropIns, UnitTree.host, rows_gatherOverrides, List.mem_flatMap]
  exact ⟨_, List.mem_map_of_mem (List.mem_map_of_mem dir), part⟩

theorem mem_collectDropIns {row : SystemdDropIn} (h : row ∈ (collectDropIns tree.host).rows) :
    ∃ entry ∈ tree.etc.map (·.1), row ∈ (dropInsOf tree.host entry).rows := by
  simp only [collectDropIns, UnitTree.host, rows_gatherOverrides, List.mem_flatMap] at h
  obtain ⟨part, hpart, hrow⟩ := h
  obtain ⟨entry, hentry, rfl⟩ := List.mem_map.mp hpart
  exact ⟨entry, hentry, hrow⟩

theorem plain_of_mem {entry : String} (h : entry ∈ tree.etc.map (·.1)) : '/' ∉ entry.toList := by
  obtain ⟨row, mem, rfl⟩ := List.mem_map.mp h
  exact tree.plain row mem

theorem dropIns_nodup : ((collectDropIns tree.host).rows.map (·.path)).Nodup := by
  refine nodup_gatherOverrides (dropInsOf tree.host) tree.names (fun entry hentry => ?_)
    fun x hx y hy r hr s hs same => ?_
  · unfold dropInsOf
    split
    next =>
      split
      next => exact List.nodup_nil
      next confs listed =>
        have distinct : confs.Nodup := by
          obtain ⟨files, found, rfl⟩ := Option.map_eq_some_iff.mp listed
          obtain ⟨node, look, own⟩ := Option.bind_eq_some_iff.mp found
          have dir_node : node = .dir files := by
            cases node <;> cases own
            rfl
          exact tree.fileNames _ (mem_of_lookup look) files dir_node
        refine nodup_gatherOverrides _ (distinct.filter _) (fun conf _ => dropInRow_nodup _ _ _ conf)
          fun a _ b _ r hr s hs same => ?_
        rw [(dropInRow_rows hr).1, (dropInRow_rows hs).1] at same
        exact (dropInPath_inj (plain_of_mem tree hentry) (plain_of_mem tree hentry) same).2
    next => exact List.nodup_nil
  · obtain ⟨_, _, -, -, -, -, conf, _, -, -, path, -⟩ := mem_dropInsOf tree hr
    obtain ⟨_, _, -, -, -, -, conf', _, -, -, path', -⟩ := mem_dropInsOf tree hs
    rw [path, path'] at same
    exact (dropInPath_inj (plain_of_mem tree hx) (plain_of_mem tree hy) same).1

theorem covered_iff (clean : (collectDropIns tree.host).failures = []) {unit : String}
    (service : Text.endsWith unit ".service" = true) :
    unit ∈ (collectDropIns tree.host).rows.map (·.unit) ↔ HasDropIn tree unit := by
  constructor
  · intro mem
    obtain ⟨row, hrow, rfl⟩ := List.mem_map.mp mem
    obtain ⟨entry, -, part⟩ := mem_collectDropIns tree hrow
    obtain ⟨unit, files, rfl, -, dir, unit_eq, conf, content, file, conf_file, -⟩ :=
      mem_dropInsOf tree part
    exact ⟨files, unit_eq ▸ dir, _, file, conf_file⟩
  · rintro ⟨files, dir, ⟨conf, content⟩, file, conf_file⟩
    have look := lookup_of_mem tree.names dir
    have listed : tree.host.dirEntries (unit ++ ".d") = some (files.map (·.1)) := by
      simp [UnitTree.host, look, EtcEntry.files]
    -- The file is read: otherwise its path is among the failures.
    have part_clean : (dropInsOf tree.host (unit ++ ".d")).failures = [] := by
      simp only [collectDropIns, UnitTree.host, failures_gatherOverrides, List.flatMap_eq_nil_iff,
        List.forall_mem_map] at clean
      exact clean (unit ++ ".d", .dir files) dir
    rw [dropInsOf, if_pos (endsWith_dir.mpr ⟨unit, rfl, service⟩), listed] at part_clean
    simp only [failures_gatherOverrides, List.flatMap_eq_nil_iff, List.forall_mem_map,
      List.mem_filter, and_imp] at part_clean
    have row_clean := part_clean (conf, content) file conf_file
    have read : tree.host.readDropIn (unit ++ ".d") conf = content := by
      simp [UnitTree.host, look, EtcEntry.files, lookup_of_mem (tree.fileNames _ dir files rfl) file]
    rw [dropInRow, read] at row_clean
    cases content with
    | none => cases row_clean
    | some text =>
      obtain ⟨row, hrow, -, unit_eq, -⟩ := row_of_dropIn tree service dir file conf_file
      exact List.mem_map.mpr ⟨row, hrow, unit_eq⟩

variable {changed : List String}

theorem mem_changedShadows {dropIns : Overrides} {row : SystemdDropIn}
    (h : row ∈ (changedShadows tree.host dropIns changed).rows) :
    ∃ unit ∈ changed, unit ∉ dropIns.rows.map (·.unit) ∧
      detectShadowType tree.host unit = some .fullShadow ∧ row ∈ (shadowRow tree.host unit).rows := by
  simp only [changedShadows, rows_gatherOverrides, List.flatMap_map, List.mem_flatMap,
    List.mem_filter, Bool.and_eq_true, Bool.not_eq_true', List.contains_eq_mem,
    decide_eq_false_iff_not, beq_iff_eq] at h
  obtain ⟨unit, ⟨mem, uncovered, full⟩, hrow⟩ := h
  exact ⟨unit, mem, uncovered, full, hrow⟩

theorem listedShadows_tree (found : Overrides) : listedShadows tree.host found =
    gatherOverrides (((tree.etc.map (·.1)).filter fun entry => Text.endsWith entry ".service" &&
      !(found.rows.map (·.unit)).contains entry && tree.host.isVendorFile entry).map
        (shadowRow tree.host)) := rfl

theorem mem_listedShadows {found : Overrides} {row : SystemdDropIn}
    (h : row ∈ (listedShadows tree.host found).rows) :
    ∃ entry ∈ tree.etc.map (·.1), Text.endsWith entry ".service" = true ∧
      entry ∉ found.rows.map (·.unit) ∧ entry ∈ tree.vendor ∧
      row ∈ (shadowRow tree.host entry).rows := by
  simp only [listedShadows, UnitTree.host, rows_gatherOverrides, List.flatMap_map, List.mem_flatMap,
    List.mem_filter, Bool.and_eq_true, Bool.not_eq_true', List.contains_eq_mem,
    decide_eq_false_iff_not, decide_eq_true_eq] at h
  obtain ⟨entry, ⟨mem, ⟨service, uncovered⟩, vendor⟩, hrow⟩ := h
  exact ⟨entry, mem, service, uncovered, vendor, hrow⟩

theorem etcFile_of_fullShadow {unit : String}
    (full : detectShadowType tree.host unit = some .fullShadow) :
    ∃ entry, (unit, entry) ∈ tree.etc ∧ entry.isFile = true ∧ unit ∈ tree.vendor := by
  unfold detectShadowType at full
  split at full
  next both =>
    rw [Bool.and_eq_true] at both
    have file : (tree.etc.lookup unit).any (·.isFile) = true := both.1
    cases look : tree.etc.lookup unit with
    | none => simp [look] at file
    | some entry =>
      rw [look, Option.any_some] at file
      exact ⟨entry, mem_of_lookup look, file, List.contains_iff_mem.mp both.2⟩
  next =>
    split at full <;> cases full

theorem unitOverrides_nodup (once : changed.Nodup) :
    ((unitOverrides tree.host changed).rows.map (·.path)).Nodup := by
  have drop_path : ∀ row ∈ (collectDropIns tree.host).rows, ∀ unit, '/' ∉ unit.toList →
      row.path ≠ etcPath unit := by
    intro row hrow unit plain
    obtain ⟨entry, -, part⟩ := mem_collectDropIns tree hrow
    obtain ⟨_, _, -, -, -, -, conf, _, -, -, path, -⟩ := mem_dropInsOf tree part
    rw [path]
    exact dropInPath_ne plain
  have shadow_apart : ∀ {a b : String} {r s : SystemdDropIn}, r ∈ (shadowRow tree.host a).rows →
      s ∈ (shadowRow tree.host b).rows → r.path = s.path → a = b := by
    intro a b r s hr hs same
    rw [(shadowRow_rows hr).1, (shadowRow_rows hs).1] at same
    exact etcPath_inj same
  have listed_names : ∀ {row : SystemdDropIn} {found : Overrides},
      row ∈ (listedShadows tree.host found).rows → ∃ unit, '/' ∉ unit.toList ∧
        row.path = etcPath unit ∧ row.unit = unit ∧ unit ∉ found.rows.map (·.unit) := by
    intro row found hrow
    obtain ⟨entry, mem, -, uncovered, -, own⟩ := mem_listedShadows tree hrow
    obtain ⟨path, unit_eq, -⟩ := shadowRow_rows own
    exact ⟨entry, plain_of_mem tree mem, path, unit_eq, uncovered⟩
  have changed_names : ∀ {row : SystemdDropIn} {dropIns : Overrides},
      row ∈ (changedShadows tree.host dropIns changed).rows → ∃ unit, '/' ∉ unit.toList ∧
        row.path = etcPath unit ∧ row.unit = unit := by
    intro row dropIns hrow
    obtain ⟨unit, -, -, full, own⟩ := mem_changedShadows tree hrow
    obtain ⟨path, unit_eq, -⟩ := shadowRow_rows own
    obtain ⟨entry, mem, -⟩ := etcFile_of_fullShadow tree full
    exact ⟨unit, plain_of_mem tree (List.mem_map_of_mem mem), path, unit_eq⟩
  have changed_nodup : ∀ dropIns,
      ((changedShadows tree.host dropIns changed).rows.map (·.path)).Nodup := fun dropIns =>
    nodup_gatherOverrides _ (once.filter _) (fun unit _ => shadowRow_nodup _ unit)
      fun _ _ _ _ r hr s hs same => shadow_apart hr hs same
  have listed_nodup : ∀ found, ((listedShadows tree.host found).rows.map (·.path)).Nodup := fun found =>
    nodup_gatherOverrides _ (tree.names.filter _) (fun unit _ => shadowRow_nodup _ unit)
      fun _ _ _ _ r hr s hs same => shadow_apart hr hs same
  simp only [unitOverrides, rows_append, List.map_append]
  rw [List.nodup_append, List.nodup_append]
  refine ⟨⟨dropIns_nodup tree, changed_nodup _, ?_⟩, listed_nodup _, ?_⟩
  · intro path hpath other hother
    obtain ⟨row, hrow, rfl⟩ := List.mem_map.mp hpath
    obtain ⟨shadow, hshadow, rfl⟩ := List.mem_map.mp hother
    obtain ⟨unit, plain, own, -⟩ := changed_names hshadow
    rw [own]
    exact drop_path row hrow unit plain
  · intro path hpath other hother
    obtain ⟨shadow, hshadow, rfl⟩ := List.mem_map.mp hother
    obtain ⟨unit, plain, own, -, uncovered⟩ := listed_names hshadow
    rw [own]
    obtain hpath | hpath := List.mem_append.mp hpath
    · obtain ⟨row, hrow, rfl⟩ := List.mem_map.mp hpath
      exact drop_path row hrow unit plain
    · obtain ⟨row, hrow, rfl⟩ := List.mem_map.mp hpath
      obtain ⟨unit', -, own', unit_eq⟩ := changed_names hrow
      rw [own']
      intro same
      refine uncovered (List.mem_map.mpr ⟨row, ?_, unit_eq.trans (etcPath_inj same)⟩)
      rw [rows_append]
      exact List.mem_append_right _ hrow

theorem shadow_row_iff (clean : (unitOverrides tree.host changed).failures = []) {unit : String}
    {entry : EtcEntry} (service : Text.endsWith unit ".service" = true) (mem : (unit, entry) ∈ tree.etc)
    (vendor : unit ∈ tree.vendor) :
    (∃ row ∈ (unitOverrides tree.host changed).rows, row.path = etcPath unit) ↔
      ¬ HasDropIn tree unit := by
  have plain := plain_of_mem tree (List.mem_map_of_mem (f := (·.1)) mem)
  have look := lookup_of_mem tree.names mem
  simp only [unitOverrides, failures_append, List.append_eq_nil_iff] at clean
  obtain ⟨⟨drop_clean, changed_clean⟩, listed_clean⟩ := clean
  rw [← covered_iff tree drop_clean service]
  simp only [unitOverrides, rows_append, List.mem_append]
  constructor
  · rintro ⟨row, (hrow | hrow) | hrow, path⟩
    · obtain ⟨_, -, part⟩ := mem_collectDropIns tree hrow
      obtain ⟨_, _, -, -, -, -, conf, _, -, -, own, -⟩ := mem_dropInsOf tree part
      exact absurd (own.symm.trans path) (dropInPath_ne plain)
    · obtain ⟨unit', -, uncovered, -, own⟩ := mem_changedShadows tree hrow
      rwa [← etcPath_inj ((shadowRow_rows own).1.symm.trans path)]
    · obtain ⟨unit', -, -, uncovered, -, own⟩ := mem_listedShadows tree hrow
      rw [← etcPath_inj ((shadowRow_rows own).1.symm.trans path)]
      intro covered
      refine uncovered ?_
      rw [rows_append, List.map_append]
      exact List.mem_append_left _ covered
  · intro uncovered
    -- Either the unit is among the changed ones, or the listing meets it.
    by_cases met : unit ∈ changed ∧ detectShadowType tree.host unit = some .fullShadow
    · have among : unit ∈ changed.filter fun unit =>
          !((collectDropIns tree.host).rows.map (·.unit)).contains unit &&
            detectShadowType tree.host unit == some .fullShadow := by
        refine List.mem_filter.mpr ⟨met.1, ?_⟩
        simp only [met.2, beq_self_eq_true, Bool.and_true, Bool.not_eq_true', List.contains_eq_mem,
          decide_eq_false_iff_not]
        exact uncovered
      have row_clean : (shadowRow tree.host unit).failures = [] := by
        simp only [changedShadows, failures_gatherOverrides, List.flatMap_eq_nil_iff] at changed_clean
        exact changed_clean _ (List.mem_map_of_mem among)
      obtain ⟨row, hrow, -⟩ := shadowRow_read row_clean
      refine ⟨row, .inl (.inr ?_), (shadowRow_rows hrow).1⟩
      simp only [changedShadows, rows_gatherOverrides, List.mem_flatMap]
      exact ⟨_, List.mem_map_of_mem among, hrow⟩
    · have not_found : unit ∉ (collectDropIns tree.host ++
          changedShadows tree.host (collectDropIns tree.host) changed).rows.map (·.unit) := by
        rw [rows_append, List.map_append, List.mem_append, not_or]
        refine ⟨uncovered, fun mem => ?_⟩
        obtain ⟨row, hrow, rfl⟩ := List.mem_map.mp mem
        obtain ⟨unit', among, -, full, own⟩ := mem_changedShadows tree hrow
        rw [(shadowRow_rows own).2.1] at met
        exact met ⟨among, full⟩
      have among : unit ∈ (tree.etc.map (·.1)).filter fun entry =>
          Text.endsWith entry ".service" && !((collectDropIns tree.host ++
            changedShadows tree.host (collectDropIns tree.host) changed).rows.map (·.unit)).contains entry &&
            tree.host.isVendorFile entry := by
        refine List.mem_filter.mpr ⟨List.mem_map_of_mem (f := (·.1)) mem, ?_⟩
        have is_vendor : tree.host.isVendorFile unit = true := List.contains_iff_mem.mpr vendor
        simp only [service, is_vendor, Bool.true_and, Bool.and_true, Bool.not_eq_true',
          List.contains_eq_mem, decide_eq_false_iff_not]
        exact not_found
      have row_clean : (shadowRow tree.host unit).failures = [] := by
        simp only [listedShadows_tree, failures_gatherOverrides, List.flatMap_eq_nil_iff]
          at listed_clean
        exact listed_clean _ (List.mem_map_of_mem among)
      obtain ⟨row, hrow, -⟩ := shadowRow_read row_clean
      refine ⟨row, .inr ?_, (shadowRow_rows hrow).1⟩
      simp only [listedShadows_tree, rows_gatherOverrides, List.mem_flatMap]
      exact ⟨_, List.mem_map_of_mem among, hrow⟩

theorem row_of_etcPath {unit : String} {entry : EtcEntry} (mem : (unit, entry) ∈ tree.etc)
    {row : SystemdDropIn} (hrow : row ∈ (unitOverrides tree.host changed).rows)
    (path : row.path = etcPath unit) :
    row.unit = unit ∧ entry.read = some row.content ∧ row.shadowType = some .fullShadow ∧
      unit ∈ tree.vendor := by
  have plain := plain_of_mem tree (List.mem_map_of_mem (f := (·.1)) mem)
  have read : tree.host.readUnit unit = entry.read := by
    simp [UnitTree.host, lookup_of_mem tree.names mem]
  simp only [unitOverrides, rows_append, List.mem_append] at hrow
  have shadow : ∀ {other}, other ∈ tree.vendor → row ∈ (shadowRow tree.host other).rows →
      row.unit = unit ∧ entry.read = some row.content ∧ row.shadowType = some .fullShadow ∧
        unit ∈ tree.vendor := by
    intro other vendor own
    obtain ⟨own_path, own_unit, own_read, own_type⟩ := shadowRow_rows own
    obtain rfl := etcPath_inj (own_path.symm.trans path)
    exact ⟨own_unit, read ▸ own_read, own_type, vendor⟩
  obtain (hrow | hrow) | hrow := hrow
  · obtain ⟨_, -, part⟩ := mem_collectDropIns tree hrow
    obtain ⟨_, _, -, -, -, -, conf, _, -, -, own, -⟩ := mem_dropInsOf tree part
    exact absurd (own.symm.trans path) (dropInPath_ne plain)
  · obtain ⟨_, -, -, full, own⟩ := mem_changedShadows tree hrow
    obtain ⟨_, -, -, vendor⟩ := etcFile_of_fullShadow tree full
    exact shadow vendor own
  · obtain ⟨_, -, -, -, vendor, own⟩ := mem_listedShadows tree hrow
    exact shadow vendor own

end

section

def shadowedSshd : UnitTree where
  etc := [("sshd.service", .file (some "[Service]\nExecStart=/opt/sshd\n"))]
  vendor := ["sshd.service"]
  names := by decide
  plain := by decide
  fileNames := by simp

def shadowedWithDropIn : UnitTree where
  etc := [("sshd.service", .file (some "[Service]\nExecStart=/opt/sshd\n")),
    ("sshd.service.d", .dir [("limits.conf", some "[Service]\nLimitNOFILE=4096\n")])]
  vendor := ["sshd.service"]
  names := by decide
  plain := by decide
  fileNames := by simp

end

end Inspectah
