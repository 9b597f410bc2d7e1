import Inspectah.Collect.Executor
import Inspectah.Core.Packages
import Inspectah.Core.Text

/-!
The walk of `/etc`: which files it finds, and which of them are no configuration.
-/
namespace Inspectah

mutual
/-- What reading a path as a directory gives: no directory, no permission, or its entries. -/
inductive EtcNode where
  | file
  | denied
  | dir (entries : EtcDir)

inductive EtcDir where
  | nil
  | cons (name : String) (node : EtcNode) (rest : EtcDir)
end

def EtcDir.names : EtcDir → List String
  | nil => []
  | cons name _ rest => name :: rest.names

def EtcDir.find (name : String) : EtcDir → EtcNode
  | nil => .file
  | cons other node rest => if other = name then node else rest.find name

mutual
/-- The entries of a directory have names of their own, of at least one character. -/
def EtcNode.Named : EtcNode → Prop
  | .file => True
  | .denied => True
  | .dir entries => entries.names.Nodup ∧ entries.Named

def EtcDir.Named : EtcDir → Prop
  | .nil => True
  | .cons name node rest => name ≠ "" ∧ '/' ∉ name.toList ∧ node.Named ∧ rest.Named
end

def EtcNode.readDir : EtcNode → List String → DirRead
  | .dir entries, [] => .entries entries.names
  | .dir entries, name :: rest => (entries.find name).readDir rest
  | .denied, _ => .denied
  | .file, _ => .missing

/-- Why a file has no text: permission, or anything else. -/
inductive ReadFailure where
  | denied
  | other
  deriving DecidableEq

/-- What the scan asks of the host and of the package database. -/
structure ConfigHost where
  etc : EtcNode
  usrEtc : EtcNode
  fileExists : String → Bool
  readFile : String → Except ReadFailure String
  isLink : String → Bool
  finalTarget : String → Option String
  dnfHistory : ExecResult
  verification : List RpmVaEntry
  isRpmOwned : String → Bool
  osMajor : Option Nat
  isOstree : Bool
  etcNamed : etc.Named

def PRUNE_MARKERS : List String := [".git", ".svn", ".hg"]

def SKIP_DIR_NAMES : List String :=
  ["__pycache__", ".mypy_cache", ".pytest_cache", ".tox", ".nox", "node_modules", ".eggs",
   ".vscode", ".idea", ".cursor"]

def isSymlinkOutsideRoot (host : ConfigHost) (path root : String) : Bool :=
  host.isLink path &&
    match host.finalTarget path with
    | some resolved => !Text.startsWith resolved root
    | none => true

/-- The files found, and the directories that may not be read. -/
structure Walk where
  files : List String := []
  denied : List String := []

instance : Append Walk where
  append a b := ⟨a.files ++ b.files, a.denied ++ b.denied⟩

def childRel (rel name : String) : String := if rel.isEmpty then name else rel ++ "/" ++ name

mutual
def walkRecursive (host : ConfigHost) (root rel : String) : EtcNode → Walk
  | .file => {}
  | .denied => { denied := [if rel.isEmpty then root else root ++ "/" ++ rel] }
  | .dir entries =>
    if PRUNE_MARKERS.any entries.names.contains then {} else walkEntries host root rel entries

def walkEntries (host : ConfigHost) (root rel : String) : EtcDir → Walk
  | .nil => {}
  | .cons name node rest =>
    (match node with
     | .file => { files := [childRel rel name] }
     | .denied => { denied := [root ++ "/" ++ childRel rel name] }
     | .dir _ =>
       if SKIP_DIR_NAMES.contains name ||
           isSymlinkOutsideRoot host (root ++ "/" ++ childRel rel name) root then {}
       else walkRecursive host root (childRel rel name) node) ++
    walkEntries host root rel rest
end

/-- Nothing found and something denied: the root itself may not be read. -/
def walkEtc (host : ConfigHost) (root : String) (tree : EtcNode) : Except (List String) Walk :=
  let walk := walkRecursive host root "" tree
  if walk.files.isEmpty && !walk.denied.isEmpty then .error walk.denied else .ok walk

/-- A walk with nowhere to report to. -/
def walkEtcRecursive (host : ConfigHost) (root : String) (tree : EtcNode) : List String :=
  match walkEtc host root tree with
  | .ok walk => walk.files
  | .error _ => []

/-- Where the walk is given up, it has found nothing. -/
theorem walkEtc_cases (host : ConfigHost) (root : String) (tree : EtcNode) :
    walkEtc host root tree = .ok (walkRecursive host root "" tree) ∨
      (∃ dirs, walkEtc host root tree = .error dirs) ∧
        (walkRecursive host root "" tree).files = [] := by
  unfold walkEtc
  dsimp only
  split
  · rename_i nothing
    exact .inr ⟨⟨_, rfl⟩, List.isEmpty_iff.mp (Bool.and_eq_true_iff.mp nothing).1⟩
  · exact .inl rfl

theorem walkEtcRecursive_eq (host : ConfigHost) (root : String) (tree : EtcNode) :
    walkEtcRecursive host root tree = (walkRecursive host root "" tree).files := by
  unfold walkEtcRecursive
  rcases walkEtc_cases host root tree with found | ⟨⟨dirs, given_up⟩, nothing⟩
  · rw [found]
  · rw [given_up, nothing]

def walkEntry (host : ConfigHost) (root rel name : String) (node : EtcNode) : Walk :=
  match node with
  | .file => { files := [childRel rel name] }
  | .denied => { denied := [root ++ "/" ++ childRel rel name] }
  | .dir _ =>
    if SKIP_DIR_NAMES.contains name ||
        isSymlinkOutsideRoot host (root ++ "/" ++ childRel rel name) root then {}
    else walkRecursive host root (childRel rel name) node

theorem walkEntries_cons (host : ConfigHost) (root rel name : String) (node : EtcNode)
    (rest : EtcDir) : walkEntries host root rel (.cons name node rest) =
      walkEntry host root rel name node ++ walkEntries host root rel rest := by
  rw [walkEntries.eq_def]
  cases node <;> rfl

/-- The path itself, or one further down. -/
def AtOrUnder (path f : String) : Prop :=
  f = path ∨ ∃ tail, f.toList = path.toList ++ '/' :: tail

theorem childRel_chars (rel : String) :
    ∃ base : List Char, ∀ name, (childRel rel name).toList = base ++ name.toList := by
  cases empty : rel.isEmpty with
  | true => exact ⟨[], fun name => by simp [childRel, empty]⟩
  | false => exact ⟨(rel ++ "/").toList, fun name => by simp [childRel, empty]⟩

theorem childRel_ne_empty {rel name : String} (ne : name ≠ "") : childRel rel name ≠ "" := by
  obtain ⟨base, chars⟩ := childRel_chars rel
  intro empty
  have none_left := chars name
  rw [empty] at none_left
  have no_chars : name.toList = [] := (List.append_eq_nil_iff.mp none_left.symm).2
  exact ne (String.toList_injective no_chars)

theorem childRel_under {rel name : String} (ne : rel ≠ "") : AtOrUnder rel (childRel rel name) := by
  refine .inr ⟨name.toList, ?_⟩
  have some_rel : rel.isEmpty = false := by
    rw [← Bool.not_eq_true, String.isEmpty_iff]
    exact ne
  simp [childRel, some_rel]

theorem AtOrUnder.trans {a b c : String} (hab : AtOrUnder a b) (hbc : AtOrUnder b c) :
    AtOrUnder a c := by
  rcases hbc with rfl | ⟨tail, hc⟩
  · exact hab
  · rcases hab with rfl | ⟨more, hb⟩
    · exact .inr ⟨tail, hc⟩
    · exact .inr ⟨more ++ '/' :: tail, by rw [hc, hb, List.append_assoc, List.cons_append]⟩

theorem name_before_slash {name tail : List Char} (plain : '/' ∉ name)
    (cut : tail = [] ∨ ∃ rest, tail = '/' :: rest) :
    (name ++ tail).takeWhile (· != '/') = name := by
  induction name with
  | nil => rcases cut with rfl | ⟨rest, rfl⟩ <;> rfl
  | cons c name ih =>
    have other : (c != '/') = true := by
      rw [bne_iff_ne]
      rintro rfl
      exact plain List.mem_cons_self
    rw [List.cons_append, List.takeWhile_cons, if_pos other,
      ih fun mem => plain (List.mem_cons_of_mem _ mem)]

/-- What stands after `base` begins with one name only. -/
theorem names_apart {base : List Char} {a b f : String} (ha : '/' ∉ a.toList) (hb : '/' ∉ b.toList)
    (under_a : ∃ tail, f.toList = base ++ (a.toList ++ tail) ∧ (tail = [] ∨ ∃ rest, tail = '/' :: rest))
    (under_b : ∃ tail, f.toList = base ++ (b.toList ++ tail) ∧ (tail = [] ∨ ∃ rest, tail = '/' :: rest)) :
    a = b := by
  obtain ⟨tail_a, whole_a, cut_a⟩ := under_a
  obtain ⟨tail_b, whole_b, cut_b⟩ := under_b
  have same := List.append_cancel_left (whole_a.symm.trans whole_b)
  apply String.toList_injective
  rw [← name_before_slash ha cut_a, ← name_before_slash hb cut_b, same]

theorem child_apart {rel a b f : String} (ha : '/' ∉ a.toList) (hb : '/' ∉ b.toList)
    (under_a : AtOrUnder (childRel rel a) f) (under_b : AtOrUnder (childRel rel b) f) : a = b := by
  obtain ⟨base, chars⟩ := childRel_chars rel
  have split : ∀ {name : String}, AtOrUnder (childRel rel name) f →
      ∃ tail, f.toList = base ++ (name.toList ++ tail) ∧ (tail = [] ∨ ∃ rest, tail = '/' :: rest) := by
    intro name under
    rcases under with rfl | ⟨tail, whole⟩
    · exact ⟨[], by rw [chars, List.append_nil], .inl rfl⟩
    · exact ⟨'/' :: tail, by rw [whole, chars, List.append_assoc], .inr ⟨tail, rfl⟩⟩
  exact names_apart ha hb (split under_a) (split under_b)

@[simp] theorem Walk.files_append (a b : Walk) : (a ++ b).files = a.files ++ b.files := rfl

section

variable {host : ConfigHost} {root : String}

mutual
theorem walkRecursive_under (node : EtcNode) (named : node.Named) {rel f : String} (ne : rel ≠ "")
    (mem : f ∈ (walkRecursive host root rel node).files) : AtOrUnder rel f := by
  cases node with
  | file => simp [walkRecursive] at mem
  | denied => simp [walkRecursive] at mem
  | dir entries =>
    rw [walkRecursive] at mem
    split at mem
    · cases mem
    · obtain ⟨name, -, under⟩ := walkEntries_under entries named.2 mem
      exact (childRel_under ne).trans under

theorem walkEntries_under (entries : EtcDir) (named : entries.Named) {rel f : String}
    (mem : f ∈ (walkEntries host root rel entries).files) :
    ∃ name ∈ entries.names, AtOrUnder (childRel rel name) f := by
  cases entries with
  | nil => cases mem
  | cons name node rest =>
    rw [walkEntries_cons, Walk.files_append, List.mem_append] at mem
    rcases mem with here | later
    · refine ⟨name, List.mem_cons_self, ?_⟩
      cases node with
      | file =>
        rw [List.mem_singleton.mp here]
        exact .inl rfl
      | denied => cases here
      | dir entries =>
        rw [walkEntry] at here
        split at here
        · cases here
        · exact walkRecursive_under _ named.2.2.1 (childRel_ne_empty named.1) here
    · obtain ⟨other, mem, under⟩ := walkEntries_under rest named.2.2.2 later
      exact ⟨other, List.mem_cons_of_mem _ mem, under⟩
end

theorem plain_of_named : ∀ {entries : EtcDir}, entries.Named → ∀ name ∈ entries.names,
    '/' ∉ name.toList
  | .cons _ _ _, named, _, mem => by
    rcases List.mem_cons.mp mem with rfl | mem
    · exact named.2.1
    · exact plain_of_named named.2.2.2 _ mem

mutual
theorem walkRecursive_nodup (node : EtcNode) (named : node.Named) (rel : String) :
    (walkRecursive host root rel node).files.Nodup := by
  cases node with
  | file => exact List.nodup_nil
  | denied => exact List.nodup_nil
  | dir entries =>
    rw [walkRecursive]
    split
    · exact List.nodup_nil
    · exact walkEntries_nodup entries named.1 named.2 rel

theorem walkEntries_nodup (entries : EtcDir) (distinct : entries.names.Nodup)
    (named : entries.Named) (rel : String) :
    (walkEntries host root rel entries).files.Nodup := by
  cases entries with
  | nil => exact List.nodup_nil
  | cons name node rest =>
    obtain ⟨absent, distinct⟩ := List.nodup_cons.mp distinct
    have later := walkEntries_nodup rest distinct named.2.2.2 rel
    rw [walkEntries_cons, Walk.files_append, List.nodup_append]
    refine ⟨?_, later, ?_⟩
    · cases node with
      | file => simp [walkEntry]
      | denied => exact List.nodup_nil
      | dir entries =>
        rw [walkEntry]
        split
        · exact List.nodup_nil
        · exact walkRecursive_nodup _ named.2.2.1 _
    · rintro f here other there rfl
      have whole : f ∈ (walkEntries host root rel (.cons name node .nil)).files := by
        rw [walkEntries_cons, Walk.files_append]
        exact List.mem_append_left _ here
      obtain ⟨_, one, under⟩ := walkEntries_under (.cons name node .nil)
        ⟨named.1, named.2.1, named.2.2.1, trivial⟩ whole
      obtain rfl := List.mem_singleton.mp one
      obtain ⟨other, mem, under'⟩ := walkEntries_under rest named.2.2.2 there
      have same := child_apart named.2.1 (plain_of_named named.2.2.2 _ mem) under under'
      exact absent (same ▸ mem)
end

end

def isDevArtifact (path : String) : Bool :=
  (Text.splitOn (· == '/') path).any fun part =>
    PRUNE_MARKERS.contains part || SKIP_DIR_NAMES.contains part

def UNOWNED_EXCLUDE_EXACT : List String :=
  ["/etc/machine-id", "/etc/adjtime", "/etc/hostname", "/etc/localtime", "/etc/.pwd.lock",
   "/etc/passwd-", "/etc/shadow-", "/etc/group-", "/etc/gshadow-", "/etc/subuid-", "/etc/subgid-",
   "/etc/.updated", "/etc/machine-info", "/etc/systemd/system/default.target",
   "/etc/systemd/system/dbus.service", "/etc/systemd/user/dbus.service", "/etc/resolv.conf",
   "/etc/NetworkManager/NetworkManager-intern.conf", "/etc/ld.so.cache", "/etc/ld.so.conf",
   "/etc/mtab", "/etc/rpc", "/etc/dnf/dnf.conf", "/etc/yum.conf", "/etc/npmrc",
   "/etc/sysconfig/anaconda", "/etc/sysconfig/kernel", "/etc/sysconfig/network",
   "/etc/sysconfig/selinux", "/etc/sysconfig/network-scripts/readme-ifcfg-rh.txt",
   "/etc/kernel/cmdline", "/etc/systemd/system/ctrl-alt-del.target", "/etc/nvme/hostnqn",
   "/etc/nvme/hostid", "/etc/rhsm/syspurpose/syspurpose.json", "/etc/pki/tls/ct_log_list.cnf",
   "/etc/pki/tls/fips_local.cnf", "/etc/pki/tls/openssl.cnf",
   "/etc/selinux/targeted/setrans.conf", "/etc/selinux/targeted/seusers",
   "/etc/selinux/targeted/.policy.sha512", "/etc/selinux/targeted/booleans.subs_dist",
   "/etc/udisks2/udisks2.conf", "/etc/udisks2/mount_options.conf.example", "/etc/pam.d/chfn",
   "/etc/pam.d/chsh", "/etc/pam.d/login", "/etc/pam.d/remote", "/etc/pam.d/runuser",
   "/etc/pam.d/runuser-l", "/etc/pam.d/su", "/etc/pam.d/su-l", "/etc/tuned/active_profile",
   "/etc/tuned/profile_mode", "/etc/tuned/bootcmdline"]

def UNOWNED_EXCLUDE_GLOBS : List String :=
  ["/etc/pki/product-default/*.pem", "/etc/ssh/ssh_host_*", "/etc/alternatives/*",
   "/etc/X11/fontpath.d/*", "/etc/selinux/*/policy/policy.*", "/etc/selinux/*/contexts/*",
   "/etc/selinux/*/contexts/files/*", "/etc/selinux/*/contexts/users/*", "/etc/udev/hwdb.bin",
   "/etc/pki/ca-trust/extracted/*", "/etc/crypto-policies/back-ends/*", "/etc/pki/java/cacerts",
   "/etc/pki/tls/cert.pem", "/etc/pki/tls/certs/ca-bundle.crt",
   "/etc/pki/tls/certs/ca-bundle.trust.crt", "/etc/pki/consumer/*", "/etc/pki/entitlement/*",
   "/etc/depmod.d/*-dist.conf", "/etc/dconf/db/distro.d/*", "/etc/dconf/db/distro.d/locks/*",
   "/etc/dnf/protected.d/*", "/etc/profile.d/gnupg2.*", "/etc/logrotate.d/kvm_stat",
   "/etc/systemd/system/*.wants/*", "/etc/systemd/system/*.requires/*",
   "/etc/systemd/user/*.wants/*", "/etc/systemd/user/*.requires/*",
   "/etc/systemd/sleep.conf.d/*", "/etc/lvm/archive/*", "/etc/lvm/backup/*",
   "/etc/lvm/devices/*", "/etc/firewalld/zones/*.xml.old", "/etc/firewalld/*.xml.old",
   "/etc/NetworkManager/system-connections/*.nmconnection.bak",
   "/etc/sysconfig/network-scripts/readme-*", "/etc/pm/sleep.d/*"]

def UNOWNED_EXCLUDE_PREFIX : List String := ["/etc/yum/", "/etc/rpm/", "/etc/xdg/systemd/"]

/-- The loop of `glob_match_chars`; `star` is what is gone back to, the pattern and the text
    from there. -/
def globLoop : Nat → List Char → List Char → Option (List Char × List Char) → Option Bool
  | 0, _, _, _ => none
  | _ + 1, pat, [], _ => some (pat.all (· == '*'))
  | fuel + 1, p :: pat, c :: text, star =>
    if p == '?' || p == c then globLoop fuel pat text star
    else if p == '*' then globLoop fuel pat (c :: text) (some (pat, c :: text))
    else
      match star with
      | some (afterStar, _ :: skipped) =>
        globLoop fuel afterStar skipped (some (afterStar, skipped))
      | _ => some false
  | fuel + 1, [], _ :: _, star =>
    match star with
    | some (afterStar, _ :: skipped) =>
      globLoop fuel afterStar skipped (some (afterStar, skipped))
    | _ => some false

/-- As many rounds as the loop can take. -/
def globRounds (pat text : List Char) : Nat :=
  (text.length + 2) * (pat.length + text.length + 2)

def globMatchChars (pat text : List Char) : Bool :=
  (globLoop (globRounds pat text) pat text none).getD false

def globMatchSimple (pattern text : String) : Bool := globMatchChars pattern.toList text.toList

/-- A star for a last segment takes all that is left; elsewhere it takes one segment. -/
def matchParts : List String → List String → Bool
  | [], [] => true
  | p :: pat, q :: path =>
    if pat.isEmpty && p == "*" then true
    else globMatchSimple p q && matchParts pat path
  | _, _ => false

def matchUnownedGlob (pattern path : String) : Bool :=
  globMatchSimple pattern path ||
    (match Text.beforeSuffix pattern "*" with
     | some dir => Text.startsWith path dir
     | none => false) ||
    matchParts (Text.splitOn (· == '/') pattern) (Text.splitOn (· == '/') path)

def isSystemdUnitSymlink (host : ConfigHost) (path : String) : Bool :=
  match Text.afterPrefix path "/etc/systemd/system/" with
  | none => false
  | some rest => !rest.isEmpty && !rest.toList.contains '/' && host.isLink path

def isExcludedUnowned (host : ConfigHost) (path : String) : Bool :=
  UNOWNED_EXCLUDE_EXACT.contains path || UNOWNED_EXCLUDE_GLOBS.any (matchUnownedGlob · path) ||
    UNOWNED_EXCLUDE_PREFIX.any (Text.startsWith path) || isSystemdUnitSymlink host path

end Inspectah
