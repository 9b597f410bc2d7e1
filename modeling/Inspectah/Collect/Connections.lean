import Inspectah.Collect.ConfigScan
import Inspectah.Render.ConfigTree
import Inspectah.Render.LanguagePackages

/-!
Network connections as keyfiles: those the scan of `/etc` leaves out by their text, and those
the config tree leaves out by the method the inspector recorded.
-/
namespace Inspectah

structure ConnectionReading where
  method : String := "unknown"
  connType : String := ""
  currentSection : String := ""

def IPV4_METHODS : List (String × String) := [("manual", "static"), ("auto", "dhcp")]

def recordedMethod (value : String) : String := (IPV4_METHODS.lookup value).getD value

def headerName (line : String) : Option String :=
  if Text.startsWith line "[" && Text.endsWith line "]" then
    some (String.ofList (line.toList.drop 1).dropLast)
  else none

def classifyLine (reading : ConnectionReading) (line : String) : ConnectionReading :=
  let line := Text.trim line
  match headerName line with
  | some name =>
    let name := Text.asciiLower name
    let isWifi := (name == "wifi" || name == "802-11-wireless") && reading.connType.isEmpty
    { reading with currentSection := name, connType := if isWifi then "wifi" else reading.connType }
  | none =>
    match Text.splitOnce '=' line with
    | none => reading
    | some (key, value) =>
      let key := Text.asciiLower (Text.trim key)
      let value := Text.trim value
      { reading with
        method :=
          if reading.currentSection = "ipv4" ∧ key = "method" then recordedMethod value
          else reading.method
        connType :=
          if reading.currentSection = "connection" ∧ key = "type" then value else reading.connType }

def classifyConnection (text : String) : String × String :=
  let reading := (Text.lines text).foldl classifyLine {}
  (reading.method, reading.connType)

def CONNECTION_DIRS : List (List String) :=
  [["NetworkManager", "system-connections"], ["sysconfig", "network-scripts"]]

def connectionPath (dir : List String) (name : String) : String :=
  "etc/" ++ "/".intercalate dir ++ "/" ++ name

structure ConnectionScan where
  connections : List NMConnection := []
  degraded : List String := []

instance : Append ConnectionScan where
  append a b := ⟨a.connections ++ b.connections, a.degraded ++ b.degraded⟩

def connectionOf (path name text : String) : NMConnection where
  path := path
  name := beforeLast '.' name
  method := (classifyConnection text).1
  connType := (classifyConnection text).2
  disposition := .inventory

def connectionFile (host : ConfigHost) (dir : List String) (name : String) : ConnectionScan :=
  if Text.startsWith name "." then {}
  else
    let path := connectionPath dir name
    match host.readFile ("/" ++ path) with
    | .ok text => { connections := [connectionOf path name text] }
    | .error _ =>
      { degraded := ["Failed to read NM connection file /" ++ path ++ " -- skipped"] }

def gatherConnections : List ConnectionScan → ConnectionScan
  | [] => {}
  | scan :: scans => scan ++ gatherConnections scans

def connectionDir (host : ConfigHost) (dir : List String) : ConnectionScan :=
  match host.etc.readDir dir with
  | .entries names =>
    gatherConnections ((names.insertionSort (· ≤ ·)).map (connectionFile host dir))
  | .denied =>
    { degraded := ["Permission denied reading /etc/" ++ "/".intercalate dir ++
        " -- NM connection profiles may be incomplete"] }
  | .missing => {}

def collectNmConnections (host : ConfigHost) : ConnectionScan :=
  gatherConnections (CONNECTION_DIRS.map (connectionDir host))

/-- The group a line stands in, and the last method set in `[ipv4]`. -/
def readKeyfileLine (state : String × Option String) (line : String) : String × Option String :=
  let line := Text.trim line
  if Text.startsWith line "#" then state
  else
    match headerName line with
    | some name => (name, state.2)
    | none =>
      match Text.splitOnce '=' line with
      | none => state
      | some (key, value) =>
        if state.1 = "ipv4" ∧ Text.trim key = "method" then (state.1, some (Text.trim value))
        else state

def ipv4Method (content : String) : Option String :=
  ((Text.lines content).foldl readKeyfileLine ("", none)).2

example : ipv4Method "[ipv4]\n# method=auto\n method = manual\n[ipv6]\nmethod=auto\n" =
    some "manual" := by decide

structure Keyfile (host : ConfigHost) where
  name : String
  content : String
  names : List String
  readable : host.etc.readDir ["NetworkManager", "system-connections"] = .entries names
  listed : name ∈ names
  shown : Text.startsWith name "." = false
  read : host.readFile ("/etc/NetworkManager/system-connections/" ++ name) = .ok content

section

variable {host : ConfigHost}

def Keyfile.path (k : Keyfile host) : String := "/etc/NetworkManager/system-connections/" ++ k.name

def Keyfile.connection (k : Keyfile host) : NMConnection :=
  connectionOf ("etc/NetworkManager/system-connections/" ++ k.name) k.name k.content

def Keyfile.IsDhcp (k : Keyfile host) : Prop := ipv4Method k.content = some "auto"

instance (k : Keyfile host) : Decidable k.IsDhcp := inferInstanceAs (Decidable (_ = _))

def Keyfile.IsStatic (k : Keyfile host) : Prop := ipv4Method k.content = some "manual"

instance (k : Keyfile host) : Decidable k.IsStatic := inferInstanceAs (Decidable (_ = _))

def HasConnectionsOf (snap : InspectionSnapshot) (host : ConfigHost) : Prop :=
  rowsOf (·.connections) snap.network = (collectNmConnections host).connections

/-- The config tree leaves entries of the path out for the connection they describe. -/
def IsSkippedAsDhcp (snap : InspectionSnapshot) (path : String) : Prop :=
  trimSlashes path ∈ dhcpConnectionPaths snap

structure DhcpOnlyDropped (k : Keyfile host) : Prop where
  scanned : k.path ∈ dhcpConnectionFiles host ↔ k.IsDhcp
  copied : ∀ snap, HasConnectionsOf snap host → k.connection ∈ rowsOf (·.connections) snap.network →
    (IsSkippedAsDhcp snap k.path ↔ k.IsDhcp)
  static_kept : k.IsStatic → k.path ∉ dhcpConnectionFiles host ∧
    ∀ snap, HasConnectionsOf snap host → ¬IsSkippedAsDhcp snap k.path

theorem recordedMethod_ne_auto (value : String) : recordedMethod value ≠ "auto" := by
  by_cases manual : value = "manual"
  · subst manual
    decide
  · by_cases auto : value = "auto"
    · subst auto
      decide
    · have kept : recordedMethod value = value := by
        simp [recordedMethod, IPV4_METHODS, List.lookup_cons, beq_eq_false_iff_ne.mpr manual,
          beq_eq_false_iff_ne.mpr auto]
      rw [kept]
      exact auto

theorem classifyLine_ne_auto {reading : ConnectionReading} (h : reading.method ≠ "auto")
    (line : String) : (classifyLine reading line).method ≠ "auto" := by
  unfold classifyLine
  dsimp only
  split
  · exact h
  · split
    · exact h
    · dsimp only
      split
      · exact recordedMethod_ne_auto _
      · exact h

theorem classifyConnection_ne_auto (text : String) : (classifyConnection text).1 ≠ "auto" := by
  have run : ∀ (lines : List String) (reading : ConnectionReading), reading.method ≠ "auto" →
      (lines.foldl classifyLine reading).method ≠ "auto" := by
    intro lines
    induction lines with
    | nil => exact fun _ h => h
    | cons line rest ih =>
      intro reading h
      rw [List.foldl_cons]
      exact ih (classifyLine reading line) (classifyLine_ne_auto h line)
  have unnamed : ({} : ConnectionReading).method ≠ "auto" := by decide
  exact run (Text.lines text) {} unnamed

theorem mem_gatherConnections {scans : List ConnectionScan} {c : NMConnection} :
    c ∈ (gatherConnections scans).connections ↔ ∃ scan ∈ scans, c ∈ scan.connections := by
  induction scans with
  | nil => simp [gatherConnections]
  | cons scan rest ih =>
    have joined : (gatherConnections (scan :: rest)).connections =
        scan.connections ++ (gatherConnections rest).connections := rfl
    rw [joined, List.mem_append, ih]
    simp

/-- What is recorded was read from a file of one of the two directories. -/
theorem mem_collectNmConnections {c : NMConnection} :
    c ∈ (collectNmConnections host).connections ↔
      ∃ dir ∈ CONNECTION_DIRS, ∃ names, host.etc.readDir dir = .entries names ∧
        ∃ name ∈ names, Text.startsWith name "." = false ∧
          ∃ text, host.readFile ("/" ++ connectionPath dir name) = .ok text ∧
            c = connectionOf (connectionPath dir name) name text := by
  have file : ∀ dir name, c ∈ (connectionFile host dir name).connections ↔
      Text.startsWith name "." = false ∧
        ∃ text, host.readFile ("/" ++ connectionPath dir name) = .ok text ∧
          c = connectionOf (connectionPath dir name) name text := by
    intro dir name
    unfold connectionFile
    cases hidden : Text.startsWith name "." with
    | true => simp
    | false =>
      cases read : host.readFile ("/" ++ connectionPath dir name) with
      | ok text => simp [read]
      | error => simp [read]
  have directory : ∀ dir, c ∈ (connectionDir host dir).connections ↔
      ∃ names, host.etc.readDir dir = .entries names ∧
        ∃ name ∈ names, c ∈ (connectionFile host dir name).connections := by
    intro dir
    unfold connectionDir
    cases host.etc.readDir dir with
    | entries names => simp [mem_gatherConnections, List.mem_insertionSort]
    | denied => simp
    | missing => simp
  simp only [collectNmConnections, mem_gatherConnections, List.mem_map, exists_exists_and_eq_and,
    directory, file]

theorem recorded_ne_auto {c : NMConnection} (h : c ∈ (collectNmConnections host).connections) :
    c.method ≠ "auto" := by
  obtain ⟨-, -, -, -, -, -, -, text, -, rfl⟩ := mem_collectNmConnections.mp h
  exact classifyConnection_ne_auto text

theorem nothing_skipped {snap : InspectionSnapshot} (collected : HasConnectionsOf snap host)
    (path : String) : ¬IsSkippedAsDhcp snap path := by
  intro skipped
  obtain ⟨c, mem, -⟩ := List.mem_map.mp skipped
  obtain ⟨recorded, auto⟩ := List.mem_filter.mp mem
  rw [collected] at recorded
  rw [Bool.and_eq_true, beq_iff_eq] at auto
  exact recorded_ne_auto recorded auto.1

namespace Keyfile

theorem recorded (k : Keyfile host) : k.connection ∈ (collectNmConnections host).connections :=
  mem_collectNmConnections.mpr
    ⟨["NetworkManager", "system-connections"], List.mem_cons_self, k.names, k.readable, k.name,
      k.listed, k.shown, k.content, k.read, rfl⟩

theorem scanned_iff (k : Keyfile host) : k.path ∈ dhcpConnectionFiles host ↔
    Text.endsWith k.name ".nmconnection" ∧ Text.contains k.content "method=auto" := by
  have text : host.readFile k.path = .ok k.content := k.read
  have inject : ∀ name, "/etc/NetworkManager/system-connections/" ++ name = k.path →
      name = k.name := fun name same => String.append_right_inj _ |>.mp same
  unfold dhcpConnectionFiles
  rw [k.readable]
  simp only [List.mem_filter, List.mem_map, text]
  constructor
  · rintro ⟨⟨name, ⟨-, ends⟩, same⟩, found⟩
    exact ⟨inject name same ▸ ends, found⟩
  · rintro ⟨ends, found⟩
    exact ⟨⟨k.name, ⟨k.listed, ends⟩, rfl⟩, found⟩

/-- The tree leaves out no keyfile but those of DHCP, unless a text says so somewhere else. -/
theorem dropped_iff_dhcp (k : Keyfile host) : DhcpOnlyDropped k ↔
    ¬k.IsDhcp ∧
      ¬(Text.endsWith k.name ".nmconnection" ∧ Text.contains k.content "method=auto") := by
  constructor
  · intro agree
    let snap : InspectionSnapshot :=
      { network := some { connections := (collectNmConnections host).connections } }
    have collected : HasConnectionsOf snap host := rfl
    have not_dhcp : ¬k.IsDhcp := fun dhcp =>
      nothing_skipped collected _ ((agree.copied snap collected k.recorded).mpr dhcp)
    exact ⟨not_dhcp, fun said => not_dhcp (agree.scanned.mp (k.scanned_iff.mpr said))⟩
  · rintro ⟨not_dhcp, unsaid⟩
    have kept : k.path ∉ dhcpConnectionFiles host := fun mem => unsaid (k.scanned_iff.mp mem)
    exact
      { scanned := iff_of_false kept not_dhcp
        copied := fun snap collected _ => iff_of_false (nothing_skipped collected _) not_dhcp
        static_kept := fun _ => ⟨kept, fun snap collected => nothing_skipped collected _⟩ }

end Keyfile

end

def staticText : String := "[ipv4]\nmethod=manual\naddress1=10.0.0.2/24\n[ipv6]\nmethod=auto\n"

def staticHost : ConfigHost where
  etc := .dir (.cons "NetworkManager"
    (.dir (.cons "system-connections" (.dir (.cons "eth0.nmconnection" .file .nil)) .nil)) .nil)
  usrEtc := .file
  fileExists _ := true
  readFile _ := .ok staticText
  isLink _ := false
  finalTarget _ := none
  dnfHistory := {}
  verification := []
  isRpmOwned _ := false
  osMajor := none
  isOstree := false
  etcNamed := by simp [EtcNode.Named, EtcDir.Named, EtcDir.names]

def staticKeyfile : Keyfile staticHost where
  name := "eth0.nmconnection"
  content := staticText
  names := ["eth0.nmconnection"]
  readable := rfl
  listed := List.mem_cons_self
  shown := by decide
  read := rfl

/-- The keyfile has a static address, and is left out for the method of its `[ipv6]`. -/
theorem static_connection_dropped :
    staticKeyfile.IsStatic ∧ staticKeyfile.path ∈ dhcpConnectionFiles staticHost ∧
      ¬DhcpOnlyDropped staticKeyfile := by
  have static : staticKeyfile.IsStatic := by decide +kernel
  have dropped : staticKeyfile.path ∈ dhcpConnectionFiles staticHost :=
    staticKeyfile.scanned_iff.mpr (by decide +kernel)
  refine ⟨static, dropped, fun agree => ?_⟩
  obtain ⟨kept, -⟩ := agree.static_kept static
  exact kept dropped

end Inspectah
