import MblCore.OpenPorts.Coverage

/-!
# The open ports checker

The class `OpenPortsChecker` compares the connections of a device with a white list.  An entry
of a socket table reaches the comparison through the processes that use it only.  The theorem
`sound_iff` tells for which contents of `/proc` and which white lists a check that succeeds has
seen every open port.
-/

namespace OpenPorts

open Loops
open App (Json)

/-- The status of a check. -/
inductive Status
  | SUCCESS
  | BLACK_LISTED_CONNECTION
deriving DecidableEq

/-! ### The white list -/

/-- `document[key]`. -/
def getItem (key : Text) (document : Json) : Except PyError Json :=
  (document.getItem key).mapError fun e => if e.cls = .KeyError then .KeyError else .TypeError

/-- What a loop over a document goes through. -/
def iterate : Json → Except PyError (List Json)
  | .arr items => .ok items
  | .obj fields => .ok (fields.map fun field => .str field.1)
  | .str s => .ok (s.map fun c => .str [c])
  | .null | .bool _ | .num _ => .error .TypeError

/-- A document is a string. -/
def isStr (text : Text) : Json → Bool
  | .str s => s == text
  | _ => false

/-- `assert value is not None`. -/
def assertNotNone : Json → Except PyError Unit
  | .null => .error .AssertionError
  | _ => .ok ()

/-! ### The comparison -/

namespace Connection

def isEqualPort (connection : Connection) (protocol port : Json) : Except PyError Bool := do
  assertNotNone protocol
  assertNotNone port
  return isStr connection.protocol protocol
    && connection.port.any fun connection_port => isStr connection_port port

def isEqualExecutable (connection : Connection) (executable : Json) : Except PyError Bool := do
  assertNotNone executable
  return connection.executable.any fun connection_executable =>
    isStr connection_executable executable

end Connection

/-- The body of the loop over the ports. -/
def checkPort (connection : Connection) (port_data : Json) : Except PyError Bool := do
  let protocol ← getItem "protocol".toList port_data
  let port ← getItem "port".toList port_data
  connection.isEqualPort protocol port

/-- The body of the loop over the executables. -/
def checkExecutable (connection : Connection) (executable_data : Json) :
    Except PyError Bool := do
  let executable ← getItem "executable".toList executable_data
  connection.isEqualExecutable executable

def checkConnectionAgainstWhiteList (white_list : Json) (connection : Connection) :
    Except PyError Status := do
  let ports ← iterate (← getItem "ports".toList white_list)
  let port_listed ← ports.anyM (checkPort connection)
  let executables ← iterate (← getItem "executables".toList white_list)
  let executable_listed ← executables.anyM (checkExecutable connection)
  return if port_listed || executable_listed then .SUCCESS else .BLACK_LISTED_CONNECTION

/-- The body of the loop over the connections. -/
def countBlacklisted (white_list : Json) (blacklisted_connections : ℕ) (connection : Connection) :
    Except PyError ℕ := do
  let connection_status ← checkConnectionAgainstWhiteList white_list connection
  return if connection_status ≠ .SUCCESS then blacklisted_connections + 1
    else blacklisted_connections

def checkConnectionsAgainstWhiteList (white_list : Json) (connections : List Connection) :
    Except PyError Status := do
  let blacklisted_connections ← connections.foldlM (countBlacklisted white_list) 0
  return if blacklisted_connections = 0 then .SUCCESS else .BLACK_LISTED_CONNECTION

def runCheck (proc : Proc) (white_list : Json) : Except PyError Status := do
  let active_connections ← netstat proc
  checkConnectionsAgainstWhiteList white_list active_connections

/-! ### What the white list allows -/

/-- The documents in a list of the white list. -/
def listed (key : Text) (white_list : Json) : Except PyError (List Json) := do
  iterate (← getItem key white_list)

/-- The white list has the protocol and the port. -/
def PortListed (white_list : Json) (protocol port : Text) : Prop :=
  ∃ ports, listed "ports".toList white_list = .ok ports ∧ ∃ port_data ∈ ports,
    getItem "protocol".toList port_data = .ok (.str protocol) ∧
    getItem "port".toList port_data = .ok (.str port)

/-- The white list has the executable. -/
def ExecutableListed (white_list : Json) (executable : Text) : Prop :=
  ∃ executables, listed "executables".toList white_list = .ok executables ∧
    ∃ executable_data ∈ executables,
      getItem "executable".toList executable_data = .ok (.str executable)

theorem isStr_iff {text : Text} {document : Json} :
  isStr text document = true ↔ document = .str text
  := by
  cases document <;> simp [isStr]

theorem checkPort_eq_true {connection : Connection} {port_data : Json} :
  checkPort connection port_data = .ok true ↔ ∃ port, connection.port = some port ∧
    getItem "protocol".toList port_data = .ok (.str connection.protocol) ∧
    getItem "port".toList port_data = .ok (.str port)
  := by
  simp only [checkPort, Connection.isEqualPort, bind_eq_ok]
  constructor
  · rintro ⟨protocol, hprotocol, port, hport, -, -, -, -, h⟩
    have hequal := Except.ok.inj h
    rw [Bool.and_eq_true, Option.any_eq_true] at hequal
    obtain ⟨hprotocol', connection_port, hsome, hport'⟩ := hequal
    rw [isStr_iff] at hprotocol' hport'
    subst hprotocol' hport'
    use connection_port, hsome
  · rintro ⟨port, hsome, hprotocol, hport⟩
    use .str connection.protocol, hprotocol, .str port, hport, (), rfl, (), rfl
    simp [isStr, hsome, pure, Except.pure]

theorem checkExecutable_eq_true {connection : Connection} {executable_data : Json} :
  checkExecutable connection executable_data = .ok true
    ↔ ∃ executable, connection.executable = some executable ∧
      getItem "executable".toList executable_data = .ok (.str executable)
  := by
  simp only [checkExecutable, Connection.isEqualExecutable, bind_eq_ok]
  constructor
  · rintro ⟨executable, hexecutable, -, -, h⟩
    have hequal := Except.ok.inj h
    rw [Option.any_eq_true] at hequal
    obtain ⟨connection_executable, hsome, hequal⟩ := hequal
    rw [isStr_iff] at hequal
    subst hequal
    use connection_executable, hsome
  · rintro ⟨executable, hsome, hexecutable⟩
    use .str executable, hexecutable, (), rfl
    simp [isStr, hsome, pure, Except.pure]

/-- The white list has the protocol and the port of the connection. -/
def ListedByPort (white_list : Json) (protocol : Text) (port : Option Text) : Prop :=
  ∃ p, port = some p ∧ PortListed white_list protocol p

/-- The white list has the executable of a process. -/
def ListedByExecutable (white_list : Json) (executable : Option Text) : Prop :=
  ∃ exe, executable = some exe ∧ ExecutableListed white_list exe

/-- The comparison of the connection with the white list raises no exception. -/
def WhiteListReads (white_list : Json) (connection : Connection) : Prop :=
  ∃ status, checkConnectionAgainstWhiteList white_list connection = .ok status

/-- The loop over the ports tells whether the port is listed. -/
theorem anyM_checkPort
    {white_list : Json} {connection : Connection} {ports : List Json} {b : Bool}
    (hports : listed "ports".toList white_list = .ok ports)
    (h : ports.anyM (checkPort connection) = .ok b) :
  b = true ↔ ListedByPort white_list connection.protocol connection.port
  := by
  rw [eq_true_iff_of_anyM h]
  constructor
  · rintro ⟨port_data, hmem, hcheck⟩
    obtain ⟨port, hsome, hprotocol, hport⟩ := checkPort_eq_true.mp hcheck
    use port, hsome, ports, hports, port_data, hmem
  · rintro ⟨port, hsome, ports', hports', port_data, hmem, hprotocol, hport⟩
    obtain rfl := Except.ok.inj (hports.symm.trans hports')
    use port_data, hmem
    apply checkPort_eq_true.mpr
    use port, hsome

/-- The loop over the executables tells whether the executable is listed. -/
theorem anyM_checkExecutable
    {white_list : Json} {connection : Connection} {executables : List Json} {b : Bool}
    (hexecutables : listed "executables".toList white_list = .ok executables)
    (h : executables.anyM (checkExecutable connection) = .ok b) :
  b = true ↔ ListedByExecutable white_list connection.executable
  := by
  rw [eq_true_iff_of_anyM h]
  constructor
  · rintro ⟨executable_data, hmem, hcheck⟩
    obtain ⟨executable, hsome, hexecutable⟩ := checkExecutable_eq_true.mp hcheck
    use executable, hsome, executables, hexecutables, executable_data, hmem
  · rintro ⟨executable, hsome, executables', hexecutables', executable_data, hmem, hexecutable⟩
    obtain rfl := Except.ok.inj (hexecutables.symm.trans hexecutables')
    use executable_data, hmem
    apply checkExecutable_eq_true.mpr
    use executable, hsome

/-- A connection passes when the white list can be read and has its port or its executable. -/
theorem checkConnectionAgainstWhiteList_eq_success
    {white_list : Json} {connection : Connection} :
  checkConnectionAgainstWhiteList white_list connection = .ok .SUCCESS
    ↔ WhiteListReads white_list connection ∧
      (ListedByPort white_list connection.protocol connection.port
        ∨ ListedByExecutable white_list connection.executable)
  := by
  -- The loops decide the two alternatives, once the comparison has raised no exception.
  have hstatus {status : Status}
      (h : checkConnectionAgainstWhiteList white_list connection = .ok status) :
      status = .SUCCESS ↔ ListedByPort white_list connection.protocol connection.port
        ∨ ListedByExecutable white_list connection.executable := by
    obtain ⟨ports_value, hvalue, h1⟩ := bind_eq_ok.mp h
    obtain ⟨ports, hports, h2⟩ := bind_eq_ok.mp h1
    obtain ⟨port_listed, hport_listed, h3⟩ := bind_eq_ok.mp h2
    obtain ⟨executables_value, hvalue', h4⟩ := bind_eq_ok.mp h3
    obtain ⟨executables, hexecutables, h5⟩ := bind_eq_ok.mp h4
    obtain ⟨executable_listed, hexecutable_listed, h6⟩ := bind_eq_ok.mp h5
    cases h6
    rw [← anyM_checkPort (bind_eq_ok.mpr ⟨ports_value, hvalue, hports⟩) hport_listed,
      ← anyM_checkExecutable (bind_eq_ok.mpr ⟨executables_value, hvalue', hexecutables⟩)
        hexecutable_listed]
    cases port_listed <;> cases executable_listed <;> simp
  constructor
  · intro h
    use ⟨.SUCCESS, h⟩
    apply (hstatus h).mp rfl
  · rintro ⟨⟨status, h⟩, hlisted⟩
    rw [h, (hstatus h).mpr hlisted]

/-! ### The loop over the connections -/

/-- The number of black-listed connections does not decrease. -/
theorem le_of_foldlM_countBlacklisted
    {white_list : Json} {connections : List Connection} {m n : ℕ}
    (h : connections.foldlM (countBlacklisted white_list) m = .ok n) :
  m ≤ n
  := by
  induction connections generalizing m with
  | nil =>
      cases h
      exact le_rfl
  | cons connection connections ih =>
      rw [List.foldlM_cons] at h
      obtain ⟨k, hk, h⟩ := bind_eq_ok.mp h
      obtain ⟨status, -, hk⟩ := bind_eq_ok.mp hk
      have hmk : m ≤ k := by
        cases hk
        split <;> omega
      exact hmk.trans (ih h)

/-- No connection is counted exactly when all of them pass. -/
theorem foldlM_countBlacklisted_eq
    {white_list : Json} {connections : List Connection} {m : ℕ} :
  connections.foldlM (countBlacklisted white_list) m = .ok m
    ↔ ∀ c ∈ connections, checkConnectionAgainstWhiteList white_list c = .ok .SUCCESS
  := by
  induction connections with
  | nil => simp [pure, Except.pure]
  | cons connection connections ih =>
      rw [List.foldlM_cons, List.forall_mem_cons, ← ih, bind_eq_ok]
      constructor
      · rintro ⟨k, hk, h⟩
        obtain ⟨status, hcheck, hcount⟩ := bind_eq_ok.mp hk
        have hle := le_of_foldlM_countBlacklisted h
        by_cases hstatus : status ≠ .SUCCESS
        · rw [if_pos hstatus] at hcount
          have heq := Except.ok.inj hcount
          omega
        · rw [if_neg hstatus] at hcount
          obtain rfl := Except.ok.inj hcount
          use by rw [hcheck, not_not.mp hstatus]
      · rintro ⟨hcheck, h⟩
        use m
        constructor
        · rw [countBlacklisted, hcheck]
          rfl
        · exact h

/-- The check succeeds when every connection it finds passes. -/
theorem runCheck_eq_success {proc : Proc} {white_list : Json} :
  runCheck proc white_list = .ok .SUCCESS ↔ TablesRead proc ∧
    ∀ protocol entry pid, Covered proc protocol entry → FoundOwner proc entry.inode pid →
      checkConnectionAgainstWhiteList white_list (connectionOf proc protocol entry pid)
        = .ok .SUCCESS
  := by
  rw [← netstat_isOk_iff]
  constructor
  · intro h
    obtain ⟨connections, hnetstat, hcheck⟩ := bind_eq_ok.mp h
    obtain ⟨n, hcount, hstatus⟩ := bind_eq_ok.mp hcheck
    use ⟨connections, hnetstat⟩
    have hzero : n = 0 := by
      by_contra hne
      rw [if_neg hne] at hstatus
      cases hstatus
    subst hzero
    intro protocol entry pid hcovered hpid
    apply foldlM_countBlacklisted_eq.mp hcount
    apply (mem_netstat hnetstat _).mpr
    use protocol, entry, pid
  · rintro ⟨⟨connections, hnetstat⟩, h⟩
    have hcount : connections.foldlM (countBlacklisted white_list) 0 = .ok 0 := by
      apply foldlM_countBlacklisted_eq.mpr
      intro c hc
      obtain ⟨protocol, entry, pid, hcovered, hpid, rfl⟩ := (mem_netstat hnetstat c).mp hc
      apply h protocol entry pid hcovered hpid
    rw [runCheck, hnetstat]
    change checkConnectionsAgainstWhiteList white_list connections = _
    rw [checkConnectionsAgainstWhiteList, hcount]
    rfl

/-! ### What a check that succeeds has seen -/

/-- An entry matches the white list: by its protocol and port, or by the executable of each
process that owns it. -/
def MatchesWhiteList (proc : Proc) (white_list : Json) (protocol : Text) (entry : Entry) : Prop :=
  ListedByPort white_list protocol entry.port ∨
    (∃ pid, Owns proc entry.inode pid) ∧
      ∀ pid, Owns proc entry.inode pid → ListedByExecutable white_list (proc.exe pid)

/-- The check does not succeed without having seen every open port.  Either it raises because of
a table it cannot read, or it finds a connection that does not pass, or every entry that is not
listed by its port has an owner, and each owner is found unless its executable is listed. -/
inductive Reliable (proc : Proc) (white_list : Json) : Prop
  | unreadable (h : ¬ TablesRead proc)
  | refused {protocol entry pid} (hcovered : Covered proc protocol entry)
      (hfound : FoundOwner proc entry.inode pid)
      (h : ¬ (WhiteListReads white_list (connectionOf proc protocol entry pid) ∧
        (ListedByPort white_list protocol entry.port
          ∨ ListedByExecutable white_list (proc.exe pid))))
  | seen (h : ∀ protocol entry, Covered proc protocol entry →
      ¬ ListedByPort white_list protocol entry.port →
        (∃ pid, Owns proc entry.inode pid) ∧
          ∀ pid, Owns proc entry.inode pid → ¬ FoundOwner proc entry.inode pid →
            ListedByExecutable white_list (proc.exe pid))

/-- A check that succeeds lets an entry pass by the executables of the owners it finds. -/
theorem listedByExecutable_of_success
    {proc : Proc} {white_list : Json} {protocol : Text} {entry : Entry} {pid : Text}
    (h : runCheck proc white_list = .ok .SUCCESS) (hcovered : Covered proc protocol entry)
    (hport : ¬ ListedByPort white_list protocol entry.port)
    (hfound : FoundOwner proc entry.inode pid) :
  ListedByExecutable white_list (proc.exe pid)
  := by
  have hcheck := (runCheck_eq_success.mp h).2 protocol entry pid hcovered hfound
  obtain ⟨-, hlisted | hlisted⟩ := checkConnectionAgainstWhiteList_eq_success.mp hcheck
  · exact absurd hlisted hport
  · exact hlisted

/-- A check that succeeds means that every entry it is meant to cover matches the white list,
exactly when it is reliable. -/
theorem sound_iff (proc : Proc) (white_list : Json) :
  (runCheck proc white_list = .ok .SUCCESS →
      ∀ protocol entry, Covered proc protocol entry →
        MatchesWhiteList proc white_list protocol entry)
    ↔ Reliable proc white_list
  := by
  constructor
  · intro h
    by_cases htables : TablesRead proc
    · by_cases hpass : ∀ protocol entry pid, Covered proc protocol entry →
          FoundOwner proc entry.inode pid →
            checkConnectionAgainstWhiteList white_list (connectionOf proc protocol entry pid)
              = .ok .SUCCESS
      · apply Reliable.seen
        intro protocol entry hcovered hport
        obtain hlisted | ⟨howned, howners⟩ :=
          h (runCheck_eq_success.mpr ⟨htables, hpass⟩) protocol entry hcovered
        · exact absurd hlisted hport
        · use howned
          rintro pid howns -
          apply howners pid howns
      · push Not at hpass
        obtain ⟨protocol, entry, pid, hcovered, hfound, hrefused⟩ := hpass
        apply Reliable.refused hcovered hfound
        intro hlisted
        apply hrefused
        apply checkConnectionAgainstWhiteList_eq_success.mpr hlisted
    · apply Reliable.unreadable htables
  · intro hreliable h protocol entry hcovered
    obtain ⟨htables, hpass⟩ := runCheck_eq_success.mp h
    cases hreliable with
    | unreadable hunread => exact absurd htables hunread
    | refused hcovered' hfound hrefused =>
        have hcheck := hpass _ _ _ hcovered' hfound
        exact absurd (checkConnectionAgainstWhiteList_eq_success.mp hcheck) hrefused
    | seen hseen =>
        by_cases hport : ListedByPort white_list protocol entry.port
        · exact Or.inl hport
        · right
          obtain ⟨howned, howners⟩ := hseen protocol entry hcovered hport
          use howned
          intro pid howns
          by_cases hfound : FoundOwner proc entry.inode pid
          · apply listedByExecutable_of_success h hcovered hport hfound
          · apply howners pid howns hfound

/-- A device where no process has the socket of an SSH port open. -/
def unownedSsh : Proc where
  uid := 0
  pid := 7
  net := fun
    | .tcp => some ["  sl  local_address".toList,
        "   0: 00000000:0016 00000000:0000 0A 0:0 0:0 0 0 0 42 1".toList]
    | _ => some ["header".toList]
  listing := ["7".toList]
  fd := fun _ => some []
  exe := fun _ => none
  nodup := by simp
  pid_mem := by decide

/-- The check succeeds on a device with a port that is open to all addresses, is not in the
white list, and has no owner. -/
theorem runCheck_unownedSsh :
  runCheck unownedSsh (.obj [("ports".toList, .arr []), ("executables".toList, .arr [])])
      = .ok .SUCCESS ∧
    ∃ entry, Covered unownedSsh "tcp4".toList entry ∧
      ¬ MatchesWhiteList unownedSsh
        (.obj [("ports".toList, .arr []), ("executables".toList, .arr [])]) "tcp4".toList entry
  := by
  constructor
  · decide +kernel
  · use ⟨some (.IPv4Address [0, 0, 0, 0]), some "22".toList, "42".toList⟩
    constructor
    · have htable : InTable unownedSsh .tcp ["0:".toList, "00000000:0016".toList,
          "00000000:0000".toList, "0A".toList, "0:0".toList, "0:0".toList, "0".toList,
          "0".toList, "0".toList, "42".toList, "1".toList] := by
        refine ⟨_, _, _, rfl, List.mem_singleton.mpr rfl, ?_, ?_⟩ <;> decide +kernel
      apply Covered.tcp4 htable
      · refine ⟨"00000000:0016".toList, .IPv4Address [0, 0, 0, 0], "22".toList, ?_⟩
        decide +kernel
      · rfl
    · rintro (⟨port, -, ports, hports, port_data, hmem, -⟩ | ⟨⟨pid, -, -, -, fds, hfds, hlink⟩, -⟩)
      · obtain rfl : [] = ports := Except.ok.inj hports
        cases hmem
      · obtain rfl := Option.some.inj hfds
        cases hlink

end OpenPorts
