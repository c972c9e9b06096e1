import MblCore.OpenPorts.Netstatutils

/-!
# What the list of connections shows

The entries the checker is meant to cover, the processes that own them, and the connections
`netstat` lists: one for an entry and a process whose link to the socket comes before every link
of the process that cannot be read.
-/

namespace OpenPorts

open Loops

variable {proc : Proc}

/-! ### The entries that are covered -/

/-- The words of a line of a socket table, after the header, that is not blank. -/
def InTable (proc : Proc) (entry : ProcNet) (socket_data : List Text) : Prop :=
  ∃ header lines line, proc.net entry = some (header :: lines) ∧ line ∈ lines ∧
    split line = socket_data ∧ socket_data ≠ []

/-- The words tell an address that is not a loopback address, its port, and a socket. -/
def NotLoopback (parsePair : Text → Except PyError (IPAddress × Text)) (socket_data : List Text)
    (entry : Entry) : Prop :=
  ∃ raw_address ip port, socket_data[NET_LOCAL_ADDRESS]? = some raw_address ∧
    parsePair raw_address = .ok (ip, port) ∧ ip.is_loopback = false ∧
    socket_data[NET_INODE]? = some entry.inode ∧ entry.ip = some ip ∧ entry.port = some port

/-- The words tell a socket that listens. -/
def Listens (socket_data : List Text) : Prop :=
  socket_data[NET_TCP_STATE]? = some "0A".toList

/-- The entries of the socket tables that the checker is meant to cover, with their protocols. -/
inductive Covered (proc : Proc) : Text → Entry → Prop
  | tcp4 {socket_data entry} (htable : InTable proc .tcp socket_data)
      (haddress : NotLoopback parseIpv4AddressPortPair socket_data entry)
      (hlisten : Listens socket_data) : Covered proc "tcp4".toList entry
  | udp4 {socket_data entry} (htable : InTable proc .udp socket_data)
      (haddress : NotLoopback parseIpv4AddressPortPair socket_data entry) :
      Covered proc "udp4".toList entry
  | tcp6 {socket_data entry} (htable : InTable proc .tcp6 socket_data)
      (haddress : NotLoopback parseIpv6AddressPortPair socket_data entry)
      (hlisten : Listens socket_data) : Covered proc "tcp6".toList entry
  | udp6 {socket_data entry} (htable : InTable proc .udp6 socket_data)
      (haddress : NotLoopback parseIpv6AddressPortPair socket_data entry) :
      Covered proc "udp6".toList entry
  | raw {socket_data inode} (htable : InTable proc .packet socket_data)
      (hinode : socket_data[NET_PACKET_INODE]? = some inode) :
      Covered proc "raw".toList ⟨none, none, inode⟩

theorem field_eq_ok {socket_data : List Text} {i : ℕ} {text : Text} :
  field socket_data i = .ok text ↔ socket_data[i]? = some text
  := by
  unfold field
  split <;> simp_all

/-- `LISTEN` is the state `0A`, and no other. -/
theorem tcpState_eq_listen {tcp_state_hex : Text} :
  tcpState tcp_state_hex = .ok "LISTEN".toList ↔ tcp_state_hex = "0A".toList
  := by
  constructor
  · intro h
    unfold tcpState at h
    split at h
    · rename_i tcp_state hlookup
      obtain rfl := Except.ok.inj h
      obtain ⟨before, after, heq, -⟩ := List.lookup_eq_some_iff.mp hlookup
      have hmem : (tcp_state_hex, "LISTEN".toList) ∈ TCP_STATES := by
        simp [heq]
      simpa [TCP_STATES] using hmem
    · cases h
  · rintro rfl
    decide

/-- The entries that are read from a table of UDP sockets. -/
theorem udpEntry_eq_some
    {parsePair : Text → Except PyError (IPAddress × Text)} {socket_data : List Text}
    {entry : Entry} :
  udpEntry parsePair socket_data = .ok (some entry) ↔ NotLoopback parsePair socket_data entry
  := by
  obtain ⟨ip, port, inode⟩ := entry
  simp only [udpEntry, bind_eq_ok, field_eq_ok, Prod.exists, NotLoopback]
  constructor
  · rintro ⟨raw_address, hraw, local_address, local_port, hparse, h⟩
    split at h
    · cases h
    · rename_i hloopback
      obtain ⟨inode', hinode, h⟩ := bind_eq_ok.mp h
      cases h
      rw [Bool.not_eq_true] at hloopback
      use raw_address, local_address, local_port, hraw, hparse, hloopback, field_eq_ok.mp hinode
  · rintro ⟨raw_address, local_address, local_port, hraw, hparse, hloopback, hinode, rfl, rfl⟩
    use raw_address, hraw, local_address, local_port, hparse
    rw [hloopback, field_eq_ok.mpr hinode]
    rfl

/-- The entries that are read from a table of TCP sockets. -/
theorem tcpEntry_eq_some
    {parsePair : Text → Except PyError (IPAddress × Text)} {socket_data : List Text}
    {entry : Entry} :
  tcpEntry parsePair socket_data = .ok (some entry)
    ↔ NotLoopback parsePair socket_data entry ∧ Listens socket_data
  := by
  obtain ⟨ip, port, inode⟩ := entry
  simp only [tcpEntry, bind_eq_ok, field_eq_ok, Prod.exists, NotLoopback, Listens]
  constructor
  · rintro ⟨raw_address, hraw, local_address, local_port, hparse, h⟩
    split at h
    · cases h
    · rename_i hloopback
      obtain ⟨tcp_state_hex, hhex, hread⟩ := bind_eq_ok.mp h
      obtain ⟨tcp_state, hstate, hrest⟩ := bind_eq_ok.mp hread
      by_cases hlisten : tcp_state ≠ "LISTEN".toList
      · rw [if_pos hlisten] at hrest
        cases hrest
      · rw [if_neg hlisten] at hrest
        obtain ⟨inode', hinode, heq⟩ := bind_eq_ok.mp hrest
        cases heq
        rw [not_not] at hlisten
        subst hlisten
        obtain rfl := tcpState_eq_listen.mp hstate
        rw [Bool.not_eq_true] at hloopback
        constructor
        · use raw_address, local_address, local_port, hraw, hparse, hloopback,
            field_eq_ok.mp hinode
        · apply field_eq_ok.mp hhex
  · rintro ⟨⟨raw_address, local_address, local_port, hraw, hparse, hloopback, hinode, rfl, rfl⟩,
      hlisten⟩
    use raw_address, hraw, local_address, local_port, hparse
    rw [hloopback, field_eq_ok.mpr hlisten, field_eq_ok.mpr hinode]
    rfl

/-- The entries that are read from the table of packet sockets. -/
theorem packetEntry_eq_some {socket_data : List Text} {entry : Entry} :
  packetEntry socket_data = .ok (some entry)
    ↔ ∃ inode, socket_data[NET_PACKET_INODE]? = some inode ∧ entry = ⟨none, none, inode⟩
  := by
  simp only [packetEntry, bind_eq_ok, field_eq_ok]
  constructor
  · rintro ⟨inode, hinode, h⟩
    cases h
    use inode, hinode
  · rintro ⟨inode, hinode, rfl⟩
    use inode, hinode
    rfl

/-! ### The processes that own a socket -/

/-- A process, other than the checker, that has the socket open. -/
def Owns (proc : Proc) (inode pid : Text) : Prop :=
  pid ∈ proc.listing ∧ pid.isNumeral ∧ pid ≠ Text.decimal proc.pid ∧
    ∃ fds, proc.fd pid = some fds ∧ some (socketInodeLink inode) ∈ fds

/-- A process that has the socket open, before any link that cannot be read. -/
def FoundOwner (proc : Proc) (inode pid : Text) : Prop :=
  pid ∈ proc.listing ∧ pid.isNumeral ∧ pid ≠ Text.decimal proc.pid ∧
    ∃ fds, proc.fd pid = some fds ∧ some (socketInodeLink inode) ∈ fds.takeWhile Option.isSome

theorem mem_matchingFds {pid link pid' : Text} {fds : List (Option Text)} :
  pid' ∈ matchingFds pid link fds ↔ pid' = pid ∧ some link ∈ fds.takeWhile Option.isSome
  := by
  induction fds with
  | nil => simp [matchingFds]
  | cons target fds ih =>
      cases target with
      | none => simp [matchingFds]
      | some target =>
          simp only [matchingFds, List.takeWhile_cons, Option.isSome_some, if_true,
            List.mem_cons, Option.some.injEq]
          split
          · rename_i heq
            subst heq
            rw [List.mem_cons, ih]
            tauto
          · rename_i hne
            simp only [ih, hne, false_or]

/-- The checker finds itself among the processes. -/
theorem otherPids_eq (proc : Proc) :
  ∃ pids, otherPids proc = .ok pids ∧
    ∀ pid, pid ∈ pids ↔ pid ∈ proc.listing ∧ pid.isNumeral ∧ pid ≠ Text.decimal proc.pid
  := by
  have hself : Text.decimal proc.pid ∈ proc.listing.filter Text.isNumeral :=
    List.mem_filter.mpr ⟨proc.pid_mem, Text.isNumeral_decimal proc.pid⟩
  use (proc.listing.filter Text.isNumeral).erase (Text.decimal proc.pid)
  constructor
  · rw [otherPids, if_pos hself]
  · intro pid
    rw [(proc.nodup.filter _).mem_erase_iff, List.mem_filter]
    tauto

/-- The processes `get_pids_from_inode` returns. -/
theorem getPidsFromInode_eq (proc : Proc) (inode : Text) :
  ∃ pids, getPidsFromInode proc inode = .ok pids ∧ ∀ pid, pid ∈ pids ↔ FoundOwner proc inode pid
  := by
  obtain ⟨others, hothers, hmem⟩ := otherPids_eq proc
  refine ⟨_, by rw [getPidsFromInode, hothers]; rfl, ?_⟩
  intro pid
  rw [List.mem_flatMap]
  constructor
  · rintro ⟨other, hother, hpid⟩
    split at hpid
    · cases hpid
    · rename_i fds hfds
      obtain ⟨rfl, hlink⟩ := mem_matchingFds.mp hpid
      obtain ⟨hlisted, hnumeral, hne⟩ := (hmem pid).mp hother
      use hlisted, hnumeral, hne, fds
  · rintro ⟨hlisted, hnumeral, hne, fds, hfds, hlink⟩
    use pid, (hmem pid).mpr ⟨hlisted, hnumeral, hne⟩
    rw [hfds]
    apply mem_matchingFds.mpr ⟨rfl, hlink⟩

/-! ### The connections -/

/-- The connections of a line, when it can be read. -/
theorem lineConnections_eq
    (proc : Proc) (protocol : Text)
    {readEntry : List Text → Except PyError (Option Entry)} {line : Text}
    (hne : split line ≠ []) {result : Option Entry} (hread : readEntry (split line) = .ok result) :
  ∃ ys, lineConnections proc protocol readEntry line = .ok ys ∧
    ∀ c, c ∈ ys ↔ ∃ entry pid, result = some entry ∧ FoundOwner proc entry.inode pid ∧
      c = connectionOf proc protocol entry pid
  := by
  cases result with
  | none =>
      use []
      simp [lineConnections, hne, hread, bind, Except.bind, pure, Except.pure]
  | some entry =>
      obtain ⟨pids, hpids, hmem⟩ := getPidsFromInode_eq proc entry.inode
      use pids.map (connectionOf proc protocol entry)
      constructor
      · simp [lineConnections, hne, hread, hpids, bind, Except.bind, pure, Except.pure]
      · intro c
        simp only [List.mem_map, hmem, Option.some.injEq]
        constructor
        · rintro ⟨pid, hpid, rfl⟩
          use entry, pid
        · rintro ⟨_, pid, rfl, hpid, rfl⟩
          use pid

theorem lineConnections_blank
    {protocol : Text} {readEntry : List Text → Except PyError (Option Entry)} {line : Text}
    (hblank : split line = []) :
  lineConnections proc protocol readEntry line = .ok []
  := by
  simp [lineConnections, hblank, pure, Except.pure]

/-- A line can be read unless its entry cannot. -/
theorem lineConnections_isOk_iff
    (proc : Proc) (protocol : Text)
    {readEntry : List Text → Except PyError (Option Entry)} {line : Text} :
  (∃ ys, lineConnections proc protocol readEntry line = .ok ys)
    ↔ (split line ≠ [] → ∃ result, readEntry (split line) = .ok result)
  := by
  by_cases hblank : split line = []
  · simp [lineConnections_blank hblank, hblank]
  · constructor
    · rintro ⟨ys, h⟩ -
      rw [lineConnections, if_neg hblank] at h
      obtain ⟨result, hread, -⟩ := bind_eq_ok.mp h
      use result
    · intro h
      obtain ⟨result, hread⟩ := h hblank
      obtain ⟨ys, hys, -⟩ := lineConnections_eq proc protocol hblank hread
      use ys

/-- A table can be read, with the entries of all its lines. -/
def TableReads (proc : Proc) (entry : ProcNet)
    (readEntry : List Text → Except PyError (Option Entry)) : Prop :=
  ∃ header lines, proc.net entry = some (header :: lines) ∧
    ∀ line ∈ lines, split line ≠ [] → ∃ result, readEntry (split line) = .ok result

theorem loadSocketTable_eq_ok {entry : ProcNet} {lines : List Text} :
  loadSocketTable proc entry = .ok lines ↔ ∃ header, proc.net entry = some (header :: lines)
  := by
  unfold loadSocketTable
  split <;> simp_all

theorem netstatOf_isOk_iff
    {entry : ProcNet} {protocol : Text} {readEntry : List Text → Except PyError (Option Entry)} :
  (∃ r, netstatOf proc entry protocol readEntry = .ok r) ↔ TableReads proc entry readEntry
  := by
  constructor
  · rintro ⟨r, h⟩
    obtain ⟨lines, htable, hcollect⟩ := bind_eq_ok.mp h
    obtain ⟨header, hnet⟩ := loadSocketTable_eq_ok.mp htable
    use header, lines, hnet
    intro line hline
    apply (lineConnections_isOk_iff proc protocol).mp
    apply collect_isOk_iff.mp ⟨r, hcollect⟩ line hline
  · rintro ⟨header, lines, hnet, hlines⟩
    obtain ⟨r, hcollect⟩ := collect_isOk_iff.mpr fun line hline =>
      (lineConnections_isOk_iff proc protocol).mpr (hlines line hline)
    use r
    apply bind_eq_ok.mpr
    use lines, loadSocketTable_eq_ok.mpr ⟨header, hnet⟩

/-- The connections of the entries of a table. -/
theorem mem_netstatOf
    {file : ProcNet} {protocol : Text} {readEntry : List Text → Except PyError (Option Entry)}
    {r : List Connection} (h : netstatOf proc file protocol readEntry = .ok r) (c : Connection) :
  c ∈ r ↔ ∃ socket_data entry pid, InTable proc file socket_data ∧
    readEntry socket_data = .ok (some entry) ∧ FoundOwner proc entry.inode pid ∧
    c = connectionOf proc protocol entry pid
  := by
  obtain ⟨lines, htable, hcollect⟩ := bind_eq_ok.mp h
  obtain ⟨header, hnet⟩ := loadSocketTable_eq_ok.mp htable
  rw [mem_collect hcollect]
  constructor
  · rintro ⟨line, hline, ys, hys, hc⟩
    by_cases hblank : split line = []
    · rw [lineConnections_blank hblank] at hys
      cases hys
      cases hc
    · obtain ⟨result, hread⟩ := (lineConnections_isOk_iff proc protocol).mp ⟨ys, hys⟩ hblank
      obtain ⟨ys', hys', hmem⟩ := lineConnections_eq proc protocol hblank hread
      obtain rfl := Except.ok.inj (hys.symm.trans hys')
      obtain ⟨entry, pid, rfl, hpid, rfl⟩ := (hmem c).mp hc
      use split line, entry, pid
      constructor
      · use header, lines, line
      · use hread, hpid
  · rintro ⟨_, entry, pid, ⟨header', lines', line, hnet', hline, rfl, hne⟩, hread, hpid, rfl⟩
    rw [hnet] at hnet'
    cases hnet'
    obtain ⟨ys, hys, hmem⟩ := lineConnections_eq proc protocol hne hread
    use line, hline, ys, hys
    apply (hmem _).mpr
    use entry, pid

/-- The checker runs as root, and every table can be read. -/
structure TablesRead (proc : Proc) : Prop where
  uid : proc.uid = 0
  tcp4 : TableReads proc .tcp (tcpEntry parseIpv4AddressPortPair)
  udp4 : TableReads proc .udp (udpEntry parseIpv4AddressPortPair)
  tcp6 : TableReads proc .tcp6 (tcpEntry parseIpv6AddressPortPair)
  udp6 : TableReads proc .udp6 (udpEntry parseIpv6AddressPortPair)
  raw : TableReads proc .packet packetEntry

/-- The lists `netstat` concatenates. -/
theorem netstat_eq_ok {r : List Connection} :
  netstat proc = .ok r ↔ proc.uid = 0 ∧ ∃ tcp4 udp4 tcp6 udp6 raw,
    netstatTcp4 proc = .ok tcp4 ∧ netstatUdp4 proc = .ok udp4 ∧ netstatTcp6 proc = .ok tcp6 ∧
    netstatUdp6 proc = .ok udp6 ∧ netstatRaw proc = .ok raw ∧
    r = tcp4 ++ udp4 ++ tcp6 ++ udp6 ++ raw
  := by
  constructor
  · intro h
    unfold netstat at h
    by_cases huid : proc.uid ≠ 0
    · rw [if_pos huid] at h
      cases h
    · rw [if_neg huid] at h
      obtain ⟨tcp4, htcp4, h1⟩ := bind_eq_ok.mp h
      obtain ⟨udp4, hudp4, h2⟩ := bind_eq_ok.mp h1
      obtain ⟨tcp6, htcp6, h3⟩ := bind_eq_ok.mp h2
      obtain ⟨udp6, hudp6, h4⟩ := bind_eq_ok.mp h3
      obtain ⟨raw, hraw, h5⟩ := bind_eq_ok.mp h4
      cases h5
      use not_not.mp huid, tcp4, udp4, tcp6, udp6, raw
  · rintro ⟨huid, tcp4, udp4, tcp6, udp6, raw, htcp4, hudp4, htcp6, hudp6, hraw, rfl⟩
    rw [netstat, if_neg (not_not.mpr huid), htcp4, hudp4, htcp6, hudp6, hraw]
    rfl

/-- The list of connections is complete unless the checker raises. -/
theorem netstat_isOk_iff :
  (∃ r, netstat proc = .ok r) ↔ TablesRead proc
  := by
  constructor
  · rintro ⟨r, h⟩
    obtain ⟨huid, tcp4, udp4, tcp6, udp6, raw, htcp4, hudp4, htcp6, hudp6, hraw, -⟩ :=
      netstat_eq_ok.mp h
    constructor
    · exact huid
    · apply netstatOf_isOk_iff.mp ⟨tcp4, htcp4⟩
    · apply netstatOf_isOk_iff.mp ⟨udp4, hudp4⟩
    · apply netstatOf_isOk_iff.mp ⟨tcp6, htcp6⟩
    · apply netstatOf_isOk_iff.mp ⟨udp6, hudp6⟩
    · apply netstatOf_isOk_iff.mp ⟨raw, hraw⟩
  · rintro ⟨huid, htcp4, hudp4, htcp6, hudp6, hraw⟩
    obtain ⟨tcp4, htcp4⟩ := netstatOf_isOk_iff.mpr htcp4
    obtain ⟨udp4, hudp4⟩ := netstatOf_isOk_iff.mpr hudp4
    obtain ⟨tcp6, htcp6⟩ := netstatOf_isOk_iff.mpr htcp6
    obtain ⟨udp6, hudp6⟩ := netstatOf_isOk_iff.mpr hudp6
    obtain ⟨raw, hraw⟩ := netstatOf_isOk_iff.mpr hraw
    use tcp4 ++ udp4 ++ tcp6 ++ udp6 ++ raw
    apply netstat_eq_ok.mpr
    use huid, tcp4, udp4, tcp6, udp6, raw, htcp4, hudp4, htcp6, hudp6, hraw

/-- The connections `netstat` lists. -/
theorem mem_netstat {r : List Connection} (h : netstat proc = .ok r) (c : Connection) :
  c ∈ r ↔ ∃ protocol entry pid, Covered proc protocol entry ∧
    FoundOwner proc entry.inode pid ∧ c = connectionOf proc protocol entry pid
  := by
  obtain ⟨-, tcp4, udp4, tcp6, udp6, raw, htcp4, hudp4, htcp6, hudp6, hraw, rfl⟩ :=
    netstat_eq_ok.mp h
  simp only [List.mem_append, mem_netstatOf htcp4, mem_netstatOf hudp4, mem_netstatOf htcp6,
    mem_netstatOf hudp6, mem_netstatOf hraw, tcpEntry_eq_some, udpEntry_eq_some,
    packetEntry_eq_some]
  constructor
  · rintro ((((⟨_, entry, pid, htable, ⟨haddress, hlisten⟩, hpid, rfl⟩
      | ⟨_, entry, pid, htable, haddress, hpid, rfl⟩)
      | ⟨_, entry, pid, htable, ⟨haddress, hlisten⟩, hpid, rfl⟩)
      | ⟨_, entry, pid, htable, haddress, hpid, rfl⟩)
      | ⟨_, entry, pid, htable, ⟨inode, hinode, rfl⟩, hpid, rfl⟩)
    · use "tcp4".toList, entry, pid, .tcp4 htable haddress hlisten
    · use "udp4".toList, entry, pid, .udp4 htable haddress
    · use "tcp6".toList, entry, pid, .tcp6 htable haddress hlisten
    · use "udp6".toList, entry, pid, .udp6 htable haddress
    · use "raw".toList, ⟨none, none, inode⟩, pid, .raw htable hinode
  · rintro ⟨_, entry, pid, hcovered, hpid, rfl⟩
    cases hcovered with
    | @tcp4 socket_data entry htable haddress hlisten =>
        left; left; left; left
        use socket_data, entry, pid, htable, ⟨haddress, hlisten⟩
    | @udp4 socket_data entry htable haddress =>
        left; left; left; right
        use socket_data, entry, pid, htable, haddress
    | @tcp6 socket_data entry htable haddress hlisten =>
        left; left; right
        use socket_data, entry, pid, htable, ⟨haddress, hlisten⟩
    | @udp6 socket_data entry htable haddress =>
        left; right
        use socket_data, entry, pid, htable, haddress
    | @raw socket_data inode htable hinode =>
        right
        use socket_data, ⟨none, none, inode⟩, pid, htable, ⟨inode, hinode, rfl⟩

end OpenPorts
