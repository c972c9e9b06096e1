import MblCore.App.Python
import MblCore.Lib.Loops
import MblCore.Lib.Struct

/-!
# The open ports of a device

The module `netstatutils` of the open ports checker.  It reads the five socket tables under
`/proc/net`, and looks for the processes that use a socket through the links in their
directories `/proc/<pid>/fd`.  The numbers of the system are little-endian, and the files under
`/proc` are ASCII texts.
-/

namespace OpenPorts

open Loops

/-- The exceptions the checker raises. -/
inductive PyError
  | AssertionError
  | IndexError
  | KeyError
  | OSError
  | TypeError
  | ValueError
  /-- `struct.error`. -/
  | structError
  /-- `binascii.Error`. -/
  | binasciiError
deriving DecidableEq

/-! ### The file system under `/proc` -/

/-- The socket tables under `/proc/net`. -/
inductive ProcNet
  | tcp
  | udp
  | tcp6
  | udp6
  | packet
deriving DecidableEq

/-- What the checker finds in `/proc`, and the process it runs as. -/
structure Proc where
  /-- `os.getuid()`. -/
  uid : ℕ
  /-- `os.getpid()`. -/
  pid : ℕ
  /-- The lines of a socket table, with its header; `none` when it cannot be read. -/
  net : ProcNet → Option (List Text)
  /-- `os.listdir("/proc")`. -/
  listing : List Text
  /-- The links in `/proc/<pid>/fd`, `none` for a link that cannot be read, and `none` for a
  directory that cannot be listed. -/
  fd : Text → Option (List (Option Text))
  /-- The link `/proc/<pid>/exe`, `none` when it cannot be read. -/
  exe : Text → Option Text
  nodup : listing.Nodup
  pid_mem : Text.decimal pid ∈ listing

/-! ### Texts -/

/-- `text.split()`. -/
def split (text : Text) : List Text :=
  (text.splitOnP App.isSpace).filter (!·.isEmpty)

/-- The value of a hexadecimal digit. -/
def hexDigit? (c : Char) : Option ℕ :=
  if '0' ≤ c ∧ c ≤ '9' then some (c.toNat - '0'.toNat)
  else if 'a' ≤ c ∧ c ≤ 'f' then some (c.toNat - 'a'.toNat + 10)
  else if 'A' ≤ c ∧ c ≤ 'F' then some (c.toNat - 'A'.toNat + 10)
  else none

/-- `int(text, 16)`: a hexadecimal numeral, perhaps with a sign and the prefix `0x`, and with
single underscores between its digits. -/
def intHex? (text : Text) : Option ℤ :=
  let digits (t : Text) : Option ℕ :=
    if (t.splitOn '_').all (!·.isEmpty) then
      (t.splitOn '_').flatten.foldlM (fun n c => (hexDigit? c).map (n * 16 + ·)) 0
    else none
  let number : Text → Option ℕ
    | '0' :: 'x' :: '_' :: t | '0' :: 'X' :: '_' :: t => digits t
    | '0' :: 'x' :: t | '0' :: 'X' :: t => digits t
    | t => digits t
  match App.lstrip (App.rstrip text) with
  | '-' :: t => (number t).map fun n => -(n : ℤ)
  | '+' :: t => (number t).map Int.ofNat
  | t => (number t).map Int.ofNat

/-- `int(text, 16)`, which raises an error for a text that is no numeral. -/
def intHex (text : Text) : Except PyError ℤ :=
  match intHex? text with
  | some n => .ok n
  | none => .error .ValueError

def hexToDec (s : Text) : Except PyError Text := do
  return App.intText (← intHex s)

/-! ### Addresses -/

/-- The addresses of `ipaddress`, packed in network byte order. -/
inductive IPAddress
  | IPv4Address (packed : Bytes)
  | IPv6Address (packed : Bytes)
deriving DecidableEq

/-- The addresses `127.0.0.0/8`, and the address `::1`. -/
def IPAddress.is_loopback : IPAddress → Bool
  | .IPv4Address packed => packed.head? == some 127
  | .IPv6Address packed => packed == List.replicate 15 0 ++ [1]

def parseIpv4Address (ipv4_hex : Text) : Except PyError IPAddress := do
  let ipv4 ← intHex ipv4_hex
  if 0 ≤ ipv4 ∧ ipv4 < 256 ^ 4 then
    return .IPv4Address (Struct.bigEndian 4 ipv4.toNat).reverse
  else
    throw .structError

/-- `codecs.decode(text, "hex")`. -/
def decodeHex : Text → Except PyError Bytes
  | [] => .ok []
  | [_] => .error .binasciiError
  | a :: b :: rest =>
      match hexDigit? a, hexDigit? b with
      | some m, some n => do return UInt8.ofNat (m * 16 + n) :: (← decodeHex rest)
      | _, _ => .error .binasciiError

/-- The bytes of a word in the opposite order. -/
def repack (word : Bytes) : Bytes :=
  (Struct.bigEndian 4 (Struct.ofBigEndian word)).reverse

def parseIpv6Address (ipv6_hex : Text) : Except PyError IPAddress := do
  let binary ← decodeHex ipv6_hex
  if binary.length = 16 then
    return .IPv6Address (repack (binary.take 4) ++ repack ((binary.drop 4).take 4)
      ++ repack ((binary.drop 8).take 4) ++ repack (binary.drop 12))
  else
    throw .structError

/-- `host, port = raw_address.split(":")`, with the host read by the function that is given. -/
def parseAddressPortPair (parseAddress : Text → Except PyError IPAddress) (raw_address : Text) :
    Except PyError (IPAddress × Text) :=
  match raw_address.splitOn ':' with
  | [host, port] => do return (← parseAddress host, ← hexToDec port)
  | _ => .error .ValueError

def parseIpv4AddressPortPair (raw_address : Text) : Except PyError (IPAddress × Text) :=
  parseAddressPortPair parseIpv4Address raw_address

def parseIpv6AddressPortPair (raw_address : Text) : Except PyError (IPAddress × Text) :=
  parseAddressPortPair parseIpv6Address raw_address

example : parseIpv4AddressPortPair "0100007F:0016".toList
    = .ok (.IPv4Address [127, 0, 0, 1], "22".toList) := by
  decide +kernel

/-! ### Sockets and processes -/

/-- A connection of a process. -/
structure Connection where
  protocol : Text
  ip : Option IPAddress
  port : Option Text
  pid : Text
  executable : Option Text
deriving DecidableEq

def loadSocketTable (proc : Proc) (entry : ProcNet) : Except PyError (List Text) :=
  match proc.net entry with
  | none => .error .OSError
  | some [] => .error .IndexError
  | some (_ :: content) => .ok content

/-- The target of the link to a socket. -/
def socketInodeLink (inode : Text) : Text :=
  "socket:[".toList ++ inode ++ "]".toList

/-- The pid, once for each link to the socket before the first one that cannot be read. -/
def matchingFds (pid link : Text) : List (Option Text) → List Text
  | [] => []
  | none :: _ => []
  | some target :: fds =>
      if link = target then pid :: matchingFds pid link fds else matchingFds pid link fds

/-- The running processes, without that of the checker. -/
def otherPids (proc : Proc) : Except PyError (List Text) :=
  let pids := proc.listing.filter Text.isNumeral
  if Text.decimal proc.pid ∈ pids then .ok (pids.erase (Text.decimal proc.pid))
  else .error .ValueError

def getPidsFromInode (proc : Proc) (inode : Text) : Except PyError (List Text) := do
  let pids ← otherPids proc
  return pids.flatMap fun pid =>
    match proc.fd pid with
    | none => []
    | some fds => matchingFds pid (socketInodeLink inode) fds

def getExeName (proc : Proc) (pid : Text) : Option Text :=
  proc.exe pid

/-! ### The socket tables -/

def TCP_STATES : List (Text × Text) :=
  [("01".toList, "ESTABLISHED".toList), ("02".toList, "SYN_SENT".toList),
    ("03".toList, "SYN_RECV".toList), ("04".toList, "FIN_WAIT1".toList),
    ("05".toList, "FIN_WAIT2".toList), ("06".toList, "TIME_WAIT".toList),
    ("07".toList, "CLOSE".toList), ("08".toList, "CLOSE_WAIT".toList),
    ("09".toList, "LAST_ACK".toList), ("0A".toList, "LISTEN".toList),
    ("0B".toList, "CLOSING".toList)]

def NET_LOCAL_ADDRESS : ℕ := 1

def NET_TCP_STATE : ℕ := 3

def NET_PACKET_INODE : ℕ := 8

def NET_INODE : ℕ := 9

/-- `socket_data[i]`. -/
def field (socket_data : List Text) (i : ℕ) : Except PyError Text :=
  match socket_data[i]? with
  | some text => .ok text
  | none => .error .IndexError

/-- `TCP_STATES[tcp_state_hex]`. -/
def tcpState (tcp_state_hex : Text) : Except PyError Text :=
  match TCP_STATES.lookup tcp_state_hex with
  | some tcp_state => .ok tcp_state
  | none => .error .KeyError

/-- What is read of an entry of a socket table. -/
structure Entry where
  ip : Option IPAddress
  port : Option Text
  inode : Text
deriving DecidableEq

/-- The entry of a line of a table of UDP sockets, if it is not skipped. -/
def udpEntry (parsePair : Text → Except PyError (IPAddress × Text)) (socket_data : List Text) :
    Except PyError (Option Entry) := do
  let (local_address, local_port) ← parsePair (← field socket_data NET_LOCAL_ADDRESS)
  if local_address.is_loopback then
    return none
  let inode ← field socket_data NET_INODE
  return some ⟨some local_address, some local_port, inode⟩

/-- The entry of a line of a table of TCP sockets, if it is not skipped. -/
def tcpEntry (parsePair : Text → Except PyError (IPAddress × Text)) (socket_data : List Text) :
    Except PyError (Option Entry) := do
  let (local_address, local_port) ← parsePair (← field socket_data NET_LOCAL_ADDRESS)
  if local_address.is_loopback then
    return none
  let tcp_state ← tcpState (← field socket_data NET_TCP_STATE)
  if tcp_state ≠ "LISTEN".toList then
    return none
  let inode ← field socket_data NET_INODE
  return some ⟨some local_address, some local_port, inode⟩

/-- The entry of a line of the table of packet sockets. -/
def packetEntry (socket_data : List Text) : Except PyError (Option Entry) := do
  let inode ← field socket_data NET_PACKET_INODE
  return some ⟨none, none, inode⟩

/-- The connection of a process through an entry. -/
def connectionOf (proc : Proc) (protocol : Text) (entry : Entry) (pid : Text) : Connection :=
  ⟨protocol, entry.ip, entry.port, pid, getExeName proc pid⟩

/-- The connections of a line, one for each process that is found to use its socket. -/
def lineConnections (proc : Proc) (protocol : Text)
    (readEntry : List Text → Except PyError (Option Entry)) (line : Text) :
    Except PyError (List Connection) := do
  let socket_data := split line
  if socket_data = [] then
    return []
  match ← readEntry socket_data with
  | none => return []
  | some entry => do
      let pids ← getPidsFromInode proc entry.inode
      return pids.map (connectionOf proc protocol entry)

/-- The connections of the entries of a socket table. -/
def netstatOf (proc : Proc) (entry : ProcNet) (protocol : Text)
    (readEntry : List Text → Except PyError (Option Entry)) :
    Except PyError (List Connection) := do
  let socket_table ← loadSocketTable proc entry
  collect (lineConnections proc protocol readEntry) socket_table

def netstatTcp4 (proc : Proc) : Except PyError (List Connection) :=
  netstatOf proc .tcp "tcp4".toList (tcpEntry parseIpv4AddressPortPair)

def netstatUdp4 (proc : Proc) : Except PyError (List Connection) :=
  netstatOf proc .udp "udp4".toList (udpEntry parseIpv4AddressPortPair)

def netstatTcp6 (proc : Proc) : Except PyError (List Connection) :=
  netstatOf proc .tcp6 "tcp6".toList (tcpEntry parseIpv6AddressPortPair)

def netstatUdp6 (proc : Proc) : Except PyError (List Connection) :=
  netstatOf proc .udp6 "udp6".toList (udpEntry parseIpv6AddressPortPair)

def netstatRaw (proc : Proc) : Except PyError (List Connection) :=
  netstatOf proc .packet "raw".toList packetEntry

def netstat (proc : Proc) : Except PyError (List Connection) := do
  if proc.uid ≠ 0 then
    throw .AssertionError
  let tcp4_list ← netstatTcp4 proc
  let udp4_list ← netstatUdp4 proc
  let tcp6_list ← netstatTcp6 proc
  let udp6_list ← netstatUdp6 proc
  let raw_list ← netstatRaw proc
  return tcp4_list ++ udp4_list ++ tcp6_list ++ udp6_list ++ raw_list

end OpenPorts
