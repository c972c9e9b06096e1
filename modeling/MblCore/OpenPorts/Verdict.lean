import MblCore.OpenPorts.OpenPortsChecker
import Mathlib.Data.List.Forall2

/-!
# The verdict of the open ports checker

With a white list whose entries have the fields they need, a check raises an exception just when a
socket table cannot be read.  Otherwise it tells whether there is a connection that the white list does
not allow.
-/

namespace OpenPorts

open Loops
open App (Json)

/-! ### White lists -/

/-- A white list: the ports with their protocols and the executables that the document names. -/
structure WhiteList where
  document : Json
  ports : List (Text × Text)
  executables : List Text
  reads_ports : ∃ items, listed "ports".toList document = .ok items ∧
    List.Forall₂ (fun item (p : Text × Text) => getItem "protocol".toList item = .ok (.str p.1) ∧
      getItem "port".toList item = .ok (.str p.2)) items ports
  reads_executables : ∃ items, listed "executables".toList document = .ok items ∧
    List.Forall₂ (fun item executable => getItem "executable".toList item = .ok (.str executable))
      items executables

namespace WhiteList

/-- Any ports and executables make a white list, in the form of `white_list.json`. -/
def ofLists (ports : List (Text × Text)) (executables : List Text) : WhiteList where
  document := .obj [
    ("ports".toList, .arr (ports.map fun p =>
      .obj [("protocol".toList, .str p.1), ("port".toList, .str p.2)])),
    ("executables".toList, .arr (executables.map fun executable =>
      .obj [("executable".toList, .str executable)]))]
  ports := ports
  executables := executables
  reads_ports := by
    refine ⟨_, rfl, ?_⟩
    rw [List.forall₂_map_left_iff, List.forall₂_same]
    exact fun _ _ => ⟨rfl, rfl⟩
  reads_executables := by
    refine ⟨_, rfl, ?_⟩
    rw [List.forall₂_map_left_iff, List.forall₂_same]
    exact fun _ _ => rfl

/-- The white list has the protocol and the port of the connection, or its executable. -/
def allows (w : WhiteList) (connection : Connection) : Bool :=
  w.ports.any (fun p => p.1 == connection.protocol && connection.port.any (p.2 == ·))
    || w.executables.any fun executable => connection.executable.any (executable == ·)

variable {w : WhiteList} {connection : Connection}

theorem anyM_checkPort_eq {items : List Json} {ports : List (Text × Text)}
    (h : List.Forall₂ (fun item (p : Text × Text) =>
      getItem "protocol".toList item = .ok (.str p.1) ∧
        getItem "port".toList item = .ok (.str p.2)) items ports) :
  items.anyM (checkPort connection)
    = .ok (ports.any fun p => p.1 == connection.protocol && connection.port.any (p.2 == ·))
  := by
  induction h with
  | nil => rfl
  | @cons item p items ports hitem _ ih =>
      have hcheck : checkPort connection item
          = .ok (p.1 == connection.protocol && connection.port.any (p.2 == ·)) := by
        rw [checkPort, hitem.1]
        change (getItem "port".toList item >>= _) = _
        rw [hitem.2]
        rfl
      rw [List.anyM_cons, hcheck, List.any_cons]
      cases p.1 == connection.protocol && connection.port.any (p.2 == ·) with
      | true => rfl
      | false => exact ih

theorem anyM_checkExecutable_eq {items : List Json} {executables : List Text}
    (h : List.Forall₂ (fun item executable =>
      getItem "executable".toList item = .ok (.str executable)) items executables) :
  items.anyM (checkExecutable connection)
    = .ok (executables.any fun executable => connection.executable.any (executable == ·))
  := by
  induction h with
  | nil => rfl
  | @cons item executable items executables hitem _ ih =>
      have hcheck : checkExecutable connection item
          = .ok (connection.executable.any (executable == ·)) := by
        rw [checkExecutable, hitem]
        rfl
      rw [List.anyM_cons, hcheck, List.any_cons]
      cases connection.executable.any (executable == ·) with
      | true => rfl
      | false => exact ih

/-- The comparison raises no exception and decides what is allowed. -/
theorem checkConnection_eq (w : WhiteList) (connection : Connection) :
  checkConnectionAgainstWhiteList w.document connection
    = .ok (if w.allows connection then .SUCCESS else .BLACK_LISTED_CONNECTION)
  := by
  obtain ⟨port_items, hports, hport_items⟩ := w.reads_ports
  obtain ⟨executable_items, hexecutables, hexecutable_items⟩ := w.reads_executables
  obtain ⟨ports_value, hports_value, hports⟩ := bind_eq_ok.mp hports
  obtain ⟨executables_value, hexecutables_value, hexecutables⟩ := bind_eq_ok.mp hexecutables
  apply bind_eq_ok.mpr ⟨ports_value, hports_value, _⟩
  apply bind_eq_ok.mpr ⟨port_items, hports, _⟩
  apply bind_eq_ok.mpr ⟨_, anyM_checkPort_eq hport_items, _⟩
  apply bind_eq_ok.mpr ⟨executables_value, hexecutables_value, _⟩
  apply bind_eq_ok.mpr ⟨executable_items, hexecutables, _⟩
  exact bind_eq_ok.mpr ⟨_, anyM_checkExecutable_eq hexecutable_items, rfl⟩

/-- The loop counts the connections that are not allowed. -/
theorem foldlM_countBlacklisted (w : WhiteList) (connections : List Connection) (n : ℕ) :
  connections.foldlM (countBlacklisted w.document) n
    = .ok (n + connections.countP fun connection => !w.allows connection)
  := by
  induction connections generalizing n with
  | nil => rfl
  | cons connection connections ih =>
      rw [List.foldlM_cons, countBlacklisted, checkConnection_eq]
      cases hallows : w.allows connection with
      | true =>
          rw [List.countP_cons_of_neg (by simp [hallows])]
          exact ih n
      | false =>
          rw [List.countP_cons_of_pos (by simp [hallows]),
            show n + (List.countP (fun connection => !w.allows connection) connections + 1)
              = n + 1 + List.countP (fun connection => !w.allows connection) connections by omega]
          exact ih (n + 1)

/-- A check of the tables that can be read returns a status. -/
theorem runCheck_eq {proc : Proc} {connections : List Connection} (w : WhiteList)
    (h : netstat proc = .ok connections) :
  runCheck proc w.document
    = .ok (if ∀ c ∈ connections, w.allows c = true then .SUCCESS else .BLACK_LISTED_CONNECTION)
  := by
  rw [runCheck, h]
  change checkConnectionsAgainstWhiteList w.document connections = _
  rw [checkConnectionsAgainstWhiteList, foldlM_countBlacklisted, Nat.zero_add]
  apply congrArg Except.ok
  have hcount : (connections.countP fun connection => !w.allows connection) = 0
      ↔ ∀ c ∈ connections, w.allows c = true := by
    simp [List.countP_eq_zero]
  simp only [hcount]

/-! ### The verdict -/

/-- What a check with this white list comes to, on a device with this `/proc`. -/
structure Verdict (w : WhiteList) (proc : Proc) : Prop where
  success : runCheck proc w.document = .ok .SUCCESS ↔ TablesRead proc ∧
    ∀ protocol entry pid, Covered proc protocol entry → FoundOwner proc entry.inode pid →
      w.allows (connectionOf proc protocol entry pid) = true
  blackListed : runCheck proc w.document = .ok .BLACK_LISTED_CONNECTION ↔ TablesRead proc ∧
    ∃ protocol entry pid, Covered proc protocol entry ∧ FoundOwner proc entry.inode pid ∧
      w.allows (connectionOf proc protocol entry pid) = false
  raises : (∃ e, runCheck proc w.document = .error e) ↔ ¬ TablesRead proc

/-- The check decides the white list: what is reported as black-listed is, and nothing else is. -/
theorem verdict (w : WhiteList) (proc : Proc) :
  w.Verdict proc
  := by
  by_cases htables : TablesRead proc
  · obtain ⟨connections, hnetstat⟩ := netstat_isOk_iff.mpr htables
    have hall : (∀ c ∈ connections, w.allows c = true)
        ↔ ∀ protocol entry pid, Covered proc protocol entry → FoundOwner proc entry.inode pid →
          w.allows (connectionOf proc protocol entry pid) = true := by
      constructor
      · intro h protocol entry pid hcovered hfound
        apply h
        exact (mem_netstat hnetstat _).mpr ⟨protocol, entry, pid, hcovered, hfound, rfl⟩
      · intro h c hc
        obtain ⟨protocol, entry, pid, hcovered, hfound, rfl⟩ := (mem_netstat hnetstat c).mp hc
        exact h protocol entry pid hcovered hfound
    constructor
    · rw [runCheck_eq w hnetstat, ← hall]
      simp [htables]
    · rw [runCheck_eq w hnetstat]
      by_cases hpass : ∀ c ∈ connections, w.allows c = true
      · rw [if_pos hpass]
        constructor
        · nofun
        · rintro ⟨-, protocol, entry, pid, hcovered, hfound, hrefused⟩
          rw [hall.mp hpass protocol entry pid hcovered hfound] at hrefused
          contradiction
      · rw [if_neg hpass]
        simp only [true_iff]
        refine ⟨htables, ?_⟩
        by_contra hnone
        apply hpass
        rw [hall]
        intro protocol entry pid hcovered hfound
        by_contra hrefused
        exact hnone ⟨protocol, entry, pid, hcovered, hfound, Bool.eq_false_iff.mpr hrefused⟩
    · rw [runCheck_eq w hnetstat]
      simp [htables]
  · have hraises : ∃ e, runCheck proc w.document = .error e := by
      cases hnetstat : netstat proc with
      | error e => exact ⟨e, by rw [runCheck, hnetstat]; rfl⟩
      | ok connections => exact absurd (netstat_isOk_iff.mp ⟨connections, hnetstat⟩) htables
    obtain ⟨e, he⟩ := hraises
    constructor
    · simp [he, htables]
    · simp [he, htables]
    · simp [he, htables]

end WhiteList

end OpenPorts
