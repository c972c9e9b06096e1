import MblCore.Lib.Lts
import MblCore.Updated.PayloadHardLink

/-!
# `UpdateCoordinator`

UpdateD answers `StartUpdate` on the threads of its RPC server and hands payloads over to
swupdate on its main thread.  The two share an `UpdateCoordinator`: a flag, a slot for the
hard link to the payload and the header of the update, all behind one mutex.  A step is what
one thread does while it holds the mutex.

Assertions are on.  `start` is `noexcept`, and so is the destructor of the link: an exception that
leaves one of them ends the process, and the process takes no further step then.
-/

open FileTree

namespace Updated

open PayloadHardLink

/-- The symbolic links a lookup follows at most. -/
def MAXSYMLINKS : Nat := 40

/-- How the call of a function ends. -/
inductive Ending
  | returns
  | throws
  | terminates
deriving DecidableEq

/-! ### The coordinator and its two operations -/

/-- The `PayloadHardLink` in the slot of the coordinator. -/
structure HeldLink where
  payload_path : List Text
  /-- The number of the request that made the link. -/
  request : Nat
deriving DecidableEq

/-- A `StartUpdate` request that was answered with `SUCCESS`. -/
structure Request where
  payload_path : Route
  header_data : Text
  /-- The regular file the path led to when the request was carried out. -/
  file : Option Ino
  /-- What the link was made of. -/
  payload : Option (Node (Leaf Ino))
deriving DecidableEq

/-- A call of swupdate with a payload. -/
structure Handover where
  /-- The number of the request whose link was handed over. -/
  request : Nat
  payload : List Text
  /-- What was at the path of the link. -/
  found : Option (Node (Leaf Ino))
  /-- The last request carried out before. -/
  last : Option Request
deriving DecidableEq

/-- The state of UpdateD and of the file system it works on. -/
structure UpdateCoordinator where
  fs : Nodes
  updating : Bool
  payload_link : Option HeldLink
  /-- The header in the manifest of the update. -/
  header : Text
  terminated : Bool
  /-- The requests answered with `SUCCESS`, in the order in which they were carried out. -/
  accepted : List Request
  /-- The calls of swupdate, in order. -/
  handovers : List Handover
  /-- The numbers of the requests that a call of `run` has served and returned from, in order. -/
  finished : List Nat

namespace UpdateCoordinator

/-- The coordinator when UpdateD comes up. -/
def init (fs : Nodes) : UpdateCoordinator where
  fs := fs
  updating := false
  payload_link := none
  header := []
  terminated := false
  accepted := []
  handovers := []
  finished := []

/-- A failed assertion, or an exception that leaves a function that is `noexcept`. -/
def terminate (c : UpdateCoordinator) : UpdateCoordinator :=
  { c with terminated := true }

/-- What a function that is `noexcept` makes of the ending of its body. -/
def noexcept : Ending × UpdateCoordinator → Ending × UpdateCoordinator
  | (.returns, c) => (.returns, c)
  | (.throws, c) => (.terminates, c.terminate)
  | (.terminates, c) => (.terminates, c.terminate)

/-- The destructor of the link in the slot, if there is one. -/
def destructHeld (os : Os) : Option HeldLink → Call Unit
  | some old => destruct os MAXSYMLINKS old.payload_path
  | none => pure ()

/-- The body of `UpdateCoordinator::start` up to the assignment of the header. -/
def assignHeader (c : UpdateCoordinator) (payload_path : Route) (header_data : Text) :
    Ending × UpdateCoordinator :=
  if payload_path.empty ∨ header_data.isEmpty then (.terminates, c)
  else (.returns, { c with header := header_data })

/-- The coordinator when the link of a request is in the slot: `fs` are the files when the link has
been made, and `fs'` when the old link has been destroyed. -/
def acceptRequest (c : UpdateCoordinator) (payload_path : Route) (header_data : Text)
    (link : List Text) (fs fs' : Nodes) : UpdateCoordinator :=
  { c with
    fs := fs'
    payload_link := some ⟨link, c.accepted.length⟩
    updating := true
    accepted := c.accepted ++
      [⟨payload_path, header_data, c.fs.read MAXSYMLINKS payload_path.parts,
        fs.nodeAt MAXSYMLINKS link⟩] }

/-- The body of `UpdateCoordinator::start` from there on.  The system does what `os` says for the
new link, and what `os'` says for the link that is destroyed. -/
def replaceLink (c : UpdateCoordinator) (payload_path : Route) (header_data : Text)
    (os os' : Os) : Ending × UpdateCoordinator :=
  -- the assertion of the constructor
  if payload_path.is_absolute = false then (.terminates, c)
  else
    match (construct os MAXSYMLINKS payload_path.parts).call c.fs with
    | (.error _, fs) => (.throws, { c with fs := fs })
    | (.ok link, fs) =>
        -- the slot is assigned the new link before the old link is destroyed
        match (destructHeld os' c.payload_link).call fs with
        | (.error _, fs') =>
            (.terminates, { c with fs := fs', payload_link := some ⟨link, c.accepted.length⟩ })
        | (.ok (), fs') => (.returns, c.acceptRequest payload_path header_data link fs fs')

/-- `UpdateCoordinator::start`. -/
def start (c : UpdateCoordinator) (payload_path : Route) (header_data : Text) (os os' : Os) :
    Ending × UpdateCoordinator :=
  noexcept <|
    match c.assignHeader payload_path header_data with
    | (.returns, c) => c.replaceLink payload_path header_data os os'
    | ended => ended

/-- A call of swupdate with the link in the slot. -/
def handover (c : UpdateCoordinator) (link : HeldLink) : Handover where
  request := link.request
  payload := link.payload_path
  found := c.fs.nodeAt MAXSYMLINKS link.payload_path
  last := c.accepted.getLast?

/-- `UpdateCoordinator::run` from its wakeup on, until it destroys the link. -/
def handOver (c : UpdateCoordinator) : UpdateCoordinator :=
  match c.payload_link with
  | none => c.terminate
  | some link => { c with updating := false, handovers := c.handovers ++ [c.handover link] }

/-- The rest of `UpdateCoordinator::run`. -/
def resetLink (c : UpdateCoordinator) (os : Os) : UpdateCoordinator :=
  match c.payload_link with
  | none => c
  | some link =>
      match (destruct os MAXSYMLINKS link.payload_path).call c.fs with
      | (.error _, fs) => { c with fs := fs, payload_link := none }.terminate
      | (.ok (), fs) =>
          { c with fs := fs, payload_link := none, finished := c.finished ++ [link.request] }

/-- `UpdateCoordinator::run` up to the next time it waits.  While the flag is down a wakeup
does nothing. -/
def run (c : UpdateCoordinator) (os : Os) : UpdateCoordinator :=
  if c.updating then c.handOver.resetLink os else c

/-- What a thread of UpdateD does while it holds the mutex. -/
inductive Event
  | start (payload_path : Route) (header_data : Text) (os os' : Os)
  | run (os : Os)

/-- One step of UpdateD. -/
def step (c : UpdateCoordinator) (e : Event) : Option UpdateCoordinator :=
  if c.terminated then none
  else
    match e with
    | .start payload_path header_data os os' =>
        some (c.start payload_path header_data os os').2
    | .run os => some (c.run os)

/-- UpdateD is alive, and its main loop waits for a request. -/
def Blocked (c : UpdateCoordinator) : Prop :=
  c.terminated = false ∧ c.updating = false

/-! ### What a step does -/

/-- The flag is up exactly while there is a link in the slot. -/
def SlotFlagged (c : UpdateCoordinator) : Prop :=
  c.updating = c.payload_link.isSome

/-- The process has ended.  The requests are what they were, the flag is in step with the slot, and no
payload was handed over unless `run` ended the process after that. -/
structure EndedFrom (c c' : UpdateCoordinator) : Prop where
  terminated : c'.terminated = true
  accepted : c'.accepted = c.accepted
  flag : c.SlotFlagged → c'.SlotFlagged
  handovers : c'.handovers = c.handovers
    ∨ ∃ link, c.payload_link = some link ∧ c'.handovers = c.handovers ++ [c.handover link]

/-- The destructor of no link raises nothing. -/
theorem destructHeld_none (os : Os) (fs : Nodes) :
  (destructHeld os none).call fs = (.ok (), fs)
  := rfl

/-- A `start` that has assigned the header ends the process, or it puts a link to a file into the slot
and then destroys the link that was there. -/
theorem replaceLink_cases (c : UpdateCoordinator) (payload_path : Route) (header_data : Text)
    (os os' : Os) :
  ((noexcept (c.replaceLink payload_path header_data os os')).1 = .terminates
    ∧ c.EndedFrom (noexcept (c.replaceLink payload_path header_data os os')).2)
  ∨ ∃ fs fs' leaf,
      (construct os MAXSYMLINKS payload_path.parts).call c.fs
        = (.ok (linkPath payload_path.parts), fs)
      ∧ fs.nodeAt MAXSYMLINKS (linkPath payload_path.parts) = some (.file leaf)
      ∧ (destructHeld os' c.payload_link).call fs = (.ok (), fs')
      ∧ noexcept (c.replaceLink payload_path header_data os os')
        = (.returns,
          c.acceptRequest payload_path header_data (linkPath payload_path.parts) fs fs')
  := by
  unfold replaceLink
  split
  · exact Or.inl ⟨rfl, rfl, rfl, id, Or.inl rfl⟩
  · split
    · exact Or.inl ⟨rfl, rfl, rfl, id, Or.inl rfl⟩
    · rename_i link fs hconstruct
      split
      · rename_i hdestruct
        left
        refine ⟨rfl, rfl, rfl, ?_, Or.inl rfl⟩
        -- a link was destroyed, so the flag was up
        intro hflag
        cases hold : c.payload_link with
        | none =>
            rw [hold, destructHeld_none] at hdestruct
            cases hdestruct
        | some old =>
            unfold SlotFlagged at hflag ⊢
            rw [hold] at hflag
            exact hflag
      · rename_i fs' hdestruct
        right
        obtain ⟨rfl, leaf, hleaf⟩ := (construct_links c.fs payload_path.parts).of_ok hconstruct
        exact ⟨fs, fs', leaf, hconstruct, hleaf, hdestruct, rfl⟩

/-- So does a `start`. -/
theorem start_cases (c : UpdateCoordinator) (payload_path : Route) (header_data : Text)
    (os os' : Os) :
  ((c.start payload_path header_data os os').1 = .terminates
    ∧ c.EndedFrom (c.start payload_path header_data os os').2)
  ∨ ∃ fs fs' leaf,
      (construct os MAXSYMLINKS payload_path.parts).call c.fs
        = (.ok (linkPath payload_path.parts), fs)
      ∧ fs.nodeAt MAXSYMLINKS (linkPath payload_path.parts) = some (.file leaf)
      ∧ (destructHeld os' c.payload_link).call fs = (.ok (), fs')
      ∧ c.start payload_path header_data os os'
        = (.returns, { c with header := header_data }.acceptRequest payload_path header_data
            (linkPath payload_path.parts) fs fs')
  := by
  unfold start assignHeader
  by_cases hgiven : payload_path.empty ∨ header_data.isEmpty
  · rw [if_pos hgiven]
    exact Or.inl ⟨rfl, rfl, rfl, id, Or.inl rfl⟩
  · rw [if_neg hgiven]
    dsimp only
    obtain ⟨hends, hended⟩ | h :=
      replaceLink_cases { c with header := header_data } payload_path header_data os os'
    · exact Or.inl ⟨hends, hended.terminated, hended.accepted, hended.flag, hended.handovers⟩
    · exact Or.inr h

/-- The coordinator when the payload of the link has been handed over, and the link destroyed. -/
def served (c : UpdateCoordinator) (link : HeldLink) (fs : Nodes) : UpdateCoordinator :=
  { c with
    fs := fs
    updating := false
    payload_link := none
    handovers := c.handovers ++ [c.handover link]
    finished := c.finished ++ [link.request] }

/-- A `run` goes back to sleep, or hands over the link in the slot and destroys it, which may end the
process. -/
theorem run_cases {c : UpdateCoordinator} (hslot : c.SlotFlagged) (os : Os) :
  (c.updating = false ∧ c.run os = c)
  ∨ ∃ link, c.payload_link = some link ∧ c.updating = true
      ∧ (c.EndedFrom (c.run os) ∨ ∃ fs, c.run os = c.served link fs)
  := by
  unfold SlotFlagged at hslot
  cases hlink : c.payload_link with
  | none =>
      left
      rw [hlink] at hslot
      simp [run, hslot]
  | some link =>
      right
      rw [hlink] at hslot
      use link, rfl, hslot
      simp only [run, hslot, Option.isSome_some, if_true, handOver, hlink, resetLink]
      split
      · left
        exact ⟨rfl, rfl, fun _ => rfl, Or.inr ⟨link, hlink, rfl⟩⟩
      · exact Or.inr ⟨_, rfl⟩

/-- What a step can do: end the process, put a link into the slot, wake up for nothing, or hand
over the link in the slot. -/
theorem step_cases {c c' : UpdateCoordinator} {e : Event} (hslot : c.SlotFlagged)
    (hstep : step c e = some c') :
  c.terminated = false
  ∧ (c.EndedFrom c'
    ∨ (∃ payload_path header_data os os' fs fs' leaf,
        e = .start payload_path header_data os os'
        ∧ (construct os MAXSYMLINKS payload_path.parts).call c.fs
          = (.ok (linkPath payload_path.parts), fs)
        ∧ fs.nodeAt MAXSYMLINKS (linkPath payload_path.parts) = some (.file leaf)
        ∧ (destructHeld os' c.payload_link).call fs = (.ok (), fs')
        ∧ c' = { c with header := header_data }.acceptRequest payload_path header_data
            (linkPath payload_path.parts) fs fs')
    ∨ (∃ os, e = .run os ∧ c' = c)
    ∨ (∃ link os fs, e = .run os ∧ c.payload_link = some link ∧ c' = c.served link fs))
  := by
  unfold step at hstep
  split at hstep
  · contradiction
  · rename_i halive
    use by simpa using halive
    cases e with
    | start payload_path header_data os os' =>
        obtain rfl := Option.some.inj hstep
        obtain ⟨-, hended⟩ | ⟨fs, fs', leaf, hconstruct, hleaf, hdestruct, heq⟩ :=
          start_cases c payload_path header_data os os'
        · exact Or.inl hended
        · right
          left
          exact ⟨payload_path, header_data, os, os', fs, fs', leaf, rfl, hconstruct, hleaf,
            hdestruct, congrArg Prod.snd heq⟩
    | run os =>
        obtain rfl := Option.some.inj hstep
        obtain ⟨-, heq⟩ | ⟨link, hlink, -, hended | ⟨fs, heq⟩⟩ := run_cases hslot os
        · exact Or.inr (Or.inr (Or.inl ⟨os, rfl, heq⟩))
        · exact Or.inl hended
        · exact Or.inr (Or.inr (Or.inr ⟨link, os, fs, rfl, hlink, heq⟩))

end UpdateCoordinator

end Updated
