import MblCore.Lib.Lts

/-!
# `MblCloudClient`

The main thread creates the one instance of the class, runs it, and destroys it when it leaves the
scope of `run`.  The thread of the event loop calls the handlers that were registered with the
`MbedCloudClient` of the instance.  A step is what one thread does while it holds `s_mutex`, or
one statement of the main thread outside of it.
-/

namespace CloudClient

/-! ### The instance -/

inductive State
  | State_Unregistered
  | State_CalledRegister
  | State_Registered
deriving DecidableEq

/-- The methods of `MbedCloudClient` that are called. -/
inductive ClientCall
  | register_handlers
  | add_objects
  | setup
  | register_update
  | endpoint_info
  | error_description
  | update_authorize (request : Int)
deriving DecidableEq

/-- Whether an `MbedCloudClient` can be used. -/
inductive ClientStatus
  | opened
  | closed
  | deleted
deriving DecidableEq

/-- An `MbedCloudClient`: its methods called so far are all that is known of its state. -/
structure MbedCloudClient where
  status : ClientStatus
  calls : List ClientCall
deriving DecidableEq

/-- The members of an instance. -/
structure Instance where
  cloud_client_ : MbedCloudClient
  state_ : State
deriving DecidableEq

/-- The constructor. -/
def Instance.new : Instance where
  cloud_client_ := ⟨.opened, []⟩
  state_ := .State_Unregistered

def Instance.setState (i : Instance) (state : State) : Instance :=
  { i with state_ := state }

def Instance.callClient (i : Instance) (c : ClientCall) : Instance :=
  { i with cloud_client_ := { i.cloud_client_ with calls := i.cloud_client_.calls ++ [c] } }

def Instance.setStatus (i : Instance) (status : ClientStatus) : Instance :=
  { i with cloud_client_ := { i.cloud_client_ with status } }

/-- The results of `run`. -/
inductive MblError
  | ConnectUnknownError
  | ShutdownRequested
  | DeviceUnregistered
deriving DecidableEq

/-- Where the main thread is in `run` and in the destructor. -/
inductive RunPc
  | start
  | created
  | handlersRegistered
  | resourcesAdded
  | calledRegister
  | setUp
  | looping
  | checkingState
  | checkingTime
  | returning (err : MblError)
  /-- The destructor has set `s_instance` to 0. -/
  | cleared (err : MblError)
  | closed (err : MblError)
  | deleted (err : MblError)
  /-- The event loop is stopped and the instance is gone. -/
  | returned (err : MblError)
  | aborted
deriving DecidableEq

/-- An access of a callback to `*s_instance` or to its `cloud_client_`. -/
structure Access where
  /-- `s_instance` was not 0. -/
  nonnull : Bool
  /-- What could be done with `cloud_client_`, if the instance was there. -/
  status : Option ClientStatus
deriving DecidableEq

/-- The callbacks that use the instance. -/
inductive Callback
  | handle_client_registered
  | handle_client_unregistered
  | handle_error (cloud_client_code : Int)
  | handle_authorize (request : Int)
deriving DecidableEq

/-- The process. -/
structure Process where
  pc : RunPc
  /-- `s_instance` is not 0. -/
  s_instance : Bool
  /-- The instance, while it exists. -/
  object : Option Instance
  handlers_registered : Bool
  event_loop : Bool
  /-- The callbacks that were called and have not come to their critical section. -/
  pending : List Callback
  /-- The accesses of callbacks, in order. -/
  accesses : List Access
deriving DecidableEq

namespace Process

/-- The process before `run`. -/
def init : Process where
  pc := .start
  s_instance := false
  object := none
  handlers_registered := false
  event_loop := false
  pending := []
  accesses := []

/-! ### The callbacks -/

/-- A callback does something with the instance. -/
def access (p : Process) (f : Instance → Instance) : Process :=
  { p with
    object := p.object.map f
    accesses := p.accesses ++ [⟨p.s_instance, p.object.map (·.cloud_client_.status)⟩] }

/-- The update requests that are known, and granted. -/
structure UpdateRequests where
  UpdateRequestDownload : Int
  UpdateRequestInstall : Int

variable (requests : UpdateRequests)

/-- `update_handlers::handle_authorize`. -/
def authorized (request : Int) : Bool :=
  request == requests.UpdateRequestDownload || request == requests.UpdateRequestInstall

/-- What a callback does while it holds `s_mutex`. -/
def criticalSection (p : Process) : Callback → Process
  | .handle_client_registered =>
      if p.s_instance then
        (p.access (·.setState .State_Registered)).access (·.callClient .endpoint_info)
      else p
  | .handle_client_unregistered =>
      if p.s_instance then p.access (·.setState .State_Unregistered) else p
  | .handle_error _ =>
      if p.s_instance then p.access (·.callClient .error_description) else p
  | .handle_authorize request =>
      if authorized requests request then
        if p.s_instance then p.access (·.callClient (.update_authorize request)) else p
      else p

/-! ### The main thread -/

/-- The main thread does something with the instance. -/
def onObject (p : Process) (f : Instance → Instance) (pc : RunPc) : Process :=
  { p with object := p.object.map f, pc }

/-- The loop of `run` ends when the instance is unregistered. -/
def checkState (p : Process) : Process :=
  if p.object.map Instance.state_ = some .State_Unregistered then
    { p with pc := .returning .DeviceUnregistered }
  else { p with pc := .checkingTime }

/-- The next step of the main thread.  The outcome of what it asks the environment is `x`: that
`setup` succeeded, that a signal came in, or that it is time to register again. -/
def runStep (p : Process) (x : Bool) : Process :=
  match p.pc with
  | .start =>
      if p.s_instance then { p with pc := .aborted }
      else
        { p with s_instance := true, object := some Instance.new, event_loop := true, pc := .created }
  | .created =>
      { p.onObject (·.callClient .register_handlers) .handlersRegistered with
        handlers_registered := true }
  | .handlersRegistered => p.onObject (·.callClient .add_objects) .resourcesAdded
  | .resourcesAdded => p.onObject (·.setState .State_CalledRegister) .calledRegister
  | .calledRegister =>
      p.onObject (·.callClient .setup) (if x then .setUp else .returning .ConnectUnknownError)
  -- the initialisation of the resource broker, whose failure is only logged
  | .setUp => { p with pc := .looping }
  | .looping => { p with pc := if x then .returning .ShutdownRequested else .checkingState }
  | .checkingState => p.checkState
  | .checkingTime =>
      if x then p.onObject (·.callClient .register_update) .looping else { p with pc := .looping }
  | .returning err =>
      if p.s_instance then { p with s_instance := false, pc := .cleared err }
      else { p with pc := .aborted }
  | .cleared err => p.onObject (·.setStatus .closed) (.closed err)
  | .closed err => p.onObject (·.setStatus .deleted) (.deleted err)
  | .deleted err => { p with event_loop := false, object := none, pc := .returned err }
  | .returned _ | .aborted => p

/-! ### Steps -/

inductive Event
  | main (x : Bool)
  /-- The event loop calls a callback. -/
  | invoke (c : Callback)
  /-- A callback that was called goes through its critical section. -/
  | enter (i : Nat)
deriving DecidableEq

/-- One step of the process. -/
def step (p : Process) : Event → Option Process
  | .main x => if p.pc = .aborted then none else some (p.runStep x)
  | .invoke c =>
      if p.handlers_registered ∧ p.event_loop then some { p with pending := p.pending ++ [c] }
      else none
  | .enter i =>
      match p.pending[i]? with
      | none => none
      | some c => some ({ p with pending := p.pending.eraseIdx i }.criticalSection requests c)

end Process

end CloudClient
