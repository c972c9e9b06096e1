import MblCore.App.Rules

/-!
# `manager.py` with a clock

Terminating an application takes time: `terminate_app` waits until the process in the container
has ended, or until a deadline is reached.  Here the functions of `manager.py` read the time and
sleep as they do in the source, and several of them may run at once.  What `runc` says about a
container is up to the environment, and so is the time that passes.  A call is over before the next
one of any caller begins: that the sleeps of two callers overlap is only covered by the timeouts,
which are arbitrary.
-/

namespace App

/-- The calls of a program that knows the time. -/
inductive TimedCall
  | command (c : Call)
  /-- `time.monotonic()`. -/
  | monotonic
  /-- `time.sleep(duration)`. -/
  | sleep (duration : ℕ)

/-- What a call is answered with.  Times are in nanoseconds. -/
abbrev TimedReply : TimedCall → Type
  | .command c => Reply c
  | .monotonic => ℕ
  | .sleep _ => Unit

/-- A Python program that knows the time. -/
abbrev TimedPy := Prog TimedCall TimedReply PyException

/-- A program that does not ask for the time. -/
def timed {α : Type} : Py α → TimedPy α
  | .pure a => .pure a
  | .throw e => .throw e
  | .call c k => .call (.command c) fun r => timed (k r)

@[simp]
theorem timed_bind {α β : Type} (p : Py α) (f : α → Py β) :
  timed (p >>= f) = timed p >>= fun a => timed (f a)
  := by
  change timed (p.bind f) = (timed p).bind fun a => timed (f a)
  induction p with
  | pure a => rfl
  | throw e => rfl
  | call c k ih => simp only [Prog.bind, timed, ih]

namespace Timed

/-! ### `manager.py` -/

/-- There are so many nanoseconds in a second. -/
def SECOND : ℕ := 1000000000

def WAIT_SLEEP_INTERVAL : ℕ := 100000000

/-- `try p` with an `except` clause for the given classes of exceptions. -/
def catching {α : Type} (p : TimedPy α) (classes : List ExceptionClass) :
    TimedPy (Except PyException α) := do
  match ← p.attempt with
  | .ok a => pure (.ok a)
  | .error error => if error.cls ∈ classes then pure (.error error) else .throw error

def getState (container_id : Text) : TimedPy Text :=
  timed (App.getState container_id)

def kill (container_id signal : Text) : TimedPy Unit :=
  timed (App.kill container_id signal)

def delete (container_id : Text) : TimedPy Unit :=
  timed (App.delete container_id)

/-- The loop of `_wait_for_app_stop`: tell whether the application is 'stopped' before the end of
the wait.  The polls are a sleep apart, so there is only time for so many. -/
def pollForAppStop (app_name : Text) (endtime : ℤ) : ℕ → TimedPy Bool
  | 0 => pure false
  | polls + 1 => do
      let now ← Prog.issue TimedCall.monotonic
      if endtime > now then
        let app_state ← getState app_name
        if app_state = ContainerState.STOPPED then pure true
        else
          Prog.issue (TimedCall.sleep WAIT_SLEEP_INTERVAL)
          pollForAppStop app_name endtime polls
      else pure false

/-- The number of times the loop comes round at most. -/
def pollsWithin (timeout : ℤ) : ℕ :=
  timeout.toNat * WAIT_SLEEPS_PER_SECOND + 1

def waitForAppStop (app_name : Text) (timeout : ℤ) : TimedPy Unit := do
  let now ← Prog.issue TimedCall.monotonic
  if ← pollForAppStop app_name (now + timeout * SECOND) (pollsWithin timeout) then pure ()
  else
    let app_state ← getState app_name
    if app_state = ContainerState.STOPPED then pure ()
    else .throw ⟨.AppStopTimeoutError, cmdMessage "'".toList app_name
      "' was not stopped after '".toList (intText timeout) "' seconds".toList⟩

def killApp (app_name : Text) (timeout : ℤ) : TimedPy Unit := do
  match ← catching (kill app_name "SIGKILL".toList) [.ContainerKillError] with
  | .error error => if saysStopped error then delete app_name else .throw error
  | .ok _ =>
      waitForAppStop app_name timeout
      delete app_name

def terminateApp (app_name : Text) (sigterm_timeout sigkill_timeout : ℤ) : TimedPy Unit := do
  match ← catching (kill app_name "SIGTERM".toList) [.ContainerKillError] with
  | .error error =>
      if saysStopped error then delete app_name
      else if saysDoesNotExist error then pure ()
      else .throw error
  | .ok _ =>
      match ← catching (waitForAppStop app_name sigterm_timeout) [.AppStopTimeoutError] with
      | .error _ => killApp app_name sigkill_timeout
      | .ok _ => delete app_name

/-! ### Commands that fail -/

/-- What a command that has failed makes `runOrRaise` raise. -/
def commandError (cls : ExceptionClass) (before container_id between after : Text)
    (result : CmdResult) : PyException :=
  match result.stdout.text with
  | none => ⟨.UnicodeDecodeError, []⟩
  | some [] => ⟨cls, cmdMessage before container_id between (Text.decimal result.returncode) after⟩
  | some text => ⟨cls, cmdMessage before container_id between text after⟩

theorem timed_runOrRaise {command : Py CmdResult} {cls : ExceptionClass}
    {before container_id between after : Text} :
  timed (runOrRaise command cls before container_id between after)
    = timed command >>= fun result =>
        if result.ok then pure ()
        else .throw (commandError cls before container_id between after result)
  := by
  rw [runOrRaise, timed_bind]
  congr
  funext result
  split
  · rfl
  · rcases htext : result.stdout.text with _ | _ | ⟨c, text⟩ <;>
      simp only [errorText, commandError, htext] <;> rfl

def killError (container_id : Text) : CmdResult → PyException :=
  commandError .ContainerKillError "Killing container '".toList container_id
    "' failed, error: '".toList "'".toList

def deleteError (container_id : Text) : CmdResult → PyException :=
  commandError .ContainerDeleteError "Deleting container '".toList container_id
    "' failed, error: '".toList "'".toList

theorem kill_eq (container_id signal : Text) :
  kill container_id signal
    = Prog.issue (TimedCall.command (.runcKill container_id signal)) >>= fun result : CmdResult =>
        if result.ok then pure () else .throw (killError container_id result)
  := timed_runOrRaise

theorem delete_eq (container_id : Text) :
  delete container_id
    = Prog.issue (TimedCall.command (.runcDelete container_id)) >>= fun result : CmdResult =>
        if result.ok then pure () else .throw (deleteError container_id result)
  := timed_runOrRaise

theorem getState_eq (container_id : Text) :
  getState container_id
    = Prog.issue (TimedCall.command (.runcState container_id)) >>= fun result : CmdResult =>
        timed (ofExcept (stateOf container_id result))
  := timed_bind _ _

/-! ### The device and the clock -/

/-- Who terminates an application: the update manager and the command line tool may do so at
once. -/
inductive Caller
  | updateManager
  | commandLine
deriving DecidableEq

/-- A call that was answered. -/
structure Event where
  who : Caller
  issuedAt : ℕ
  answeredAt : ℕ
  call : TimedCall
  reply : TimedReply call

structure World where
  now : ℕ
  device : Device
  /-- The calls that were answered, the first one first. -/
  history : List Event

/-- The answer to a call, as chosen by the environment. -/
structure Answer where
  /-- The time the call takes, for a sleep the time it takes longer than it should. -/
  elapsed : ℕ := 0
  /-- The process in the container has exited by now. -/
  exited : Bool := false
  /-- How a command of `runc` on a container exits. -/
  result : CmdResult := success {}
  /-- The outcome of another command. -/
  choice : Choice := {}

/-- A container is there until `runc delete` says that it has deleted it. -/
def answerCommand : (c : Call) → Answer → Device → Reply c × Device
  | .runcState id, x, d => (x.result, d.settle id x.exited)
  | .runcKill id _, x, d => (x.result, d.settle id x.exited)
  | .runcDelete id, x, d =>
      (x.result, if x.result.ok then d.setContainer id none else d.settle id x.exited)
  | c, x, d => App.perform c x.choice d

def answer : (c : TimedCall) → Answer → World → TimedReply c × Device
  | .command c, x, w => answerCommand c x w.device
  | .monotonic, x, w => (w.now + x.elapsed, w.device)
  | .sleep _, _, w => ((), w.device)

/-- The time a call takes.  A sleep is never shorter than it should be. -/
def takes : TimedCall → Answer → ℕ
  | .sleep duration, x => duration + x.elapsed
  | _, x => x.elapsed

/-- The reply to a call, and the world afterwards. -/
def perform (who : Caller) (c : TimedCall) (x : Answer) (w : World) : TimedReply c × World :=
  ((answer c x w).1,
    { now := w.now + takes c x
      device := (answer c x w).2
      history := w.history ++ [⟨who, w.now, w.now + takes c x, c, (answer c x w).1⟩] })

/-- The calls of one of the callers are answered. -/
def machine (who : Caller) : Prog.Machine TimedCall TimedReply Answer World where
  perform := perform who

end Timed

end App
