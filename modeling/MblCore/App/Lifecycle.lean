import MblCore.App.Container

/-!
# `mbl-app-lifecycle-manager`

Applications are run, terminated and killed as in `manager.py`, and started when the device
boots by `run-all` of `cli.py`.
-/

namespace App

/-! ### Exceptions -/

/-- `try p` with an `except` clause for the given classes of exceptions. -/
def catching {α : Type} (p : Py α) (classes : List ExceptionClass) :
    Py (Except PyException α) := do
  match ← p.attempt with
  | .ok a => pure (.ok a)
  | .error error => if error.cls ∈ classes then pure (.error error) else .throw error

/-! ### `manager.py` -/

def DEFAULT_TIMEOUT_AFTER_SIGTERM : ℕ := 3
def DEFAULT_TIMEOUT_AFTER_SIGKILL : ℕ := 1

/-- There are so many intervals of `WAIT_SLEEP_INTERVAL` in a second. -/
def WAIT_SLEEPS_PER_SECOND : ℕ := 10

def runApp (app_name : Text) (app_path : FilePath) : Py Unit := do
  create app_name app_path
  start app_name

/-- Poll the state of an application, and tell whether it is 'stopped'.  The polls are a sleep
apart, so there is only time for so many. -/
def pollForAppStop (app_name : Text) : ℕ → Py Bool
  | 0 => pure false
  | polls + 1 => do
      if ← issue .endtimeReached then pure false
      else
        let app_state ← getState app_name
        if app_state = ContainerState.STOPPED then pure true
        else pollForAppStop app_name polls

def waitForAppStop (app_name : Text) (timeout : ℕ) : Py Unit := do
  if ← pollForAppStop app_name (timeout * WAIT_SLEEPS_PER_SECOND) then pure ()
  else
    let app_state ← getState app_name
    if app_state = ContainerState.STOPPED then pure ()
    else raise .AppStopTimeoutError (cmdMessage "'".toList app_name
      "' was not stopped after '".toList (Text.decimal timeout) "' seconds".toList)

/-- The message of an error says that the process of the container has ended. -/
def saysStopped (error : PyException) : Bool :=
  [ContainerState.ALREADY_STOPPED, ContainerState.NOT_RUNNING].any (occursIn · error.msg)

/-- The message of an error says that there is no container. -/
def saysDoesNotExist (error : PyException) : Bool :=
  occursIn ContainerState.DOES_NOT_EXIST error.msg

def killApp (app_name : Text) (timeout : ℕ) : Py Unit := do
  match ← catching (kill app_name "SIGKILL".toList) [.ContainerKillError] with
  | .error error => if saysStopped error then delete app_name else .throw error
  | .ok _ =>
      waitForAppStop app_name timeout
      delete app_name

def terminateApp (app_name : Text) (sigterm_timeout sigkill_timeout : ℕ) : Py Unit := do
  match ← catching (kill app_name "SIGTERM".toList) [.ContainerKillError] with
  | .error error =>
      if saysStopped error then delete app_name
      else if saysDoesNotExist error then pure ()
      else .throw error
  | .ok _ =>
      match ← catching (waitForAppStop app_name sigterm_timeout) [.AppStopTimeoutError] with
      | .error _ => killApp app_name sigkill_timeout
      | .ok _ => delete app_name

/-! ### `cli.py` -/

def APPS_PATH : FilePath :=
  ["home".toList, "app".toList]

def alphanumSort (versions : List FilePath) : Except PyException (List FilePath) :=
  (Text.humanSort? .unicode pathText versions).mapError sortException

/-- `shutil.rmtree`. -/
def rmtree (path : FilePath) : Py Unit := do
  if ← issue (.rmtree path) then pure () else raise .OSError []

def runAppFromParentDir (name : Text) : Py Unit := do
  let app_parent_dir := joinPath APPS_PATH name
  if ← issue (.isdir app_parent_dir) then
    match ← ofExcept (alphanumSort (← getOciBundlePaths app_parent_dir name)) with
    | [] => pure ()
    | valid_version :: invalid_versions =>
        runApp name valid_version
        Prog.forEach invalid_versions rmtree
  else raise .AppNotInstalled ("'".toList ++ name ++ "' is not installed".toList)

def runAllAction : Py Unit := do
  match ← issue (.walk APPS_PATH "app".toList) with
  | [] => raise .StopIteration []
  | entry :: _ => Prog.forEach entry.dirnames runAppFromParentDir

end App
