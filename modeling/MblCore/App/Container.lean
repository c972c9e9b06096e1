import MblCore.App.Device

/-!
# `container.py`

The functions of `mbl-app-lifecycle-manager` that call `runc`, and the search for OCI bundles.
A message is built as the source builds it, since callers look for phrases in messages.
-/

namespace App

/-! ### Output and messages -/

/-- `output.decode()`. -/
def decode (stdout : Output) : Py Text :=
  match stdout.text with
  | some text => pure text
  | none => raise .UnicodeDecodeError []

/-- `error.stdout.decode() if error.stdout else error.returncode`. -/
def errorText (result : CmdResult) : Py Text :=
  match result.stdout.text with
  | some [] => pure (Text.decimal result.returncode)
  | some text => pure text
  | none => raise .UnicodeDecodeError []

/-- A message with a container id and the error of a command. -/
def cmdMessage (before container_id between error after : Text) : Text :=
  before ++ container_id ++ between ++ error ++ after

namespace ContainerState

/-- The values of the members of `ContainerState` that callers compare with or look for. -/
def STOPPED : Text := "stopped".toList
def DOES_NOT_EXIST : Text := "does not exist".toList
def UNRECOGNIZED : Text := "unrecognized".toList
def ALREADY_STOPPED : Text := "process already finished".toList
def NOT_RUNNING : Text := "not running".toList

/-- The values of all members of `ContainerState`. -/
def values : List Text :=
  ["created".toList, "running".toList, STOPPED, DOES_NOT_EXIST, UNRECOGNIZED, ALREADY_STOPPED,
    NOT_RUNNING]

/-- `ContainerState(status)`, or `UNRECOGNIZED` where there is no such member. -/
def ofJson : Json → Text
  | .str s => if s ∈ values then s else UNRECOGNIZED
  | _ => UNRECOGNIZED

end ContainerState

/-! ### The state of a container -/

/-- What `get_state` makes of the result of `runc state`: the value of a member of
`ContainerState`. -/
def stateOf (container_id : Text) (result : CmdResult) : Except PyException Text :=
  match result.ok, result.stdout.text with
  | _, none => .error ⟨.UnicodeDecodeError, []⟩
  | false, some err_output =>
      if occursIn ContainerState.DOES_NOT_EXIST err_output then .ok ContainerState.DOES_NOT_EXIST
      else .error ⟨.ContainerStateError, cmdMessage "Getting state for container '".toList
        container_id "' failed, error: ".toList err_output []⟩
  | true, some decoded_proc_output =>
      match result.stdout.json with
      | none => .error ⟨.ContainerStateError, cmdMessage "Deserializing '".toList container_id
          "' state info failed, error: ".toList [] []⟩
      | some state_info_json_doc => do
          if (← state_info_json_doc.contains "status".toList) = false then
            .error ⟨.ContainerStateError, cmdMessage
              "No 'status' found attribute in container '".toList container_id
              "' state info.\n JSON doc:\n'".toList decoded_proc_output "'".toList⟩
          else
            return ContainerState.ofJson (← state_info_json_doc.getItem "status".toList)

def getState (container_id : Text) : Py Text := do
  ofExcept (stateOf container_id (← issue (.runcState container_id)))

/-! ### Commands on containers -/

/-- Run a command and raise an exception when it fails. -/
def runOrRaise (command : Py CmdResult) (cls : ExceptionClass) (before container_id between
    after : Text) : Py Unit := do
  let result ← command
  if result.ok then pure ()
  else
    let error ← errorText result
    raise cls (cmdMessage before container_id between error after)

/-- The output of `runc create` goes to the log of the container, so a failure is told by its
return code. -/
def createOrRaise (container_id : Text) (bundle_path : FilePath) : Py Unit := do
  let result ← issue (.runcCreate bundle_path container_id)
  if result.ok then pure ()
  else raise .ContainerCreationError (cmdMessage "Creating container '".toList container_id
    "' failed, error: ".toList (Text.decimal result.returncode) [])

def create (container_id : Text) (bundle_path : FilePath) : Py Unit := do
  let container_state ← getState container_id
  if container_state ≠ ContainerState.DOES_NOT_EXIST then
    raise .ContainerAlreadyExistError
      (cmdMessage "Container with id '".toList container_id "' already exists".toList [] [])
  else if (← issue (.isdir bundle_path)) = false then
    raise .ContainerCreationError (cmdMessage "No bundle for '".toList container_id
      "' found at '".toList (pathText bundle_path) "', the directory does not exist".toList)
  else createOrRaise container_id bundle_path

def start (container_id : Text) : Py Unit :=
  runOrRaise (issue (.runcStart container_id)) .ContainerStartError "Starting container '".toList
    container_id "' failed, error: '".toList "'".toList

def kill (container_id signal : Text) : Py Unit :=
  runOrRaise (issue (.runcKill container_id signal)) .ContainerKillError
    "Killing container '".toList container_id "' failed, error: '".toList "'".toList

def delete (container_id : Text) : Py Unit :=
  runOrRaise (issue (.runcDelete container_id)) .ContainerDeleteError
    "Deleting container '".toList container_id "' failed, error: '".toList "'".toList

/-! ### OCI bundles -/

/-- Whether a directory is the top of an OCI bundle, by its `config.json`. -/
def isOciBundle (entry : WalkEntry) : Except PyException Bool :=
  match entry.config with
  | none => .ok false
  | some content => do
      let config ← content.load
      if (← config.contains "ociVersion".toList) = false then return false
      else if (← config.contains "root".toList) = false then return false
      else
        let root ← config.getItem "root".toList
        if (← root.contains "path".toList) = false then return false
        else return (← root.getItem "path".toList).isIn entry.dirnames

/-- The bundles among the directories of a walk. -/
def ociBundles : List WalkEntry → Except PyException (List FilePath)
  | [] => .ok []
  | entry :: entries => do
      let isBundle ← isOciBundle entry
      let bundles ← ociBundles entries
      return if isBundle then entry.dirpath :: bundles else bundles

def getOciBundlePaths (path : FilePath) (name : Text := path.getLastD []) : Py (List FilePath) := do
  ofExcept (ociBundles (← issue (.walk path name)))

end App
