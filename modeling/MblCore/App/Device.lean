import MblCore.Lib.Prog
import MblCore.App.Python
import Mathlib.Logic.Function.Basic

/-!
# The device as the Python programs see it

`mbl-app-update-manager` installs applications with `opkg`, and it and
`mbl-app-lifecycle-manager` run them in containers with `runc`.  The programs issue the calls
listed here.  The environment chooses for each command whether it does what it is asked to and
says so, fails, or exits with status 0 and prints something of its own.
-/

namespace App

open FileTree

/-! ### Containers and commands -/

/-- The state of a container, by the words of `runc`. -/
inductive Status
  | created
  | running
  | stopped
deriving DecidableEq

def Status.text : Status → Text
  | created => "created".toList
  | running => "running".toList
  | stopped => "stopped".toList

structure Container where
  /-- The bundle the container was created from. -/
  bundle : FilePath
  status : Status
deriving DecidableEq

/-- What a command prints. -/
structure Output where
  /-- The text, unless what is printed is not UTF-8. -/
  text : Option Text := some []
  /-- What `json.loads` reads from the text, if it can. -/
  json : Option Json := none

/-- How a command exits. -/
structure CmdResult where
  ok : Bool
  returncode : Nat
  stdout : Output

/-- A directory `os.walk` comes by, and what is in its `config.json` if it has one. -/
structure WalkEntry where
  dirpath : FilePath
  dirnames : List Text
  config : Option Content

/-- A member of a tar archive. -/
structure TarInfo where
  name : Text
  isfile : Bool
deriving DecidableEq

/-- What the programs log at the points that matter for what follows. -/
inductive LogLine
  /-- "Stop running instance of '{}' if any exist before running the new version" -/
  | stopRunning (name : Text)
  /-- "Run '{}' from '{}'" -/
  | runNew (name : Text) (bundle : FilePath)
  /-- "Roll back installation(s) of '{}'" -/
  | rollBack (names : List Text)

/-- The calls of the programs. -/
inductive Call
  | extractall (path : Text) (members : List TarInfo)
  | opkgInfo (app_pkg : Text)
  | opkgInstall (app_name : Text) (app_path : FilePath) (app_pkg : Text)
  | opkgRemove (app_name : Text) (app_path : FilePath)
  | runcState (container_id : Text)
  | runcKill (container_id signal : Text)
  | runcDelete (container_id : Text)
  | runcCreate (bundle_path : FilePath) (container_id : Text)
  | runcStart (container_id : Text)
  | isdir (path : FilePath)
  | exists_ (path : FilePath)
  /-- `os.walk`; `name` is how the end of the path is written. -/
  | walk (path : FilePath) (name : Text)
  | listdir (path : FilePath)
  | rmtree (path : FilePath)
  /-- Whether `time.monotonic()` has reached the end of a wait. -/
  | endtimeReached
  | log (line : LogLine)

/-- What a call is answered with. -/
abbrev Reply : Call → Type
  -- the text of a `TarError`, if there is one
  | .extractall _ _ => Option Text
  | .opkgInfo _ | .opkgInstall _ _ _ | .opkgRemove _ _ | .runcState _ | .runcKill _ _
  | .runcDelete _ | .runcCreate _ _ | .runcStart _ => CmdResult
  | .isdir _ | .exists_ _ | .rmtree _ | .endtimeReached => Bool
  | .walk _ _ => List WalkEntry
  | .listdir _ => List Text
  | .log _ => Unit

/-- Whether a command does what it is asked to. -/
inductive Kind
  /-- The command does what it is asked to, or says why it cannot. -/
  | truthful
  /-- The command fails. -/
  | fails
  /-- The command exits with status 0, and prints something of its own. -/
  | prints
deriving DecidableEq

/-- The outcome of a call, as chosen by the environment. -/
structure Choice where
  kind : Kind := .truthful
  /-- What the command prints, where it is not the command that decides. -/
  stdout : Output := {}
  returncode : Nat := 1
  /-- The process in the container has exited by now. -/
  exited : Bool := false
  /-- What `opkg` leaves at the path, unless it leaves it as it was. -/
  tree : Option Files := none
  endtimeReached : Bool := false
  tarError : Option Text := none

/-- The command does what it is asked to. -/
def truthfully : Choice where
  kind := .truthful

/-- What the update manager is doing. -/
inductive Phase
  | install
  | stopRunning
  | runNew
  | rollBack
deriving DecidableEq

structure Device where
  fs : Files
  containers : Text → Option Container
  /-- What the update manager has logged last. -/
  phase : Phase
  /-- The paths at which `opkg` has reported to have installed an application. -/
  completed : List FilePath

/-! ### What the commands do -/

namespace Device

def setContainer (d : Device) (id : Text) (c : Option Container) : Device :=
  { d with containers := Function.update d.containers id c }

/-- The process in a container that runs may have exited. -/
def settle (d : Device) (id : Text) (exited : Bool) : Device :=
  match d.containers id with
  | some c => if exited then d.setContainer id (some { c with status := .stopped }) else d
  | none => d

end Device

def success (stdout : Output) : CmdResult :=
  ⟨true, 0, stdout⟩

/-- A command fails with a message. -/
def failure (x : Choice) (text : Text) : CmdResult :=
  ⟨false, x.returncode, { text := some text }⟩

def noContainer : Text :=
  "container does not exist".toList

/-- `runc state`: the process may have exited before. -/
def runcState (x : Choice) (d : Device) (id : Text) : CmdResult × Device :=
  let d := d.settle id x.exited
  match x.kind with
  | .fails => (⟨false, x.returncode, x.stdout⟩, d)
  | .prints => (success x.stdout, d)
  | .truthful =>
      match d.containers id with
      | none => (failure x noContainer, d)
      | some c =>
          (success
            { text := some (x.stdout.text.getD [])
              json := some (.obj [("status".toList, .str c.status.text)]) }, d)

/-- `runc kill`.  SIGKILL ends the process; SIGTERM asks it to exit. -/
def runcKill (x : Choice) (d : Device) (id signal : Text) : CmdResult × Device :=
  let d := d.settle id x.exited
  match x.kind with
  | .fails => (⟨false, x.returncode, x.stdout⟩, d)
  | .truthful | .prints =>
      match d.containers id with
      | none => (failure x noContainer, d)
      | some ⟨_, .stopped⟩ => (failure x "process already finished".toList, d)
      | some c =>
          if signal = "SIGKILL".toList then
            (success x.stdout, d.setContainer id (some { c with status := .stopped }))
          else (success x.stdout, d)

/-- `runc delete`. -/
def runcDelete (x : Choice) (d : Device) (id : Text) : CmdResult × Device :=
  let d := d.settle id x.exited
  match x.kind with
  | .fails => (⟨false, x.returncode, x.stdout⟩, d)
  | .truthful | .prints =>
      match d.containers id with
      | none => (failure x noContainer, d)
      | some ⟨_, .running⟩ => (failure x "container is not stopped".toList, d)
      | some _ => (success x.stdout, d.setContainer id none)

/-- `runc create`. -/
def runcCreate (x : Choice) (d : Device) (bundle_path : FilePath) (id : Text) : CmdResult × Device :=
  match x.kind with
  | .fails => (⟨false, x.returncode, x.stdout⟩, d)
  | .truthful | .prints =>
      match d.containers id with
      | some _ => (failure x "container with given ID already exists".toList, d)
      | none => (success x.stdout, d.setContainer id (some ⟨bundle_path, .created⟩))

/-- `runc start`. -/
def runcStart (x : Choice) (d : Device) (id : Text) : CmdResult × Device :=
  match x.kind with
  | .fails => (⟨false, x.returncode, x.stdout⟩, d)
  | .truthful | .prints =>
      match d.containers id with
      | none => (failure x noContainer, d)
      | some ⟨bundle, .created⟩ => (success x.stdout, d.setContainer id (some ⟨bundle, .running⟩))
      | some _ => (failure x "cannot start an already running container".toList, d)

/-- `opkg info`. -/
def opkgInfo (x : Choice) : CmdResult :=
  ⟨x.kind ≠ .fails, x.returncode, x.stdout⟩

/-- What is left at a path. -/
def leave (fs : Files) (path : FilePath) : Option Files → Files
  | some tree => fs.graft path tree
  | none => fs

/-- `opkg install` to a path: it makes a directory of the path unless something on the way there
is a file. -/
def opkgInstall (x : Choice) (d : Device) (path : FilePath) : CmdResult × Device :=
  if x.kind ≠ .fails ∧ ∀ p ∈ path.inits, d.fs.has p = true → d.fs.isDir p = true then
    (success x.stdout,
      { d with
        fs := d.fs.graft path ((x.tree.getD root).mkdirs [])
        completed := d.completed ++ [path] })
  else if ∀ p ∈ path.inits, d.fs.has p = true → d.fs.isDir p = true then
    (⟨false, x.returncode, x.stdout⟩, { d with fs := leave d.fs path x.tree })
  else (⟨false, x.returncode, x.stdout⟩, d)

/-- `opkg remove` from a path: the directory stays. -/
def opkgRemove (x : Choice) (d : Device) (path : FilePath) : CmdResult × Device :=
  if x.kind = .fails then
    (⟨false, x.returncode, x.stdout⟩,
      { d with fs := if d.fs.isDir path then leave d.fs path x.tree else d.fs })
  else
    (success x.stdout, { d with fs := if d.fs.isDir path then d.fs.graft path root else d.fs })

/-- The names of the directories in a directory. -/
def subdirs (fs : Files) (dir : FilePath) : List Text :=
  (fs.children dir).filter fun name => fs.isDir (dir ++ [name])

def walkEntry (fs : Files) (dir : FilePath) : WalkEntry where
  dirpath := dir
  dirnames := subdirs fs dir
  config :=
    match fs.node (dir ++ ["config.json".toList]) with
    | some (.file content) => some content
    | _ => none

/-- What `os.walk` comes by, the top first, with what is in the files called `config.json`. -/
def walk (fs : Files) (top : FilePath) : List WalkEntry :=
  if fs.isDir top then
    walkEntry fs top
      :: ((fs.below top).filter fun dir => fs.isDir dir && dir != top).map (walkEntry fs)
  else []

def logged (d : Device) : LogLine → Device
  | .stopRunning _ => { d with phase := .stopRunning }
  | .runNew _ _ => { d with phase := .runNew }
  | .rollBack _ => { d with phase := .rollBack }

/-- The reply to a call, and the device afterwards. -/
def perform : (c : Call) → Choice → Device → Reply c × Device
  | .extractall _ _, x, d => (x.tarError, d)
  | .opkgInfo _, x, d => (opkgInfo x, d)
  | .opkgInstall _ path _, x, d => opkgInstall x d path
  | .opkgRemove _ path, x, d => opkgRemove x d path
  | .runcState id, x, d => runcState x d id
  | .runcKill id signal, x, d => runcKill x d id signal
  | .runcDelete id, x, d => runcDelete x d id
  | .runcCreate bundle_path id, x, d => runcCreate x d bundle_path id
  | .runcStart id, x, d => runcStart x d id
  | .isdir path, _, d => (d.fs.isDir path, d)
  | .exists_ path, _, d => (d.fs.has path, d)
  | .walk path _, _, d => (walk d.fs path, d)
  | .listdir path, _, d => (d.fs.children path, d)
  | .rmtree path, _, d =>
      (d.fs.isDir path, { d with fs := if d.fs.isDir path then d.fs.remove path else d.fs })
  | .endtimeReached, x, d => (x.endtimeReached, d)
  | .log line, _, d => ((), logged d line)

/-- The device answers the calls. -/
def machine : Prog.Machine Call Reply Choice Device where
  perform := perform

/-- A Python program. -/
abbrev Py := Prog Call Reply PyException

/-- Issue one call. -/
abbrev issue (c : Call) : Py (Reply c) :=
  Prog.issue c

/-- Raise an exception. -/
abbrev raise {α : Type} (cls : ExceptionClass) (msg : Text) : Py α :=
  .throw ⟨cls, msg⟩

/-- Return a value or raise an exception. -/
def ofExcept {α : Type} : Except PyException α → Py α
  | .ok a => pure a
  | .error e => .throw e

end App
