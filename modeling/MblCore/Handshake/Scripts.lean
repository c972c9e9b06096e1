import MblCore.Lib.Lts
import MblCore.Lib.FlatDir

/-!
# The application update hand-shake

`apps_installer.sh` asks `mbl-app-update-manager-daemon` to install an update by way of four
files in a directory both use.  Each script is a program counter into its list of file
operations.  A step of the system is one operation of one script, the start of a further
installer, the death of an installer, or the return of `mbl-app-update-manager`.

A redirection `> file` opens the file and truncates it in one step and writes it in the
next.  A loop that polls for a file stays where it is while the file is missing.
-/

open FlatDir

namespace Handshake

/-- The files of the hand-shake directory. -/
inductive HandshakeFile
  | firmware_path
  | do_app_update
  | done_app_update
  | app_update_rc
deriving DecidableEq

open HandshakeFile

/-- The hand-shake directory. -/
abbrev HandshakeDir := Dir HandshakeFile

/-- The next operation of `update_apps_or_die`. -/
inductive InstallerPc
  /-- `> firmware_path` -/
  | openPath
  /-- `printf "%s\n" "${uaod_apps_file}"` -/
  | writePath (ino : Nat)
  /-- `touch do_app_update` -/
  | touchDo
  /-- `while ! [ -e done_app_update ]; do sleep 1; done` -/
  | waitDone
  /-- `rm done_app_update` -/
  | rmDone
  /-- `app_update_rc=$(cat app_update_rc)` -/
  | catRc
  /-- `rm app_update_rc` -/
  | rmRc (app_update_rc : Text)
  /-- `if [ "$app_update_rc" -ne 0 ]` -/
  | testRc (app_update_rc : Text)
  | exited (status : Nat)
  | killed
deriving DecidableEq

/-- A run of `apps_installer.sh`. -/
structure Installer where
  /-- The argument of the script. -/
  uaod_apps_file : Text
  pc : InstallerPc
  /-- The time at which the path was written to `firmware_path`. -/
  wroteAt : Option Nat
deriving DecidableEq

/-- The next operation of the loop of `mbl-app-update-manager-daemon`. -/
inductive DaemonPc
  /-- `while ! [ -e do_app_update ]; do sleep 1; done` -/
  | waitDo
  /-- `rm do_app_update` -/
  | rmDo
  /-- `$(cat firmware_path)` -/
  | catPath
  /-- `mbl-app-update-manager` is about to be called with `path`. -/
  | callManager (path : Text)
  /-- `mbl-app-update-manager` runs. -/
  | manager (path : Text) (beganAt : Nat)
  /-- `> app_update_rc` -/
  | openRc (rc : Nat)
  /-- `printf "%s\n" "$?"` -/
  | writeRc (rc : Nat) (ino : Nat)
  /-- `rm firmware_path` -/
  | rmPath
  /-- `touch done_app_update` -/
  | touchDone
deriving DecidableEq

/-- A run of `mbl-app-update-manager` that has returned. -/
structure ManagerRun where
  /-- The argument the daemon called it with. -/
  path : Text
  /-- The time at which it was called. -/
  beganAt : Nat
  /-- What it returned. -/
  rc : Nat
deriving DecidableEq

structure State where
  dir : HandshakeDir
  daemon : DaemonPc
  /-- The installers, in the order in which they were started. -/
  installers : List Installer
  /-- The runs of `mbl-app-update-manager`, in the order in which they returned. -/
  runs : List ManagerRun
  /-- The number of steps taken so far. -/
  clock : Nat

/-- The daemon waits, no installer has been started, and none of the files exists. -/
def init : State where
  dir := Dir.empty
  daemon := .waitDo
  installers := []
  runs := []
  clock := 0

/-- `[ "$app_update_rc" -ne 0 ]`.  The shell reports an error, and takes the condition to
fail, when the operand is not a number. -/
def neZero (app_update_rc : Text) : Bool :=
  match app_update_rc.decimalValue? with
  | some n => n != 0
  | none => false

/-- One operation of `update_apps_or_die`. -/
def installerStep (clock : Nat) (d : HandshakeDir) (i : Installer) :
    Option (HandshakeDir × Installer) :=
  match i.pc with
  | .openPath =>
      some (d.creat firmware_path, { i with pc := .writePath (d.inoFor firmware_path) })
  | .writePath ino =>
      some (d.write firmware_path ino (i.uaod_apps_file ++ ['\n']),
        { i with pc := .touchDo, wroteAt := some clock })
  | .touchDo => some (d.touch do_app_update, { i with pc := .waitDone })
  | .waitDone =>
      some (d, if d.has done_app_update then { i with pc := .rmDone } else i)
  | .rmDone => some (d.rm done_app_update, { i with pc := .catRc })
  | .catRc => some (d, { i with pc := .rmRc (d.cat app_update_rc).chomp })
  | .rmRc rc => some (d.rm app_update_rc, { i with pc := .testRc rc })
  | .testRc rc => some (d, { i with pc := .exited (if neZero rc then 47 else 0) })
  | .exited _ => none
  | .killed => none

/-- One operation of the daemon, while it does not wait for `mbl-app-update-manager`. -/
def daemonStep (clock : Nat) (d : HandshakeDir) : DaemonPc → Option (HandshakeDir × DaemonPc)
  | .waitDo => some (d, if d.has do_app_update then .rmDo else .waitDo)
  | .rmDo => some (d.rm do_app_update, .catPath)
  | .catPath => some (d, .callManager (d.cat firmware_path).chomp)
  | .callManager path => some (d, .manager path clock)
  | .manager _ _ => none
  | .openRc rc => some (d.creat app_update_rc, .writeRc rc (d.inoFor app_update_rc))
  | .writeRc rc ino => some (d.write app_update_rc ino (Text.decimal rc ++ ['\n']), .rmPath)
  | .rmPath => some (d.rm firmware_path, .touchDone)
  | .touchDone => some (d.touch done_app_update, .waitDo)

/-- A step of the system. -/
inductive Event
  /-- An installer is started for the file. -/
  | start (uaod_apps_file : Text)
  /-- The installer with this number performs its next operation. -/
  | installer (k : Nat)
  /-- The installer with this number is killed. -/
  | kill (k : Nat)
  /-- The daemon performs its next operation. -/
  | daemon
  /-- `mbl-app-update-manager` returns. -/
  | managerReturns (rc : Nat)
deriving DecidableEq

/-- The installer has exited or was killed. -/
def Installer.Ended (i : Installer) : Prop :=
  i.pc = .killed ∨ ∃ status, i.pc = .exited status

instance (i : Installer) : Decidable i.Ended :=
  match h : i.pc with
  | .killed => isTrue (Or.inl h)
  | .exited status => isTrue (Or.inr ⟨status, h⟩)
  | .openPath | .writePath _ | .touchDo | .waitDone | .rmDone | .catRc | .rmRc _ | .testRc _ =>
      isFalse (by simp [Installer.Ended, h])

/-- The state after an event, if the event can happen. -/
def step (s : State) : Event → Option State
  | .start file =>
      some { s with
        installers := s.installers ++ [⟨file, .openPath, none⟩]
        clock := s.clock + 1 }
  | .installer k => do
      let i ← s.installers[k]?
      let (dir, i') ← installerStep s.clock s.dir i
      some { s with dir := dir, installers := s.installers.set k i', clock := s.clock + 1 }
  | .kill k => do
      let i ← s.installers[k]?
      if i.Ended then none
      else
        some { s with
          installers := s.installers.set k { i with pc := .killed }
          clock := s.clock + 1 }
  | .daemon => do
      let (dir, pc) ← daemonStep s.clock s.dir s.daemon
      some { s with dir := dir, daemon := pc, clock := s.clock + 1 }
  | .managerReturns rc =>
      match s.daemon with
      | .manager path beganAt =>
          some { s with
            daemon := .openRc rc
            runs := s.runs ++ [⟨path, beganAt, rc⟩]
            clock := s.clock + 1 }
      | _ => none

/-- The daemon waits for a request, and there is neither a request nor an answer. -/
structure State.Quiet (s : State) : Prop where
  daemon : s.daemon = .waitDo
  no_request : s.dir.has do_app_update = false
  no_answer : s.dir.has done_app_update = false

end Handshake
