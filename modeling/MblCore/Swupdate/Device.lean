import MblCore.Lib.Prog
import MblCore.Lib.Text
import Mathlib.Logic.Function.Basic

/-!
# The device as the update scripts and handlers see it

`arm_update_activate.sh` calls swupdate, swupdate calls a handler for each image of the
payload, and the handlers written in Lua call shell installers.  All of them are programs over
the calls listed here.  A shell script that exits early raises its exit status.

The environment chooses for each call whether it succeeds, what a write that fails leaves
behind, and what a command prints.
-/

namespace Swupdate

/-- What is on a device or in a directory: `none` when it was only partly written. -/
abbrev Content := Option Nat

/-- An image of the payload, as its handler gets it. -/
structure Img where
  fname : Text
  content : Nat
deriving DecidableEq

/-- An entry of `/etc/mtab`. -/
structure Mntent where
  mnt_fsname : Text
  mnt_dir : Text
deriving DecidableEq

/-- The values of `errno` the handlers tell apart; `other` is any further one. -/
inductive Errno
  | EEXIST
  | ENOENT
  | other
deriving DecidableEq

/-- The directories set at build time. -/
structure Dirs where
  BOOTFLAGS_DIR : Text
  TMP_DIR : Text
  PAYLOAD_TMP_DIR : Text
  PART_INFO_DIR : Text

/-- The calls of the handlers and scripts. -/
inductive Call
  /-- `setmntent("/etc/mtab", "r")`, and the entries `getmntent` returns. -/
  | setmntent
  /-- Read a whole file, as `read_file_to_new_str` or `$(cat ..)`. -/
  | readFile (path : Text)
  /-- `copy_image_and_sync` at its contract. -/
  | copyImageAndSync (img : Img) (device : Text)
  | openfileoutput (device : Text)
  | copyimage (img : Img) (device : Text)
  | close
  | mkdir (path : Text)
  | openCreat (path : Text)
  | remove (path : Text)
  | realpath (path : Text)
  | rmRf (path : Text)
  | mkdirP (path : Text)
  | touch (path : Text)
  | testE (path : Text)
  /-- swupdate reads the payload before it calls the first handler. -/
  | swupdateOpen (path : Text)
  /-- swupdate is done, and every handler has returned 0. -/
  | swupdateDone
  | cpHeader (path : Text)
  | systemctlRestart
  /-- `copy2file` to a path directly in the directory for the payload. -/
  | copy2file (img : Img) (path : Text)
  /-- `copy2file` to any other path. -/
  | copyElsewhere (img : Img) (path : Text)
  /-- `os.execute` of a command line that the shell does not read as a call of an installer. -/
  | commandLine (cmd : Text)
  | lsblk
  | testB (path : Text)
  | xzcat (src dst : Text)
  | wcC (path : Text)
  | dd (src device : Text) (seek : Nat)
  | tarX (path dir : Text)
  | duK (dir : Text)
  | remount (mount_point opts : Text)
  | rmFAll (mount_point : Text)
  | cpFAll (dir mount_point : Text)
  | rmF (path : Text)
  /-- The hand-shake of `apps_installer.sh` with the daemon that runs
  `mbl-app-update-manager`. -/
  | appUpdate (path : Text)
deriving DecidableEq

/-- What a call is answered with. -/
abbrev Reply : Call → Type
  | .setmntent => Option (List Mntent)
  | .readFile _ => Option Text
  | .copyImageAndSync _ _ => Int
  | .mkdir _ | .openCreat _ | .remove _ => Except Errno Unit
  | .realpath _ => Option Text
  | .touch _ | .swupdateDone => Unit
  | .systemctlRestart => Nat
  | .lsblk => Option (List (Text × Text))
  | .wcC _ => Option Nat
  | .duK _ => Option Text
  | .appUpdate _ => Text
  | .openfileoutput _ | .copyimage _ _ | .close | .rmRf _ | .mkdirP _ | .testE _
  | .swupdateOpen _ | .cpHeader _ | .copy2file _ _ | .copyElsewhere _ _ | .testB _ | .xzcat _ _
  | .dd _ _ _ | .tarX _ _ | .remount _ _ | .rmFAll _ | .cpFAll _ _ | .rmF _ => Bool
  | .commandLine _ => Nat

structure Device where
  mtab : List Mntent
  /-- The files of the partition info directory. -/
  part_info : Text → Text
  /-- The paths of the flag files there are. -/
  flags : List Text
  /-- What is on the device files. -/
  image : Text → Content
  /-- What is in the file systems mounted at the mount points of the boot partitions. -/
  boot_files : Text → Content
  saved_header : Content
  /-- The installed and running versions of the applications. -/
  apps : Nat

/-- The outcome of a call, as chosen by the environment. -/
structure Choice where
  ok : Bool
  /-- What a write that fails leaves behind. -/
  left : Content := none
  /-- What a command prints. -/
  text : Text := []
  /-- A number a command prints, or its exit status. -/
  num : Nat := 0
  /-- The lines `lsblk` prints. -/
  lines : List (Text × Text) := []
  /-- The device after a copy or a command line that may change anything, if it does. -/
  device : Option Device := none

namespace Device

/-- Create the flag file, if it is not there. -/
def addFlag (d : Device) (path : Text) : Device :=
  if path ∈ d.flags then d else { d with flags := path :: d.flags }

/-- Remove the flag file, if it is there. -/
def removeFlag (d : Device) (path : Text) : Device :=
  { d with flags := d.flags.filter (· ≠ path) }

/-- A write to a device file: the content when it succeeds, what it leaves when it fails. -/
def writeImage (d : Device) (x : Choice) (content : Nat) (device : Text) : Device :=
  { d with image := Function.update d.image device (if x.ok then some content else x.left) }

/-- A write to a mounted file system. -/
def writeBootFiles (d : Device) (content : Content) (mount_point : Text) : Device :=
  { d with boot_files := Function.update d.boot_files mount_point content }

end Device

/-- The reply to a call, and the device afterwards. -/
def perform : (c : Call) → Choice → Device → Reply c × Device
  | .setmntent, x, d => (if x.ok then some d.mtab else none, d)
  | .readFile path, x, d => (if x.ok then some (d.part_info path) else none, d)
  | .copyImageAndSync img device, x, d =>
      (if x.ok then 0 else -1, d.writeImage x img.content device)
  | .openfileoutput _, x, d => (x.ok, d)
  | .copyimage img device, x, d => (x.ok, d.writeImage x img.content device)
  | .close, x, d => (x.ok, d)
  | .mkdir _, x, d => (if x.ok then .ok () else if x.num = 0 then .error .EEXIST else .error .other, d)
  | .openCreat path, x, d => if x.ok then (.ok (), d.addFlag path) else (.error .other, d)
  | .remove path, x, d =>
      if x.ok then
        if path ∈ d.flags then (.ok (), d.removeFlag path) else (.error .ENOENT, d)
      else (.error .other, d)
  | .realpath _, x, d => (if x.ok then some x.text else none, d)
  | .rmRf _, x, d => (x.ok, d)
  | .mkdirP _, x, d => (x.ok, d)
  | .touch path, x, d => ((), if x.ok then d.addFlag path else d)
  | .testE path, _, d => (decide (path ∈ d.flags), d)
  | .swupdateOpen _, x, d => (x.ok, d)
  | .swupdateDone, _, d => ((), d)
  | .cpHeader _, x, d => (x.ok, { d with saved_header := if x.ok then some x.num else x.left })
  | .systemctlRestart, x, d => (x.num, d)
  | .copy2file _ _, x, d => (x.ok, d)
  | .copyElsewhere _ _, x, d => (x.ok, x.device.getD d)
  | .commandLine _, x, d => (x.num, x.device.getD d)
  | .lsblk, x, d => (if x.ok then some x.lines else none, d)
  | .testB _, x, d => (x.ok, d)
  | .xzcat _ _, x, d => (x.ok, d)
  | .wcC _, x, d => (if x.ok then some x.num else none, d)
  | .dd _ device _, x, d => (x.ok, d.writeImage x x.num device)
  | .tarX _ _, x, d => (x.ok, d)
  | .duK _, x, d => (if x.ok then some x.text else none, d)
  | .remount _ _, x, d => (x.ok, d)
  | .rmFAll mount_point, x, d => (x.ok, d.writeBootFiles x.left mount_point)
  | .cpFAll _ mount_point, x, d =>
      (x.ok, d.writeBootFiles (if x.ok then some x.num else x.left) mount_point)
  | .rmF path, x, d => if x.ok then (true, d.removeFlag path) else (false, d)
  | .appUpdate _, x, d => (x.text, { d with apps := x.num })

/-- The device answers the calls. -/
def machine : Prog.Machine Call Reply Choice Device where
  perform := perform

/-- The record of the calls of a run and of their replies. -/
abbrev Record := List ((c : Call) × Reply c)

/-- The device, and the record of the calls answered so far. -/
abbrev Recorded := Device × Record

/-- A handler or a script.  What it raises is an exit status. -/
abbrev Script := Prog Call Reply Nat

/-- Issue one call. -/
abbrev issue (c : Call) : Script (Reply c) :=
  Prog.issue c

end Swupdate
