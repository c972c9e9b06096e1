import MblCore.Swupdate.Device
import Mathlib.Data.List.Infix

/-!
# `arm-handler-common.c`

The functions the handlers written in C share.  A string is a list of characters without the
terminating zero, and a function that fills a buffer returns the string, or `none` where the C
function reports an error.  A failure to close a file that was opened for writing a flag is
only logged, and so is a failure to sync.
-/

namespace Swupdate

def MAX_DEVICE_FILE_PATH : Nat := 512

def PATH_MAX : Nat := 4096

def INT_MAX : Nat := 2147483647

/-! ### Strings -/

/-- `str_endswith` returns 0 just when this is true. -/
def strEndswith (substr fullstr : Text) : Bool :=
  if substr.length > fullstr.length then false
  else fullstr.drop (fullstr.length - substr.length) == substr

/-- The first token `strtok` finds. -/
def strtok (s : Text) (delim : Char) : Option Text :=
  match s.dropWhile (· == delim) with
  | [] => none
  | s => some (s.takeWhile (· != delim))

/-- `snprintf`, with the checks of what it returns: a length that an `int` cannot hold is an
error, and the string must fit into the buffer. -/
def snprintf (dst_size : Nat) (s : Text) : Option Text :=
  if s.length > INT_MAX ∨ s.length ≥ dst_size then none else some s

/-- The partition that is not mounted. -/
def findTargetPartition (mounted_partition bank1_part_num bank2_part_num : Text)
    (dst_size : Nat) : Option Text :=
  match strtok mounted_partition 'p' with
  | none => none
  | some token =>
      if strEndswith bank1_part_num mounted_partition then
        snprintf dst_size (token ++ "p".toList ++ bank2_part_num)
      else if strEndswith bank2_part_num mounted_partition then
        snprintf dst_size (token ++ "p".toList ++ bank1_part_num)
      else none

theorem strEndswith_eq_true {substr fullstr : Text} :
  strEndswith substr fullstr = true ↔ substr <:+ fullstr
  := by
  unfold strEndswith
  split
  · rename_i hlt
    simp only [Bool.false_eq_true, false_iff]
    intro h
    have := h.length_le
    omega
  · simp only [beq_iff_eq]
    constructor
    · intro h
      rw [← h]
      exact List.drop_suffix _ _
    · intro h
      exact (List.suffix_iff_eq_drop.mp h).symm

/-! ### Files -/

variable (dirs : Dirs)

/-- The device mounted at `mount_point`, by the first entry of `/etc/mtab` that names it. -/
def getMountedDevice (mount_point : Text) (dst_size : Nat) : Script (Option Text) := do
  let some mtab ← issue .setmntent | pure none
  match mtab.find? fun mntent_desc => mntent_desc.mnt_dir == mount_point with
  | none => pure none
  | some mntent_desc =>
      -- `strncpy` leaves no zero in the last place of the buffer
      if mntent_desc.mnt_fsname.length ≥ dst_size then pure none
      else pure (some mntent_desc.mnt_fsname)

def getPartInfoFilepath (file_name : Text) (dst_size : Nat) : Option Text :=
  snprintf dst_size (dirs.PART_INFO_DIR ++ "/".toList ++ file_name)

def readPartInfoFileToNewStr (file_name : Text) : Script (Option Text) :=
  match getPartInfoFilepath dirs file_name PATH_MAX with
  | none => pure none
  | some part_info_filepath => issue (.readFile part_info_filepath)

def getBootflagFilePath (filename : Text) (size : Nat) : Option Text :=
  snprintf size (dirs.BOOTFLAGS_DIR ++ "/".toList ++ filename)

def writeBootflagFile (filename : Text) : Script Int := do
  match ← issue (.mkdir dirs.BOOTFLAGS_DIR) with
  | .error .ENOENT => pure (-1)
  | .error .other => pure (-1)
  | .error .EEXIST | .ok () =>
      match getBootflagFilePath dirs filename PATH_MAX with
      | none => pure (-1)
      | some bootflags_file_path =>
          match ← issue (.openCreat bootflags_file_path) with
          | .error _ => pure (-1)
          | .ok () => pure 0

/-- Remove a file that need not be there. -/
def removeFile (path : Text) : Script Int := do
  match ← issue (.remove path) with
  | .ok () | .error .ENOENT => pure 0
  | .error .EEXIST | .error .other => pure (-1)

def removeBootflagFile (filename : Text) : Script Int :=
  match getBootflagFilePath dirs filename PATH_MAX with
  | none => pure (-1)
  | some bootflags_file_path => removeFile bootflags_file_path

/-- The path of the flag file that keeps the device from rebooting. -/
def doNotRebootPath : Text :=
  dirs.TMP_DIR ++ "/".toList ++ "do_not_reboot".toList

def removeDoNotRebootFlag : Script Int :=
  match snprintf PATH_MAX (doNotRebootPath dirs) with
  | none => pure (-1)
  | some reboot_flag_path => removeFile reboot_flag_path

/-- Copy the image to the device file.  The assignment of −1 after a failed copy stands behind
the jump to `close`, so it is never made. -/
def copyImageAndSync (img : Img) (device_filepath : Text) : Script Int := do
  if (← issue (.openfileoutput device_filepath)) = false then pure (-1)
  else
    let _ ← issue (.copyimage img device_filepath)
    if ← issue .close then pure 0 else pure (-1)

/-! ### What the functions do -/

variable {dirs} {adm : Call → Choice → Device → Prop} {d : Device}

/-- A query leaves the device as it is. -/
theorem wp_getMountedDevice {mount_point : Text} {dst_size : Nat}
    {Q : Prog.Post Device Nat (Option Text)} (hcut : Q.cut d) (hnone : Q.returned none d)
    (hsome : ∀ e, d.mtab.find? (fun e => e.mnt_dir == mount_point) = some e →
      Q.returned (some e.mnt_fsname) d) :
  Prog.wp machine adm (getMountedDevice mount_point dst_size) Q d
  := by
  simp only [getMountedDevice, Prog.wp_bind, Prog.wp_issue]
  use hcut
  intro x _
  simp only [machine, perform]
  cases x.ok with
  | false => exact hnone
  | true =>
      simp only [if_true]
      split
      · exact hnone
      · rename_i e he
        split
        · exact hnone
        · exact hsome e he

theorem wp_readPartInfoFileToNewStr {file_name : Text} {Q : Prog.Post Device Nat (Option Text)}
    (hcut : Q.cut d) (hnone : Q.returned none d)
    (hsome : ∀ path, getPartInfoFilepath dirs file_name PATH_MAX = some path →
      Q.returned (some (d.part_info path)) d) :
  Prog.wp machine adm (readPartInfoFileToNewStr dirs file_name) Q d
  := by
  unfold readPartInfoFileToNewStr
  split
  · exact hnone
  · rename_i path hpath
    use hcut
    intro x _
    simp only [machine, perform]
    cases x.ok with
    | false => exact hnone
    | true => exact hsome path hpath

end Swupdate
