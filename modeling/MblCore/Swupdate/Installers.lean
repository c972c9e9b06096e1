import MblCore.Handshake.Scripts
import MblCore.Swupdate.ArmHandlerCommon
import MblCore.Swupdate.Commands

/-!
# The handlers written in Lua and the shell installers

`swupdate_handlers.lua` saves the image to a file and runs an installer script on it.  A script
that exits early raises its exit status; `os.execute` catches it.
-/

namespace Swupdate

variable (dirs : Dirs)

/-! ### `arm_update_common.sh` -/

/-- `exit_on_error`. -/
def exitOnError (eoeStatus : Nat) : Script Unit :=
  if eoeStatus ≠ 0 then .throw eoeStatus else pure ()

/-- A command whose failure makes the script exit with the given status. -/
def orDie (status : Nat) (command : Script Bool) : Script Unit := do
  if ← command then pure () else .throw status

/-- `$(cat file)`: what is in the file without the newlines at its end, or nothing when there is
no such file. -/
def cat (path : Text) : Script Text := do
  match ← issue (.readFile path) with
  | some text => pure text.chomp
  | none => pure []

/-- `${1%v?}`. -/
def stripVersion (part_name : Text) : Text :=
  match part_name.reverse with
  | _ :: 'v' :: rest => rest.reverse
  | _ => part_name

def validatePositiveIntegerOrDie (s : Text) : Script Unit :=
  if s.isNumeral then pure () else .throw 11

def isPartSkipped (ips_part_name : Text) : Script Bool := do
  let skip ← cat (dirs.PART_INFO_DIR ++ "/MBL_".toList ++ stripVersion ips_part_name
    ++ "_SKIP".toList)
  pure (skip == "1".toList)

/-- `get_part_size_var_B`, which runs in a subshell: its result, or the status it exits with. -/
def getPartSizeVarB (gpsv_part_name gpsv_var_name : Text) : Script (Except Nat Nat) :=
  Prog.attempt do
    let gpsv_size_KiB ← cat (dirs.PART_INFO_DIR ++ "/MBL_".toList ++ stripVersion gpsv_part_name
      ++ "_".toList ++ gpsv_var_name ++ "_KiB".toList)
    validatePositiveIntegerOrDie gpsv_size_KiB
    pure (gpsv_size_KiB.decimalValue?.getD 0 * 1024)

def getPartSizeB (gps_part_name : Text) : Script (Except Nat Nat) :=
  getPartSizeVarB dirs gps_part_name "SIZE".toList

def getPartOffsetB (gpo_part_name : Text) (gpo_bank : Nat) : Script (Except Nat Nat) :=
  getPartSizeVarB dirs gpo_part_name ("OFFSET_BANK".toList ++ Text.decimal gpo_bank)

/-- `x=$(..); exit_on_error "$?"`. -/
def valueOrDie (result : Script (Except Nat Nat)) : Script Nat := do
  match ← result with
  | .ok value => pure value
  | .error status => .throw status

def removeDoNotRebootFlagOrDie : Script Unit :=
  orDie 18 (issue (.rmF (doNotRebootPath dirs)))

def remountPartitionOrDie (rpod_mount_point rpod_mount_opts : Text) : Script Unit :=
  orDie 10 (issue (.remount rpod_mount_point rpod_mount_opts))

def copyDirOrDie (cfod_source_path cfod_mnt_point : Text) : Script Unit := do
  remountPartitionOrDie cfod_mnt_point "rw".toList
  orDie 12 (issue (.rmFAll cfod_mnt_point))
  orDie 13 (issue (.cpFAll cfod_source_path cfod_mnt_point))
  remountPartitionOrDie cfod_mnt_point "ro".toList

def decompressOrDie (dod_compressed_path dod_decompressed_path : Text) : Script Unit :=
  orDie 17 (issue (.xzcat dod_compressed_path dod_decompressed_path))

/-- The device file of the disk the root partition is on, by the output of `lsblk`. -/
def getDeviceForMblPartitions : Script (Option Text) := do
  let some gdmpLsblkOutput ← issue .lsblk | pure none
  let names := (gdmpLsblkOutput.filter fun line => line.1 == "/".toList).map (·.2)
  let gdmpDevicePath := "/dev/".toList ++ "\n".toList.intercalate names
  if ← issue (.testB gdmpDevicePath) then pure (some gdmpDevicePath) else pure none

/-! ### `bootloader_installer.sh` -/

def writeToFlashOrDie (wfod_file : Text) (wfod_offset_B wfod_max_size_B : Nat) :
    Script Unit := do
  match ← getDeviceForMblPartitions with
  | none => .throw 1
  | some wfod_device_path =>
      match ← issue (.wcC wfod_file) with
      | none => .throw 59
      | some wfod_actual_size_B =>
          if wfod_actual_size_B > wfod_max_size_B then .throw 60
          else orDie 63 (issue (.dd wfod_file wfod_device_path wfod_offset_B))

/-- `basename path .xz`. -/
def basenameXz (path : Text) : Text :=
  let name := (path.reverse.takeWhile (· != '/')).reverse
  if ".xz".toList <:+ name ∧ name ≠ ".xz".toList then name.take (name.length - 3) else name

/-- `${path%.xz}`. -/
def stripXz (path : Text) : Text :=
  if ".xz".toList <:+ path then path.take (path.length - 3) else path

def updateBootloaderOrDie (ublod_path : Text) : Script Unit := do
  let ublod_basename := basenameXz ublod_path
  if ← isPartSkipped dirs ublod_basename then .throw 32
  else
    let ublod_max_size_B ← valueOrDie (getPartSizeB dirs ublod_basename)
    let ublod_offset_B ← valueOrDie (getPartOffsetB dirs ublod_basename 1)
    let ublod_decompressed_path := stripXz ublod_path
    decompressOrDie ublod_path ublod_decompressed_path
    writeToFlashOrDie ublod_decompressed_path ublod_offset_B ublod_max_size_B
    removeDoNotRebootFlagOrDie dirs

/-! ### `boot_partition_installer.sh` -/

def updateBootPartFromDirOrDie (ubpd_part_name ubpd_dir : Text)
    (ubpd_size_estimate_B : Nat) (ubpd_skip_ok : Bool) : Script Unit := do
  if ← isPartSkipped dirs ubpd_part_name then
    if ubpd_skip_ok then pure () else .throw 65
  else
    let ubpd_max_size_B ← valueOrDie (getPartSizeB dirs ubpd_part_name)
    if ubpd_size_estimate_B > ubpd_max_size_B then .throw 60
    else
      let mount_point ← issue (.readFile (dirs.PART_INFO_DIR ++ "/MBL_".toList ++ ubpd_part_name
        ++ "_MOUNT_POINT".toList))
      match mount_point.map Text.chomp with
      | none | some [] => .throw 31
      | some ubpd_mount_point =>
          copyDirOrDie ubpd_dir ubpd_mount_point
          removeDoNotRebootFlagOrDie dirs

/-- `expr "$(du -k dir | awk '{print $1}')" \* 1024`, which also fails when its value is 0. -/
def sizeEstimateB (dir : Text) : Script (Option Nat) := do
  let some text ← issue (.duK dir) | pure none
  match text.decimalValue? with
  | none | some 0 => pure none
  | some n => pure (some (n * 1024))

def updateBootOrDie (ubod_path : Text) : Script Unit := do
  let ubod_tmp_dir := dirs.PAYLOAD_TMP_DIR ++ "/boot".toList
  orDie 62 (issue (.mkdirP ubod_tmp_dir))
  orDie 58 (issue (.tarX ubod_path ubod_tmp_dir))
  match ← sizeEstimateB ubod_tmp_dir with
  | none => .throw 59
  | some ubod_size_estimate_B =>
      updateBootPartFromDirOrDie dirs "BOOT".toList ubod_tmp_dir ubod_size_estimate_B false
      updateBootPartFromDirOrDie dirs "WKS_BOOTLOADER_FS".toList ubod_tmp_dir
        ubod_size_estimate_B true
      removeDoNotRebootFlagOrDie dirs

/-! ### `apps_installer.sh` -/

/-- The operations on the hand-shake files are the subject of the model of the hand-shake; here
they are one call, answered with what is read from `app_update_rc`. -/
def updateAppsOrDie (uaod_apps_file : Text) : Script Unit := do
  let app_update_rc ← issue (.appUpdate uaod_apps_file)
  if Handshake.neZero app_update_rc then .throw 47 else pure ()

/-! ### The shell -/

/-- The installers on the device. -/
def installerAt (path : Text) : Option (Text → Script Unit) :=
  if path = "/opt/arm/bootloader_installer.sh".toList then some (updateBootloaderOrDie dirs)
  else if path = "/opt/arm/boot_partition_installer.sh".toList then some (updateBootOrDie dirs)
  else if path = "/opt/arm/apps_installer.sh".toList then some updateAppsOrDie
  else none

/-- What the shell runs, if it reads the command line as an installer and one argument. -/
def calledInstaller (cmd : Text) : Option (Script Unit) :=
  match Shell.words cmd with
  | some [path, arg] =>
      -- a pattern stands for names of files
      if arg.any Shell.isPattern then none
      else (installerAt dirs path).map fun installer => installer arg
  | _ => none

/-- Run a command line, and return its exit status. -/
def sh (cmd : Text) : Script Nat :=
  match calledInstaller dirs cmd with
  | some installer => do
      match ← installer.attempt with
      | .ok () => pure 0
      | .error status => pure status
  | none => issue (.commandLine cmd)

/-! ### `swupdate_handlers.lua` -/

/-- The path at which an image is saved. -/
def savedPath (image : Img) : Text :=
  Lua.imagePath dirs image.fname

/-- What the handlers call. -/
def answerLua (image : Img) : (c : Lua.Call) → Script (Lua.Reply c)
  | .copy2file img_path => do
      let copied ← if Lua.DirectlyInside dirs.PAYLOAD_TMP_DIR img_path
        then issue (.copy2file image img_path) else issue (.copyElsewhere image img_path)
      pure (if copied then (0 : Int) else 1)
  | .execute cmd => do
      let status ← sh dirs cmd
      pure { success := status == 0, err := status }

/-- A handler on the device. -/
def runLua (h : Lua.Handler) (image : Img) : Script Int :=
  (h.run dirs image.fname).interpret (answerLua dirs image)

def wksBootloader1 (image : Img) : Script Int :=
  runLua dirs .wks_bootloader1 image

def wksBootloader2 (image : Img) : Script Int :=
  runLua dirs .wks_bootloader2 image

def boot (image : Img) : Script Int :=
  runLua dirs .boot image

def apps (image : Img) : Script Int :=
  runLua dirs .apps image

/-! ### Images that are passed on as they are named -/

/-- The image is saved directly in the directory for the payload, and the shell reads the command
line as the installer and the path of the image, which is no pattern. -/
structure PassedOn (h : Lua.Handler) (image : Img) : Prop where
  inside : Lua.DirectlyInside dirs.PAYLOAD_TMP_DIR (savedPath dirs image)
  words : Shell.words (Lua.command h.installer (savedPath dirs image))
    = some [h.installer, savedPath dirs image]
  noPattern : (savedPath dirs image).any Shell.isPattern = false

/-- The installer a handler runs. -/
def installer : Lua.Handler → Text → Script Unit
  | .wks_bootloader1 | .wks_bootloader2 => updateBootloaderOrDie dirs
  | .boot => updateBootOrDie dirs
  | .apps => updateAppsOrDie

/-- Save the image and run the installer on the saved file. -/
def saveAndInstall (installer : Text → Script Unit) (image : Img) : Script Int := do
  if ← issue (.copy2file image (savedPath dirs image)) then
    match ← (installer (savedPath dirs image)).attempt with
    | .ok () | .error 0 => pure 0
    | .error _ => pure 1
  else pure 1

variable {dirs}

/-- Where the directory is set to an ordinary path, it depends on the characters of the file name
whether an image is passed on. -/
theorem passedOn_iff (hdir : Lua.IsPlainDir dirs.PAYLOAD_TMP_DIR)
    (hpattern : dirs.PAYLOAD_TMP_DIR.any Shell.isPattern = false) {h : Lua.Handler} {image : Img} :
  PassedOn dirs h image ↔ Lua.StaysInside dirs image.fname
    ∧ ∀ c ∈ image.fname, Shell.isPlain c = true ∧ Shell.isPattern c = false
  := by
  have hsaved : (savedPath dirs image).any Shell.isPattern = image.fname.any Shell.isPattern := by
    rw [savedPath, Lua.imagePath, List.any_append, List.any_append, hpattern, Bool.false_or]
    rfl
  rw [← Lua.directlyInside_iff]
  constructor
  · rintro ⟨hinside, hwords, hno⟩
    use hinside
    intro c hc
    use (Lua.words_command_iff hdir h).mp hwords c hc
    rw [hsaved, List.any_eq_false] at hno
    simpa using hno c hc
  · rintro ⟨hinside, hplain⟩
    refine ⟨hinside, (Lua.words_command_iff hdir h).mpr fun c hc => (hplain c hc).1, ?_⟩
    rw [hsaved, List.any_eq_false]
    intro c hc
    simp [(hplain c hc).2]

theorem calledInstaller_eq {h : Lua.Handler} {image : Img} (hpassed : PassedOn dirs h image) :
  calledInstaller dirs (Lua.command h.installer (savedPath dirs image))
    = some (installer dirs h (savedPath dirs image))
  := by
  have hinstaller : installerAt dirs h.installer = some (installer dirs h) := by cases h <;> rfl
  simp only [calledInstaller, hpassed.words, hpassed.noPattern, hinstaller]
  rfl

/-- A handler saves an image that is passed on, and runs the installer on the saved file. -/
theorem runLua_eq {h : Lua.Handler} {image : Img} (hpassed : PassedOn dirs h image) :
  runLua dirs h image = saveAndInstall dirs (installer dirs h) image
  := by
  rw [runLua, h.run_eq]
  change Prog.bind (answerLua dirs image (.copy2file (savedPath dirs image))) _ = _
  rw [answerLua, if_pos hpassed.inside]
  change Prog.call (Call.copy2file image (savedPath dirs image)) _ = Prog.call _ _
  congr
  funext (copied : Bool)
  cases copied with
  | false => rfl
  | true =>
      change Prog.bind (answerLua dirs image
        (.execute (Lua.command h.installer (savedPath dirs image)))) _ = _
      rw [answerLua, sh, calledInstaller_eq hpassed]
      change ((((installer dirs h (savedPath dirs image)).attempt >>= _ : Script Nat) >>= _
        : Script Lua.Executed) >>= _ : Script Int) = (_ >>= _ : Script Int)
      rw [Prog.bind_assoc, Prog.bind_assoc]
      congr
      funext result
      cases result with
      | ok _ => rfl
      | error status => cases status <;> rfl

end Swupdate
