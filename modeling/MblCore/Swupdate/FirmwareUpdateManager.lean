import MblCore.Lib.Method
import MblCore.Swupdate.BootFlag
import MblCore.Swupdate.RebootFlag

/-!
# `mbl-firmware-update-manager`

`install_firmware` of `mbl/firmware_update_manager/manager.py` runs `arm_update_activate.sh` on
the update package, removes the package and the HEADER file, and reboots the device unless the
flag file is there or the user says no.
-/

namespace Swupdate

def HEADER_FILE : Text :=
  "/scratch/firmware_update_header_file".toList

def DONT_REBOOT_FLAG : Text :=
  "/tmp/do_not_reboot".toList

/-- The exceptions `install_firmware` ends with. -/
inductive FmwException
  | fmwInstallError (msg : Text)
  | unicodeDecodeError
  | osError (path : Text)
  | eofError
deriving DecidableEq

/-- The device with what `install_firmware` finds and does outside the script. -/
structure Host where
  device : Device
  /-- The files that are there and that can be removed. -/
  files : List Text
  /-- What the user will type at the prompt. -/
  answers : List Text
  /-- The commands given to `os.system`, in order. -/
  commands : List Text

/-- One execution of the script: the outcomes of its calls, and what it prints, unless this cannot
be decoded. -/
structure Subprocess where
  choices : List Choice
  stdout : Option Text

/-- A method of the manager. -/
abbrev Manager := Method FmwException Host

/-- The exit status of a script; one that is cut was killed. -/
def exitStatus : Prog.Outcome Nat Unit → Int
  | .returned _ => 0
  | .raised status => status
  | .cut => -9

/-- `subprocess.run` of `arm_update_activate.sh`: its exit status. -/
def runActivation (dirs : Dirs) (images : List PayloadImage) (update_pkg : Text) (x : Subprocess) :
    Manager Int := do
  let host ← get
  let (outcome, _, device) := Prog.run machine
    (armUpdateActivate dirs HEADER_FILE update_pkg images) x.choices host.device
  set { host with device }
  return exitStatus outcome

/-- `os.remove`. -/
def osRemove (path : Text) : Manager Unit := do
  let host ← get
  if path ∈ host.files then set { host with files := host.files.filter (· ≠ path) }
  else throw (.osError path)

/-- `os.path.isfile`, of a flag file. -/
def isfile (path : Text) : Manager Bool := do
  return decide (path ∈ (← get).device.flags)

/-- `os.system`. -/
def system (command : Text) : Manager Unit :=
  modify fun host => { host with commands := host.commands ++ [command] }

/-- `str.lower`, as far as it matters for a comparison with one of the letters. -/
def lower (t : Text) : Text :=
  t.map Char.toLower

/-- The loop of the prompt: whether to proceed, and the answers that were not read. -/
def prompt : List Text → Option Bool × List Text
  | [] => (none, [])
  | user_input :: answers =>
      if lower user_input = "y".toList then (some true, answers)
      else if lower user_input = "n".toList then (some false, answers)
      else prompt answers

/-- Ask the user. -/
def userProceeds : Manager Bool := do
  let host ← get
  let (answer, answers) := prompt host.answers
  set { host with answers }
  match answer with
  | none => throw .eofError
  | some proceed => return proceed

/-- The message for a script that failed. -/
def installErrorMessage (update_pkg stdout : Text) (returncode : Int) : Text :=
  "Failed to update firmware from update package '".toList ++ update_pkg ++ "', error: '".toList ++
    (if stdout = [] then (toString returncode).toList else stdout) ++ "'".toList

/-- What is done after the script, before the clean-up: an exception if it failed, and the removal
of the package if not. -/
def handleReturncode (update_pkg : Text) (keep : Bool) (x : Subprocess) (returncode : Int) :
    Manager Unit := do
  if returncode ≠ 0 then
    match x.stdout with
    | none => throw .unicodeDecodeError
    | some stdout => throw (.fmwInstallError (installErrorMessage update_pkg stdout returncode))
  else if keep then pure () else osRemove update_pkg

/-- The reboot, unless the flag file is there or it is declined. -/
def offerReboot (assume_yes assume_no : Bool) : Manager Unit := do
  if ! (← isfile DONT_REBOOT_FLAG) && ! assume_no then
    let proceed ← if assume_yes then pure true else userProceeds
    if proceed then system "reboot".toList else pure ()
  else pure ()

/-- `FirmwareUpdateManager.install_firmware`. -/
def installFirmware (dirs : Dirs) (images : List PayloadImage) (update_pkg : Text)
    (keep assume_yes assume_no : Bool) (x : Subprocess) : Manager Unit := do
  let returncode ← runActivation dirs images update_pkg x
  tryFinally (handleReturncode update_pkg keep x returncode)
    (if keep then pure () else osRemove HEADER_FILE)
  offerReboot assume_yes assume_no

/-! ### The prompt -/

variable {dirs : Dirs} {images : List PayloadImage} {update_pkg : Text}
  {keep assume_yes assume_no : Bool} {x : Subprocess} {host : Host}

/-- The answer is one of the two letters. -/
def IsAnswer (a : Text) : Bool :=
  lower a == "y".toList || lower a == "n".toList

/-- The first answer that is one of the letters is `y`. -/
def SaysYes (answers : List Text) : Prop :=
  ∃ a ∈ answers.find? IsAnswer, lower a = "y".toList

theorem prompt_eq_true_iff (answers : List Text) :
  (prompt answers).1 = some true ↔ SaysYes answers
  := by
  induction answers with
  | nil => simp [prompt, SaysYes]
  | cons a answers ih =>
      unfold prompt SaysYes
      by_cases hyes : lower a = "y".toList
      · have hanswer : IsAnswer a = true := by simp [IsAnswer, hyes]
        rw [if_pos hyes, List.find?_cons_of_pos hanswer]
        simp [hyes]
      · by_cases hno : lower a = "n".toList
        · have hanswer : IsAnswer a = true := by simp [IsAnswer, hno]
          rw [if_neg hyes, if_pos hno, List.find?_cons_of_pos hanswer]
          simpa using hyes
        · have hother : ¬ IsAnswer a = true := by
            simp only [IsAnswer, Bool.or_eq_true, beq_iff_eq, not_or]
            exact ⟨hyes, hno⟩
          rw [if_neg hyes, if_neg hno, ih, SaysYes, List.find?_cons_of_neg hother]

/-- `os.system("reboot")` is what the method adds to the commands. -/
def Reboots (host host' : Host) : Prop :=
  host'.commands = host.commands ++ ["reboot".toList]

theorem not_reboots_of_eq {host host' : Host} (h : host'.commands = host.commands) :
  ¬ Reboots host host'
  := by
  unfold Reboots
  rw [h]
  simp

theorem call_isfile_bind (path : Text) (f : Bool → Manager Unit) :
  (isfile path >>= f).call host = (f (decide (path ∈ host.device.flags))).call host
  := by
  apply Method.call_bind_of_ok
  rfl

theorem reboots_userProceeds (host : Host) :
  Reboots host ((do if ← userProceeds then system "reboot".toList else pure () : Manager Unit).call
      host).2 ↔ (prompt host.answers).1 = some true
  := by
  have hcall : userProceeds.call host = match (prompt host.answers).1 with
      | none => (.error .eofError, { host with answers := (prompt host.answers).2 })
      | some proceed => (.ok proceed, { host with answers := (prompt host.answers).2 }) := by
    simp only [userProceeds, Method.call_get_bind, Method.call_set_bind]
    split <;> rfl
  cases hanswer : (prompt host.answers).1 with
  | none =>
      rw [hanswer] at hcall
      rw [Method.call_bind_of_error hcall]
      simp [not_reboots_of_eq]
  | some proceed =>
      rw [hanswer] at hcall
      rw [Method.call_bind_of_ok hcall]
      cases proceed with
      | false => simp [not_reboots_of_eq]
      | true => simp [Reboots, system]

theorem reboots_offerReboot (assume_yes assume_no : Bool) (host : Host) :
  Reboots host ((offerReboot assume_yes assume_no).call host).2 ↔
    DONT_REBOOT_FLAG ∉ host.device.flags ∧ assume_no = false ∧
      (assume_yes = true ∨ SaysYes host.answers)
  := by
  rw [offerReboot, call_isfile_bind]
  by_cases hflag : DONT_REBOOT_FLAG ∈ host.device.flags
  · simp [hflag, not_reboots_of_eq]
  · cases assume_no with
    | true => simp [not_reboots_of_eq]
    | false =>
        cases assume_yes with
        | true => simp [hflag, Reboots, system]
        | false =>
            have hsays := reboots_userProceeds host
            rw [prompt_eq_true_iff] at hsays
            simpa [hflag] using hsays

/-! ### The decision -/

/-- How the script ends, and the device afterwards. -/
def activation (dirs : Dirs) (images : List PayloadImage) (update_pkg : Text) (x : Subprocess)
    (host : Host) : Prog.Outcome Nat Unit × List Choice × Device :=
  Prog.run machine (armUpdateActivate dirs HEADER_FILE update_pkg images) x.choices host.device

/-- The package and the HEADER file can be removed, if they are to be. -/
def Removable (update_pkg : Text) (keep : Bool) (host : Host) : Prop :=
  keep = false → update_pkg ∈ host.files ∧ HEADER_FILE ∈ host.files ∧ update_pkg ≠ HEADER_FILE

theorem call_osRemove {path : Text} {host : Host} (h : path ∈ host.files) :
  (osRemove path).call host
    = (.ok (), { host with files := host.files.filter (· ≠ path) })
  := by
  simp only [osRemove, Method.call_get_bind, if_pos h]
  rfl

/-- After a script that succeeded only files are removed before the reboot is offered. -/
theorem call_installFirmware (assume_yes assume_no : Bool)
    (hexit : exitStatus (activation dirs images update_pkg x host).1 = 0)
    (hfiles : Removable update_pkg keep host) :
  ∃ files, (installFirmware dirs images update_pkg keep assume_yes assume_no x).call host
    = (offerReboot assume_yes assume_no).call
        { host with device := (activation dirs images update_pkg x host).2.2, files }
  := by
  set device := (activation dirs images update_pkg x host).2.2 with hdevice
  have hrun : (runActivation dirs images update_pkg x).call host
      = (.ok 0, { host with device }) := by
    rw [runActivation, Method.call_get_bind]
    exact congrArg (fun status => (Except.ok status, { host with device })) hexit
  rw [installFirmware, Method.call_bind_of_ok hrun]
  cases keep with
  | true =>
      use host.files
      apply Method.call_bind_of_ok
      apply Method.call_tryFinally_of_ok <;> rfl
  | false =>
      obtain ⟨hpkg, hheader, hne⟩ := hfiles rfl
      use (host.files.filter (· ≠ update_pkg)).filter (· ≠ HEADER_FILE)
      apply Method.call_bind_of_ok
      apply Method.call_tryFinally_of_ok
      · exact call_osRemove hpkg
      · apply call_osRemove
        simp [hheader, hne.symm]

/-- What is right about the reboot after a script that succeeded: the flag file is there just when
all images hold applications, and the device is rebooted just when some image does not, and
the user does not decline. -/
structure DecidesReboot (dirs : Dirs) (images : List PayloadImage) (update_pkg : Text)
    (keep assume_yes assume_no : Bool) (x : Subprocess) (host : Host) : Prop where
  flag : doNotRebootPath dirs ∈ (activation dirs images update_pkg x host).2.2.flags ↔
    ∀ image ∈ images, image.type = .APPS
  reboot :
    Reboots host ((installFirmware dirs images update_pkg keep assume_yes assume_no x).call host).2
      ↔ (∃ image ∈ images, image.type ≠ .APPS) ∧ assume_no = false ∧
        (assume_yes = true ∨ SaysYes host.answers)

/-- A script that exits with 0 has come to its end. -/
theorem flag_of_exitStatus {d d' : Device} {xs : List Choice} {outcome : Prog.Outcome Nat Unit}
    (hends : (FlagRight dirs images d xs).Holds outcome d') (hexit : exitStatus outcome = 0) :
  doNotRebootPath dirs ∈ d'.flags ↔ FlagCreated dirs xs d ∧ ∀ image ∈ images, image.type = .APPS
  := by
  cases outcome with
  | returned => exact hends
  | raised status => exact absurd (Int.ofNat_inj.mp hexit) hends
  | cut => contradiction

/-- An update package with one application. -/
def appPayload : List PayloadImage :=
  [⟨.APPS, ⟨"app.ipk".toList, 1⟩⟩]

/-- A script in which everything succeeds but, if `touched` is false, the creation of the flag
file. -/
def appSubprocess (touched : Bool) : Subprocess where
  choices := List.replicate 3 { ok := true } ++ [{ ok := touched }] ++ List.replicate 2 { ok := true }
    ++ [{ ok := true, text := "0".toList }] ++ List.replicate 4 { ok := true }
  stdout := some []

/-- A device with an update package, and a user who declines. -/
def packageHost : Host where
  device := bankDevice "/dev/mmcblk1p2".toList "2".toList "3".toList
  files := ["/pkg".toList, HEADER_FILE]
  answers := ["maybe".toList, "N".toList]
  commands := []

/-- An update package with a boot image whose file name ends in a second command. -/
def misreadPayload : List PayloadImage :=
  [⟨.BOOT, ⟨"b.tar.xz;true".toList, 1⟩⟩]

/-- A script in which everything succeeds. -/
def grantedSubprocess : Subprocess where
  choices := List.replicate 11 { ok := true }
  stdout := some []

/-- A boot image with such a file name: the shell runs its second command last, the handler returns
0 whatever the installer did, and the flag file stays. -/
theorem not_decidesReboot_misread :
  exitStatus (activation bankDirs misreadPayload "/pkg".toList grantedSubprocess packageHost).1 = 0
    ∧ FlagCreated bankDirs grantedSubprocess.choices packageHost.device
    ∧ ¬ DecidesReboot bankDirs misreadPayload "/pkg".toList false true false grantedSubprocess
      packageHost
  := by
  refine ⟨by decide, Or.inr ⟨_, rfl, rfl⟩, ?_⟩
  intro h
  have hnotApps := h.flag.mp (by decide)
  revert hnotApps
  decide

end Swupdate
