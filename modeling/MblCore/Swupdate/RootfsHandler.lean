import MblCore.Lib.Breach
import MblCore.Swupdate.ArmHandlerCommon

/-!
# `rootfs-handler.c`

The handler for root file system images.  It finds the bank that is not mounted, copies the
image there, and sets or removes the boot flag `rootfs2`, by which the boot loader selects the
bank of the next boot.  The function that copies is a parameter.
-/

namespace Swupdate

variable (dirs : Dirs)

def rootfsFilename : Text :=
  "rootfs2".toList

/-- The device file of the bank that is not mounted, and the partition number of bank 2. -/
def findUpdateTarget : Script (Option (Text × Text)) := do
  let some mounted_device_filepath ← getMountedDevice "/".toList MAX_DEVICE_FILE_PATH
    | pure none
  let some b1_pnum ← readPartInfoFileToNewStr dirs "MBL_ROOT_FS_PART_NUMBER_BANK1".toList
    | pure none
  let some b2_pnum ← readPartInfoFileToNewStr dirs "MBL_ROOT_FS_PART_NUMBER_BANK2".toList
    | pure none
  match findTargetPartition mounted_device_filepath b1_pnum b2_pnum MAX_DEVICE_FILE_PATH with
  | none => pure none
  | some target_device_filepath => pure (some (target_device_filepath, b2_pnum))

/-- Set or remove the boot flag, so that the next boot is from the bank just written. -/
def setBootflag (target_device_filepath b2_pnum : Text) : Script Int :=
  if strEndswith b2_pnum target_device_filepath then writeBootflagFile dirs rootfsFilename
  else removeBootflagFile dirs rootfsFilename

/-- The rest of the handler once the image is copied. -/
def selectTarget (target_device_filepath b2_pnum : Text) : Script Int := do
  if (← setBootflag dirs target_device_filepath b2_pnum) = -1 then pure 1
  else if (← removeDoNotRebootFlag dirs) = -1 then pure 1
  else pure 0

def rootfsv4Handler (copy : Img → Text → Script Int) (img : Img) : Script Int := do
  let some (target_device_filepath, b2_pnum) ← findUpdateTarget dirs | pure 1
  if (← copy img target_device_filepath) = -1 then pure 1
  else selectTarget dirs target_device_filepath b2_pnum

/-- The path of the boot flag file. -/
def rootfs2Path : Text :=
  dirs.BOOTFLAGS_DIR ++ "/".toList ++ rootfsFilename

/-! ### What the handler does -/

variable {dirs} {adm : Call → Choice → Device → Prop} {d : Device}

theorem snprintf_eq_some {n : Nat} {s t : Text} (h : snprintf n s = some t) :
  t = s
  := by
  unfold snprintf at h
  split at h
  · contradiction
  · exact (Option.some.inj h).symm

/-- The two flag files are not the same. -/
theorem doNotRebootPath_ne : doNotRebootPath dirs ≠ rootfs2Path dirs
  := by
  intro h
  have hlast := congrArg List.getLast? h
  rw [doNotRebootPath, rootfs2Path, List.getLast?_append_of_ne_nil _ (by decide),
    List.getLast?_append_of_ne_nil _ (by decide)] at hlast
  exact absurd hlast (by decide)

/-- The handler only looks while it finds its target, and what it finds is what
`find_target_partition` makes of the mounted device and the two part numbers. -/
theorem wp_findUpdateTarget {Q : Prog.Post Device Nat (Option (Text × Text))} (hcut : Q.cut d)
    (hnone : Q.returned none d)
    (hsome : ∀ (e : Mntent) (path1 path2 target : Text),
      d.mtab.find? (fun e => e.mnt_dir == "/".toList) = some e →
      getPartInfoFilepath dirs "MBL_ROOT_FS_PART_NUMBER_BANK1".toList PATH_MAX = some path1 →
      getPartInfoFilepath dirs "MBL_ROOT_FS_PART_NUMBER_BANK2".toList PATH_MAX = some path2 →
      findTargetPartition e.mnt_fsname (d.part_info path1) (d.part_info path2)
        MAX_DEVICE_FILE_PATH = some target →
      Q.returned (some (target, d.part_info path2)) d) :
  Prog.wp machine adm (findUpdateTarget dirs) Q d
  := by
  simp only [findUpdateTarget, Prog.wp_bind]
  apply wp_getMountedDevice
  · exact hcut
  · exact hnone
  · intro e he
    simp only [Prog.wp_bind]
    apply wp_readPartInfoFileToNewStr
    · exact hcut
    · exact hnone
    · intro path1 hpath1
      simp only [Prog.wp_bind]
      apply wp_readPartInfoFileToNewStr
      · exact hcut
      · exact hnone
      · intro path2 hpath2
        simp only
        split
        · exact hnone
        · rename_i target htarget
          exact hsome e path1 path2 target he hpath1 hpath2 htarget

/-- The calls that read `/etc/mtab` and whole files. -/
def QueryCall : Call → Prop
  | .setmntent | .readFile _ => True
  | _ => False

theorem readPartInfoFileToNewStr_issues (file_name : Text) :
  Prog.Issues QueryCall (readPartInfoFileToNewStr dirs file_name)
  := by
  unfold readPartInfoFileToNewStr
  split
  · trivial
  · exact Prog.issues_issue.mpr trivial

/-- Nothing is written while the target is looked for. -/
theorem findUpdateTarget_issues :
  Prog.Issues QueryCall (findUpdateTarget dirs)
  := by
  apply Prog.Issues.bind
  · apply Prog.Issues.bind
    · exact Prog.issues_issue.mpr trivial
    · intro r
      split
      · split
        · trivial
        · split <;> trivial
      · trivial
  · intro r
    split
    · apply Prog.Issues.bind (readPartInfoFileToNewStr_issues _)
      intro r
      split
      · apply Prog.Issues.bind (readPartInfoFileToNewStr_issues _)
        intro r
        split
        · split <;> trivial
        · trivial
      · trivial
    · trivial

/-- The calls that create and remove flag files. -/
def FlagCall : Call → Prop
  | .mkdir _ | .openCreat _ | .remove _ => True
  | _ => False

theorem removeFile_issues (path : Text) :
  Prog.Issues FlagCall (removeFile path)
  := by
  apply Prog.Issues.bind
  · exact Prog.issues_issue.mpr trivial
  · intro r
    split <;> trivial

theorem writeBootflagFile_issues (filename : Text) :
  Prog.Issues FlagCall (writeBootflagFile dirs filename)
  := by
  apply Prog.Issues.bind
  · exact Prog.issues_issue.mpr trivial
  · intro r
    split
    · trivial
    · trivial
    all_goals
      split
      · trivial
      · apply Prog.Issues.bind
        · exact Prog.issues_issue.mpr trivial
        · intro r
          split <;> trivial

theorem removeBootflagFile_issues (filename : Text) :
  Prog.Issues FlagCall (removeBootflagFile dirs filename)
  := by
  unfold removeBootflagFile
  split
  · trivial
  · apply removeFile_issues

theorem removeDoNotRebootFlag_issues :
  Prog.Issues FlagCall (removeDoNotRebootFlag dirs)
  := by
  unfold removeDoNotRebootFlag
  split
  · trivial
  · apply removeFile_issues

/-- Only flag files are created and removed once the image has been copied. -/
theorem selectTarget_issues (target b2_pnum : Text) :
  Prog.Issues FlagCall (selectTarget dirs target b2_pnum)
  := by
  apply Prog.Issues.bind
  · unfold setBootflag
    split
    · apply writeBootflagFile_issues
    · apply removeBootflagFile_issues
  · intro rc
    split
    · trivial
    · apply Prog.Issues.bind removeDoNotRebootFlag_issues
      intro rc
      split <;> trivial

/-- The devices differ in nothing but the flag files. -/
def SameButFlags (d d' : Device) : Prop :=
  d' = { d with flags := d'.flags }

theorem SameButFlags.of_flagCall {c : Call} {x : Choice} {d' : Device} (hc : FlagCall c)
    (h : SameButFlags d d') :
  SameButFlags d (perform c x d').2
  := by
  unfold SameButFlags at h
  rw [h]
  cases c with
  | mkdir path => rfl
  | openCreat path =>
      simp only [perform]
      split
      · unfold Device.addFlag
        split <;> rfl
      · rfl
  | remove path =>
      simp only [perform]
      split
      · split <;> rfl
      · rfl
  | _ => exact hc.elim

theorem SameButFlags.refl (d : Device) : SameButFlags d d
  := rfl

/-- Once the image is copied, nothing but the flag files changes. -/
theorem wp_selectTarget {target b2_pnum : Text} {Q : Prog.Post Device Nat Int}
    (h : ∀ d', SameButFlags d d' →
      (∀ rc, Q.returned rc d') ∧ (∀ status, Q.raised status d') ∧ Q.cut d') :
  Prog.wp machine adm (selectTarget dirs target b2_pnum) Q d
  := by
  apply Prog.wp.mono (Prog.wp_of_issues (SameButFlags d) (selectTarget_issues _ _)
    (fun _ _ _ hc _ hd => SameButFlags.of_flagCall hc hd) (SameButFlags.refl d))
  · exact fun rc d' hd => (h d' hd).1 rc
  · exact fun status d' hd => (h d' hd).2.1 status
  · exact fun d' hd => (h d' hd).2.2

/-! ### The flags after the handler -/

@[simp]
theorem mem_flags_addFlag {path q : Text} :
  q ∈ (d.addFlag path).flags ↔ q = path ∨ q ∈ d.flags
  := by
  unfold Device.addFlag
  split
  · next hmem =>
      constructor
      · exact Or.inr
      · rintro (rfl | h)
        · exact hmem
        · exact h
  · exact List.mem_cons

@[simp]
theorem mem_flags_removeFlag {path q : Text} :
  q ∈ (d.removeFlag path).flags ↔ q ∈ d.flags ∧ q ≠ path
  := by
  simp [Device.removeFlag]

/-- What is asked of a run by a function that returns 0 when it has done its work. -/
def WhenDone (P : Device → Prop) : Prog.Post Device Nat Int where
  returned rc d := rc ≠ -1 → P d
  raised _ _ := False
  cut _ := True

/-- A file that was removed, or was not there, is not there, and the others are as before. -/
theorem wp_removeFile {path : Text} :
  Prog.wp machine adm (removeFile path)
    (WhenDone fun d' => ∀ q, q ∈ d'.flags ↔ q ∈ d.flags ∧ q ≠ path) d
  := by
  simp only [removeFile, Prog.wp_bind, Prog.wp_issue]
  use trivial
  intro x _
  simp only [machine, perform]
  cases x.ok with
  | false => exact fun h => absurd rfl h
  | true =>
      by_cases hmem : path ∈ d.flags
      · simp only [if_pos hmem, if_true]
        intro _ q
        exact mem_flags_removeFlag
      · simp only [if_neg hmem, if_true]
        intro _ q
        constructor
        · intro hq
          refine ⟨hq, ?_⟩
          rintro rfl
          exact hmem hq
        · exact And.left

/-- The boot flag file is there, and the others are as before. -/
theorem wp_writeBootflagFile :
  Prog.wp machine adm (writeBootflagFile dirs rootfsFilename)
    (WhenDone fun d' => ∀ q, q ∈ d'.flags ↔ q = rootfs2Path dirs ∨ q ∈ d.flags) d
  := by
  cases hpath : getBootflagFilePath dirs rootfsFilename PATH_MAX with
  | none =>
      simp only [writeBootflagFile, hpath, Prog.wp_bind, Prog.wp_issue]
      use trivial
      intro x _
      simp only [machine, perform]
      split <;> exact fun h => absurd rfl h
  | some path =>
      obtain rfl : path = rootfs2Path dirs := snprintf_eq_some hpath
      simp only [writeBootflagFile, hpath, Prog.wp_bind, Prog.wp_issue]
      use trivial
      intro x _
      simp only [machine, perform]
      split
      · exact fun h => absurd rfl h
      · exact fun h => absurd rfl h
      -- the directory was there before, or it is there now
      all_goals
        simp only [Prog.wp_bind, Prog.wp_issue]
        use trivial
        intro x _
        simp only [perform]
        cases x.ok with
        | false => exact fun h => absurd rfl h
        | true =>
            intro _ q
            exact mem_flags_addFlag

/-- The flags after a handler that returns 0: the boot flag tells whether the path of the target
ends in the number of bank 2, and the flag that keeps the device from rebooting is gone. -/
structure TargetSelected (dirs : Dirs) (target b2_pnum : Text) (d d' : Device) : Prop where
  bootflag : rootfs2Path dirs ∈ d'.flags ↔ strEndswith b2_pnum target = true
  doNotReboot : doNotRebootPath dirs ∉ d'.flags
  others : ∀ q, q ≠ rootfs2Path dirs → q ≠ doNotRebootPath dirs → (q ∈ d'.flags ↔ q ∈ d.flags)

theorem wp_setBootflag {target b2_pnum : Text} :
  Prog.wp machine adm (setBootflag dirs target b2_pnum)
    (WhenDone fun d' => (rootfs2Path dirs ∈ d'.flags ↔ strEndswith b2_pnum target = true) ∧
      ∀ q, q ≠ rootfs2Path dirs → (q ∈ d'.flags ↔ q ∈ d.flags)) d
  := by
  unfold setBootflag
  split
  · next hends =>
      apply wp_writeBootflagFile.of_returned
      intro rc d' h hdone
      have hflags := h hdone
      constructor
      · simp [hflags, hends]
      · intro q hq
        simp [hflags, hq]
  · next hends =>
      unfold removeBootflagFile
      split
      · exact fun h => absurd rfl h
      · next path hpath =>
          obtain rfl : path = rootfs2Path dirs := snprintf_eq_some hpath
          apply wp_removeFile.of_returned
          intro rc d' h hdone
          have hflags := h hdone
          constructor
          · simp [hflags, hends]
          · intro q hq
            simp [hflags, hq]

theorem wp_selectTarget_done {target b2_pnum : Text} :
  Prog.wp machine adm (selectTarget dirs target b2_pnum)
    { returned := fun rc d' => rc = 0 → TargetSelected dirs target b2_pnum d d'
      raised := fun _ _ => False
      cut := fun _ => True } d
  := by
  simp only [selectTarget, Prog.wp_bind]
  apply wp_setBootflag.of_returned
  intro rc d₁ hset
  split
  · exact fun h => absurd h (by decide)
  · next hdone =>
      obtain ⟨hbootflag, hothers⟩ := hset hdone
      simp only [Prog.wp_bind, removeDoNotRebootFlag]
      split
      · exact fun h => absurd h (by decide)
      · next path hpath =>
          obtain rfl : path = doNotRebootPath dirs := snprintf_eq_some hpath
          apply wp_removeFile.of_returned
          intro rc d' h
          split
          · exact fun h => absurd h (by decide)
          · next hdone =>
              have hflags := h hdone
              intro _
              constructor
              · rw [hflags, hbootflag]
                simp [doNotRebootPath_ne.symm]
              · simp [hflags]
              · intro q hq hq'
                simp [hflags, hothers q hq, hq']

end Swupdate
