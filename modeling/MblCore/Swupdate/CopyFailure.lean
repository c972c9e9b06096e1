import MblCore.Swupdate.AbSafety

/-!
# A copy that fails

`copy_image_and_sync` jumps to its clean-up before it takes note that `copyimage` has failed, so it
reports a failed copy only when the target cannot be closed either.  A handler that is not told of the
failure goes on to the flag files.  The record of the calls of a run tells whether that did any harm.
-/

namespace Swupdate

open Prog hiding pure throw bind

variable (dirs : Dirs)

/-! ### What is asked of the handler -/

/-- The partition that is not mounted at `/`. -/
def IsTarget (d : Device) (target : Text) : Prop :=
  ∃ e path1 path2, d.mtab.find? (fun e => e.mnt_dir == "/".toList) = some e ∧
    getPartInfoFilepath dirs "MBL_ROOT_FS_PART_NUMBER_BANK1".toList PATH_MAX = some path1 ∧
    getPartInfoFilepath dirs "MBL_ROOT_FS_PART_NUMBER_BANK2".toList PATH_MAX = some path2 ∧
    findTargetPartition e.mnt_fsname (d.part_info path1) (d.part_info path2)
      MAX_DEVICE_FILE_PATH = some target

def CopyFailed (record : Record) : Prop :=
  ∃ img device, ⟨.copyimage img device, false⟩ ∈ record

def CloseFailed (record : Record) : Prop :=
  ⟨.close, false⟩ ∈ record

/-- The image was copied to the target without an error. -/
def Copied (img : Img) (d : Device) (record : Record) : Prop :=
  ∃ target, IsTarget dirs d target ∧ ⟨.openfileoutput target, true⟩ ∈ record ∧
    ⟨.copyimage img target, true⟩ ∈ record ∧ ⟨.close, true⟩ ∈ record

/-- The directory of the boot flags was not made, and the flag files are as they were. -/
def FlagsKept (d : Device) (s : Recorded) : Prop :=
  s.1.flags = d.flags ∧ ∀ path, ⟨.mkdir path, .ok ()⟩ ∉ s.2

/-- A copy that fails is an error that leaves the flag files, and there is no success without a
copy. -/
structure CopyGuards (img : Img) (d : Device) (rc : Int) (s : Recorded) : Prop where
  failedCopy : CopyFailed s.2 → rc ≠ 0 ∧ FlagsKept d s
  success : rc = 0 → Copied dirs img d s.2

/-! ### What happens to the flag files -/

/-- A call on flag files fails, and the handler takes note. -/
def IsFlagFailure : (c : Call) → Reply c → Prop
  | .mkdir _, .error e => e ≠ .EEXIST
  | .openCreat _, .error _ => True
  | .remove _, .error e => e ≠ .ENOENT
  | _, _ => False

/-- A call makes the directory of the boot flags, or creates or removes a flag file. -/
def IsFlagChange (d : Device) : (c : Call) → Reply c → Prop
  | .mkdir _, .ok _ => True
  | .openCreat path, .ok _ => path ∉ d.flags
  | .remove _, .ok _ => True
  | _, _ => False

/-- A flag file cannot be written or removed. -/
def FlagsFail (record : Record) : Prop :=
  (∃ entry ∈ record, IsFlagFailure entry.1 entry.2)
    ∨ getBootflagFilePath dirs rootfsFilename PATH_MAX = none
    ∨ snprintf PATH_MAX (doNotRebootPath dirs) = none

def FlagsChange (d : Device) (record : Record) : Prop :=
  ∃ entry ∈ record, IsFlagChange d entry.1 entry.2

/-- A copy that fails is followed by a failure to close the target, or by a failure on the flag files
before anything has changed there. -/
def FailureNoticed (d : Device) (record : Record) : Prop :=
  CopyFailed record → CloseFailed record ∨ (FlagsFail dirs record ∧ ¬ FlagsChange d record)

variable {dirs} {d : Device} {t : Record} {adm : Call → Choice → Recorded → Prop}

/-! ### The flag files, step by step -/

/-- What a function has done to one flag file. -/
structure FlagStep (path : Text) (tooLong : Prop) (s : Recorded) (rc : Int) (s' : Recorded)
    (new : Record) : Prop where
  record : s'.2 = s.2 ++ new
  flagCalls : ∀ entry ∈ new, FlagCall entry.1
  rc : rc = -1 ↔ tooLong ∨ ∃ entry ∈ new, IsFlagFailure entry.1 entry.2
  others : ∀ q, q ≠ path → (q ∈ s'.1.flags ↔ q ∈ s.1.flags)
  kept : ¬ FlagsChange s.1 new → s'.1.flags = s.1.flags
  changed : FlagsChange s.1 new → (∃ dir, ⟨.mkdir dir, .ok ()⟩ ∈ new)
    ∨ ¬ (path ∈ s'.1.flags ↔ path ∈ s.1.flags)

/-- What is asked of a run by a function that works on one flag file. -/
def FlagSteps (path : Text) (tooLong : Prop) (s : Recorded) : Post Recorded Nat Int where
  returned rc s' := ∃ new, FlagStep path tooLong s rc s' new
  raised _ _ := False
  cut _ := True

theorem wp_removeFile_step {path : Text} :
  wp machine.traced adm (removeFile path) (FlagSteps path False (d, t)) (d, t)
  := by
  simp only [removeFile, wp_bind, wp_issue]
  refine ⟨trivial, fun x _ => ?_⟩
  simp only [Machine.traced, machine, perform]
  cases x.ok with
  | false =>
      use [⟨.remove path, .error .other⟩]
      constructor <;> simp [FlagCall, IsFlagFailure, FlagsChange, IsFlagChange]
  | true =>
      by_cases hmem : path ∈ d.flags
      · simp only [hmem, if_true]
        use [⟨.remove path, .ok ()⟩]
        constructor <;> simp [FlagCall, IsFlagFailure, FlagsChange, IsFlagChange, hmem]
        exact fun q hq _ => hq
      · simp only [hmem, if_true, if_false]
        use [⟨.remove path, .error .ENOENT⟩]
        constructor <;> simp [FlagCall, IsFlagFailure, FlagsChange, IsFlagChange]

/-- What `write_bootflag_file` does once the directory is there. -/
def createBootflag (dirs : Dirs) (filename : Text) : Script Int :=
  match getBootflagFilePath dirs filename PATH_MAX with
  | none => pure (-1)
  | some bootflags_file_path => do
      match ← issue (.openCreat bootflags_file_path) with
      | .error _ => pure (-1)
      | .ok () => pure 0

/-- A call that makes a directory changes nothing else. -/
theorem changed_mkdir (dir : Text) {made : Reply (.mkdir dir)}
    (h : IsFlagChange d (.mkdir dir) made) :
  made = .ok ()
  := by
  cases made with
  | error e => exact h.elim
  | ok u => rfl

theorem wp_createBootflag_step {dir : Text} {made : Reply (.mkdir dir)}
    (hmade : ¬ IsFlagFailure (.mkdir dir) made) :
  wp machine.traced adm (createBootflag dirs rootfsFilename)
    (FlagSteps (rootfs2Path dirs)
      (getBootflagFilePath dirs rootfsFilename PATH_MAX = none) (d, t)) (d, t ++ [⟨.mkdir dir, made⟩])
  := by
  rw [createBootflag]
  cases hpath : getBootflagFilePath dirs rootfsFilename PATH_MAX with
  | none =>
      use [⟨.mkdir dir, made⟩]
      constructor
      · rfl
      · simp [FlagCall]
      · simp
      · exact fun _ _ => Iff.rfl
      · exact fun _ => rfl
      · rintro ⟨entry, hentry, hchange⟩
        obtain rfl := List.mem_singleton.mp hentry
        obtain rfl : made = .ok () := changed_mkdir dir hchange
        exact Or.inl ⟨dir, List.mem_cons_self⟩
  | some path =>
      obtain rfl : path = rootfs2Path dirs := snprintf_eq_some hpath
      simp only [wp_bind, wp_issue]
      refine ⟨trivial, fun x _ => ?_⟩
      simp only [Machine.traced, machine, perform]
      cases x.ok with
      | false =>
          use [⟨.mkdir dir, made⟩, ⟨.openCreat (rootfs2Path dirs), .error .other⟩]
          constructor
          · simp
          · simp [FlagCall]
          · simp [IsFlagFailure]
          · exact fun _ _ => Iff.rfl
          · exact fun _ => rfl
          · rintro ⟨entry, hentry, hchange⟩
            simp only [List.mem_cons, List.not_mem_nil, or_false] at hentry
            rcases hentry with rfl | rfl
            · obtain rfl : made = .ok () := changed_mkdir dir hchange
              exact Or.inl ⟨dir, List.mem_cons_self⟩
            · exact hchange.elim
      | true =>
          use [⟨.mkdir dir, made⟩, ⟨.openCreat (rootfs2Path dirs), .ok ()⟩]
          constructor
          · simp
          · simp [FlagCall]
          · constructor
            · intro h
              exact absurd h (by decide)
            · rintro (hlong | ⟨entry, hentry, hfails⟩)
              · contradiction
              · simp only [List.mem_cons, List.not_mem_nil, or_false] at hentry
                rcases hentry with rfl | rfl
                · exact absurd hfails hmade
                · exact hfails.elim
          · intro q hq
            simp [hq]
          · intro hsame
            have hthere : rootfs2Path dirs ∈ d.flags := by
              by_contra hnot
              exact hsame ⟨⟨.openCreat (rootfs2Path dirs), .ok ()⟩, by simp, hnot⟩
            simp [Device.addFlag, hthere]
          · rintro ⟨entry, hentry, hchange⟩
            simp only [List.mem_cons, List.not_mem_nil, or_false] at hentry
            rcases hentry with rfl | rfl
            · obtain rfl : made = .ok () := changed_mkdir dir hchange
              exact Or.inl ⟨dir, List.mem_cons_self⟩
            · have hnew : rootfs2Path dirs ∉ d.flags := hchange
              right
              simp [hnew]

theorem wp_writeBootflagFile_step :
  wp machine.traced adm (writeBootflagFile dirs rootfsFilename)
    (FlagSteps (rootfs2Path dirs)
      (getBootflagFilePath dirs rootfsFilename PATH_MAX = none) (d, t)) (d, t)
  := by
  have hfails {e : Errno} (he : e ≠ .EEXIST) :
      (FlagSteps (rootfs2Path dirs) (getBootflagFilePath dirs rootfsFilename PATH_MAX = none)
        (d, t)).returned (-1) (d, t ++ [⟨.mkdir dirs.BOOTFLAGS_DIR, .error e⟩]) := by
    use [⟨.mkdir dirs.BOOTFLAGS_DIR, .error e⟩]
    constructor <;> simp [FlagCall, IsFlagFailure, FlagsChange, IsFlagChange, he]
  simp only [writeBootflagFile, wp_bind, wp_issue]
  refine ⟨trivial, fun x _ => ?_⟩
  simp only [Machine.traced, machine, perform]
  split
  · rename_i heq
    rw [heq]
    exact hfails (by simp)
  · rename_i heq
    rw [heq]
    exact hfails (by simp)
  all_goals
    rename_i heq
    rw [heq]
    apply wp_createBootflag_step
    simp [IsFlagFailure]

theorem wp_setBootflag_step {target b2_pnum : Text} :
  wp machine.traced adm (setBootflag dirs target b2_pnum)
    (FlagSteps (rootfs2Path dirs)
      (getBootflagFilePath dirs rootfsFilename PATH_MAX = none) (d, t)) (d, t)
  := by
  unfold setBootflag
  split
  · exact wp_writeBootflagFile_step
  · unfold removeBootflagFile
    cases hpath : getBootflagFilePath dirs rootfsFilename PATH_MAX with
    | none =>
        use []
        constructor <;> simp [FlagsChange]
    | some path =>
        obtain rfl : path = rootfs2Path dirs := snprintf_eq_some hpath
        simpa using wp_removeFile_step

theorem wp_removeDoNotRebootFlag_step :
  wp machine.traced adm (removeDoNotRebootFlag dirs)
    (FlagSteps (doNotRebootPath dirs) (snprintf PATH_MAX (doNotRebootPath dirs) = none) (d, t)) (d, t)
  := by
  unfold removeDoNotRebootFlag
  cases hpath : snprintf PATH_MAX (doNotRebootPath dirs) with
  | none =>
      use []
      constructor <;> simp [FlagsChange]
  | some path =>
      obtain rfl : path = doNotRebootPath dirs := snprintf_eq_some hpath
      simpa using wp_removeFile_step

/-! ### The handler after the copy -/

/-- The flag calls of a run that goes on after the copy, and what they have done. -/
structure Selection (dirs : Dirs) (s : Recorded) (rc : Int) (s' : Recorded) (new : Record) :
    Prop where
  record : s'.2 = s.2 ++ new
  flagCalls : ∀ entry ∈ new, FlagCall entry.1
  rc : rc ≠ 0 ↔ FlagsFail dirs new
  kept : ¬ FlagsChange s.1 new → s'.1.flags = s.1.flags
  changed : FlagsChange s.1 new → (∃ dir, ⟨.mkdir dir, .ok ()⟩ ∈ new) ∨ s'.1.flags ≠ s.1.flags

theorem FlagsChange.congr {d' : Device} {record : Record} (h : FlagsChange d record)
    (hflags : d'.flags = d.flags) :
  FlagsChange d' record
  := by
  obtain ⟨⟨c, r⟩, hentry, hchange⟩ := h
  use ⟨c, r⟩, hentry
  cases c with
  | openCreat path =>
      cases r with
      | error e => exact hchange.elim
      | ok u =>
          change path ∉ d'.flags
          rw [hflags]
          exact hchange
  | mkdir path | remove path => cases r <;> exact hchange
  | _ => exact hchange.elim

theorem exists_mem_append {P : (c : Call) → Reply c → Prop} {new new' : Record} :
  (∃ entry ∈ new ++ new', P entry.1 entry.2)
    ↔ (∃ entry ∈ new, P entry.1 entry.2) ∨ ∃ entry ∈ new', P entry.1 entry.2
  := by
  simp only [List.mem_append, or_and_right, exists_or]

theorem flagsChange_append {new new' : Record} :
  FlagsChange d (new ++ new') ↔ FlagsChange d new ∨ FlagsChange d new'
  := exists_mem_append

/-- The boot flag cannot be set or removed, and the handler stops. -/
theorem FlagStep.stops {s s' : Recorded} {new : Record}
    (h : FlagStep (rootfs2Path dirs) (getBootflagFilePath dirs rootfsFilename PATH_MAX = none)
      s (-1) s' new) :
  Selection dirs s 1 s' new
  := by
  constructor
  · exact h.record
  · exact h.flagCalls
  · constructor
    · intro _
      rcases h.rc.mp rfl with hlong | hfails
      · exact Or.inr (Or.inl hlong)
      · exact Or.inl hfails
    · exact fun _ => by decide
  · exact h.kept
  · intro hchange
    rcases h.changed hchange with hmade | hdiffers
    · exact Or.inl hmade
    · right
      intro hsame
      apply hdiffers
      rw [hsame]

/-- The boot flag is set or removed, and then the flag that keeps the device from rebooting. -/
theorem FlagStep.andThen {s s₁ s' : Recorded} {rc rc' result : Int} {new new' : Record}
    (h : FlagStep (rootfs2Path dirs) (getBootflagFilePath dirs rootfsFilename PATH_MAX = none)
      s rc s₁ new) (hrc : rc ≠ -1)
    (h' : FlagStep (doNotRebootPath dirs) (snprintf PATH_MAX (doNotRebootPath dirs) = none)
      s₁ rc' s' new') (hresult : result ≠ 0 ↔ rc' = -1) :
  Selection dirs s result s' (new ++ new')
  := by
  have hdone := mt h.rc.mpr hrc
  rw [not_or] at hdone
  constructor
  · rw [h'.record, h.record, List.append_assoc]
  · intro entry hentry
    rcases List.mem_append.mp hentry with hentry | hentry
    · exact h.flagCalls entry hentry
    · exact h'.flagCalls entry hentry
  · rw [hresult, h'.rc, FlagsFail, exists_mem_append]
    simp only [hdone.1, hdone.2, false_or]
    exact Or.comm
  · intro hkept
    rw [flagsChange_append, not_or] at hkept
    have hflags := h.kept hkept.1
    rw [h'.kept fun hchange => hkept.2 (hchange.congr hflags.symm), hflags]
  · intro hchange
    rw [flagsChange_append] at hchange
    by_cases hnew : FlagsChange s.1 new
    · rcases h.changed hnew with ⟨dir, hmade⟩ | hdiffers
      · exact Or.inl ⟨dir, List.mem_append_left _ hmade⟩
      · right
        intro hsame
        apply hdiffers
        rw [← h'.others _ doNotRebootPath_ne.symm, hsame]
    · have hflags := h.kept hnew
      rcases h'.changed ((hchange.resolve_left hnew).congr hflags) with ⟨dir, hmade⟩ | hdiffers
      · exact Or.inl ⟨dir, List.mem_append_right _ hmade⟩
      · right
        intro hsame
        apply hdiffers
        rw [hsame, hflags]

theorem wp_selectTarget_step {target b2_pnum : Text} :
  wp machine.traced adm (selectTarget dirs target b2_pnum)
    { returned := fun rc s' => ∃ new, Selection dirs (d, t) rc s' new
      raised := fun _ _ => False
      cut := fun _ => True } (d, t)
  := by
  simp only [selectTarget, wp_bind]
  apply wp_setBootflag_step.of_returned
  rintro rc ⟨d₁, t₁⟩ ⟨new, hstep⟩
  split
  · rename_i hrc
    rw [hrc] at hstep
    exact ⟨new, hstep.stops⟩
  · rename_i hrc
    rw [wp_bind]
    apply wp_removeDoNotRebootFlag_step.of_returned
    rintro rc' s' ⟨new', hstep'⟩
    split
    · rename_i hrc'
      exact ⟨new ++ new', hstep.andThen hrc hstep' (by simp [hrc'])⟩
    · rename_i hrc'
      exact ⟨new ++ new', hstep.andThen hrc hstep' (by simp [hrc'])⟩

/-! ### The whole handler -/

theorem flagCall_of_failure {c : Call} {r : Reply c} (h : IsFlagFailure c r) :
  FlagCall c
  := by
  cases c with
  | mkdir path | openCreat path | remove path => trivial
  | _ => exact h.elim

theorem flagCall_of_change {c : Call} {r : Reply c} (h : IsFlagChange d c r) :
  FlagCall c
  := by
  cases c with
  | mkdir path | openCreat path | remove path => trivial
  | _ => exact h.elim

/-- The target is found without a call on the flag files or a write. -/
theorem wp_findUpdateTarget_step :
  wp machine.traced (fun _ _ _ => True) (findUpdateTarget dirs)
    { returned := fun r s => (s.1 = d ∧ ∀ target b2_pnum, r = some (target, b2_pnum) →
        IsTarget dirs d target) ∧ ∀ entry ∈ s.2, QueryCall entry.1
      raised := fun _ _ => False
      cut := fun _ => True } (d, [])
  := by
  have hfound : wp machine (fun _ _ _ => True) (findUpdateTarget dirs)
      { returned := fun r d' => d' = d ∧ ∀ target b2_pnum, r = some (target, b2_pnum) →
          IsTarget dirs d target
        raised := fun _ _ => False
        cut := fun _ => True } d := by
    apply wp_findUpdateTarget
    · trivial
    · exact ⟨rfl, fun _ _ h => by contradiction⟩
    · intro e path1 path2 target he hpath1 hpath2 htarget
      refine ⟨rfl, fun target' b2_pnum h => ?_⟩
      obtain ⟨rfl, -⟩ := Prod.mk.inj (Option.some.inj h)
      use e, path1, path2
  apply (wp_traced (t := []) (fun t => ∀ entry ∈ t, QueryCall entry.1) hfound
    findUpdateTarget_issues _ (by simp)).mono
  · exact fun _ _ h => h
  · exact fun _ _ h => h.1
  · exact fun _ _ => trivial
  · intro t c r hc ht entry hentry
    rcases List.mem_append.mp hentry with hentry | hentry
    · exact ht entry hentry
    · obtain rfl := List.mem_singleton.mp hentry
      exact hc

/-- A copy that fails is not reported when the target can be closed. -/
theorem wp_copyImageAndSync_step {img : Img} {target : Text} {Q : Post Recorded Nat Int}
    (hcut : ∀ s, Q.cut s) (hopen : Q.returned (-1) (d, t ++ [⟨.openfileoutput target, false⟩]))
    (hcopy : ∀ d' copied closed, d'.flags = d.flags →
      Q.returned (if closed then 0 else -1) (d', t ++ [⟨.openfileoutput target, true⟩,
        ⟨.copyimage img target, copied⟩, ⟨.close, closed⟩])) :
  wp machine.traced adm (copyImageAndSync img target) Q (d, t)
  := by
  rw [copyImageAndSync, wp_bind, wp_issue]
  refine ⟨hcut _, fun x _ => ?_⟩
  change wp machine.traced adm (if x.ok = false then _ else _) Q
    (d, t ++ [⟨.openfileoutput target, x.ok⟩])
  cases x.ok with
  | false => exact hopen
  | true =>
      rw [if_neg Bool.false_ne_true.symm, wp_bind, wp_issue]
      refine ⟨hcut _, fun x _ => ?_⟩
      dsimp only
      rw [wp_bind, wp_issue]
      refine ⟨hcut _, fun x' _ => ?_⟩
      have hcopied := hcopy (d.writeImage x img.content target) x.ok x'.ok rfl
      change wp machine.traced adm (if x'.ok then _ else _) Q
        (d.writeImage x img.content target, t ++ [⟨.openfileoutput target, true⟩]
          ++ [⟨.copyimage img target, x.ok⟩] ++ [⟨.close, x'.ok⟩])
      rw [List.append_assoc, List.append_assoc]
      cases hclosed : x'.ok with
      | false =>
          rw [hclosed] at hcopied
          exact hcopied
      | true =>
          rw [hclosed] at hcopied
          exact hcopied

variable {img : Img} {rc : Int} {s : Recorded} {new : Record}

/-- Where no copy fails, all that is asked is that there is no success without a copy. -/
theorem copyGuards_of_not_copyFailed (h : ¬ CopyFailed s.2)
    (hsuccess : rc = 0 → Copied dirs img d s.2) :
  CopyGuards dirs img d rc s ↔ FailureNoticed dirs d s.2
  := by
  constructor
  · exact fun _ hfailed => absurd hfailed h
  · exact fun _ => ⟨fun hfailed => absurd hfailed h, hsuccess⟩

/-- Where the copy fails and the target is closed, it all depends on the flag files. -/
theorem copyGuards_of_closed {d₁ : Device} (hflags : d₁.flags = d.flags)
    (ht : ∀ entry ∈ t, ¬ FlagCall entry.1) (hfailed : CopyFailed t) (hclosed : ¬ CloseFailed t)
    (hselect : Selection dirs (d₁, t) rc s new) :
  CopyGuards dirs img d rc s ↔ FailureNoticed dirs d s.2
  := by
  have hchanges : FlagsChange d s.2 ↔ FlagsChange d₁ new := by
    rw [hselect.record, flagsChange_append]
    constructor
    · rintro (⟨entry, hentry, hchange⟩ | hchange)
      · exact absurd (flagCall_of_change hchange) (ht entry hentry)
      · exact hchange.congr hflags
    · exact fun hchange => Or.inr (hchange.congr hflags.symm)
  have hfails : FlagsFail dirs s.2 ↔ FlagsFail dirs new := by
    rw [FlagsFail, FlagsFail, hselect.record, exists_mem_append]
    have hnone : ¬ ∃ entry ∈ t, IsFlagFailure entry.1 entry.2 := by
      rintro ⟨entry, hentry, hfails⟩
      exact ht entry hentry (flagCall_of_failure hfails)
    simp only [hnone, false_or]
  have hcopy : CopyFailed s.2 := by
    obtain ⟨img', device, hmem⟩ := hfailed
    use img', device
    rw [hselect.record]
    exact List.mem_append_left _ hmem
  have hclose : ¬ CloseFailed s.2 := by
    rw [CloseFailed, hselect.record, List.mem_append]
    rintro (hmem | hmem)
    · exact hclosed hmem
    · exact hselect.flagCalls _ hmem
  constructor
  · intro h _
    obtain ⟨hrc, hsame, hmade⟩ := h.failedCopy hcopy
    right
    rw [hfails, hchanges]
    use hselect.rc.mp hrc
    intro hchange
    rcases hselect.changed hchange with ⟨dir, hmem⟩ | hdiffers
    · apply hmade dir
      rw [hselect.record]
      exact List.mem_append_right _ hmem
    · apply hdiffers
      rw [hsame, hflags]
  · intro h
    obtain ⟨hfailsAll, hkept⟩ := (h hcopy).resolve_left hclose
    have hrc := hselect.rc.mpr (hfails.mp hfailsAll)
    constructor
    · intro _
      use hrc
      constructor
      · rw [hselect.kept (mt hchanges.mpr hkept), hflags]
      · intro path hmade
        exact hkept ⟨_, hmade, trivial⟩
    · exact fun h => absurd h hrc

/-- What is asked of the runs of the handler. -/
def GuardsJustIf (dirs : Dirs) (img : Img) (d : Device) : Post Recorded Nat Int where
  returned rc s := CopyGuards dirs img d rc s ↔ FailureNoticed dirs d s.2
  raised _ _ := False
  cut _ := True

/-- The handler goes on after the copy just when the target was closed. -/
theorem wp_afterCopy {d₁ : Device} {target b2_pnum : Text} {copied closed : Bool}
    (hflags : d₁.flags = d.flags) (ht : ∀ entry ∈ t, QueryCall entry.1)
    (htarget : IsTarget dirs d target) :
  wp machine.traced adm
    (if (if closed then 0 else -1 : Int) = -1 then pure 1 else selectTarget dirs target b2_pnum)
    (GuardsJustIf dirs img d)
    (d₁, t ++ [⟨.openfileoutput target, true⟩, ⟨.copyimage img target, copied⟩, ⟨.close, closed⟩])
  := by
  have hnotCopy {img' : Img} {device : Text} {b : Bool} : ⟨.copyimage img' device, b⟩ ∉ t :=
    fun hmem => ht _ hmem
  have hnotClose {b : Bool} : ⟨.close, b⟩ ∉ t := fun hmem => ht _ hmem
  cases closed with
  | false =>
      change CopyGuards dirs img d 1 _ ↔ FailureNoticed dirs d _
      cases copied with
      | true =>
          apply copyGuards_of_not_copyFailed
          · rintro ⟨img', device, hmem⟩
            simp [hnotCopy] at hmem
          · exact fun h => absurd h (by decide)
      | false =>
          constructor
          · intro _ _
            left
            simp [CloseFailed]
          · intro _
            constructor
            · intro _
              refine ⟨by decide, hflags, fun path hmem => ?_⟩
              simp only [List.mem_append, List.mem_cons, List.not_mem_nil, or_false] at hmem
              rcases hmem with hmem | hmem | hmem | hmem
              · exact ht _ hmem
              all_goals cases hmem
            · exact fun h => absurd h (by decide)
  | true =>
      change wp machine.traced adm (selectTarget dirs target b2_pnum) _ _
      apply wp_selectTarget_step.of_returned
      rintro rc s ⟨new, hselect⟩
      cases copied with
      | true =>
          apply copyGuards_of_not_copyFailed
          · rintro ⟨img', device, hmem⟩
            rw [hselect.record, List.mem_append] at hmem
            rcases hmem with hmem | hmem
            · simp [hnotCopy] at hmem
            · exact hselect.flagCalls _ hmem
          · intro _
            use target, htarget
            simp [hselect.record]
      | false =>
          apply copyGuards_of_closed hflags _ _ _ hselect
          · intro entry hentry hflag
            simp only [List.mem_append, List.mem_cons, List.not_mem_nil, or_false] at hentry
            rcases hentry with hentry | rfl | rfl | rfl
            · have hquery := ht entry hentry
              obtain ⟨c, r⟩ := entry
              cases c with
              | mkdir path | openCreat path | remove path => exact hquery
              | _ => exact hflag
            all_goals exact hflag
          · exact ⟨img, target, by simp⟩
          · simp [CloseFailed, hnotClose]

/-- In every run of the handler that returns, a failed copy is an error that leaves the flag files, and
there is no success without a copy, just if a copy that fails is noticed after all. -/
theorem copyGuards_iff (dirs : Dirs) (img : Img) {d d' : Device} {xs rest : List Choice} {rc : Int}
    {record : Record}
    (hrun : run machine.traced (rootfsv4Handler dirs copyImageAndSync img) xs (d, [])
      = (.returned rc, rest, d', record)) :
  CopyGuards dirs img d rc (d', record) ↔ FailureNoticed dirs d record
  := by
  have hwp : wp machine.traced (fun _ _ _ => True) (rootfsv4Handler dirs copyImageAndSync img)
      (GuardsJustIf dirs img d) (d, []) := by
    rw [rootfsv4Handler, wp_bind]
    apply wp_findUpdateTarget_step.of_returned
    rintro r ⟨d₁, t⟩ ⟨⟨rfl, htarget⟩, hqueries⟩
    have hnotCopy {img' : Img} {device : Text} {b : Bool} : ⟨.copyimage img' device, b⟩ ∉ t :=
      fun hmem => hqueries _ hmem
    rcases r with _ | ⟨target, b2_pnum⟩
    · apply copyGuards_of_not_copyFailed
      · rintro ⟨img', device, hmem⟩
        exact hnotCopy hmem
      · exact fun h => absurd h (by decide)
    · dsimp only
      rw [wp_bind]
      apply wp_copyImageAndSync_step
      · exact fun _ => trivial
      · apply copyGuards_of_not_copyFailed
        · rintro ⟨img', device, hmem⟩
          simp [hnotCopy] at hmem
        · exact fun h => absurd h (by decide)
      · intro d₂ copied closed hflags
        exact wp_afterCopy hflags hqueries (htarget target b2_pnum rfl)
  have hholds : (GuardsJustIf dirs img d).Holds
      (run machine.traced (rootfsv4Handler dirs copyImageAndSync img) xs (d, [])).1
      (run machine.traced (rootfsv4Handler dirs copyImageAndSync img) xs (d, [])).2.2 :=
    holds_of_wp hwp obeys_true
  rw [hrun] at hholds
  exact hholds

/-- A run of the handler in which the copy fails, and the target can be closed or not. -/
def failedCopyRun (closed : Bool) : Outcome Nat Int × List Choice × Recorded :=
  run machine.traced (rootfsv4Handler AbSafety.boardDirs copyImageAndSync ⟨"rootfs".toList, 1⟩)
    (List.replicate 4 { ok := true } ++ [{ ok := false }, { ok := closed }]
      ++ List.replicate 3 { ok := true })
    (AbSafety.freshBoard.device, [])

/-- The failure is noticed when the target cannot be closed. -/
theorem copyGuards_of_close_fails :
  (failedCopyRun false).1 = .returned 1 ∧
    CopyGuards AbSafety.boardDirs ⟨"rootfs".toList, 1⟩ AbSafety.freshBoard.device 1
      (failedCopyRun false).2.2
  := by
  have hreturns : (failedCopyRun false).1 = .returned 1 := rfl
  have hrun : failedCopyRun false = (.returned 1, (failedCopyRun false).2.1,
      (failedCopyRun false).2.2.1, (failedCopyRun false).2.2.2) := rfl
  have hclose : CloseFailed (failedCopyRun false).2.2.2 := List.mem_of_getElem? (i := 5) rfl
  exact ⟨hreturns, (copyGuards_iff _ _ hrun).mpr fun _ => Or.inl hclose⟩

/-- The copy fails and the target is closed: the handler sets the boot flag and returns 0. -/
theorem not_copyGuards_of_close :
  (failedCopyRun true).1 = .returned 0 ∧
    rootfs2Path AbSafety.boardDirs ∈ (failedCopyRun true).2.2.1.flags ∧
    ¬ CopyGuards AbSafety.boardDirs ⟨"rootfs".toList, 1⟩ AbSafety.freshBoard.device 0
      (failedCopyRun true).2.2
  := by
  have hreturns : (failedCopyRun true).1 = .returned 0 := rfl
  have hflag : rootfs2Path AbSafety.boardDirs ∈ (failedCopyRun true).2.2.1.flags :=
    List.mem_of_getElem? (i := 0) rfl
  have hcopy : CopyFailed (failedCopyRun true).2.2.2 :=
    ⟨_, _, List.mem_of_getElem? (i := 4) rfl⟩
  refine ⟨hreturns, hflag, fun h => ?_⟩
  exact (h.failedCopy hcopy).1 rfl

end Swupdate
