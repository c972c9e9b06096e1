import MblCore.Lib.Lts
import MblCore.Swupdate.RootfsHandler

/-!
# The two banks of the root file system

The boot loader boots from bank 2 just when the flag file `rootfs2` is there.  The handler writes
to the bank that is not mounted and only then moves the flag, but it does not look at the flag:
when an update has moved the flag and the device has not been rebooted yet, the bank the next
update writes to is the one the flag selects.  The selected bank holds a complete image all
along just if no such update leaves its target partly written.
-/

namespace Swupdate

inductive Bank
  | bank1
  | bank2
deriving DecidableEq

def Bank.other : Bank → Bank
  | bank1 => bank2
  | bank2 => bank1

/-- A bank is one of any bank and the other. -/
theorem Bank.eq_or_eq_other (b c : Bank) : b = c ∨ b = c.other
  := by
  cases b <;> cases c <;> simp [Bank.other]

/-- The names of the devices and partitions of a board.  They are such that
`find_target_partition` yields the device of the bank that is not mounted. -/
structure Board (dirs : Dirs) where
  dev : Bank → Text
  /-- `/etc/mtab` while the root file system is that of the bank. -/
  mtab : Bank → List Mntent
  part_info : Text → Text
  dev_ne : dev .bank1 ≠ dev .bank2
  mounted : ∀ b e, (mtab b).find? (fun e => e.mnt_dir == "/".toList) = some e →
    e.mnt_fsname = dev b
  target : ∀ b path1 path2,
    getPartInfoFilepath dirs "MBL_ROOT_FS_PART_NUMBER_BANK1".toList PATH_MAX = some path1 →
    getPartInfoFilepath dirs "MBL_ROOT_FS_PART_NUMBER_BANK2".toList PATH_MAX = some path2 →
    findTargetPartition (dev b) (part_info path1) (part_info path2) MAX_DEVICE_FILE_PATH
      = some (dev b.other)

namespace AbSafety

variable {dirs : Dirs} (board : Board dirs)

/-! ### Updates and reboots -/

/-- The device, and the bank that is mounted. -/
structure State where
  device : Device
  mounted : Bank

/-- The bank the boot loader boots from. -/
def selected (dirs : Dirs) (d : Device) : Bank :=
  if rootfs2Path dirs ∈ d.flags then .bank2 else .bank1

inductive Event
  /-- The handler is called for the image.  It is cut when it has used up the choices. -/
  | update (img : Img) (choices : List Choice)
  | reboot

/-- The handler, with `copy_image_and_sync` at its contract. -/
def handler (dirs : Dirs) (img : Img) : Script Int :=
  rootfsv4Handler dirs (fun img device => issue (.copyImageAndSync img device)) img

/-- One update or one reboot. -/
def step (s : State) : Event → Option State
  | .update img choices =>
      some { s with device := (Prog.run machine (handler dirs img) choices s.device).2.2 }
  | .reboot =>
      let b := selected dirs s.device
      some { device := { s.device with mtab := board.mtab b }, mounted := b }

/-- The bank the flag selects holds a complete image. -/
def SelectedComplete (d : Device) : Prop :=
  d.image (board.dev (selected dirs d)) ≠ none

instance (d : Device) : Decidable (SelectedComplete board d) :=
  inferInstanceAs (Decidable (_ ≠ _))

/-- The running bank is the one the flag selects, and it holds a complete image. -/
structure Initial (s : State) : Prop where
  mtab : s.device.mtab = board.mtab s.mounted
  part_info : s.device.part_info = board.part_info
  runs_selected : selected dirs s.device = s.mounted
  complete : s.device.image (board.dev s.mounted) ≠ none

/-- A copy leaves its target partly written only while the flag selects the mounted bank `b`. -/
def CopyKeepsSelected (dirs : Dirs) (b : Bank) : Call → Choice → Device → Prop
  | .copyImageAndSync _ _, x, d => x.ok = false → x.left = none → selected dirs d = b
  | _, _, _ => True

instance decidableCopyKeepsSelected (b : Bank) :
    ∀ c x d, Decidable (CopyKeepsSelected dirs b c x d)
  | .copyImageAndSync _ _, _, _ => inferInstanceAs (Decidable (_ → _ → _))
  | .setmntent, _, _ | .readFile _, _, _ | .openfileoutput _, _, _ | .copyimage _ _, _, _
  | .close, _, _ | .mkdir _, _, _ | .openCreat _, _, _ | .remove _, _, _ | .realpath _, _, _
  | .rmRf _, _, _ | .mkdirP _, _, _ | .touch _, _, _ | .testE _, _, _ | .swupdateOpen _, _, _
  | .swupdateDone, _, _ | .cpHeader _, _, _ | .systemctlRestart, _, _ | .copy2file _ _, _, _
  | .copyElsewhere _ _, _, _ | .commandLine _, _, _
  | .lsblk, _, _ | .testB _, _, _ | .xzcat _ _, _, _ | .wcC _, _, _ | .dd _ _ _, _, _
  | .tarX _ _, _, _ | .duK _, _, _ | .remount _ _, _, _ | .rmFAll _, _, _ | .cpFAll _ _, _, _
  | .rmF _, _, _ | .appUpdate _, _, _ => isTrue trivial

/-- An update leaves its target partly written only while the flag selects the mounted bank. -/
def KeepsSelected (dirs : Dirs) (s : State) : Event → Prop
  | .update img choices =>
      Prog.Obeys machine (CopyKeepsSelected dirs s.mounted) (handler dirs img) choices s.device
  | .reboot => True

instance (s : State) : DecidablePred (KeepsSelected dirs s)
  | .update _ _ => inferInstanceAs (Decidable (Prog.Obeys _ _ _ _ _))
  | .reboot => isTrue trivial

/-! ### What an update does -/

/-- What holds of the device while bank `b` is mounted: that bank and the bank the flag selects
hold complete images. -/
structure Sound (b : Bank) (d : Device) : Prop where
  mtab : d.mtab = board.mtab b
  part_info : d.part_info = board.part_info
  mounted : d.image (board.dev b) ≠ none
  selected : SelectedComplete board d

variable {board} {b : Bank} {d : Device} {adm : Call → Choice → Device → Prop}

theorem dev_other_ne (b : Bank) : board.dev b ≠ board.dev b.other
  := by
  cases b with
  | bank1 => exact board.dev_ne
  | bank2 => exact board.dev_ne.symm

/-- When both banks hold complete images, it does not matter what becomes of the flag. -/
theorem Sound.of_both {d' : Device} (hsame : SameButFlags d d') (hmtab : d.mtab = board.mtab b)
    (hpart : d.part_info = board.part_info) (hboth : ∀ c, d.image (board.dev c) ≠ none) :
  Sound board b d'
  := by
  unfold SameButFlags at hsame
  rw [hsame]
  exact ⟨hmtab, hpart, hboth b, hboth _⟩

/-- While bank `b` is mounted, the handler finds the device of the other bank. -/
theorem wp_findUpdateTarget_of_board {Q : Prog.Post Device Nat (Option (Text × Text))}
    (hmtab : d.mtab = board.mtab b) (hpart : d.part_info = board.part_info) (hcut : Q.cut d)
    (hnone : Q.returned none d) (hsome : ∀ b2_pnum, Q.returned (some (board.dev b.other, b2_pnum)) d) :
  Prog.wp machine adm (findUpdateTarget dirs) Q d
  := by
  apply wp_findUpdateTarget hcut hnone
  intro e path1 path2 target he hpath1 hpath2 htarget
  rw [hmtab] at he
  rw [board.mounted b e he, hpart, board.target b path1 path2 hpath1 hpath2] at htarget
  obtain rfl := Option.some.inj htarget
  exact hsome _

/-- A copy at its contract writes to its target, and returns −1 when it fails. -/
theorem wp_copy {img : Img} {device : Text} {Q : Prog.Post Device Nat Int} (hcut : Q.cut d)
    (hdone : ∀ x : Choice, x.ok = true → Q.returned 0 (d.writeImage x img.content device))
    (hfailed : ∀ x : Choice, adm (.copyImageAndSync img device) x d → x.ok = false →
      Q.returned (-1) (d.writeImage x img.content device)) :
  Prog.wp machine adm (issue (.copyImageAndSync img device)) Q d
  := by
  rw [Prog.wp_issue]
  use hcut
  intro x hx
  simp only [machine, perform]
  cases hok : x.ok with
  | true => exact hdone x hok
  | false => exact hfailed x hx hok

/-- After a write to the other bank, both banks hold complete images unless the write was left
off. -/
theorem writeImage_complete (hd : d.image (board.dev b) ≠ none) {x : Choice} {content : Nat}
    (hx : x.ok = true ∨ x.left ≠ none) (c : Bank) :
  (d.writeImage x content (board.dev b.other)).image (board.dev c) ≠ none
  := by
  simp only [Device.writeImage]
  obtain rfl | rfl := Bank.eq_or_eq_other c b
  · rw [Function.update_of_ne (dev_other_ne c)]
    exact hd
  · rw [Function.update_self]
    rcases hx with hx | hx
    · simp [hx]
    · split
      · simp
      · exact hx

/-- A write to the other bank leaves the mounted bank. -/
theorem writeImage_mounted {x : Choice} {content : Nat} :
  (d.writeImage x content (board.dev b.other)).image (board.dev b) = d.image (board.dev b)
  := Function.update_of_ne (dev_other_ne b) _ _

/-- An update that keeps to the guard leaves the mounted bank and the selected bank complete,
wherever it is cut. -/
theorem wp_handler (img : Img) (hd : Sound board b d) :
  Prog.wp machine (CopyKeepsSelected dirs b) (handler dirs img)
    (Prog.Post.always (Sound board b)) d
  := by
  simp only [handler, rootfsv4Handler, Prog.wp_bind]
  apply wp_findUpdateTarget_of_board hd.mtab hd.part_info
  · exact hd
  · exact hd
  · intro b2_pnum
    simp only [Prog.wp_bind]
    apply wp_copy hd
    · intro x hok
      dsimp only
      rw [if_neg (by decide)]
      apply wp_selectTarget
      intro d' hd'
      have hsound : Sound board b d' :=
        Sound.of_both hd' hd.mtab hd.part_info (writeImage_complete hd.mounted (Or.inl hok))
      exact ⟨fun _ => hsound, fun _ => hsound, hsound⟩
    · intro x hx hok
      dsimp only
      rw [if_pos rfl]
      by_cases hleft : x.left = none
      · -- the image is left partly written, so the flag selects the mounted bank
        have hselected : selected dirs d = b := hx hok hleft
        have hsame : selected dirs (d.writeImage x img.content (board.dev b.other)) = b :=
          hselected
        constructor
        · exact hd.mtab
        · exact hd.part_info
        · rw [writeImage_mounted]
          exact hd.mounted
        · rw [SelectedComplete, hsame, writeImage_mounted]
          exact hd.mounted
      · exact Sound.of_both (SameButFlags.refl _) hd.mtab hd.part_info
          (writeImage_complete hd.mounted (Or.inr hleft))

/-- An update that breaches the guard leaves the bank the flag selects partly written. -/
theorem wpBreach_handler (img : Img) (hd : Sound board b d) :
  Prog.wpBreach machine (fun _ _ _ => True) (CopyKeepsSelected dirs b) (handler dirs img)
    (Prog.Post.always fun d => ¬ SelectedComplete board d) d
  := by
  apply Prog.wpBreach_bind
  · apply Prog.wpBreach_of_issues (fun _ => True) findUpdateTarget_issues
    · intro c x d hc _ _
      cases c <;> trivial
    · exact fun _ _ _ _ _ _ => trivial
    · trivial
  · apply wp_findUpdateTarget_of_board hd.mtab hd.part_info
    · trivial
    · trivial
    · intro b2_pnum
      apply Prog.wpBreach_bind
      · rw [Prog.wpBreach_issue]
        intro x _ hbreach
        simp only [CopyKeepsSelected, Classical.not_imp] at hbreach
        obtain ⟨hok, hleft, hselected⟩ := hbreach
        -- the flag selects the bank that was left partly written, and stays as it is
        have hother : selected dirs d = b.other := by
          obtain h | h := Bank.eq_or_eq_other (selected dirs d) b
          · exact absurd h hselected
          · exact h
        have hsame : selected dirs (d.writeImage x img.content (board.dev b.other)) = b.other :=
          hother
        simp only [machine, perform, hok, Bool.false_eq_true, if_false, if_true]
        change ¬ SelectedComplete board (d.writeImage x img.content (board.dev b.other))
        rw [SelectedComplete, hsame]
        simp [Device.writeImage, hok, hleft]
      · apply wp_copy trivial
        · intro x _
          dsimp only
          rw [if_neg (by decide)]
          apply Prog.wpBreach_of_issues (fun _ => True) (selectTarget_issues _ _)
          · intro c x d hc _ _
            cases c <;> trivial
          · exact fun _ _ _ _ _ _ => trivial
          · trivial
        · intro x _ _
          dsimp only
          rw [if_pos rfl]
          trivial

/-! ### Runs of updates and reboots -/

/-- In a state of a run, the mounted bank and the selected bank hold complete images. -/
def SoundState (board : Board dirs) (s : State) : Prop :=
  Sound board s.mounted s.device

theorem Initial.sound {s : State} (h : Initial board s) :
  SoundState board s
  := by
  constructor
  · exact h.mtab
  · exact h.part_info
  · exact h.complete
  · rw [SelectedComplete, h.runs_selected]
    exact h.complete

/-- An update or reboot that keeps to the guard keeps the banks sound. -/
theorem SoundState.step {s s' : State} {e : Event} (h : SoundState board s)
    (hok : KeepsSelected dirs s e) (hstep : AbSafety.step board s e = some s') :
  SoundState board s'
  := by
  cases e with
  | update img choices =>
      obtain rfl := Option.some.inj hstep
      exact Prog.of_wp_always (wp_handler img h) hok
  | reboot =>
      obtain rfl := Option.some.inj hstep
      constructor
      · rfl
      · exact h.part_info
      · exact h.selected
      · exact h.selected

/-- After an update that breaches the guard, the selected bank is partly written. -/
theorem SoundState.breach {s s' : State} {e : Event} (h : SoundState board s)
    (hbreach : ¬ KeepsSelected dirs s e) (hstep : AbSafety.step board s e = some s') :
  ¬ SelectedComplete board s'.device
  := by
  cases e with
  | update img choices =>
      obtain rfl := Option.some.inj hstep
      exact Prog.of_wpBreach_always (wpBreach_handler img h) Prog.obeys_true hbreach
  | reboot => exact absurd trivial hbreach

/-- An update or a reboot is always possible. -/
theorem exec_total (es : List Event) (s : State) :
  ∃ t, Lts.exec (step board) s es = some t
  := by
  induction es generalizing s with
  | nil => exact ⟨s, rfl⟩
  | cons e es ih =>
      obtain ⟨s', hs'⟩ : ∃ s', step board s e = some s' := by cases e <;> exact ⟨_, rfl⟩
      obtain ⟨t, ht⟩ := ih s'
      exact ⟨t, Lts.exec_cons_eq_some.mpr ⟨s', hs', ht⟩⟩

/-- Along a run of updates and reboots, the bank the flag selects holds a complete image in every
state just if no update leaves its target partly written while the flag selects the bank that is
not mounted. -/
theorem selectedComplete_iff {s : State} (hinit : Initial board s) (es : List Event) :
  (∀ as bs s', es = as ++ bs → Lts.exec (step board) s as = some s' →
      SelectedComplete board s'.device)
    ↔ Lts.Meets (step board) (KeepsSelected dirs) s es
  := by
  constructor
  · intro hall
    by_contra hmeets
    obtain ⟨t, ht⟩ := exec_total es s
    obtain ⟨as, e, bs, s₁, s₂, has, hbefore, hmeets, hbreach, hstep, -⟩ :=
      Lts.exists_first_not_ok hmeets ht
    have hsound : SoundState board s₁ :=
      Lts.invariant (SoundState board) (fun _ _ _ => SoundState.step) hinit.sound hmeets
        hbefore
    apply hsound.breach hbreach hstep
    apply hall (as ++ [e]) bs
    · simp [has]
    · exact Lts.exec_concat_eq_some.mpr ⟨s₁, hbefore, hstep⟩
  · intro hmeets as bs s' has hrun
    rw [has] at hmeets
    have hsound : SoundState board s' :=
      Lts.invariant (SoundState board) (fun _ _ _ => SoundState.step) hinit.sound
        (Lts.meets_append.mp hmeets).1 hrun
    exact hsound.selected

/-- The directories of a board. -/
def boardDirs : Dirs where
  BOOTFLAGS_DIR := "/var/bootflags".toList
  TMP_DIR := "/tmp".toList
  PAYLOAD_TMP_DIR := "/scratch/arm_update_activate".toList
  PART_INFO_DIR := "/part-info".toList

/-- A board with the banks in the second and the third partition of its flash. -/
def mmcBoard : Board boardDirs where
  dev
    | .bank1 => "/dev/mmcblk1p2".toList
    | .bank2 => "/dev/mmcblk1p3".toList
  mtab
    | .bank1 => [⟨"/dev/mmcblk1p2".toList, "/".toList⟩]
    | .bank2 => [⟨"/dev/mmcblk1p3".toList, "/".toList⟩]
  part_info path :=
    if path = "/part-info/MBL_ROOT_FS_PART_NUMBER_BANK1".toList then "2".toList else "3".toList
  dev_ne := by decide
  mounted := by
    intro b e he
    cases b <;> cases he <;> rfl
  target := by
    intro b path1 path2 h1 h2
    obtain rfl := snprintf_eq_some h1
    obtain rfl := snprintf_eq_some h2
    cases b <;> decide

/-- The board boots from bank 1, and both banks hold complete images. -/
def freshBoard : State where
  device :=
    { mtab := mmcBoard.mtab .bank1
      part_info := mmcBoard.part_info
      flags := []
      image := fun _ => some 0
      boot_files := fun _ => some 0
      saved_header := some 0
      apps := 0 }
  mounted := .bank1

theorem freshBoard_initial : Initial mmcBoard freshBoard
  where
    mtab := rfl
    part_info := rfl
    runs_selected := by decide
    complete := by decide

/-- An update in which nothing fails. -/
def goodUpdate : Event :=
  .update ⟨"rootfs".toList, 1⟩ (List.replicate 7 { ok := true })

/-- An update whose copy fails and leaves the target partly written. -/
def brokenUpdate : Event :=
  .update ⟨"rootfs".toList, 2⟩ (List.replicate 3 { ok := true } ++ [{ ok := false }])

/-- A broken update after a reboot does no harm, and neither does a second good update before
one. -/
theorem selectedComplete_after_reboot :
  ∃ s', Lts.exec (step mmcBoard) freshBoard
      [goodUpdate, goodUpdate, .reboot, brokenUpdate, .reboot] = some s'
    ∧ SelectedComplete mmcBoard s'.device
  := by
  have hkeeps : Lts.Meets (step mmcBoard) (KeepsSelected boardDirs) freshBoard
      [goodUpdate, goodUpdate, .reboot, brokenUpdate, .reboot] := by decide
  have hall := (selectedComplete_iff freshBoard_initial _).mpr hkeeps
  exact ⟨_, rfl, hall _ [] _ (List.append_nil _).symm rfl⟩

/-- A broken update before the reboot: the bank the flag selects is partly written. -/
theorem not_selectedComplete_before_reboot :
  ∃ s', Lts.exec (step mmcBoard) freshBoard [goodUpdate, brokenUpdate] = some s'
    ∧ ¬ SelectedComplete mmcBoard s'.device
  := ⟨_, rfl, by decide⟩

end AbSafety

end Swupdate
