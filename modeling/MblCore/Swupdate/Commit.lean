import MblCore.Swupdate.AbSafety
import MblCore.Swupdate.Activate

/-!
# What an activation commits

The record of the calls of a run of `arm_update_activate.sh` tells which handlers got far enough
to commit something.  The boot flag, the files of the boot partitions, the applications and the
saved header are as they were before unless the record holds the step of a handler, or of the
script, that commits to the new ones.  So a run that fails leaves what was not committed before
it failed, and keeps what was.
-/

namespace Swupdate

open Prog

variable (dirs : Dirs) (images : List PayloadImage)

/-- Some image of the kind was saved for its installer. -/
def Saved (type : ImgType) (record : Record) (image : Img) : Prop :=
  ⟨type, image⟩ ∈ images ∧ ⟨.copy2file image (savedPath dirs image), true⟩ ∈ record

/-- The root file system image was copied, and `copy_image_and_sync` reported success. -/
def RootfsCopied (record : Record) : Prop :=
  ∃ before after image device r, ⟨.ROOTFS, image⟩ ∈ images
    ∧ record = before ++ [⟨.copyimage image device, r⟩, ⟨.close, true⟩] ++ after

/-- An image for the boot partition was saved and unpacked. -/
def BootUnpacked (record : Record) : Prop :=
  ∃ image, Saved dirs images .BOOT record image
    ∧ ⟨.tarX (savedPath dirs image) (dirs.PAYLOAD_TMP_DIR ++ "/boot".toList), true⟩ ∈ record

/-- The mount point was remounted for writing. -/
def RemountedForWriting (mount_point : Text) (record : Record) : Prop :=
  ⟨.remount mount_point "rw".toList, true⟩ ∈ record

/-- An image for the boot partition was unpacked, and the files at the mount point, remounted for
writing, were removed. -/
structure BootFilesReplaced (mount_point : Text) (record : Record) : Prop where
  unpacked : BootUnpacked dirs images record
  remounted : RemountedForWriting mount_point record
  removed : ∃ ok, ⟨.rmFAll mount_point, ok⟩ ∈ record

/-- An image with applications was handed to `mbl-app-update-manager`, and its exit status is
among those of interest. -/
def AppsHandedOver (ends : Text → Prop) (record : Record) : Prop :=
  ∃ image rc, Saved dirs images .APPS record image
    ∧ ⟨.appUpdate (savedPath dirs image), rc⟩ ∈ record ∧ ends rc

/-- swupdate returned, and every handler had returned 0. -/
def SwupdateDone (record : Record) : Prop :=
  ⟨.swupdateDone, ()⟩ ∈ record

/-- Whatever differs from the device `d` was committed by a step that is in the record. -/
structure OnlyCommitted (ends : Text → Prop) (d : Device) (s : Recorded) : Prop where
  flag : ¬ (rootfs2Path dirs ∈ s.1.flags ↔ rootfs2Path dirs ∈ d.flags) →
    RootfsCopied images s.2
  boot_files : ∀ mount_point, s.1.boot_files mount_point ≠ d.boot_files mount_point →
    BootFilesReplaced dirs images mount_point s.2
  apps : s.1.apps ≠ d.apps → AppsHandedOver dirs images ends s.2
  header : s.1.saved_header ≠ d.saved_header → SwupdateDone s.2

variable {dirs images} {ends : Text → Prop} {d : Device} {s : Recorded}
  {adm : Call → Choice → Recorded → Prop}

/-! ### Calls that commit nothing -/

/-- The call leaves the boot flag, the files of the boot partitions, the applications and the
saved header as they are. -/
def Neutral (dirs : Dirs) : Call → Prop
  | .openCreat _ | .cpHeader _ | .appUpdate _ | .rmFAll _ | .cpFAll _ _ | .copyElsewhere _ _
  | .commandLine _ => False
  | .remove path | .rmF path | .touch path => path ≠ rootfs2Path dirs
  | _ => True

/-- The boot flag, the files of the boot partitions, the applications and the saved header are
the same. -/
structure SameSelection (dirs : Dirs) (d d' : Device) : Prop where
  flag : rootfs2Path dirs ∈ d'.flags ↔ rootfs2Path dirs ∈ d.flags
  boot_files : d'.boot_files = d.boot_files
  apps : d'.apps = d.apps
  header : d'.saved_header = d.saved_header

theorem SameSelection.refl (d : Device) : SameSelection dirs d d
  := ⟨Iff.rfl, rfl, rfl, rfl⟩

theorem sameSelection_removeFlag {path : Text} (h : path ≠ rootfs2Path dirs) (d : Device) :
  SameSelection dirs d (d.removeFlag path)
  := by
  constructor
  · simp [Device.removeFlag, h.symm]
  · rfl
  · rfl
  · rfl

theorem sameSelection_addFlag {path : Text} (h : path ≠ rootfs2Path dirs) (d : Device) :
  SameSelection dirs d (d.addFlag path)
  := by
  unfold Device.addFlag
  split
  · exact SameSelection.refl d
  · constructor
    · simp [h.symm]
    · rfl
    · rfl
    · rfl

/-- A neutral call leaves the selection as it is. -/
theorem sameSelection_of_neutral {c : Call} (hc : Neutral dirs c) (x : Choice) (d : Device) :
  SameSelection dirs d (perform c x d).2
  := by
  cases c with
  | remove path =>
      simp only [perform]
      split
      · split
        · exact sameSelection_removeFlag hc d
        · exact SameSelection.refl d
      · exact SameSelection.refl d
  | rmF path =>
      simp only [perform]
      split
      · exact sameSelection_removeFlag hc d
      · exact SameSelection.refl d
  | touch path =>
      simp only [perform]
      split
      · exact sameSelection_addFlag hc d
      · exact SameSelection.refl d
  | openCreat _ | cpHeader _ | appUpdate _ | rmFAll _ | cpFAll _ _ | copyElsewhere _ _
  | commandLine _ => exact hc.elim
  | _ => exact ⟨Iff.rfl, rfl, rfl, rfl⟩

/-! ### The record grows -/

variable {record : Record}

theorem Saved.append {type : ImgType} {image : Img} (h : Saved dirs images type record image)
    (more : Record) :
  Saved dirs images type (record ++ more) image
  := ⟨h.1, List.mem_append_left _ h.2⟩

theorem RootfsCopied.append (h : RootfsCopied images record) (more : Record) :
  RootfsCopied images (record ++ more)
  := by
  obtain ⟨before, after, image, device, r, himage, rfl⟩ := h
  exact ⟨before, after ++ more, image, device, r, himage, by simp⟩

theorem BootUnpacked.append (h : BootUnpacked dirs images record) (more : Record) :
  BootUnpacked dirs images (record ++ more)
  := by
  obtain ⟨image, hsaved, htar⟩ := h
  exact ⟨image, hsaved.append more, List.mem_append_left _ htar⟩

theorem BootFilesReplaced.append {mount_point : Text}
    (h : BootFilesReplaced dirs images mount_point record) (more : Record) :
  BootFilesReplaced dirs images mount_point (record ++ more)
  := by
  constructor
  · exact h.unpacked.append more
  · exact List.mem_append_left _ h.remounted
  · obtain ⟨ok, hrm⟩ := h.removed
    exact ⟨ok, List.mem_append_left _ hrm⟩

theorem AppsHandedOver.append (h : AppsHandedOver dirs images ends record) (more : Record) :
  AppsHandedOver dirs images ends (record ++ more)
  := by
  obtain ⟨image, rc, hsaved, hrc, hends⟩ := h
  exact ⟨image, rc, hsaved.append more, List.mem_append_left _ hrc, hends⟩

/-- What was only committed is still so after more calls, if whatever these changed was
committed too. -/
theorem OnlyCommitted.step (h : OnlyCommitted dirs images ends d s) {d' : Device} {more : Record}
    (hflag : ¬ (rootfs2Path dirs ∈ d'.flags ↔ rootfs2Path dirs ∈ s.1.flags) →
      RootfsCopied images (s.2 ++ more))
    (hboot : ∀ mount_point, d'.boot_files mount_point ≠ s.1.boot_files mount_point →
      BootFilesReplaced dirs images mount_point (s.2 ++ more))
    (happs : d'.apps ≠ s.1.apps → AppsHandedOver dirs images ends (s.2 ++ more))
    (hheader : d'.saved_header ≠ s.1.saved_header → SwupdateDone (s.2 ++ more)) :
  OnlyCommitted dirs images ends d (d', s.2 ++ more)
  := by
  constructor
  · intro hne
    by_cases heq : rootfs2Path dirs ∈ d'.flags ↔ rootfs2Path dirs ∈ s.1.flags
    · exact (h.flag (fun h' => hne (heq.trans h'))).append more
    · exact hflag heq
  · intro mount_point hne
    by_cases heq : d'.boot_files mount_point = s.1.boot_files mount_point
    · exact (h.boot_files mount_point (heq ▸ hne)).append more
    · exact hboot mount_point heq
  · intro hne
    by_cases heq : d'.apps = s.1.apps
    · exact (h.apps (heq ▸ hne)).append more
    · exact happs heq
  · intro hne
    by_cases heq : d'.saved_header = s.1.saved_header
    · exact List.mem_append_left _ (h.header (heq ▸ hne))
    · exact hheader heq

/-- A neutral call commits nothing. -/
theorem OnlyCommitted.neutral (h : OnlyCommitted dirs images ends d s) {c : Call} (x : Choice)
    (hc : Neutral dirs c) :
  OnlyCommitted dirs images ends d (machine.traced.perform c x s).2
  := by
  have hsame := sameSelection_of_neutral hc x s.1
  apply h.step
  · exact fun hne => absurd hsame.flag hne
  · exact fun mount_point hne => absurd (congrFun hsame.boot_files mount_point) hne
  · exact fun hne => absurd hsame.apps hne
  · exact fun hne => absurd hsame.header hne

/-- The reply to a neutral call is put on the record. -/
theorem wp_neutral_call {c : Call} {Q : Post Recorded Nat (Reply c)} (hc : Neutral dirs c)
    (hs : OnlyCommitted dirs images ends d s) (hcut : Q.cut s)
    (hreturned : ∀ (r : Reply c) (d' : Device),
      OnlyCommitted dirs images ends d (d', s.2 ++ [⟨c, r⟩]) → Q.returned r (d', s.2 ++ [⟨c, r⟩])) :
  wp machine.traced adm (issue c) Q s
  := by
  rw [wp_issue]
  use hcut
  exact fun x _ => hreturned _ _ (hs.neutral x hc)

/-- A script that issues neutral calls only commits nothing. -/
theorem wp_of_neutral {α : Type} {p : Script α} (hp : Issues (Neutral dirs) p)
    (hs : OnlyCommitted dirs images ends d s) :
  wp machine.traced adm p (Post.always (OnlyCommitted dirs images ends d)) s
  := wp_of_issues _ hp (fun _ x _ hc _ h => h.neutral x hc) hs

/-! ### The calls of the installers -/

section

variable {P : Call → Prop}

theorem orDie_issues {status : Nat} {command : Script Bool} (h : Issues P command) :
  Issues P (orDie status command)
  := by
  apply h.bind
  intro b
  split <;> trivial

theorem valueOrDie_issues {result : Script (Except Nat Nat)} (h : Issues P result) :
  Issues P (valueOrDie result)
  := by
  apply h.bind
  intro r
  split <;> trivial

end

/-- The calls with which the installers read sizes and settings, and remove the flag in the end. -/
def Prepares (dirs : Dirs) : Call → Prop
  | .readFile _ | .duK _ => True
  | .rmF path => path = doNotRebootPath dirs
  | _ => False

theorem prepares_cat (path : Text) :
  Issues (Prepares dirs) (cat path)
  := by
  apply Issues.bind
  · exact issues_issue.mpr trivial
  · intro r
    split <;> trivial

theorem prepares_isPartSkipped (part_name : Text) :
  Issues (Prepares dirs) (isPartSkipped dirs part_name)
  := (prepares_cat _).bind fun _ => trivial

theorem prepares_getPartSizeVarB (part_name var_name : Text) :
  Issues (Prepares dirs) (getPartSizeVarB dirs part_name var_name)
  := by
  unfold getPartSizeVarB
  rw [issues_attempt]
  apply (prepares_cat _).bind
  intro size
  apply Issues.bind
  · unfold validatePositiveIntegerOrDie
    split <;> trivial
  · exact fun _ => trivial

theorem prepares_removeDoNotRebootFlagOrDie :
  Issues (Prepares dirs) (removeDoNotRebootFlagOrDie dirs)
  := orDie_issues (issues_issue.mpr rfl)

theorem prepares_sizeEstimateB (dirs : Dirs) (dir : Text) :
  Issues (Prepares dirs) (sizeEstimateB dir)
  := by
  apply Issues.bind
  · exact issues_issue.mpr trivial
  · intro text
    split
    · split <;> trivial
    · trivial

theorem neutral_of_prepares {α : Type} {p : Script α} (h : Issues (Prepares dirs) p) :
  Issues (Neutral dirs) p
  := by
  apply h.mono
  intro c hc
  cases c with
  | rmF path => exact ne_of_eq_of_ne hc doNotRebootPath_ne
  | readFile _ | duK _ => trivial
  | _ => exact hc.elim

theorem writeToFlashOrDie_issues (file : Text) (offset_B max_size_B : Nat) :
  Issues (Neutral dirs) (writeToFlashOrDie file offset_B max_size_B)
  := by
  apply Issues.bind
  · apply Issues.bind
    · exact issues_issue.mpr trivial
    · intro r
      split
      · apply Issues.bind
        · exact issues_issue.mpr trivial
        · intro b
          split <;> trivial
      · trivial
  · intro r
    split
    · trivial
    · apply Issues.bind
      · exact issues_issue.mpr trivial
      · intro r
        split
        · trivial
        · split
          · trivial
          · exact orDie_issues (issues_issue.mpr trivial)

/-- The installer of the boot loader commits nothing. -/
theorem updateBootloaderOrDie_issues (path : Text) :
  Issues (Neutral dirs) (updateBootloaderOrDie dirs path)
  := by
  apply (neutral_of_prepares (prepares_isPartSkipped _)).bind
  intro skipped
  split
  · trivial
  · apply (valueOrDie_issues (neutral_of_prepares (prepares_getPartSizeVarB _ _))).bind
    intro max_size_B
    apply (valueOrDie_issues (neutral_of_prepares (prepares_getPartSizeVarB _ _))).bind
    intro offset_B
    apply (orDie_issues (issues_issue.mpr trivial)).bind
    intro _
    apply Issues.bind (writeToFlashOrDie_issues _ _ _)
    exact fun _ => neutral_of_prepares prepares_removeDoNotRebootFlagOrDie

/-! ### The installer of the boot partition -/

/-- A command that need not succeed keeps something, and does more where it succeeds. -/
theorem wp_upTo_orDie {command : Script Bool} {status : Nat} {Inv P : Recorded → Prop}
    (h : wp machine.traced adm command
      (Post.upTo Inv fun ok s => Inv s ∧ (ok = true → P s)) s) :
  wp machine.traced adm (orDie status command) (Post.upTo Inv fun _ => P) s
  := by
  apply wp_upTo_bind h
  rintro ok s ⟨hinv, hp⟩
  split
  · exact hp ‹_›
  · exact hinv

/-- What holds once a boot image is unpacked. -/
structure Unpacked (dirs : Dirs) (images : List PayloadImage) (ends : Text → Prop) (d : Device)
    (s : Recorded) : Prop where
  committed : OnlyCommitted dirs images ends d s
  unpacked : BootUnpacked dirs images s.2

theorem Unpacked.neutral (h : Unpacked dirs images ends d s) {c : Call} (x : Choice)
    (hc : Neutral dirs c) :
  Unpacked dirs images ends d (machine.traced.perform c x s).2
  := ⟨h.committed.neutral x hc, h.unpacked.append _⟩

theorem Unpacked.wp_of_neutral {α : Type} {p : Script α} (hs : Unpacked dirs images ends d s)
    (hp : Issues (Neutral dirs) p) :
  wp machine.traced adm p (Post.always (Unpacked dirs images ends d)) s
  := wp_of_issues _ hp (fun _ x _ hc _ h => h.neutral x hc) hs

theorem Unpacked.wp_of_prepares {α : Type} {p : Script α} (hs : Unpacked dirs images ends d s)
    (hp : Issues (Prepares dirs) p) :
  wp machine.traced adm p (Post.always (Unpacked dirs images ends d)) s
  := hs.wp_of_neutral (neutral_of_prepares hp)

/-- Files are replaced at a mount point only after it was remounted for writing. -/
theorem Unpacked.replace (h : Unpacked dirs images ends d s) {mount_point : Text} {c : Call}
    {x : Choice} {content : Content}
    (hc : (perform c x s.1).2 = s.1.writeBootFiles content mount_point)
    (hremounted : RemountedForWriting mount_point s.2)
    (hremoved : ∃ ok, ⟨.rmFAll mount_point, ok⟩ ∈ (machine.traced.perform c x s).2.2) :
  Unpacked dirs images ends d (machine.traced.perform c x s).2
  := by
  refine ⟨?_, h.unpacked.append _⟩
  change OnlyCommitted dirs images ends d
    ((perform c x s.1).2, s.2 ++ [⟨c, (perform c x s.1).1⟩])
  rw [hc]
  apply h.committed.step
  · exact fun hne => absurd Iff.rfl hne
  · intro mount_point' hne
    obtain rfl : mount_point' = mount_point := by
      by_contra hother
      exact hne (Function.update_of_ne hother _ _)
    exact ⟨h.unpacked.append _, List.mem_append_left _ hremounted, hremoved⟩
  · exact fun hne => absurd rfl hne
  · exact fun hne => absurd rfl hne

theorem wp_copyDirOrDie_unpacked {source_path mount_point : Text} (hs : Unpacked dirs images ends d s) :
  wp machine.traced adm (copyDirOrDie source_path mount_point)
    (Post.always (Unpacked dirs images ends d)) s
  := by
  change wp machine.traced adm _ (Post.upTo (Unpacked dirs images ends d) _) s
  apply wp_upTo_bind (P := fun _ s => Unpacked dirs images ends d s
    ∧ RemountedForWriting mount_point s.2)
  · apply wp_upTo_orDie
    rw [wp_issue]
    use hs
    intro x _
    have hs' := hs.neutral (c := .remount mount_point "rw".toList) x trivial
    refine ⟨hs', fun hok => ⟨hs', ?_⟩⟩
    have hx : x.ok = true := hok
    exact List.mem_append_right _ (by simp [hx])
  · rintro _ s ⟨hs, hremounted⟩
    apply wp_upTo_bind (P := fun _ s => Unpacked dirs images ends d s
      ∧ RemountedForWriting mount_point s.2 ∧ ∃ ok, ⟨.rmFAll mount_point, ok⟩ ∈ s.2)
    · apply wp_upTo_orDie
      rw [wp_issue]
      use hs
      intro x _
      have hremoved : ∃ ok, ⟨.rmFAll mount_point, ok⟩
          ∈ (machine.traced.perform (.rmFAll mount_point) x s).2.2 := ⟨_, List.mem_concat_self⟩
      have hs' := hs.replace (c := .rmFAll mount_point) rfl hremounted hremoved
      exact ⟨hs', fun _ => ⟨hs', List.mem_append_left _ hremounted, hremoved⟩⟩
    · rintro _ s ⟨hs, hremounted, ok, hremoved⟩
      apply wp_upTo_bind (P := fun _ => Unpacked dirs images ends d)
      · apply wp_upTo_orDie
        rw [wp_issue]
        use hs
        intro x _
        have hs' := hs.replace (c := .cpFAll source_path mount_point) (x := x) rfl hremounted
          ⟨ok, List.mem_append_left _ hremoved⟩
        exact ⟨hs', fun _ => hs'⟩
      · exact fun _ s hs => hs.wp_of_neutral (orDie_issues (issues_issue.mpr (by trivial)))

theorem wp_updateBootPartFromDirOrDie_unpacked {part_name dir : Text} {size : Nat} {skip_ok : Bool}
    (hs : Unpacked dirs images ends d s) :
  wp machine.traced adm (updateBootPartFromDirOrDie dirs part_name dir size skip_ok)
    (Post.always (Unpacked dirs images ends d)) s
  := by
  apply wp_always_bind (hs.wp_of_prepares (prepares_isPartSkipped _))
  intro skipped s hs
  split
  · split <;> exact hs
  · apply wp_always_bind (hs.wp_of_prepares (valueOrDie_issues (prepares_getPartSizeVarB _ _)))
    intro max_size_B s hs
    split
    · exact hs
    · apply wp_always_bind (hs.wp_of_neutral (issues_issue.mpr (by trivial)))
      intro mount_point s hs
      split
      · exact hs
      · exact hs
      · apply wp_always_bind (wp_copyDirOrDie_unpacked hs)
        exact fun _ s hs => hs.wp_of_prepares prepares_removeDoNotRebootFlagOrDie

/-- The installer of the boot partition commits nothing but the files it replaces. -/
theorem wp_updateBootOrDie_committed {image : Img} (hs : OnlyCommitted dirs images ends d s)
    (hsaved : Saved dirs images .BOOT s.2 image) :
  wp machine.traced adm (updateBootOrDie dirs (savedPath dirs image))
    (Post.always (OnlyCommitted dirs images ends d)) s
  := by
  change wp machine.traced adm _ (Post.upTo (OnlyCommitted dirs images ends d) _) s
  apply wp_upTo_bind (P := fun _ s => OnlyCommitted dirs images ends d s
    ∧ Saved dirs images .BOOT s.2 image)
  · apply wp_upTo_orDie
    rw [wp_issue]
    use hs
    intro x _
    have hs' := hs.neutral (c := .mkdirP (dirs.PAYLOAD_TMP_DIR ++ "/boot".toList)) x trivial
    exact ⟨hs', fun _ => ⟨hs', hsaved.append _⟩⟩
  · rintro _ s ⟨hs, hsaved⟩
    apply wp_upTo_bind (P := fun _ => Unpacked dirs images ends d)
    · apply wp_upTo_orDie
      rw [wp_issue]
      use hs
      intro x _
      have hs' := hs.neutral
        (c := .tarX (savedPath dirs image) (dirs.PAYLOAD_TMP_DIR ++ "/boot".toList)) x trivial
      refine ⟨hs', fun hok => ⟨hs', image, hsaved.append _, ?_⟩⟩
      have hx : x.ok = true := hok
      exact List.mem_append_right _ (by simp [hx])
    · intro _ s hs
      apply wp.mono (Q := Post.always (Unpacked dirs images ends d))
      · apply wp_always_bind (hs.wp_of_prepares (prepares_sizeEstimateB dirs _))
        intro size s hs
        split
        · exact hs
        · apply wp_always_bind (wp_updateBootPartFromDirOrDie_unpacked hs)
          intro _ s hs
          apply wp_always_bind (wp_updateBootPartFromDirOrDie_unpacked hs)
          exact fun _ s hs => hs.wp_of_prepares prepares_removeDoNotRebootFlagOrDie
      · exact fun _ _ hs => hs.committed
      · exact fun _ _ hs => hs.committed
      · exact fun _ hs => hs.committed

/-! ### What the handlers commit -/

/-- Saving an image that is passed on commits nothing, and the installer is run on the saved
image. -/
theorem wp_runLua {h : Lua.Handler} {type : ImgType} {image : Img} (hpassed : PassedOn dirs h image)
    (himage : ⟨type, image⟩ ∈ images) (hs : OnlyCommitted dirs images ends d s)
    (hinstaller : ∀ s, OnlyCommitted dirs images ends d s → Saved dirs images type s.2 image →
      wp machine.traced adm (installer dirs h (savedPath dirs image))
        (Post.always (OnlyCommitted dirs images ends d)) s) :
  wp machine.traced adm (runLua dirs h image) (Post.always (OnlyCommitted dirs images ends d)) s
  := by
  simp only [runLua_eq hpassed, saveAndInstall, wp_bind]
  apply wp_neutral_call (by trivial) hs hs
  intro saved d' hs
  cases saved with
  | false => exact hs
  | true =>
      apply wp_always_bind
      · exact wp_always_attempt (hinstaller _ hs ⟨himage, List.mem_concat_self⟩)
      · intro r s hs
        split <;> exact hs

/-- A call that creates or removes a flag file changes nothing else of the selection. -/
theorem perform_flagCall {c : Call} (hc : FlagCall c) (x : Choice) (d : Device) :
  (perform c x d).2 = { d with flags := (perform c x d).2.flags }
  := SameButFlags.of_flagCall hc (SameButFlags.refl d)

/-- Once the root file system image is copied, the boot flag may change. -/
theorem OnlyCommitted.flagCall (h : OnlyCommitted dirs images ends d s)
    (hcopied : RootfsCopied images s.2) {c : Call} (x : Choice) (hc : FlagCall c) :
  OnlyCommitted dirs images ends d (machine.traced.perform c x s).2
    ∧ RootfsCopied images (machine.traced.perform c x s).2.2
  := by
  refine ⟨?_, hcopied.append _⟩
  change OnlyCommitted dirs images ends d ((perform c x s.1).2, s.2 ++ [⟨c, (perform c x s.1).1⟩])
  rw [perform_flagCall hc x s.1]
  apply h.step
  · exact fun _ => hcopied.append _
  · exact fun _ hne => absurd rfl hne
  · exact fun hne => absurd rfl hne
  · exact fun hne => absurd rfl hne

/-- A copy commits nothing, and when it does not return −1, it is in the record that the image
was copied. -/
theorem wp_copyImageAndSync {image : Img} {device : Text}
    (himage : ⟨.ROOTFS, image⟩ ∈ images) (hs : OnlyCommitted dirs images ends d s) :
  wp machine.traced adm (copyImageAndSync image device)
    { returned := fun rc s => OnlyCommitted dirs images ends d s
        ∧ (rc ≠ -1 → RootfsCopied images s.2)
      raised := fun _ => OnlyCommitted dirs images ends d
      cut := OnlyCommitted dirs images ends d } s
  := by
  simp only [copyImageAndSync, wp_bind]
  apply wp_neutral_call (by trivial) hs hs
  intro opened d₁ hs
  cases opened with
  | false => exact ⟨hs, fun hne => absurd rfl hne⟩
  | true =>
      simp only [Bool.true_eq_false, if_false, wp_bind]
      apply wp_neutral_call (by trivial) hs hs
      intro copied d₂ hs
      simp only [wp_bind]
      apply wp_neutral_call (by trivial) hs hs
      intro closed d₃ hs
      cases closed with
      | false => exact ⟨hs, fun hne => absurd rfl hne⟩
      | true =>
          refine ⟨hs, fun _ => ?_⟩
          exact ⟨s.2 ++ [⟨.openfileoutput device, true⟩], [], image, device, copied, himage,
            by simp⟩

/-- The handler of root file system images commits only what it has copied. -/
theorem wp_rootfsv4Handler {image : Img} (himage : ⟨.ROOTFS, image⟩ ∈ images)
    (hs : OnlyCommitted dirs images ends d s) :
  wp machine.traced adm (rootfsv4Handler dirs copyImageAndSync image)
    (Post.always (OnlyCommitted dirs images ends d)) s
  := by
  apply wp_always_bind
  · apply wp_of_neutral _ hs
    apply findUpdateTarget_issues.mono
    intro c hc
    cases c <;> trivial
  · intro target s hs
    split
    · rw [wp_bind]
      apply (wp_copyImageAndSync himage hs).of_returned
      intro rc s h
      split
      · exact h.1
      · rename_i hrc
        apply (wp_of_issues (fun s => OnlyCommitted dirs images ends d s
          ∧ RootfsCopied images s.2) (selectTarget_issues _ _) _ ⟨h.1, h.2 hrc⟩).mono
        · exact fun _ _ h => h.1
        · exact fun _ _ h => h.1
        · exact fun _ h => h.1
        · exact fun c x s hc _ h => h.1.flagCall h.2 x hc
    · exact hs

/-- A handler commits only what is in the record. -/
theorem wp_callHandler {image : PayloadImage} (hpassed : image.PassedOn dirs)
    (hends : ∀ path x s, adm (.appUpdate path) x s → x.num ≠ s.1.apps → ends x.text)
    (himage : image ∈ images) (hs : OnlyCommitted dirs images ends d s) :
  wp machine.traced adm (callHandler dirs image) (Post.always (OnlyCommitted dirs images ends d)) s
  := by
  obtain ⟨type, image⟩ := image
  cases type with
  | ROOTFS => exact wp_rootfsv4Handler himage hs
  | BOOT =>
      apply wp_runLua (hpassed .boot rfl) himage hs
      exact fun s hs hsaved => wp_updateBootOrDie_committed hs hsaved
  | WKS_BOOTLOADER1 =>
      apply wp_runLua (hpassed .wks_bootloader1 rfl) himage hs
      exact fun s hs _ => wp_of_neutral (updateBootloaderOrDie_issues _) hs
  | WKS_BOOTLOADER2 =>
      apply wp_runLua (hpassed .wks_bootloader2 rfl) himage hs
      exact fun s hs _ => wp_of_neutral (updateBootloaderOrDie_issues _) hs
  | APPS =>
      apply wp_runLua (hpassed .apps rfl) himage hs
      intro s hs hsaved
      simp only [installer, updateAppsOrDie]
      apply wp_always_bind
      · rw [wp_issue]
        use hs
        intro x hx
        apply hs.step
        · exact fun hne => absurd Iff.rfl hne
        · exact fun _ hne => absurd rfl hne
        · intro hchanged
          exact ⟨image, x.text, hsaved.append _, List.mem_concat_self, hends _ x s hx hchanged⟩
        · exact fun hne => absurd rfl hne
      · intro rc s hs
        split <;> exact hs

/-- The handlers commit only what is in the record, and when all of them have returned 0, that
is in the record too. -/
theorem wp_callHandlers {todo : List PayloadImage} (hpassed : AllPassedOn dirs images)
    (hends : ∀ path x s, adm (.appUpdate path) x s → x.num ≠ s.1.apps → ends x.text)
    (htodo : todo ⊆ images) (hs : OnlyCommitted dirs images ends d s) :
  wp machine.traced adm (callHandlers dirs todo)
    { returned := fun ok s => OnlyCommitted dirs images ends d s ∧ (ok = true → SwupdateDone s.2)
      raised := fun _ => OnlyCommitted dirs images ends d
      cut := OnlyCommitted dirs images ends d } s
  := by
  induction todo generalizing s with
  | nil =>
      simp only [callHandlers, wp_bind, wp_issue]
      use hs
      intro x _
      refine ⟨hs.neutral (c := .swupdateDone) x trivial, fun _ => ?_⟩
      exact List.mem_concat_self
  | cons image todo ih =>
      simp only [callHandlers, wp_bind]
      have himage : image ∈ images := htodo List.mem_cons_self
      apply (wp_callHandler (hpassed image himage) hends himage hs).of_returned
      intro rc s hs
      split
      · exact ⟨hs, fun h => absurd h Bool.false_ne_true⟩
      · exact ih (fun _ h => htodo (List.mem_cons_of_mem _ h)) hs

/-- The rest of the script commits the header, after swupdate has returned. -/
theorem wp_finishActivation {HEADER : Text} (hs : OnlyCommitted dirs images ends d s)
    (hdone : SwupdateDone s.2) :
  wp machine.traced adm (finishActivation dirs HEADER) (Post.always (OnlyCommitted dirs images ends d)) s
  := by
  apply wp_always_bind
  · apply wp_always_bind
    · rw [wp_issue]
      use hs
      intro x _
      apply hs.step
      · exact fun hne => absurd Iff.rfl hne
      · exact fun _ hne => absurd rfl hne
      · exact fun hne => absurd rfl hne
      · exact fun _ => List.mem_append_left _ hdone
    · intro ok s hs
      split <;> exact hs
  · intro _ s hs
    apply wp_of_neutral _ hs
    apply Issues.bind
    · exact issues_issue.mpr trivial
    · intro there
      split
      · apply Issues.bind
        · exact issues_issue.mpr trivial
        · intro status
          unfold exitOnError
          split <;> trivial
      · trivial

theorem wp_armUpdateActivate_committed {HEADER FIRMWARE : Text} (hpassed : AllPassedOn dirs images)
    (hends : ∀ path x s, adm (.appUpdate path) x s → x.num ≠ s.1.apps → ends x.text) :
  wp machine.traced adm (armUpdateActivate dirs HEADER FIRMWARE images)
    (Post.always (OnlyCommitted dirs images ends d)) (d, [])
  := by
  have hinit : OnlyCommitted dirs images ends d (d, []) := by
    constructor
    · exact fun hne => absurd Iff.rfl hne
    · exact fun _ hne => absurd rfl hne
    · exact fun hne => absurd rfl hne
    · exact fun hne => absurd rfl hne
  apply wp_always_bind
  · exact wp_of_neutral (issues_issue.mpr trivial) hinit
  · intro path s hs
    split
    · exact hs
    · apply wp_always_bind
      · apply wp_of_neutral _ hs
        apply (orDie_issues (issues_issue.mpr trivial)).bind
        exact fun _ => orDie_issues (issues_issue.mpr trivial)
      · intro _ s hs
        apply wp_always_bind
        · exact wp_of_neutral (issues_issue.mpr doNotRebootPath_ne) hs
        · intro _ s hs
          simp only [swupdate, wp_bind]
          apply wp_neutral_call (by trivial) hs hs
          intro opened d' hs
          cases opened with
          | false => exact hs
          | true =>
              apply (wp_callHandlers hpassed hends (List.Subset.refl _) hs).of_returned
              intro ok s hs
              cases ok with
              | false => exact hs.1
              | true =>
                  rw [if_pos rfl]
                  exact wp_finishActivation hs.1 (hs.2 rfl)

/-- An update of the applications that fails leaves them as they were. -/
def RollsBack : Call → Choice → Recorded → Prop
  | .appUpdate _, x, s => Handshake.neZero x.text = true → x.num = s.1.apps
  | _, _, _ => True

/-- A payload with a root file system and a boot image. -/
def rootfsAndBoot : List PayloadImage :=
  [⟨.ROOTFS, ⟨"rootfs".toList, 1⟩⟩, ⟨.BOOT, ⟨"boot".toList, 2⟩⟩]

/-- The root file system image is installed, and the boot image cannot be saved. -/
def bootNotSaved : List Choice :=
  List.replicate 14 { ok := true } ++ [{ ok := false }]

end Swupdate
