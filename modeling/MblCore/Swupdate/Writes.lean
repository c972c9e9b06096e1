import MblCore.Lib.Traces
import MblCore.Swupdate.Commit

/-!
# What the installers write

Two installers write outside the directory of the payload: `bootloader_installer.sh` writes to the
flash, and `boot_partition_installer.sh` to the file systems of the boot partitions, which it
remounts for that.  What holds of their writes in every activation is shown for these two
scripts; the rest of an activation neither writes nor remounts.
-/

namespace Swupdate

open Prog

variable {dirs : Dirs}

/-! ### Calls that neither write nor remount -/

/-- The call neither writes to the flash, nor to a boot partition, nor remounts one. -/
def Quiet : Call → Prop
  | .dd _ _ _ | .remount _ _ | .rmFAll _ | .cpFAll _ _ | .copyElsewhere _ _ | .commandLine _ => False
  | _ => True

theorem issue_quiet {c : Call} (h : Quiet c) :
  Issues Quiet (issue c)
  := issues_issue.mpr h

theorem quiet_of_prepares {α : Type} {p : Script α} (h : Issues (Prepares dirs) p) :
  Issues Quiet p
  := by
  apply h.mono
  intro c hc
  cases c with
  | rmF _ | readFile _ | duK _ => trivial
  | _ => exact hc.elim

theorem quiet_copyImageAndSync (image : Img) (device : Text) :
  Issues Quiet (copyImageAndSync image device)
  := by
  apply (issue_quiet (by trivial)).bind
  intro opened
  split
  · trivial
  · apply (issue_quiet (by trivial)).bind
    intro copied
    apply (issue_quiet (by trivial)).bind
    intro closed
    split <;> trivial

/-- The handler of root file system images writes to the bank only. -/
theorem quiet_rootfsv4Handler (image : Img) :
  Issues Quiet (rootfsv4Handler dirs copyImageAndSync image)
  := by
  apply Issues.bind
  · apply findUpdateTarget_issues.mono
    intro c hc
    cases c <;> trivial
  · intro target
    split
    · apply (quiet_copyImageAndSync _ _).bind
      intro rc
      split
      · trivial
      · apply (selectTarget_issues _ _).mono
        intro c hc
        cases c <;> trivial
    · trivial

theorem quiet_updateAppsOrDie (path : Text) :
  Issues Quiet (updateAppsOrDie path)
  := by
  apply (issue_quiet (by trivial)).bind
  intro rc
  split <;> trivial

theorem quiet_finishActivation (HEADER : Text) :
  Issues Quiet (finishActivation dirs HEADER)
  := by
  apply (orDie_issues (issue_quiet (by trivial))).bind
  intro _
  apply (issue_quiet (by trivial)).bind
  intro there
  split
  · apply (issue_quiet (by trivial)).bind
    intro status
    unfold exitOnError
    split <;> trivial
  · trivial

/-! ### The installer of the boot partition -/

/-- The calls of the installer of the boot partition. -/
def BootCall (dirs : Dirs) (c : Call) : Prop :=
  Prepares dirs c ∨ c matches .mkdirP _ | .tarX _ _ | .remount _ _ | .rmFAll _ | .cpFAll _ _

theorem bootCalls_of_prepares {α : Type} {p : Script α} (h : Issues (Prepares dirs) p) :
  Issues (BootCall dirs) p
  := h.mono fun _ => Or.inl

theorem issue_boot {c : Call} (h : BootCall dirs c) :
  Issues (BootCall dirs) (issue c)
  := issues_issue.mpr h

theorem bootCalls_copyDirOrDie (source_path mnt_point : Text) :
  Issues (BootCall dirs) (copyDirOrDie source_path mnt_point)
  := by
  apply (orDie_issues (issue_boot (Or.inr (by rfl)))).bind
  intro _
  apply (orDie_issues (issue_boot (Or.inr (by rfl)))).bind
  intro _
  apply (orDie_issues (issue_boot (Or.inr (by rfl)))).bind
  exact fun _ => orDie_issues (issue_boot (Or.inr (by rfl)))

theorem bootCalls_updateBootPartFromDirOrDie (part_name dir : Text) (size : Nat) (skip_ok : Bool) :
  Issues (BootCall dirs) (updateBootPartFromDirOrDie dirs part_name dir size skip_ok)
  := by
  apply (bootCalls_of_prepares (prepares_isPartSkipped _)).bind
  intro skipped
  split
  · split <;> trivial
  · apply (bootCalls_of_prepares (valueOrDie_issues (prepares_getPartSizeVarB _ _))).bind
    intro max_size_B
    split
    · trivial
    · apply (issue_boot (Or.inl (by trivial))).bind
      intro mount_point
      split
      · trivial
      · trivial
      · apply (bootCalls_copyDirOrDie _ _).bind
        exact fun _ => bootCalls_of_prepares prepares_removeDoNotRebootFlagOrDie

theorem bootCalls_updateBootOrDie (path : Text) :
  Issues (BootCall dirs) (updateBootOrDie dirs path)
  := by
  apply (orDie_issues (issue_boot (Or.inr (by rfl)))).bind
  intro _
  apply (orDie_issues (issue_boot (Or.inr (by rfl)))).bind
  intro _
  apply (bootCalls_of_prepares (prepares_sizeEstimateB dirs _)).bind
  intro size
  split
  · trivial
  · apply (bootCalls_updateBootPartFromDirOrDie _ _ _ _).bind
    intro _
    apply (bootCalls_updateBootPartFromDirOrDie _ _ _ _).bind
    exact fun _ => bootCalls_of_prepares prepares_removeDoNotRebootFlagOrDie

/-! ### From the installers to the activation -/

variable {Inv End Cut : Recorded → Prop} {images : List PayloadImage} {s : Recorded}
  {adm : Call → Choice → Recorded → Prop}

/-- What is asked of an installer, between the images `Inv`, and where it fails `End`. -/
def AfterInstaller (Inv End Cut : Recorded → Prop) : Post Recorded Nat Unit where
  returned _ := Inv
  raised status s := End s ∧ (status = 0 → Inv s)
  cut := Cut

/-- What holds between the images, at a failure, and at a cut. -/
structure Kept (Inv End Cut : Recorded → Prop) : Prop where
  quiet : ∀ c x s, Quiet c → Inv s → Inv (machine.traced.perform c x s).2
  fails : ∀ s, Inv s → End s
  cut : ∀ s, Inv s → Cut s

/-- A quiet program keeps what holds between the images. -/
theorem Kept.wp_of_quiet {α : Type} {p : Script α} {Q : Post Recorded Nat α}
    (h : Kept Inv End Cut) (hp : Issues Quiet p) (hs : Inv s)
    (hreturned : ∀ a s, Inv s → Q.returned a s) (hraised : ∀ e s, Inv s → Q.raised e s)
    (hcut : ∀ s, Inv s → Q.cut s) :
  wp machine.traced adm p Q s
  := (wp_of_issues Inv hp (fun c x s hc _ hs => h.quiet c x s hc hs) hs).mono
    hreturned hraised hcut

/-- A quiet program as an installer. -/
theorem Kept.wp_installer_of_quiet {p : Script Unit} (h : Kept Inv End Cut)
    (hp : Issues Quiet p) (hs : Inv s) :
  wp machine.traced adm p (AfterInstaller Inv End Cut) s
  := by
  apply h.wp_of_quiet hp hs
  · exact fun _ _ hs => hs
  · exact fun _ s hs => ⟨h.fails s hs, fun _ => hs⟩
  · exact h.cut

/-- What is asked of a handler: it returns 0 only where `Inv` holds. -/
def AfterHandler (Inv End Cut : Recorded → Prop) : Post Recorded Nat Int where
  returned rc s := if rc = 0 then Inv s else End s
  raised _ := Inv
  cut := Cut

/-- The last thing on the record is that the image was saved for its installer. -/
def JustSaved (dirs : Dirs) (image : Img) (s : Recorded) : Prop :=
  ∃ earlier, s.2 = earlier ++ [⟨.copy2file image (savedPath dirs image), true⟩]

/-- A handler saves an image that is passed on and runs its installer. -/
theorem Kept.wp_runLua {handler : Lua.Handler} {image : Img} (h : Kept Inv End Cut)
    (hpassed : PassedOn dirs handler image) (hs : Inv s)
    (hinstaller : ∀ s, Inv s → JustSaved dirs image s →
      wp machine.traced adm (installer dirs handler (savedPath dirs image))
        (AfterInstaller Inv End Cut) s) :
  wp machine.traced adm (runLua dirs handler image) (AfterHandler Inv End Cut) s
  := by
  simp only [runLua_eq hpassed, saveAndInstall, wp_bind]
  apply wp_issue.mpr
  use h.cut s hs
  intro x _
  have hs' := h.quiet (.copy2file image (savedPath dirs image)) x s trivial hs
  have hrecord : (machine.traced.perform (.copy2file image (savedPath dirs image)) x s).2.2
      = s.2 ++ [⟨.copy2file image (savedPath dirs image), x.ok⟩] := rfl
  have hreply : (machine.traced.perform (.copy2file image (savedPath dirs image)) x s).1
      = x.ok := rfl
  rw [hreply]
  cases hok : x.ok with
  | false => exact h.fails _ hs'
  | true =>
      rw [hok] at hrecord
      simp only [if_true, wp_bind, wp_attempt]
      apply (hinstaller _ hs' ⟨s.2, hrecord⟩).mono
      · intro _ s hs
        exact hs
      · rintro status s ⟨hend, hinv⟩
        cases status with
        | zero => exact hinv rfl
        | succ status => exact hend
      · exact fun _ h => h

/-- The handlers are called in turn, and nothing is called after one that fails. -/
theorem Kept.wp_callHandlers {todo : List PayloadImage} (h : Kept Inv End Cut) (hs : Inv s)
    (hhandler : ∀ image ∈ todo, ∀ s, Inv s →
      wp machine.traced adm (callHandler dirs image) (AfterHandler Inv End Cut) s) :
  wp machine.traced adm (callHandlers dirs todo)
    { returned := fun ok s => if ok = true then Inv s else End s
      raised := fun _ => Inv
      cut := Cut } s
  := by
  induction todo generalizing s with
  | nil =>
      simp only [callHandlers, wp_bind]
      apply h.wp_of_quiet (issue_quiet (by trivial)) hs
      · exact fun _ _ hs => hs
      · exact fun _ _ hs => hs
      · exact h.cut
  | cons image todo ih =>
      simp only [callHandlers, wp_bind]
      apply (hhandler image List.mem_cons_self s hs).mono
      · intro rc s (hs : if rc = 0 then Inv s else End s)
        change wp machine.traced adm (if rc ≠ 0 then _ else _) _ s
        by_cases hrc : rc = 0
        · rw [if_pos hrc] at hs
          rw [if_neg (not_not.mpr hrc)]
          apply ih hs
          exact fun image himage => hhandler image (List.mem_cons_of_mem _ himage)
        · rw [if_neg hrc] at hs
          rw [if_pos hrc]
          exact hs
      · exact fun _ _ h => h
      · exact fun _ h => h

/-- The image is for a boot loader. -/
def ForBootloader (images : List PayloadImage) (image : Img) : Prop :=
  ⟨.WKS_BOOTLOADER1, image⟩ ∈ images ∨ ⟨.WKS_BOOTLOADER2, image⟩ ∈ images

/-- What the two installers keep is kept by the activation.  It exits with a status other than 25
only after all handlers have returned 0, or before the first one. -/
theorem Kept.wp_armUpdateActivate {HEADER FIRMWARE : Text} (h : Kept Inv End Cut)
    (hpassed : AllPassedOn dirs images) (hs : Inv s)
    (hbootloader : ∀ image s, ForBootloader images image → Inv s → JustSaved dirs image s →
      wp machine.traced adm (updateBootloaderOrDie dirs (savedPath dirs image))
        (AfterInstaller Inv End Cut) s)
    (hboot : ∀ image s, Inv s →
      wp machine.traced adm (updateBootOrDie dirs (savedPath dirs image))
        (AfterInstaller Inv End Cut) s) :
  wp machine.traced adm (armUpdateActivate dirs HEADER FIRMWARE images)
    { returned := fun _ => Inv
      raised := fun status s => End s ∧ (status ≠ 25 → Inv s)
      cut := Cut } s
  := by
  have hraised (status : Nat) (s : Recorded) (hs : Inv s) : End s ∧ (status ≠ 25 → Inv s) :=
    ⟨h.fails s hs, fun _ => hs⟩
  have hhandler : ∀ image ∈ images, ∀ s, Inv s →
      wp machine.traced adm (callHandler dirs image) (AfterHandler Inv End Cut) s := by
    rintro ⟨type, image⟩ himage s hs
    cases type with
    | ROOTFS =>
        apply h.wp_of_quiet (quiet_rootfsv4Handler _) hs
        · intro rc s hs
          change if rc = 0 then Inv s else End s
          split
          · exact hs
          · exact h.fails s hs
        · exact fun _ _ hs => hs
        · exact h.cut
    | BOOT =>
        exact h.wp_runLua (hpassed _ himage .boot rfl) hs fun s hs _ => hboot image s hs
    | WKS_BOOTLOADER1 =>
        exact h.wp_runLua (hpassed _ himage .wks_bootloader1 rfl) hs fun s hs =>
          hbootloader image s (Or.inl himage) hs
    | WKS_BOOTLOADER2 =>
        exact h.wp_runLua (hpassed _ himage .wks_bootloader2 rfl) hs fun s hs =>
          hbootloader image s (Or.inr himage) hs
    | APPS =>
        exact h.wp_runLua (hpassed _ himage .apps rfl) hs fun s hs _ =>
          h.wp_installer_of_quiet (quiet_updateAppsOrDie _) hs
  simp only [armUpdateActivate, wp_bind]
  apply h.wp_of_quiet (issue_quiet (by trivial)) hs _ (fun e s hs => hraised e s hs) h.cut
  intro path s hs
  cases path with
  | none => exact hraised 24 s hs
  | some FIRMWARE_PATH =>
      simp only [wp_bind]
      apply h.wp_of_quiet _ hs _ (fun e s hs => hraised e s hs) h.cut
      · apply (orDie_issues (issue_quiet (by trivial))).bind
        exact fun _ => orDie_issues (issue_quiet (by trivial))
      · intro _ s hs
        simp only [wp_bind]
        apply h.wp_of_quiet (issue_quiet (by trivial)) hs _ (fun e s hs => hraised e s hs) h.cut
        intro _ s hs
        simp only [swupdate, wp_bind]
        apply h.wp_of_quiet (issue_quiet (by trivial)) hs _ (fun e s hs => hraised e s hs) h.cut
        intro opened s hs
        cases opened with
        | false => exact hraised 25 s hs
        | true =>
            simp only [if_true]
            apply (h.wp_callHandlers hs hhandler).mono
            · intro ok s (hs : if ok = true then Inv s else End s)
              cases ok with
              | false => exact ⟨hs, fun hne => absurd rfl hne⟩
              | true =>
                  rw [if_pos rfl] at hs
                  change wp machine.traced adm (finishActivation dirs HEADER) _ s
                  apply h.wp_of_quiet (quiet_finishActivation _) hs
                  · exact fun _ _ hs => hs
                  · exact fun e s hs => hraised e s hs
                  · exact h.cut
            · exact fun e s hs => hraised e s hs
            · exact fun _ h => h

/-! ### The steps on the record -/

/-- The reply to a quiet call is put on the record. -/
theorem Kept.wp_issue {c : Call} {Q : Post Recorded Nat (Reply c)} (h : Kept Inv End Cut)
    (hc : Quiet c) (hs : Inv s) (hcut : ∀ s, Inv s → Q.cut s)
    (hreturned : ∀ x r d', (perform c x s.1) = (r, d') → Inv (d', s.2 ++ [⟨c, r⟩]) →
      Q.returned r (d', s.2 ++ [⟨c, r⟩])) :
  wp machine.traced adm (issue c) Q s
  := by
  rw [Prog.wp_issue]
  use hcut s hs
  intro x _
  exact hreturned x _ _ rfl (h.quiet c x s hc hs)

/-- What `$(cat file)` puts on the record. -/
theorem Kept.wp_cat {path : Text} {Q : Post Recorded Nat Text} (h : Kept Inv End Cut)
    (hs : Inv s) (hcut : ∀ s, Inv s → Q.cut s)
    (hreturned : ∀ r, (∀ text ∈ r, text = s.1.part_info path) →
      Inv (s.1, s.2 ++ [⟨.readFile path, r⟩]) →
      Q.returned ((r.map Text.chomp).getD []) (s.1, s.2 ++ [⟨.readFile path, r⟩])) :
  wp machine.traced adm (cat path) Q s
  := by
  simp only [cat, wp_bind]
  apply h.wp_issue (by trivial) hs hcut
  intro x r d' hperform hs'
  obtain ⟨hr, rfl⟩ := Prod.mk.inj hperform
  cases r with
  | none => exact hreturned none (by simp) hs'
  | some text =>
      apply hreturned (some text) _ hs'
      intro text' htext'
      obtain rfl := Option.some.inj htext'
      split at hr
      · exact (Option.some.inj hr).symm
      · contradiction

/-- The number of bytes in a file of the partition info that holds a number of KiB. -/
def bytesOfKiB (text : Text) : Nat :=
  text.chomp.decimalValue?.getD 0 * 1024

/-- The file of the partition info with a number of KiB. -/
def kibFile (dirs : Dirs) (part_name var_name : Text) : Text :=
  dirs.PART_INFO_DIR ++ "/MBL_".toList ++ stripVersion part_name ++ "_".toList ++ var_name
    ++ "_KiB".toList

/-- A size or an offset that is used was read from its file, and the file holds a numeral. -/
theorem Kept.wp_valueOrDie {part_name var_name : Text} {Q : Post Recorded Nat Nat}
    (h : Kept Inv End Cut) (hs : Inv s) (hcut : ∀ s, Inv s → Q.cut s)
    (hraised : ∀ s, Inv s → Q.raised 11 s)
    (hreturned : ∀ text, text = s.1.part_info (kibFile dirs part_name var_name) →
      text.chomp.isNumeral = true →
      Inv (s.1, s.2 ++ [⟨.readFile (kibFile dirs part_name var_name), some text⟩]) →
      Q.returned (bytesOfKiB text)
        (s.1, s.2 ++ [⟨.readFile (kibFile dirs part_name var_name), some text⟩])) :
  wp machine.traced adm (valueOrDie (getPartSizeVarB dirs part_name var_name)) Q s
  := by
  simp only [valueOrDie, getPartSizeVarB, wp_bind, wp_attempt]
  apply h.wp_cat hs hcut
  intro r hr hs'
  simp only [wp_bind, validatePositiveIntegerOrDie]
  split
  · next hnumeral =>
      cases r with
      | none => contradiction
      | some text => exact hreturned text (hr text rfl) hnumeral hs'
  · exact hraised _ hs'

end Swupdate
