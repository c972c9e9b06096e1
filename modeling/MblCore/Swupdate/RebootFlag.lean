import MblCore.Swupdate.Activate

/-!
# The flag that keeps the device from rebooting

`arm_update_activate.sh` creates the flag file before it calls swupdate, and every component but
the applications removes it when it is installed.  When the script exits with 0 the flag is
there just when it was created and every image held applications.
-/

namespace Swupdate

open Prog hiding pure throw bind

variable {dirs : Dirs} {adm : Call → Choice → Device → Prop} {d : Device}

/-! ### The installers exit with 0 only at their end -/

/-- A status that is not 0. -/
def Fails (status : Nat) : Prop :=
  status ≠ 0

/-- The program only exits early with a status that is not 0. -/
abbrev ExitsOnFailure {α : Type} (p : Script α) : Prop :=
  RaisesOnly Fails p

theorem exits_orDie {status : Nat} {command : Script Bool} (h : ExitsOnFailure command)
    (hstatus : status ≠ 0) :
  ExitsOnFailure (orDie status command)
  := by
  apply h.bind
  intro b
  split
  · trivial
  · exact hstatus

theorem exits_cat (path : Text) :
  ExitsOnFailure (cat path)
  := by
  apply RaisesOnly.bind (raisesOnly_issue _)
  intro r
  split <;> trivial

theorem exits_isPartSkipped (part_name : Text) :
  ExitsOnFailure (isPartSkipped dirs part_name)
  := (exits_cat _).bind fun _ => trivial

/-- The status of a subshell is handed on. -/
theorem exits_valueOrDie_getPartSizeVarB (part_name var_name : Text) :
  ExitsOnFailure (valueOrDie (getPartSizeVarB dirs part_name var_name))
  := by
  apply RaisesOnly.attempt_bind
  · apply (exits_cat _).bind
    intro size
    apply RaisesOnly.bind
    · unfold validatePositiveIntegerOrDie
      split
      · trivial
      · exact (by decide : (11 : Nat) ≠ 0)
    · exact fun _ => trivial
  · exact fun _ => trivial
  · exact fun _ h => h

theorem exits_writeToFlashOrDie (file : Text) (offset_B max_size_B : Nat) :
  ExitsOnFailure (writeToFlashOrDie file offset_B max_size_B)
  := by
  apply RaisesOnly.bind
  · apply RaisesOnly.bind (raisesOnly_issue _)
    intro r
    split
    · apply RaisesOnly.bind (raisesOnly_issue _)
      intro b
      split <;> trivial
    · trivial
  · intro r
    split
    · exact Nat.one_ne_zero
    · apply RaisesOnly.bind (raisesOnly_issue _)
      intro r
      split
      · exact (by decide : (59 : Nat) ≠ 0)
      · split
        · exact (by decide : (60 : Nat) ≠ 0)
        · exact exits_orDie (raisesOnly_issue _) (by decide)

theorem exits_removeDoNotRebootFlagOrDie :
  ExitsOnFailure (removeDoNotRebootFlagOrDie dirs)
  := exits_orDie (raisesOnly_issue _) (by decide)

theorem exits_copyDirOrDie (source_path mnt_point : Text) :
  ExitsOnFailure (copyDirOrDie source_path mnt_point)
  := by
  apply (exits_orDie (raisesOnly_issue _) (by decide)).bind
  intro _
  apply (exits_orDie (raisesOnly_issue _) (by decide)).bind
  intro _
  apply (exits_orDie (raisesOnly_issue _) (by decide)).bind
  exact fun _ => exits_orDie (raisesOnly_issue _) (by decide)

theorem exits_updateBootPartFromDirOrDie (part_name dir : Text) (size : Nat) (skip_ok : Bool) :
  ExitsOnFailure (updateBootPartFromDirOrDie dirs part_name dir size skip_ok)
  := by
  apply (exits_isPartSkipped _).bind
  intro skipped
  split
  · split
    · trivial
    · exact (by decide : (65 : Nat) ≠ 0)
  · apply (exits_valueOrDie_getPartSizeVarB _ _).bind
    intro max_size_B
    split
    · exact (by decide : (60 : Nat) ≠ 0)
    · apply RaisesOnly.bind (raisesOnly_issue _)
      intro mount_point
      split
      · exact (by decide : (31 : Nat) ≠ 0)
      · exact (by decide : (31 : Nat) ≠ 0)
      · apply (exits_copyDirOrDie _ _).bind
        exact fun _ => exits_removeDoNotRebootFlagOrDie

/-! ### The installers remove the flag -/

/-- An installer that comes to its end has removed the flag. -/
def FlagRemoved (dirs : Dirs) : Post Device Nat Unit where
  returned _ d := doNotRebootPath dirs ∉ d.flags
  raised status _ := Fails status
  cut _ := True

theorem flagRemoved_bind {α : Type} {p : Script α} {f : α → Script Unit} (hp : ExitsOnFailure p)
    (hf : ∀ a d, wp machine adm (f a) (FlagRemoved dirs) d) :
  wp machine adm (p >>= f) (FlagRemoved dirs) d
  := wp_bind_of_raisesOnly hp hf (fun _ _ h => h) (fun _ => trivial)

theorem wp_removeDoNotRebootFlagOrDie (d : Device) :
  wp machine adm (removeDoNotRebootFlagOrDie dirs) (FlagRemoved dirs) d
  := by
  simp only [removeDoNotRebootFlagOrDie, orDie, wp_bind, wp_issue]
  use trivial
  intro x _
  cases hok : x.ok with
  | false =>
      simp only [machine, perform, hok]
      exact (by decide : (18 : Nat) ≠ 0)
  | true =>
      simp only [machine, perform, hok]
      change doNotRebootPath dirs ∉ (d.removeFlag (doNotRebootPath dirs)).flags
      simp

theorem wp_updateBootloaderOrDie (path : Text) (d : Device) :
  wp machine adm (updateBootloaderOrDie dirs path) (FlagRemoved dirs) d
  := by
  apply flagRemoved_bind (exits_isPartSkipped _)
  intro skipped d
  dsimp only
  split
  · exact (by decide : (32 : Nat) ≠ 0)
  · apply flagRemoved_bind (exits_valueOrDie_getPartSizeVarB _ _)
    intro max_size_B d
    apply flagRemoved_bind (exits_valueOrDie_getPartSizeVarB _ _)
    intro offset_B d
    apply flagRemoved_bind (exits_orDie (raisesOnly_issue _) (by decide))
    intro _ d
    apply flagRemoved_bind (exits_writeToFlashOrDie _ _ _)
    intro _ d
    exact wp_removeDoNotRebootFlagOrDie d

theorem wp_updateBootOrDie (path : Text) (d : Device) :
  wp machine adm (updateBootOrDie dirs path) (FlagRemoved dirs) d
  := by
  apply flagRemoved_bind (exits_orDie (raisesOnly_issue _) (by decide))
  intro _ d
  apply flagRemoved_bind (exits_orDie (raisesOnly_issue _) (by decide))
  intro _ d
  apply flagRemoved_bind
  · apply RaisesOnly.bind (raisesOnly_issue _)
    intro text
    split
    · split <;> trivial
    · trivial
  · intro size d
    split
    · exact (by decide : (59 : Nat) ≠ 0)
    · apply flagRemoved_bind (exits_updateBootPartFromDirOrDie _ _ _ _)
      intro _ d
      apply flagRemoved_bind (exits_updateBootPartFromDirOrDie _ _ _ _)
      intro _ d
      exact wp_removeDoNotRebootFlagOrDie d

/-! ### The handlers -/

/-- What is asked of a handler that returns 0. -/
def WhenZero (P : Device → Prop) : Post Device Nat Int where
  returned rc d := rc = 0 → P d
  raised _ _ := False
  cut _ := True

/-- The handler of a kind whose installer removes the flag. -/
theorem wp_runLua_flag {h : Lua.Handler} {image : Img} (hpassed : PassedOn dirs h image)
    (hinstaller : ∀ path d, wp machine adm (installer dirs h path) (FlagRemoved dirs) d) :
  wp machine adm (runLua dirs h image) (WhenZero fun d' => doNotRebootPath dirs ∉ d'.flags) d
  := by
  simp only [runLua_eq hpassed, saveAndInstall, wp_bind, wp_issue]
  use trivial
  intro x _
  split
  · simp only [wp_bind, wp_attempt]
    apply (hinstaller _ _).mono
    · intro _ d' hgone _
      exact hgone
    · intro status d' hfails
      cases status with
      | zero => exact absurd rfl hfails
      | succ status => exact fun h => absurd h (by decide)
    · exact fun _ h => h
  · exact fun h => absurd h (by decide)

/-- Applications are installed without a look at the flag. -/
theorem wp_apps {image : Img} (hpassed : PassedOn dirs .apps image) :
  wp machine adm (apps dirs image) (WhenZero fun d' => d'.flags = d.flags) d
  := by
  simp only [apps, runLua_eq hpassed, saveAndInstall, installer, updateAppsOrDie, wp_bind, wp_issue]
  use trivial
  intro x _
  split
  · simp only [wp_bind, wp_attempt, wp_issue]
    use trivial
    intro y _
    split
    · exact fun h => absurd h (by decide)
    · exact fun _ => rfl
  · exact fun h => absurd h (by decide)

theorem wp_rootfsv4Handler_flag (image : Img) :
  wp machine adm (rootfsv4Handler dirs copyImageAndSync image)
    (WhenZero fun d' => doNotRebootPath dirs ∉ d'.flags) d
  := by
  rw [rootfsv4Handler, wp_bind]
  apply wp_findUpdateTarget
  · trivial
  · exact fun h => absurd h (by decide)
  · intro e path1 path2 target _ _ _ _
    simp only [copyImageAndSync, wp_bind, wp_issue]
    use trivial
    intro x _
    split
    · exact fun h => absurd h (by decide)
    · simp only [wp_bind, wp_issue]
      use trivial
      intro y _
      use trivial
      intro z _
      split
      · apply wp_selectTarget_done.of_returned
        intro rc d' h hzero
        exact (h hzero).doNotReboot
      · exact fun h => absurd h (by decide)

/-- A handler that returns 0 leaves the flag where it is just when the image holds
applications. -/
theorem wp_callHandler_flag {image : PayloadImage} (hpassed : image.PassedOn dirs) :
  wp machine adm (callHandler dirs image)
    (WhenZero fun d' =>
      doNotRebootPath dirs ∈ d'.flags ↔ doNotRebootPath dirs ∈ d.flags ∧ image.type = .APPS) d
  := by
  have hremoved {p : Script Int} (htype : image.type ≠ .APPS)
      (hp : wp machine adm p (WhenZero fun d' => doNotRebootPath dirs ∉ d'.flags) d) :
      wp machine adm p (WhenZero fun d' => doNotRebootPath dirs ∈ d'.flags ↔
        doNotRebootPath dirs ∈ d.flags ∧ image.type = .APPS) d := by
    apply hp.of_returned
    intro rc d' h hzero
    simp [h hzero, htype]
  unfold PayloadImage.PassedOn at hpassed
  unfold callHandler
  split
  · next htype =>
      apply hremoved (by simp [htype])
      apply wp_rootfsv4Handler_flag
  · next htype =>
      apply hremoved (by simp [htype])
      exact wp_runLua_flag (hpassed .boot (by rw [htype]; rfl)) wp_updateBootOrDie
  · next htype =>
      apply hremoved (by simp [htype])
      exact wp_runLua_flag (hpassed .wks_bootloader1 (by rw [htype]; rfl)) wp_updateBootloaderOrDie
  · next htype =>
      apply hremoved (by simp [htype])
      exact wp_runLua_flag (hpassed .wks_bootloader2 (by rw [htype]; rfl)) wp_updateBootloaderOrDie
  · next htype =>
      apply (wp_apps (hpassed .apps (by rw [htype]; rfl))).of_returned
      intro rc d' h hzero
      simp [h hzero, htype]

/-- A handler in Lua raises nothing, whatever the image is called. -/
theorem raisesOnly_runLua (h : Lua.Handler) (image : Img) :
  RaisesOnly (fun _ => False) (runLua dirs h image)
  := by
  apply raisesOnly_interpret
  intro c
  cases c with
  | copy2file img_path =>
      rw [answerLua]
      split <;> exact (raisesOnly_issue _).bind fun _ => raisesOnly_pure _
  | execute cmd =>
      rw [answerLua]
      apply RaisesOnly.bind
      · unfold sh
        split
        · apply (raisesOnly_attempt _).bind
          intro result
          split <;> exact raisesOnly_pure _
        · exact raisesOnly_issue _
      · exact fun _ => raisesOnly_pure _

theorem raisesOnly_callHandler {image : PayloadImage} (hpassed : ¬ image.PassedOn dirs) :
  RaisesOnly (fun _ => False) (callHandler dirs image)
  := by
  obtain ⟨type, image⟩ := image
  cases type with
  | ROOTFS => exact absurd (fun _ hh => by cases hh) hpassed
  | BOOT | WKS_BOOTLOADER1 | WKS_BOOTLOADER2 | APPS => exact raisesOnly_runLua _ image

/-- Every image that is not passed on comes before one that is and that does not hold
applications. -/
def DecidedByPassedOn (dirs : Dirs) : List PayloadImage → Prop
  | [] => True
  | image :: images =>
      (image.PassedOn dirs ∨ ∃ later ∈ images, later.PassedOn dirs ∧ later.type ≠ .APPS)
        ∧ DecidedByPassedOn dirs images

theorem decidedByPassedOn_of_all {images : List PayloadImage} (h : AllPassedOn dirs images) :
  DecidedByPassedOn dirs images
  := by
  induction images with
  | nil => trivial
  | cons image images ih =>
      obtain ⟨hfirst, hrest⟩ := List.forall_mem_cons.mp h
      exact ⟨Or.inl hfirst, ih hrest⟩

/-- When every handler has returned 0, the flag is where it was just when all images hold
applications. -/
theorem wp_callHandlers_flag {images : List PayloadImage} (hdecided : DecidedByPassedOn dirs images)
    (d : Device) :
  wp machine adm (callHandlers dirs images)
    { returned := fun done d' => done = true → (doNotRebootPath dirs ∈ d'.flags ↔
        doNotRebootPath dirs ∈ d.flags ∧ ∀ image ∈ images, image.type = .APPS)
      raised := fun _ _ => False
      cut := fun _ => True } d
  := by
  induction images generalizing d with
  | nil =>
      simp only [callHandlers, wp_bind, wp_issue]
      use trivial
      intro x _ _
      simp [machine, perform]
  | cons image images ih =>
      obtain ⟨hdecides, hdecided⟩ := hdecided
      by_cases hpassed : image.PassedOn dirs
      · rw [callHandlers, wp_bind]
        apply (wp_callHandler_flag hpassed).of_returned
        intro rc d₁ hfirst
        split
        · exact fun h => absurd h (by decide)
        · next hzero =>
            have hfirst : doNotRebootPath dirs ∈ d₁.flags ↔
                doNotRebootPath dirs ∈ d.flags ∧ image.type = .APPS := hfirst (not_not.mp hzero)
            apply (ih hdecided d₁).of_returned
            intro done d' hrest hdone
            rw [hrest hdone, hfirst, List.forall_mem_cons, and_assoc]
      · -- what this image does to the flag does not matter, since a later one removes it
        obtain ⟨later, hlater, -, htype⟩ := hdecides.resolve_left hpassed
        rw [callHandlers]
        apply wp_bind_of_raisesOnly (raisesOnly_callHandler hpassed) _ (fun _ _ h => h)
          (fun _ => trivial)
        intro rc d₁
        split
        · exact fun h => absurd h (by decide)
        · apply (ih hdecided d₁).of_returned
          intro done d' hrest hdone
          rw [hrest hdone]
          constructor
          · exact fun h => absurd (h.2 later hlater) htype
          · exact fun h => absurd (h.2 later (List.mem_cons_of_mem image hlater)) htype

/-! ### The script -/

/-- Once swupdate is done, nothing is done to the flags. -/
theorem wp_finishActivation_flag (HEADER : Text) (d : Device) :
  wp machine adm (finishActivation dirs HEADER)
    { returned := fun _ d' => d'.flags = d.flags
      raised := fun status _ => Fails status
      cut := fun _ => True } d
  := by
  simp only [finishActivation, saveHeaderOrDie, orDie, wp_bind, wp_issue]
  use trivial
  intro x _
  split
  · use trivial
    intro y _
    change wp machine adm (if _ then _ else _) _ _
    split
    · simp only [wp_bind, wp_issue]
      use trivial
      intro z _
      unfold exitOnError
      split
      · assumption
      · rfl
    · rfl
  · exact (by decide : (21 : Nat) ≠ 0)

/-- The script from the call of swupdate on. -/
def fromSwupdate (dirs : Dirs) (HEADER FIRMWARE_PATH : Text) (images : List PayloadImage) :
    Script Unit := do
  if ← swupdate dirs FIRMWARE_PATH images then finishActivation dirs HEADER else .throw 25

theorem wp_fromSwupdate (HEADER FIRMWARE_PATH : Text) {images : List PayloadImage}
    (hdecided : DecidedByPassedOn dirs images) (d : Device) :
  wp machine adm (fromSwupdate dirs HEADER FIRMWARE_PATH images)
    { returned := fun _ d' => doNotRebootPath dirs ∈ d'.flags ↔
        doNotRebootPath dirs ∈ d.flags ∧ ∀ image ∈ images, image.type = .APPS
      raised := fun status _ => Fails status
      cut := fun _ => True } d
  := by
  have hfails : Fails 25 := (by decide : (25 : Nat) ≠ 0)
  simp only [fromSwupdate, swupdate, wp_bind, wp_issue]
  use trivial
  intro x _
  split
  · apply (wp_callHandlers_flag hdecided _).mono
    · intro done d₁ hflag
      dsimp only
      split
      · next hdone =>
          apply (wp_finishActivation_flag HEADER d₁).of_returned
          intro _ d' hsame
          have hsame : d'.flags = d₁.flags := hsame
          rw [hsame]
          exact hflag hdone
      · exact hfails
    · exact fun _ _ h => h.elim
    · exact fun _ h => h
  · exact hfails

/-- The flag file is there after the script was to create it: `touch`, the fourth call of the
script, succeeded, or the file was there before. -/
def FlagCreated (dirs : Dirs) (xs : List Choice) (d : Device) : Prop :=
  doNotRebootPath dirs ∈ d.flags ∨ ∃ x ∈ xs[3]?, x.ok = true

/-- The script exits early only with a status that is not 0, and when it comes to its end, the
flag is there just when it was created and all images hold applications. -/
def FlagRight (dirs : Dirs) (images : List PayloadImage) (d : Device) (xs : List Choice) :
    Post Device Nat Unit where
  returned _ d' := doNotRebootPath dirs ∈ d'.flags ↔
    FlagCreated dirs xs d ∧ ∀ image ∈ images, image.type = .APPS
  raised status _ := Fails status
  cut _ := True

/-- A command that changes nothing lets the script go on or makes it exit. -/
theorem run_orDie {command : Script Bool} {x : Choice} {xs : List Choice} {d : Device} (status : Nat)
    (hcommand : run machine command (x :: xs) d = (.returned x.ok, xs, d)) :
  run machine (orDie status command) (x :: xs) d
    = (if x.ok then .returned () else .raised status, xs, d)
  := by
  rw [orDie, run_bind, hcommand]
  cases x.ok <;> rfl

/-- The temporary directory is set up with two calls. -/
theorem run_setUpPayloadTmpDirOrDie (xs : List Choice) (d : Device) :
  (∃ x y rest, xs = x :: y :: rest
      ∧ run machine (setUpPayloadTmpDirOrDie dirs) xs d = (.returned (), rest, d))
    ∨ (∃ status rest, Fails status
      ∧ run machine (setUpPayloadTmpDirOrDie dirs) xs d = (.raised status, rest, d))
    ∨ run machine (setUpPayloadTmpDirOrDie dirs) xs d = (.cut, [], d)
  := by
  rw [setUpPayloadTmpDirOrDie, run_bind]
  cases xs with
  | nil => exact Or.inr (Or.inr rfl)
  | cons x xs =>
      rw [run_orDie 22 rfl]
      cases x.ok with
      | false => exact Or.inr (Or.inl ⟨22, xs, (by decide : (22 : Nat) ≠ 0), rfl⟩)
      | true =>
          cases xs with
          | nil => exact Or.inr (Or.inr rfl)
          | cons y xs =>
              simp only [if_true]
              rw [run_orDie 23 rfl]
              cases y.ok with
              | false => exact Or.inr (Or.inl ⟨23, xs, (by decide : (23 : Nat) ≠ 0), rfl⟩)
              | true => exact Or.inl ⟨x, y, xs, rfl, rfl⟩

/-- Up to its fourth call the script changes nothing, and an early exit has a status that is not
0. -/
theorem flagRight_armUpdateActivate (HEADER FIRMWARE : Text) {images : List PayloadImage}
    (hdecided : DecidedByPassedOn dirs images) (xs : List Choice) (d : Device) :
  (FlagRight dirs images d xs).Holds
    (run machine (armUpdateActivate dirs HEADER FIRMWARE images) xs d).1
    (run machine (armUpdateActivate dirs HEADER FIRMWARE images) xs d).2.2
  := by
  cases xs with
  | nil => trivial
  | cons x xs =>
      cases hreal : x.ok with
      | false =>
          have hrun : run machine (armUpdateActivate dirs HEADER FIRMWARE images) (x :: xs) d
              = (.raised 24, xs, d) := by
            simp [armUpdateActivate, run_bind, Prog.issue, run, machine, perform, hreal]
          rw [hrun]
          exact (by decide : (24 : Nat) ≠ 0)
      | true =>
          have hrun : run machine (armUpdateActivate dirs HEADER FIRMWARE images) (x :: xs) d
              = run machine (do
                  setUpPayloadTmpDirOrDie dirs
                  issue (.touch (doNotRebootPath dirs))
                  fromSwupdate dirs HEADER x.text images) xs d := by
            simp [armUpdateActivate, fromSwupdate, run_bind, Prog.issue, run, machine, perform, hreal]
          rw [hrun, run_bind]
          obtain ⟨y, z, rest, rfl, hset⟩ | ⟨status, rest, hfails, hset⟩ | hset :=
            run_setUpPayloadTmpDirOrDie xs d
          · rw [hset]
            cases rest with
            | nil => trivial
            | cons t rest =>
                have hobeys : Obeys machine (fun _ _ _ => True)
                    (fromSwupdate dirs HEADER x.text images) rest (perform (.touch (doNotRebootPath dirs)) t d).2 := obeys_true
                have hends := holds_of_wp (wp_fromSwupdate HEADER x.text hdecided _) hobeys
                have hcreated : doNotRebootPath dirs ∈
                    (perform (.touch (doNotRebootPath dirs)) t d).2.flags ↔
                      FlagCreated dirs (x :: y :: z :: t :: rest) d := by
                  cases hok : t.ok <;> simp [perform, FlagCreated, hok]
                rw [hcreated] at hends
                exact hends
          · rw [hset]
            exact hfails
          · rw [hset]
            trivial

end Swupdate
