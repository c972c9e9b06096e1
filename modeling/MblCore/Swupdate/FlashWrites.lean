import MblCore.Swupdate.AbSafety
import MblCore.Swupdate.Writes

/-!
# Writes to the flash

`bootloader_installer.sh` writes a boot loader to the disk itself, past every file system, at an
offset it reads from the partition info.  A write at a wrong place would destroy the device.  In
every activation, whatever fails and wherever it is cut, a write comes right after the steps that
make it safe, and it stays within the bounds of the partition that the file name of the image
names.
-/

namespace Swupdate

open Prog

variable {dirs : Dirs} {images : List PayloadImage}

/-! ### What precedes a write -/

/-- The file of the partition info that tells whether a partition is skipped. -/
def skipFile (dirs : Dirs) (part_name : Text) : Text :=
  dirs.PART_INFO_DIR ++ "/MBL_".toList ++ stripVersion part_name ++ "_SKIP".toList

def sizeFile (dirs : Dirs) (part_name : Text) : Text :=
  kibFile dirs part_name "SIZE".toList

def offsetFile (dirs : Dirs) (part_name : Text) : Text :=
  kibFile dirs part_name ("OFFSET_BANK".toList ++ Text.decimal 1)

/-- The disk the root partition is on, by the lines of `lsblk`. -/
def rootDisk (lines : List (Text × Text)) : Text :=
  "/dev/".toList ++ "\n".toList.intercalate
    ((lines.filter fun line => line.1 == "/".toList).map (·.2))

/-- What is on the record in front of a write: the image was saved, the partition info was read,
the image was decompressed, and the disk and the size of the decompressed image were found. -/
def stepsToWrite (dirs : Dirs) (part_info : Text → Text) (image : Img) (skip : Option Text)
    (lines : List (Text × Text)) (size : Nat) : Record :=
  let path := savedPath dirs image
  let part_name := basenameXz path
  [⟨.copy2file image path, true⟩,
    ⟨.readFile (skipFile dirs part_name), skip⟩,
    ⟨.readFile (sizeFile dirs part_name), some (part_info (sizeFile dirs part_name))⟩,
    ⟨.readFile (offsetFile dirs part_name), some (part_info (offsetFile dirs part_name))⟩,
    ⟨.xzcat path (stripXz path), true⟩,
    ⟨.lsblk, some lines⟩,
    ⟨.testB (rootDisk lines), true⟩,
    ⟨.wcC (stripXz path), some size⟩]

/-- The write of the decompressed image to the disk. -/
structure IsWrite (dirs : Dirs) (images : List PayloadImage) (part_info : Text → Text)
    (image : Img) (skip : Option Text) (lines : List (Text × Text)) (size : Nat)
    (src device : Text) (seek : Nat) : Prop where
  bootloader : ForBootloader images image
  not_skipped : (skip.map Text.chomp).getD [] ≠ "1".toList
  src : src = stripXz (savedPath dirs image)
  device : device = rootDisk lines
  seek : seek = bytesOfKiB (part_info (offsetFile dirs (basenameXz (savedPath dirs image))))
  size_le : size ≤ bytesOfKiB (part_info (sizeFile dirs (basenameXz (savedPath dirs image))))
  offset_isNumeral :
    (part_info (offsetFile dirs (basenameXz (savedPath dirs image)))).chomp.isNumeral = true
  size_isNumeral :
    (part_info (sizeFile dirs (basenameXz (savedPath dirs image)))).chomp.isNumeral = true

/-- A write to the flash comes right after the steps to it, and stays within its partition.  Calls
that might write anything are not made. -/
def WritePrepared (dirs : Dirs) (images : List PayloadImage) (part_info : Text → Text)
    (before : Record) : Call → Prop
  | .dd src device seek =>
      ∃ earlier image skip lines size,
        before = earlier ++ stepsToWrite dirs part_info image skip lines size
          ∧ IsWrite dirs images part_info image skip lines size src device seek
  | .copyElsewhere _ _ | .commandLine _ => False
  | _ => True

/-! ### The installer of boot loaders -/

/-- The partition info is as it was, and every write was prepared. -/
def FlashSafe (dirs : Dirs) (images : List PayloadImage) (part_info : Text → Text)
    (s : Recorded) : Prop :=
  s.1.part_info = part_info ∧ EveryCall (WritePrepared dirs images part_info) s.2

variable {part_info : Text → Text} {adm : Call → Choice → Recorded → Prop} {s : Recorded}

/-- A prepared call does not change the partition info. -/
theorem part_info_perform {before : Record} {c : Call} (x : Choice) (d : Device)
    (hc : WritePrepared dirs images part_info before c) :
  (perform c x d).2.part_info = d.part_info
  := by
  cases c with
  | copyElsewhere _ _ | commandLine _ => exact hc.elim
  | openCreat path =>
      simp only [perform, Device.addFlag]
      split
      · split <;> rfl
      · rfl
  | touch path =>
      simp only [perform, Device.addFlag]
      split
      · split <;> rfl
      · rfl
  | remove path =>
      simp only [perform]
      split
      · split <;> rfl
      · rfl
  | rmF path =>
      simp only [perform]
      split <;> rfl
  | _ => rfl

/-- A call that is no write, or a write that is prepared, keeps the flash safe. -/
theorem FlashSafe.perform {c : Call} (x : Choice) (h : FlashSafe dirs images part_info s)
    (hc : WritePrepared dirs images part_info s.2 c) :
  FlashSafe dirs images part_info (machine.traced.perform c x s).2
  := by
  constructor
  · exact (part_info_perform x s.1 hc).trans h.1
  · exact everyCall_concat.mpr ⟨h.2, hc⟩

theorem kept_flashSafe :
  Kept (FlashSafe dirs images part_info) (FlashSafe dirs images part_info)
    (FlashSafe dirs images part_info)
  := by
  constructor
  · intro c x s hc hs
    apply hs.perform
    cases c with
    | dd _ _ _ | copyElsewhere _ _ | commandLine _ => exact hc.elim
    | _ => trivial
  · exact fun _ hs => hs
  · exact fun _ hs => hs

/-- `write_to_flash_or_die` writes to the disk it has found, what it has measured. -/
theorem wp_writeToFlashOrDie {file : Text} {offset_B max_size_B : Nat} {Q : Post Recorded Nat Unit}
    (hs : FlashSafe dirs images part_info s)
    (hcut : ∀ s, FlashSafe dirs images part_info s → Q.cut s)
    (hraised : ∀ e s, FlashSafe dirs images part_info s → Q.raised e s)
    (hreturned : ∀ s, FlashSafe dirs images part_info s → Q.returned () s)
    (hwrite : ∀ lines size, size ≤ max_size_B → WritePrepared dirs images part_info
      (s.2 ++ [⟨.lsblk, some lines⟩, ⟨.testB (rootDisk lines), true⟩, ⟨.wcC file, some size⟩])
      (.dd file (rootDisk lines) offset_B)) :
  wp machine.traced adm (writeToFlashOrDie file offset_B max_size_B) Q s
  := by
  simp only [writeToFlashOrDie, getDeviceForMblPartitions, wp_bind]
  apply kept_flashSafe.wp_issue (by trivial) hs hcut
  rintro - lines d₁ - hs
  cases lines with
  | none => exact hraised _ _ hs
  | some lines =>
      simp only [wp_bind]
      apply kept_flashSafe.wp_issue (by trivial) hs hcut
      rintro - found d₂ - hs
      cases found with
      | false => exact hraised _ _ hs
      | true =>
          simp only [if_true, wp_pure, wp_bind]
          apply kept_flashSafe.wp_issue (by trivial) hs hcut
          rintro - size d₃ - hs
          cases size with
          | none => exact hraised _ _ hs
          | some size =>
              simp only
              split
              · exact hraised _ _ hs
              · next hsize =>
                  simp only [orDie, wp_bind]
                  apply Prog.wp_issue.mpr
                  use hcut _ hs
                  intro x _
                  have hprepared := hwrite lines size (Nat.not_lt.mp hsize)
                  have hwritten := hs.perform x (c := .dd file (rootDisk lines) offset_B) (by
                    rw [List.append_assoc, List.append_assoc]
                    exact hprepared)
                  simp only
                  split
                  · exact hreturned _ hwritten
                  · exact hraised _ _ hwritten

/-- The installer of boot loaders writes the image it was given, where the partition info says. -/
theorem wp_updateBootloaderOrDie_prepared {image : Img} (himage : ForBootloader images image)
    (hs : FlashSafe dirs images part_info s) (hsaved : JustSaved dirs image s) :
  wp machine.traced adm (updateBootloaderOrDie dirs (savedPath dirs image))
    (AfterInstaller (FlashSafe dirs images part_info) (FlashSafe dirs images part_info)
      (FlashSafe dirs images part_info)) s
  := by
  have hraised (e : Nat) (s : Recorded) (hs : FlashSafe dirs images part_info s) :
      FlashSafe dirs images part_info s ∧ (e = 0 → FlashSafe dirs images part_info s) :=
    ⟨hs, fun _ => hs⟩
  obtain ⟨earlier, hsaved⟩ := hsaved
  have hpart_info := hs.1
  simp only [updateBootloaderOrDie, isPartSkipped, wp_bind]
  apply kept_flashSafe.wp_cat hs fun _ h => h
  intro skip _ hs
  simp only [wp_pure]
  split
  · exact hraised 32 _ hs
  · next hnot_skipped =>
      simp only [wp_bind, getPartSizeB]
      apply kept_flashSafe.wp_valueOrDie hs (fun _ h => h) (hraised 11)
      rintro _ rfl hsize_isNumeral hs
      simp only [wp_bind, getPartOffsetB]
      apply kept_flashSafe.wp_valueOrDie hs (fun _ h => h) (hraised 11)
      rintro _ rfl hoffset_isNumeral hs
      simp only [wp_bind, decompressOrDie, orDie]
      apply kept_flashSafe.wp_issue (by trivial) hs fun _ h => h
      rintro - decompressed d₄ - hs
      cases decompressed with
      | false => exact hraised 17 _ hs
      | true =>
          simp only [if_true, wp_pure, wp_bind]
          apply wp_writeToFlashOrDie hs
          · exact fun _ h => h
          · exact hraised
          · intro s hs
            apply kept_flashSafe.wp_installer_of_quiet _ hs
            exact quiet_of_prepares prepares_removeDoNotRebootFlagOrDie
          · intro lines size hfits
            rw [hpart_info] at *
            use earlier, image, skip, lines, size
            constructor
            · rw [hsaved]
              simp only [stepsToWrite, List.append_assoc, List.cons_append, List.nil_append]
              rfl
            · exact {
                bootloader := himage
                not_skipped := by simpa using hnot_skipped
                src := rfl
                device := rfl
                seek := rfl
                size_le := hfits
                offset_isNumeral := hoffset_isNumeral
                size_isNumeral := hsize_isNumeral }

/-! ### The activation -/

/-- In every activation, whatever succeeds or fails and wherever it is cut, every write to the
flash is that of a decompressed boot loader image of the payload to the disk the root is on.  It
comes right after the steps that prepare it, and begins and ends within the region that the
partition info gives to the partition named by the image. -/
theorem writes_prepared (HEADER FIRMWARE : Text) {images : List PayloadImage}
    (hpassed : AllPassedOn dirs images) (choices : List Choice) (d : Device) :
  EveryCall (WritePrepared dirs images d.part_info)
    (run machine.traced (armUpdateActivate dirs HEADER FIRMWARE images) choices (d, [])).2.2.2
  := by
  have hwp : wp machine.traced (fun _ _ _ => True) (armUpdateActivate dirs HEADER FIRMWARE images)
      (Post.always (FlashSafe dirs images d.part_info)) (d, []) := by
    apply (kept_flashSafe.wp_armUpdateActivate hpassed ⟨rfl, everyCall_nil⟩ _ _).mono
    · exact fun _ _ hs => hs
    · exact fun _ _ hs => hs.1
    · exact fun _ hs => hs
    · exact fun image s himage hs hsaved => wp_updateBootloaderOrDie_prepared himage hs hsaved
    · intro image s hs
      apply (wp_of_issues _ (bootCalls_updateBootOrDie _) _ hs).mono
      · exact fun _ _ hs => hs
      · exact fun _ _ hs => ⟨hs, fun _ => hs⟩
      · exact fun _ hs => hs
      · intro c x s hc _ hs
        apply hs.perform
        cases c with
        | dd _ _ _ | copyElsewhere _ _ | commandLine _ =>
            rcases hc with hc | hc
            · exact hc.elim
            · contradiction
        | _ => trivial
  exact (of_wp_always hwp obeys_true).2

/-- A payload with a boot loader. -/
def bootloaderPayload : List PayloadImage :=
  [⟨.WKS_BOOTLOADER1, ⟨"WKS_BOOTLOADER1v3.xz".toList, 1⟩⟩]

/-- A device all of whose sizes and offsets are eight KiB. -/
def eightKiBDevice : Device :=
  { AbSafety.freshBoard.device with part_info := fun _ => "8".toList }

/-- Everything succeeds, and the root partition is on the given disk. -/
def grantedOnDisk : List Choice :=
  List.replicate 20 { ok := true, lines := [("/".toList, "mmcblk1".toList)] }

/-- A boot loader is written to the flash. -/
theorem writes_prepared_bootloader :
  let record := (run machine.traced (armUpdateActivate AbSafety.boardDirs [] [] bootloaderPayload)
    grantedOnDisk (eightKiBDevice, [])).2.2.2
  ⟨.dd "/scratch/arm_update_activate/WKS_BOOTLOADER1v3".toList "/dev/mmcblk1".toList 8192, true⟩
      ∈ record
    ∧ EveryCall (WritePrepared AbSafety.boardDirs bootloaderPayload eightKiBDevice.part_info) record
  := by
  have hpassed : AllPassedOn AbSafety.boardDirs bootloaderPayload := by
    intro image himage h hh
    obtain rfl := List.mem_singleton.mp himage
    obtain rfl := Option.some.inj hh
    constructor <;> decide
  constructor
  · exact List.mem_of_getElem? (i := 13) rfl
  · exact writes_prepared [] [] hpassed grantedOnDisk eightKiBDevice

end Swupdate
