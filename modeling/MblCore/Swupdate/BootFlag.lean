import MblCore.Swupdate.RootfsHandler
import MblCore.Swupdate.TargetPartition

/-!
# The boot flag and the partition written

The handler for root file system images looks at the number of the mounted bank to find its
target, and at the end of the target to set the boot flag.  The flag agrees with the partition
the image was copied to, unless the number of bank 1 ends in that of bank 2 and bank 2 is
mounted.
-/

namespace Swupdate

open Text

variable {dirs : Dirs} {d : Device} {base b1 b2 n mounted : Text} {img : Img}

/-- The device files images were copied to, in order. -/
def copiedTo (record : Record) : List Text :=
  record.filterMap fun e =>
    match e.1 with
    | .copyimage _ device => some device
    | _ => none

/-- One image was copied, and the boot flag is set just when it went to the partition of
bank 2. -/
def FlagAgrees (dirs : Dirs) (base b2 : Text) (s : Recorded) : Prop :=
  ∃ target, copiedTo s.2 = [target] ∧
    (rootfs2Path dirs ∈ s.1.flags ↔ target = partitionPath base b2)

/-- The device runs from the partition `mounted`, and its banks have the numbers `b1` and `b2`. -/
structure Boots (dirs : Dirs) (mounted b1 b2 : Text) (d : Device) : Prop where
  root : ∀ e, d.mtab.find? (fun e => e.mnt_dir == "/".toList) = some e → e.mnt_fsname = mounted
  bank1 : ∀ path, getPartInfoFilepath dirs "MBL_ROOT_FS_PART_NUMBER_BANK1".toList PATH_MAX
    = some path → d.part_info path = b1
  bank2 : ∀ path, getPartInfoFilepath dirs "MBL_ROOT_FS_PART_NUMBER_BANK2".toList PATH_MAX
    = some path → d.part_info path = b2

/-! ### What the handler has done when it returns 0 -/

/-- A call that copies no image adds nothing. -/
theorem copiedTo_concat {record : Record} {c : Call} {r : Reply c}
    (hc : ∀ img device, c ≠ .copyimage img device) :
  copiedTo (record ++ [⟨c, r⟩]) = copiedTo record
  := by
  simp only [copiedTo, List.filterMap_append]
  cases c with
  | copyimage img device => exact absurd rfl (hc img device)
  | _ => simp

/-- The image was copied to the target, and the boot flag tells how its path ends. -/
def Selected (dirs : Dirs) (mounted b1 b2 : Text) (s : Recorded) : Prop :=
  ∃ target, findTargetPartition mounted b1 b2 MAX_DEVICE_FILE_PATH = some target ∧
    copiedTo s.2 = [target] ∧ (rootfs2Path dirs ∈ s.1.flags ↔ strEndswith b2 target = true)

theorem wp_copyImageAndSync_traced {target : Text} {record : Record}
    (hnone : copiedTo record = []) :
  Prog.wp machine.traced (fun _ _ _ => True) (copyImageAndSync img target)
    { returned := fun rc s => rc ≠ -1 → copiedTo s.2 = [target]
      raised := fun _ _ => False
      cut := fun _ => True } (d, record)
  := by
  simp only [copyImageAndSync, Prog.wp_bind, Prog.wp_issue]
  use trivial
  intro x _
  split
  · exact fun h => absurd rfl h
  · simp only [Prog.wp_bind, Prog.wp_issue]
    use trivial
    intro y _
    use trivial
    intro z _
    split
    · intro _
      simp [copiedTo, Prog.Machine.traced] at hnone ⊢
      exact hnone
    · exact fun h => absurd rfl h

theorem wp_findUpdateTarget_traced (hd : Boots dirs mounted b1 b2 d) :
  Prog.wp machine.traced (fun _ _ _ => True) (findUpdateTarget dirs)
    { returned := fun r s => copiedTo s.2 = [] ∧ ∀ target number, r = some (target, number) →
        findTargetPartition mounted b1 b2 MAX_DEVICE_FILE_PATH = some target ∧ number = b2
      raised := fun _ _ => False
      cut := fun _ => True } (d, [])
  := by
  have hfind : Prog.wp machine (fun _ _ _ => True) (findUpdateTarget dirs)
      { returned := fun r _ => ∀ target number, r = some (target, number) →
          findTargetPartition mounted b1 b2 MAX_DEVICE_FILE_PATH = some target ∧ number = b2
        raised := fun _ _ => False
        cut := fun _ => True } d := by
    apply wp_findUpdateTarget
    · trivial
    · simp
    · intro e path1 path2 target he hpath1 hpath2 htarget
      rintro _ _ ⟨⟩
      rw [hd.root e he, hd.bank1 path1 hpath1, hd.bank2 path2 hpath2] at htarget
      exact ⟨htarget, hd.bank2 path2 hpath2⟩
  have hquery (t : Record) (c : Call) (r : Reply c) (hc : QueryCall c) (ht : copiedTo t = []) :
      copiedTo (t ++ [⟨c, r⟩]) = [] := by
    rw [copiedTo_concat, ht]
    rintro img device rfl
    exact hc
  apply (Prog.wp_traced _ hfind findUpdateTarget_issues hquery rfl).mono
  · exact fun _ _ h => ⟨h.2, h.1⟩
  · exact fun _ _ h => h.1
  · exact fun _ _ => trivial

theorem wp_selectTarget_traced {target b2_pnum : Text} {record : Record}
    (hcopied : copiedTo record = [target]) :
  Prog.wp machine.traced (fun _ _ _ => True) (selectTarget dirs target b2_pnum)
    { returned := fun rc s => rc = 0 → copiedTo s.2 = [target] ∧
        (rootfs2Path dirs ∈ s.1.flags ↔ strEndswith b2_pnum target = true)
      raised := fun _ _ => False
      cut := fun _ => True } (d, record)
  := by
  have hselect : Prog.wp machine (fun _ _ _ => True) (selectTarget dirs target b2_pnum)
      { returned := fun rc d' => rc = 0 → TargetSelected dirs target b2_pnum d d'
        raised := fun _ _ => False
        cut := fun _ => True } d := wp_selectTarget_done
  have hflag (t : Record) (c : Call) (r : Reply c) (hc : FlagCall c) (ht : copiedTo t = [target]) :
      copiedTo (t ++ [⟨c, r⟩]) = [target] := by
    rw [copiedTo_concat, ht]
    rintro img device rfl
    exact hc
  apply (Prog.wp_traced _ hselect (selectTarget_issues _ _) hflag hcopied).mono
  · exact fun _ _ h hzero => ⟨h.2, (h.1 hzero).bootflag⟩
  · exact fun _ _ h => h.1
  · exact fun _ _ => trivial

theorem wp_rootfsv4Handler_selected (hd : Boots dirs mounted b1 b2 d) :
  Prog.wp machine.traced (fun _ _ _ => True) (rootfsv4Handler dirs copyImageAndSync img)
    { returned := fun rc s => rc = 0 → Selected dirs mounted b1 b2 s
      raised := fun _ _ => False
      cut := fun _ => True } (d, [])
  := by
  rw [rootfsv4Handler, Prog.wp_bind]
  apply (wp_findUpdateTarget_traced hd).mono
  · rintro r ⟨d₁, record⟩ ⟨hnone, hr⟩
    cases r with
    | none => exact fun h => absurd h (by decide)
    | some found =>
        obtain ⟨target, number⟩ := found
        obtain ⟨htarget, rfl⟩ := hr target number rfl
        dsimp only
        rw [Prog.wp_bind]
        apply (wp_copyImageAndSync_traced hnone).mono
        · rintro rc ⟨d₂, record⟩ hcopied
          dsimp only
          split
          · exact fun h => absurd h (by decide)
          · next hdone =>
              apply (wp_selectTarget_traced (hcopied hdone)).mono
              · exact fun _ _ h hzero => ⟨target, htarget, h hzero⟩
              · exact fun _ _ h => h
              · exact fun _ _ => trivial
        · exact fun _ _ h => h
        · exact fun _ _ => trivial
  · exact fun _ _ h => h
  · exact fun _ _ => trivial

/-- When the handler returns 0, the image was copied to what `find_target_partition` found, and
the boot flag tells how this ends. -/
theorem selected_of_returned (hd : Boots dirs mounted b1 b2 d) {xs : List Choice}
    (hrun : (Prog.run machine.traced (rootfsv4Handler dirs copyImageAndSync img) xs (d, [])).1
      = .returned 0) :
  Selected dirs mounted b1 b2
    (Prog.run machine.traced (rootfsv4Handler dirs copyImageAndSync img) xs (d, [])).2.2
  := by
  have hobeys : Prog.Obeys machine.traced (fun _ _ _ => True)
      (rootfsv4Handler dirs copyImageAndSync img) xs (d, []) := Prog.obeys_true
  have hends := Prog.holds_of_wp (wp_rootfsv4Handler_selected hd) hobeys
  rw [hrun] at hends
  exact hends rfl

/-! ### When the flag agrees -/

/-- Bank 1 is mounted from a device that has a path; or bank 2 is, and no number ends in that of
bank 2 but its own, nor, when the device has no path, in that of bank 1. -/
def FlagDecides (base b1 b2 n : Text) : Prop :=
  (n = b1 ∧ base ≠ []) ∨ (n = b2 ∧ ¬ b2 <:+ b1 ∧ (base = [] → ¬ b1 <:+ b2))

instance : Decidable (FlagDecides base b1 b2 n) :=
  inferInstanceAs (Decidable (_ ∨ _))

/-- The token in front of the letter `p`: for a device without a path, the number. -/
def token (base n : Text) : Text :=
  if base = [] then n else base

theorem strtok_token (hbase : 'p' ∉ base) (hn : n.isNumeral = true) :
  strtok (partitionPath base n) 'p' = some (token base n)
  := by
  have hself (c : Char) (s t : Text) (h : 'p' ∉ c :: s) :
      (c :: t).dropWhile (· == 'p') = c :: t := by
    apply List.dropWhile_cons_of_neg
    rw [beq_iff_eq]
    rintro rfl
    exact h List.mem_cons_self
  cases base with
  | nil =>
      have hp := not_mem_of_isNumeral hn
      cases n with
      | nil => contradiction
      | cons c n =>
          have hdrop : (partitionPath [] (c :: n)).dropWhile (· == 'p') = c :: n := hself c n n hp
          rw [strtok, hdrop]
          exact congrArg some (stem_eq_self hp)
  | cons c base =>
      have hdrop : (partitionPath (c :: base) n).dropWhile (· == 'p')
          = partitionPath (c :: base) n := hself c base (partitionPath base n) hbase
      rw [strtok, hdrop]
      exact congrArg some ((takeWhile_partitionPath (c :: base) n).trans (stem_eq_self hbase))

theorem token_eq_self_iff (hn : n.isNumeral = true) :
  token base n = base ↔ base ≠ []
  := by
  have hne := ne_nil_of_isNumeral hn
  unfold token
  split
  · next h => simp [h, hne]
  · next h => simp [h]

/-- The end of the target tells which bank it is just when the flag decides. -/
theorem endswith_iff_target (hbase : 'p' ∉ base) (hb1 : b1.isNumeral = true)
    (hb2 : b2.isNumeral = true) (hne : b1 ≠ b2) (hn : n = b1 ∨ n = b2) {target : Text}
    (htarget : findTargetPartition (partitionPath base n) b1 b2 MAX_DEVICE_FILE_PATH = some target)
    (hother : target ≠ partitionPath base n) :
  (strEndswith b2 target = true ↔ target = partitionPath base b2) ↔ FlagDecides base b1 b2 n
  := by
  have hnum : n.isNumeral = true := by
    rcases hn with rfl | rfl
    · exact hb1
    · exact hb2
  have hp1 := not_mem_of_isNumeral hb1
  have hp2 := not_mem_of_isNumeral hb2
  have htoken : token base n = base ↔ base ≠ [] := token_eq_self_iff hnum
  rw [findTargetPartition_eq (strtok_token hbase hnum) hb1 hb2] at htarget
  have hsame (b : Text) (hb : 'p' ∉ b) : partitionPath (token base n) b = partitionPath base b ↔
      base ≠ [] := by
    rw [← htoken]
    constructor
    · intro h
      exact (partitionPath_inj hb hb h).1
    · intro h
      rw [h]
  unfold chosenNumber at htarget
  unfold FlagDecides
  rw [strEndswith_eq_true]
  by_cases hfirst : b1 <:+ n
  · rw [if_pos hfirst, Option.bind_some] at htarget
    obtain rfl := snprintf_eq_some htarget
    rw [suffix_partitionPath hb2, hsame b2 hp2]
    rcases hn with rfl | rfl
    · simp [hne]
    · have hempty : base = [] := by
        by_contra hpath
        exact hother ((hsame n hp2).mpr hpath)
      simp [hempty, hfirst, hne.symm]
  · obtain rfl : n = b2 := by
      rcases hn with rfl | rfl
      · exact absurd List.suffix_rfl hfirst
      · rfl
    rw [if_neg hfirst, if_pos List.suffix_rfl, Option.bind_some] at htarget
    obtain rfl := snprintf_eq_some htarget
    have hdiffers : partitionPath (token base n) b1 ≠ partitionPath base n := by
      intro h
      exact hne (partitionPath_inj hp1 hp2 h).2
    rw [suffix_partitionPath hb2]
    simp [hdiffers, hfirst, hne.symm]

/-- When the handler returns 0 after it has found another partition than the mounted one, the boot
flag agrees with the partition the image was copied to, just when the flag decides. -/
theorem flagAgrees_iff (hbase : 'p' ∉ base) (hb1 : b1.isNumeral = true)
    (hb2 : b2.isNumeral = true) (hne : b1 ≠ b2) (hn : n = b1 ∨ n = b2)
    (hd : Boots dirs (partitionPath base n) b1 b2 d) {target : Text}
    (htarget : findTargetPartition (partitionPath base n) b1 b2 MAX_DEVICE_FILE_PATH = some target)
    (hother : target ≠ partitionPath base n) {xs : List Choice}
    (hrun : (Prog.run machine.traced (rootfsv4Handler dirs copyImageAndSync img) xs (d, [])).1
      = .returned 0) :
  FlagAgrees dirs base b2
      (Prog.run machine.traced (rootfsv4Handler dirs copyImageAndSync img) xs (d, [])).2.2
    ↔ FlagDecides base b1 b2 n
  := by
  obtain ⟨target', htarget', hcopied, hflag⟩ := selected_of_returned hd hrun
  obtain rfl := Option.some.inj (htarget.symm.trans htarget')
  rw [← endswith_iff_target hbase hb1 hb2 hne hn htarget hother]
  unfold FlagAgrees
  rw [hcopied, hflag]
  simp

/-- A device that runs from the partition `mounted`, with the numbers of its banks in the files of
the partition info directory. -/
def bankDevice (mounted b1 b2 : Text) : Device where
  mtab := [⟨mounted, "/".toList⟩]
  part_info path := if path = "/i/MBL_ROOT_FS_PART_NUMBER_BANK1".toList then b1 else b2
  flags := []
  image _ := some 0
  boot_files _ := some 0
  saved_header := some 0
  apps := 0

/-- Short paths. -/
def bankDirs : Dirs where
  BOOTFLAGS_DIR := "/b".toList
  TMP_DIR := "/tmp".toList
  PAYLOAD_TMP_DIR := "/scratch".toList
  PART_INFO_DIR := "/i".toList

theorem boots_bankDevice (mounted b1 b2 : Text) :
  Boots bankDirs mounted b1 b2 (bankDevice mounted b1 b2)
  where
    root := by
      rintro e he
      cases he
      rfl
    bank1 := by
      intro path hpath
      obtain rfl := snprintf_eq_some hpath
      rfl
    bank2 := by
      intro path hpath
      obtain rfl := snprintf_eq_some hpath
      rfl

/-- Every call of the handler succeeds. -/
def allOk : List Choice :=
  List.replicate 9 { ok := true }

/-- The banks 2 and 3, of which bank 1 is mounted: the flag is set, and bank 2 was written. -/
theorem flagAgrees_bank1 :
  FlagAgrees bankDirs "/dev/mmcblk1".toList "3".toList
    (Prog.run machine.traced (rootfsv4Handler bankDirs copyImageAndSync ⟨"rootfs".toList, 1⟩) allOk
      (bankDevice "/dev/mmcblk1p2".toList "2".toList "3".toList, [])).2.2
  := by
  apply (flagAgrees_iff (n := "2".toList) (by decide) (by decide) (by decide)
    (by decide : "2".toList ≠ "3".toList) (Or.inl rfl) (boots_bankDevice _ _ _)
    (by decide : findTargetPartition (partitionPath "/dev/mmcblk1".toList "2".toList) "2".toList
      "3".toList MAX_DEVICE_FILE_PATH = some "/dev/mmcblk1p3".toList) (by decide) _).mpr
  · decide
  · decide

/-- The banks 12 and 2, of which bank 2 is mounted: bank 1 was written, and the flag is set. -/
theorem not_flagAgrees_suffix :
  (Prog.run machine.traced (rootfsv4Handler bankDirs copyImageAndSync ⟨"rootfs".toList, 1⟩) allOk
      (bankDevice "/dev/mmcblk1p2".toList "12".toList "2".toList, [])).1 = .returned 0
    ∧ findTargetPartition "/dev/mmcblk1p2".toList "12".toList "2".toList MAX_DEVICE_FILE_PATH
      = some "/dev/mmcblk1p12".toList
    ∧ ¬ FlagAgrees bankDirs "/dev/mmcblk1".toList "2".toList
      (Prog.run machine.traced (rootfsv4Handler bankDirs copyImageAndSync ⟨"rootfs".toList, 1⟩)
        allOk (bankDevice "/dev/mmcblk1p2".toList "12".toList "2".toList, [])).2.2
  := by
  refine ⟨by decide, by decide, ?_⟩
  rintro ⟨target, hcopied, hflag⟩
  have hwritten : copiedTo (Prog.run machine.traced (rootfsv4Handler bankDirs copyImageAndSync
      ⟨"rootfs".toList, 1⟩) allOk
      (bankDevice "/dev/mmcblk1p2".toList "12".toList "2".toList, [])).2.2.2
      = ["/dev/mmcblk1p12".toList] := by decide
  obtain rfl : "/dev/mmcblk1p12".toList = target := by
    simpa using hwritten.symm.trans hcopied
  revert hflag
  decide

end Swupdate
