import MblCore.Lib.CString
import MblCore.Swupdate.ArmHandlerCommon

/-!
# The device mounted at a mount point

`get_mounted_device` once more, with the buffer that it fills.  It takes the first entry of the
table for the mount point, but what is mounted there later hides what was mounted before.
-/

namespace Swupdate

namespace InMemory

/-- The terminator of a string. -/
def NUL : Char :=
  Char.ofNat 0

/-- A mount table.  The names of its devices are strings. -/
abbrev Mtab :=
  { mtab : List Mntent // ∀ mntent_desc ∈ mtab, NUL ∉ mntent_desc.mnt_fsname }

/-- A buffer, with whatever it holds. -/
abbrev Buffer :=
  { dst : Text // 0 < dst.length }

/-- Copy the name of a device, and look at the last place of the buffer to see whether it fits. -/
def copyDevice (dst mnt_fsname : Text) (dst_size : ℕ) : ℤ × Text :=
  let dst := CString.strncpy NUL dst mnt_fsname dst_size
  if dst[dst_size - 1]? ≠ some NUL then (-1, dst) else (0, dst)

/-- The entries that `getmntent` returns, one after the other. -/
def searchMtab (dst mount_point : Text) (dst_size : ℕ) : List Mntent → ℤ × Text
  | [] => (-1, dst)
  | mntent_desc :: mtab =>
      if mount_point = mntent_desc.mnt_dir then copyDevice dst mntent_desc.mnt_fsname dst_size
      else searchMtab dst mount_point dst_size mtab

/-- `get_mounted_device`: what it returns, and the buffer afterwards.  There is no table when
`setmntent` fails. -/
def getMountedDevice (mtab : Option (List Mntent)) (dst mount_point : Text) (dst_size : ℕ) :
    ℤ × Text :=
  match mtab with
  | none => (-1, dst)
  | some mtab => searchMtab dst mount_point dst_size mtab

/-- The string that a caller finds in the buffer. -/
def found : ℤ × Text → Option Text
  | (return_val, dst) => if return_val = 0 then some (CString.string NUL dst) else none

/-! ### What it returns -/

theorem searchMtab_eq (dst mount_point : Text) (dst_size : ℕ) (mtab : List Mntent) :
  searchMtab dst mount_point dst_size mtab
    = match mtab.find? fun mntent_desc => mntent_desc.mnt_dir == mount_point with
      | none => (-1, dst)
      | some mntent_desc => copyDevice dst mntent_desc.mnt_fsname dst_size
  := by
  induction mtab with
  | nil => rfl
  | cons mntent_desc mtab ih =>
      rw [searchMtab]
      by_cases h : mount_point = mntent_desc.mnt_dir
      · rw [if_pos h, List.find?_cons_of_pos (by simp [h])]
      · rw [if_neg h, List.find?_cons_of_neg (by simpa using Ne.symm h), ih]

/-- A name that fits is in the buffer, with its terminator. -/
theorem copyDevice_of_lt {dst mnt_fsname : Text} (hname : NUL ∉ mnt_fsname)
    (h : mnt_fsname.length < dst.length) :
  (copyDevice dst mnt_fsname dst.length).1 = 0
    ∧ CString.Holds NUL (copyDevice dst mnt_fsname dst.length).2 mnt_fsname
  := by
  have hlast := (CString.strncpy_last hname (by omega)).mpr h
  rw [copyDevice, if_neg (not_not_intro hlast)]
  exact ⟨rfl, CString.holds_strncpy hname h⟩

theorem copyDevice_of_le {dst mnt_fsname : Text} (hname : NUL ∉ mnt_fsname) (hdst : 0 < dst.length)
    (h : dst.length ≤ mnt_fsname.length) :
  (copyDevice dst mnt_fsname dst.length).1 = -1
  := by
  have hlast := mt (CString.strncpy_last hname hdst).mp (by omega)
  rw [copyDevice, if_pos hlast]

/-- What a caller finds in the buffer, by the first entry for the mount point. -/
theorem found_getMountedDevice {mtab : List Mntent} {mount_point : Text} {dst : Buffer}
    (hmtab : ∀ mntent_desc ∈ mtab, NUL ∉ mntent_desc.mnt_fsname) :
  found (getMountedDevice (some mtab) dst mount_point dst.val.length)
    = match mtab.find? fun mntent_desc => mntent_desc.mnt_dir == mount_point with
      | none => none
      | some mntent_desc =>
          if mntent_desc.mnt_fsname.length ≥ dst.val.length then none
          else some mntent_desc.mnt_fsname
  := by
  rw [getMountedDevice, searchMtab_eq]
  cases hfirst : mtab.find? fun mntent_desc => mntent_desc.mnt_dir == mount_point with
  | none => rfl
  | some mntent_desc =>
      dsimp only
      have hname := hmtab _ (List.mem_of_find?_eq_some hfirst)
      by_cases h : mntent_desc.mnt_fsname.length < dst.val.length
      · obtain ⟨hzero, hholds⟩ := copyDevice_of_lt hname h
        rw [if_neg (by omega), found, hzero, if_pos rfl, hholds.string_eq]
      · rw [if_pos (by omega), found, copyDevice_of_le hname dst.property (by omega)]
        rfl

/-- The handlers get the string that is in the buffer. -/
theorem wp_getMountedDevice {adm : Call → Choice → Device → Prop} {d : Device} {mount_point : Text}
    {dst : Buffer} (hmtab : ∀ mntent_desc ∈ d.mtab, NUL ∉ mntent_desc.mnt_fsname)
    {Q : Prog.Post Device Nat (Option Text)} (hcut : Q.cut d) (hnone : Q.returned none d)
    (hfound : Q.returned (found (getMountedDevice (some d.mtab) dst mount_point dst.val.length)) d) :
  Prog.wp machine adm (Swupdate.getMountedDevice mount_point dst.val.length) Q d
  := by
  rw [found_getMountedDevice hmtab] at hfound
  simp only [Swupdate.getMountedDevice, Prog.wp_bind, Prog.wp_issue]
  use hcut
  intro x _
  simp only [machine, perform]
  cases x.ok with
  | false => exact hnone
  | true =>
      simp only [if_true]
      split
      · exact hnone
      · rename_i mntent_desc hfirst
        simp only [hfirst] at hfound
        split
        · exact hnone
        · rename_i hfits
          rwa [if_neg hfits] at hfound

/-! ### The visible device -/

/-- The entries for a mount point. -/
def entriesFor (mtab : Mtab) (mount_point : Text) : List Mntent :=
  mtab.val.filter fun mntent_desc => mntent_desc.mnt_dir == mount_point

/-- The device that is visible at a mount point: that of the last entry for it. -/
def visibleDevice (mtab : Mtab) (mount_point : Text) : Option Text :=
  (entriesFor mtab mount_point).getLast?.map Mntent.mnt_fsname

/-- The function returns the visible device, in full, when there is one and its name fits, and
reports an error otherwise. -/
def ReturnsVisible (mtab : Mtab) (mount_point : Text) (dst : Buffer) : Prop :=
  let result := getMountedDevice (some mtab) dst mount_point dst.val.length
  (result.1 = 0 ↔ ∃ device ∈ visibleDevice mtab mount_point, device.length < dst.val.length)
    ∧ (∀ device ∈ visibleDevice mtab mount_point, result.1 = 0 → CString.Holds NUL result.2 device)
    ∧ (result.1 ≠ 0 → result.1 = -1)

/-- The first entry for the mount point names the visible device, or neither of the names of the
first and the last entry fits. -/
def FirstVisible (mtab : Mtab) (mount_point : Text) (dst_size : ℕ) : Prop :=
  ∀ device ∈ (entriesFor mtab mount_point).head?.map Mntent.mnt_fsname,
    ∀ visible ∈ visibleDevice mtab mount_point,
      device = visible ∨ dst_size ≤ device.length ∧ dst_size ≤ visible.length

/-! ### When it is returned -/

section

variable {mtab : Mtab} {mount_point : Text} {dst : Buffer}

theorem getMountedDevice_of_head? {first : Mntent}
    (h : (entriesFor mtab mount_point).head? = some first) :
  getMountedDevice (some mtab) dst mount_point dst.val.length
    = copyDevice dst first.mnt_fsname dst.val.length
  := by
  rw [entriesFor, List.head?_filter] at h
  rw [getMountedDevice, searchMtab_eq, h]

theorem notMem_of_entriesFor {mntent_desc : Mntent} (h : mntent_desc ∈ entriesFor mtab mount_point) :
  NUL ∉ mntent_desc.mnt_fsname
  := mtab.property _ (List.mem_of_mem_filter h)

/-- Nothing is mounted there. -/
theorem returnsVisible_of_nil (h : entriesFor mtab mount_point = []) :
  ReturnsVisible mtab mount_point dst
  := by
  have hnone := h
  rw [← List.head?_eq_none_iff, entriesFor, List.head?_filter] at hnone
  have hresult : getMountedDevice (some mtab) dst mount_point dst.val.length = (-1, dst.val) := by
    rw [getMountedDevice, searchMtab_eq, hnone]
  simp [ReturnsVisible, visibleDevice, hresult, h]

/-- The name of the first device fits. -/
theorem returnsVisible_iff_of_lt {first last : Mntent}
    (hfirst : (entriesFor mtab mount_point).head? = some first)
    (hlast : (entriesFor mtab mount_point).getLast? = some last)
    (h : first.mnt_fsname.length < dst.val.length) :
  ReturnsVisible mtab mount_point dst ↔ first.mnt_fsname = last.mnt_fsname
  := by
  obtain ⟨hzero, hholds⟩ := copyDevice_of_lt
    (notMem_of_entriesFor (List.mem_of_mem_head? hfirst)) h
  simp only [ReturnsVisible, visibleDevice, getMountedDevice_of_head? hfirst, hlast, hzero,
    Option.map_some, Option.mem_def, Option.some.injEq, exists_eq_left', forall_eq', true_iff,
    forall_const, ne_eq, not_true, false_implies, and_true]
  constructor
  · rintro ⟨-, hvisible⟩
    apply hholds.unique hvisible
  · intro heq
    rw [← heq]
    exact ⟨h, hholds⟩

/-- The name of the first device does not fit. -/
theorem returnsVisible_iff_of_le {first last : Mntent}
    (hfirst : (entriesFor mtab mount_point).head? = some first)
    (hlast : (entriesFor mtab mount_point).getLast? = some last)
    (h : dst.val.length ≤ first.mnt_fsname.length) :
  ReturnsVisible mtab mount_point dst ↔ dst.val.length ≤ last.mnt_fsname.length
  := by
  have herror := copyDevice_of_le (notMem_of_entriesFor (List.mem_of_mem_head? hfirst))
    dst.property h
  simp [ReturnsVisible, visibleDevice, getMountedDevice_of_head? hfirst, hlast, herror]

end

/-- The visible device is returned just when the first entry for the mount point names it, or when
neither of the names of the first and the last entry fits. -/
theorem returnsVisible_iff (mtab : Mtab) (mount_point : Text) (dst : Buffer) :
  ReturnsVisible mtab mount_point dst ↔ FirstVisible mtab mount_point dst.val.length
  := by
  cases hfirst : (entriesFor mtab mount_point).head? with
  | none =>
      have hnil := List.head?_eq_none_iff.mp hfirst
      simp [FirstVisible, hnil, returnsVisible_of_nil hnil]
  | some first =>
      have hnonempty : entriesFor mtab mount_point ≠ [] := by
        rintro hnil
        simp [hnil] at hfirst
      have hlast := List.getLast?_eq_getLast_of_ne_nil hnonempty
      rw [FirstVisible, visibleDevice, hfirst, hlast]
      simp only [Option.map_some, Option.mem_def, Option.some.injEq, forall_eq']
      by_cases h : first.mnt_fsname.length < dst.val.length
      · rw [returnsVisible_iff_of_lt hfirst hlast h]
        constructor
        · exact Or.inl
        · rintro (heq | ⟨hle, -⟩)
          · exact heq
          · omega
      · have hle : dst.val.length ≤ first.mnt_fsname.length := by omega
        rw [returnsVisible_iff_of_le hfirst hlast hle]
        constructor
        · intro hlong
          exact Or.inr ⟨hle, hlong⟩
        · rintro (heq | ⟨-, hlong⟩)
          · rwa [← heq]
          · exact hlong

/-- The mount table of a device whose kernel starts with a root file system in memory. -/
def rootfsMtab : Mtab :=
  ⟨[⟨"rootfs".toList, "/".toList⟩, ⟨"/dev/mmcblk0p2".toList, "/".toList⟩], by decide⟩

def emptyBuffer : Buffer :=
  ⟨List.replicate MAX_DEVICE_FILE_PATH NUL, by rw [List.length_replicate]; decide⟩

/-- The device that is mounted over it is not returned. -/
theorem not_returnsVisible_rootfs :
  ¬ ReturnsVisible rootfsMtab "/".toList emptyBuffer
  := by
  rintro ⟨-, hvisible, -⟩
  have hholds := hvisible "/dev/mmcblk0p2".toList rfl (by decide +kernel)
  have hother := hholds.string_eq
  revert hother
  decide +kernel

end InMemory

end Swupdate
