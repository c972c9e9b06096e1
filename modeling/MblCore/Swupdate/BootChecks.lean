import MblCore.Lib.Keeps
import MblCore.Swupdate.Installers

/-!
# The checks of the installer of the boot partition

`update_boot_part_from_dir_or_die` makes all its checks of a partition before it writes to it, but
`update_boot_or_die` calls it for two partitions in turn: a check of the second one that fails comes
after the copy to the first one.
-/

namespace Swupdate

open Prog hiding pure throw bind

variable (dirs : Dirs)

/-- The statuses with which a check that fails makes the script exit: a required partition is
skipped, the size of the payload cannot be told, a size is not a number, the payload is too big, a
mount point is missing. -/
def checkStatuses : List Nat :=
  [65, 59, 11, 60, 31]

/-! ### What the checks look at -/

/-- The files of the partition info directory that are there. -/
def partInfo (there : Text → Bool) (d : Device) (path : Text) : Option Text :=
  if there path then some (d.part_info path) else none

/-- What `$(cat file)` gives. -/
def catOf (info : Text → Option Text) (path : Text) : Text :=
  ((info path).map Text.chomp).getD []

/-- The file of the partition info directory that holds a value of a partition. -/
def partFile (part_name value : Text) : Text :=
  dirs.PART_INFO_DIR ++ "/MBL_".toList ++ part_name ++ value

/-- The size of a partition in bytes. -/
def partSizeB? (info : Text → Option Text) (part_name : Text) : Option Nat :=
  let size_KiB := catOf info (partFile dirs (stripVersion part_name) "_SIZE_KiB".toList)
  if size_KiB.isNumeral then some (size_KiB.decimalValue?.getD 0 * 1024) else none

/-- The mount point of a partition. -/
def mountPoint? (info : Text → Option Text) (part_name : Text) : Option Text :=
  match (info (partFile dirs part_name "_MOUNT_POINT".toList)).map Text.chomp with
  | none | some [] => none
  | some mount_point => some mount_point

/-- The checks of a partition: the status of the one that fails, or the mount point to copy to,
unless the partition is skipped. -/
def partChecks (info : Text → Option Text) (part_name : Text) (size_estimate_B : Nat)
    (skip_ok : Bool) : Except Nat (Option Text) :=
  if catOf info (partFile dirs (stripVersion part_name) "_SKIP".toList) = "1".toList then
    if skip_ok then .ok none else .error 65
  else
    match partSizeB? dirs info part_name with
    | none => .error 11
    | some max_size_B =>
        if size_estimate_B > max_size_B then .error 60
        else
          match mountPoint? dirs info part_name with
          | none => .error 31
          | some mount_point => .ok (some mount_point)

/-- What an extracted payload directory is like. -/
structure PayloadDir where
  /-- What `du` prints for it, if it succeeds. -/
  du : Option Text
  /-- Its files. -/
  files : Nat
deriving DecidableEq

/-- The size estimate in bytes. -/
def PayloadDir.sizeEstimateB? (payload : PayloadDir) : Option Nat :=
  match payload.du.bind Text.decimalValue? with
  | none | some 0 => none
  | some n => some (n * 1024)

/-- The calls are answered as the files that are there and the payload directory ask for. -/
def AnsweredBy (there : Text → Bool) (payload : PayloadDir) : Call → Choice → Device → Prop
  | .readFile path, x, _ => x.ok = there path
  | .duK _, x, _ => (if x.ok then some x.text else none) = payload.du
  | .cpFAll _ _, x, _ => x.num = payload.files
  | _, _, _ => True

instance (there : Text → Bool) (payload : PayloadDir) :
    ∀ c x d, Decidable (AnsweredBy there payload c x d) := by
  intro c x d
  cases c <;> unfold AnsweredBy <;> infer_instance

/-- A call that is no check fails. -/
def Refused : Call → Choice → Prop
  | .readFile _, _ | .duK _, _ => False
  | _, x => x.ok = false

/-! ### What is asked of the installer -/

/-- In every run that a check makes exit, the files of the partitions are left as they were. -/
def ChecksBeforeWriting (there : Text → Bool) (payload : PayloadDir) (d : Device) : Prop :=
  ∀ path xs rest status d', Obeys machine (AnsweredBy there payload) (updateBootOrDie dirs path) xs d →
    run machine (updateBootOrDie dirs path) xs d = (.raised status, rest, d') →
    status ∈ checkStatuses → d'.boot_files = d.boot_files

/-- When BOOT passes its checks, the partition of the boot loader passes its own too, or the files
of BOOT are those of the payload already. -/
def SecondPasses (there : Text → Bool) (payload : PayloadDir) (d : Device) : Prop :=
  ∀ size_estimate_B mount_point, payload.sizeEstimateB? = some size_estimate_B →
    partChecks dirs (partInfo there d) "BOOT".toList size_estimate_B false = .ok (some mount_point) →
    (∃ copied_to, partChecks dirs (partInfo there d) "WKS_BOOTLOADER_FS".toList size_estimate_B true
      = .ok copied_to)
    ∨ d.boot_files mount_point = some payload.files

variable {dirs} {adm : Call → Choice → Device → Prop} {there : Text → Bool} {payload : PayloadDir}
  {d : Device}

/-! ### The checks, step by step -/

/-- `$(cat file)` gives what is in the file. -/
theorem wp_cat (hadm : ∀ c x w, adm c x w → AnsweredBy there payload c x w) {path : Text}
    {Q : Post Device Nat Text} (hcut : Q.cut d)
    (hreturned : Q.returned (catOf (partInfo there d) path) d) :
  wp machine adm (cat path) Q d
  := by
  simp only [cat, wp_bind, wp_issue]
  use hcut
  intro x hx
  have hok : x.ok = there path := hadm _ _ _ hx
  simp only [machine, perform]
  unfold catOf partInfo at hreturned
  rw [← hok] at hreturned
  revert hreturned
  cases x.ok with
  | false => exact id
  | true => exact id

theorem wp_isPartSkipped (hadm : ∀ c x w, adm c x w → AnsweredBy there payload c x w)
    {part_name : Text} {Q : Post Device Nat Bool} (hcut : Q.cut d)
    (hreturned : Q.returned (catOf (partInfo there d)
      (partFile dirs (stripVersion part_name) "_SKIP".toList) == "1".toList) d) :
  wp machine adm (isPartSkipped dirs part_name) Q d
  := by
  rw [isPartSkipped, wp_bind]
  apply wp_cat hadm hcut
  exact hreturned

/-- The size of a partition is what the file holds, if that is a number. -/
theorem wp_partSizeB (hadm : ∀ c x w, adm c x w → AnsweredBy there payload c x w)
    {part_name : Text} {Q : Post Device Nat Nat} (hcut : Q.cut d)
    (hnone : partSizeB? dirs (partInfo there d) part_name = none → Q.raised 11 d)
    (hsome : ∀ size_B, partSizeB? dirs (partInfo there d) part_name = some size_B →
      Q.returned size_B d) :
  wp machine adm (valueOrDie (getPartSizeB dirs part_name)) Q d
  := by
  have hfile : dirs.PART_INFO_DIR ++ "/MBL_".toList ++ stripVersion part_name ++ "_".toList
      ++ "SIZE".toList ++ "_KiB".toList
      = partFile dirs (stripVersion part_name) "_SIZE_KiB".toList := by
    simp only [partFile, List.append_assoc]
    rfl
  rw [valueOrDie, getPartSizeB, getPartSizeVarB, wp_bind, wp_attempt, wp_bind, hfile]
  apply wp_cat hadm hcut
  unfold partSizeB? at hnone hsome
  dsimp only at hnone hsome ⊢
  rw [wp_bind, validatePositiveIntegerOrDie]
  split
  · rename_i hnumeral
    apply hsome
    exact if_pos hnumeral
  · rename_i hnumeral
    apply hnone
    exact if_neg hnumeral

/-- What is asked of a run that fails at a call that is no check. -/
def RefusedOnly (adm : Call → Choice → Device → Prop) (status : Nat) : Prop :=
  status ∉ checkStatuses ∧ ∃ c x w, adm c x w ∧ Refused c x

/-- A command whose failure makes the script exit. -/
theorem wp_orDie {command : Script Bool} {status : Nat} {Q : Post Device Nat Unit}
    (h : wp machine adm command
      { returned := fun ok d' => if ok then Q.returned () d' else Q.raised status d'
        raised := Q.raised
        cut := Q.cut } d) :
  wp machine adm (orDie status command) Q d
  := by
  rw [orDie, wp_bind]
  apply h.of_returned
  intro ok d' hends
  cases ok <;> exact hends

/-- A part of the script writes nothing the checks look at, and `P` holds of the boot files when it
comes to its end.  Where it does not, a call that is no check has failed. -/
def Ends (adm : Call → Choice → Device → Prop) (P : (Text → Content) → Prop) (d : Device) :
    Post Device Nat Unit where
  returned _ d' := P d'.boot_files ∧ d'.part_info = d.part_info
  raised status _ := RefusedOnly adm status
  cut _ := True

variable {P P' : (Text → Content) → Prop}

/-- A call that is no check. -/
theorem ends_orDie {c : Call} {status : Nat} {command : Script Bool}
    (hstatus : status ∉ checkStatuses)
    (hcommand : ∀ Q : Post Device Nat Bool, Q.cut d →
      (∀ x, adm c x d → Q.returned x.ok (perform c x d).2) → wp machine adm command Q d)
    (hrefused : ∀ x : Choice, x.ok = false → Refused c x)
    (hends : ∀ x, adm c x d → x.ok = true → P (perform c x d).2.boot_files
      ∧ (perform c x d).2.part_info = d.part_info) :
  wp machine adm (orDie status command) (Ends adm P d) d
  := by
  apply wp_orDie
  apply hcommand
  · trivial
  · intro x hx
    dsimp only
    cases hok : x.ok with
    | false => exact ⟨hstatus, c, x, d, hx, hrefused x hok⟩
    | true => exact hends x hx hok

/-- What comes after a part of the script that comes to its end. -/
theorem wp_bind_of_ends {p q : Script Unit} {Q : Post Device Nat Unit}
    (hp : wp machine adm p (Ends adm P d) d)
    (hrefused : ∀ status d', RefusedOnly adm status → Q.raised status d') (hcut : ∀ d', Q.cut d')
    (hq : ∀ d', P d'.boot_files → d'.part_info = d.part_info → wp machine adm q Q d') :
  wp machine adm (p >>= fun _ => q) Q d
  := by
  rw [wp_bind]
  apply hp.mono
  · rintro - d' ⟨hboot, hinfo⟩
    exact hq d' hboot hinfo
  · exact fun status d' h => hrefused status d' h
  · exact fun d' _ => hcut d'

/-- Two parts of the script, one after the other. -/
theorem ends_bind {p q : Script Unit} (hp : wp machine adm p (Ends adm P d) d)
    (hq : ∀ d', P d'.boot_files → wp machine adm q (Ends adm P' d') d') :
  wp machine adm (p >>= fun _ => q) (Ends adm P' d) d
  := by
  apply wp_bind_of_ends hp (fun _ _ h => h) (fun _ => trivial)
  intro d' hboot hinfo
  apply (hq d' hboot).of_returned
  rintro - d'' ⟨hboot', hinfo'⟩
  exact ⟨hboot', hinfo'.trans hinfo⟩

theorem ends_remountPartitionOrDie (mount_point opts : Text) (h : P d.boot_files) :
  wp machine adm (remountPartitionOrDie mount_point opts) (Ends adm P d) d
  := by
  apply ends_orDie (c := .remount mount_point opts) (by decide)
  · exact fun Q hcut hends => ⟨hcut, hends⟩
  · exact fun x hx => hx
  · exact fun x _ _ => ⟨h, rfl⟩

theorem ends_removeDoNotRebootFlagOrDie (h : P d.boot_files) :
  wp machine adm (removeDoNotRebootFlagOrDie dirs) (Ends adm P d) d
  := by
  apply ends_orDie (c := .rmF (doNotRebootPath dirs)) (by decide)
  · intro Q hcut hends
    use hcut
    intro x hx
    have hends := hends x hx
    simp only [machine, perform] at hends ⊢
    cases hok : x.ok with
    | false =>
        rw [hok] at hends
        exact hends
    | true =>
        rw [hok] at hends
        exact hends
  · exact fun x hx => hx
  · intro x _ hok
    simp only [perform, hok]
    exact ⟨h, rfl⟩

/-- The directory is copied to the mount point, or a call that is no check has failed. -/
theorem ends_copyDirOrDie (hadm : ∀ c x w, adm c x w → AnsweredBy there payload c x w)
    (dir mount_point : Text) :
  wp machine adm (copyDirOrDie dir mount_point)
    (Ends adm (· = Function.update d.boot_files mount_point (some payload.files)) d) d
  := by
  apply ends_bind (P := (· = d.boot_files)) (ends_remountPartitionOrDie mount_point _ rfl)
  intro d₁ hboot₁
  apply ends_bind
    (P := fun files => ∃ left, files = Function.update d.boot_files mount_point left)
  · apply ends_orDie (c := .rmFAll mount_point) (by decide)
    · exact fun Q hcut hends => ⟨hcut, hends⟩
    · exact fun x hx => hx
    · intro x _ _
      constructor
      · use x.left
        rw [← hboot₁]
        rfl
      · rfl
  rintro d₂ ⟨left, hboot₂⟩
  apply ends_bind
    (P := (· = Function.update d.boot_files mount_point (some payload.files)))
  · apply ends_orDie (c := .cpFAll dir mount_point) (by decide)
    · exact fun Q hcut hends => ⟨hcut, hends⟩
    · exact fun x hx => hx
    · intro x hx hok
      have hfiles : x.num = payload.files := hadm _ _ _ hx
      constructor
      · simp only [perform, Device.writeBootFiles, hok, hboot₂, hfiles, if_true,
          Function.update_idem]
      · rfl
  intro d₃ hboot₃
  exact ends_remountPartitionOrDie mount_point _ hboot₃

/-! ### A partition -/

/-- The boot files once the payload has been copied to a mount point, if to any. -/
def PayloadDir.copiedTo (payload : PayloadDir) (boot_files : Text → Content) :
    Option Text → Text → Content
  | none => boot_files
  | some mount_point => Function.update boot_files mount_point (some payload.files)

/-- What is asked of a run of the installer of a partition. -/
def PartEnds (adm : Call → Choice → Device → Prop) (payload : PayloadDir) (d : Device) :
    Except Nat (Option Text) → Post Device Nat Unit
  | .error status =>
      { returned := fun _ _ => False
        raised := fun status' d' => status' = status ∧ d'.boot_files = d.boot_files
        cut := fun _ => True }
  | .ok copied_to => Ends adm (· = payload.copiedTo d.boot_files copied_to) d

theorem partEnds_cut (checks : Except Nat (Option Text)) (d' : Device) :
  (PartEnds adm payload d checks).cut d'
  := by
  unfold PartEnds
  split <;> trivial

/-- The installer of a partition does what its checks allow. -/
theorem wp_updateBootPartFromDirOrDie
    (hadm : ∀ c x w, adm c x w → AnsweredBy there payload c x w) (part_name dir : Text)
    (size_estimate_B : Nat) (skip_ok : Bool) :
  wp machine adm (updateBootPartFromDirOrDie dirs part_name dir size_estimate_B skip_ok)
    (PartEnds adm payload d (partChecks dirs (partInfo there d) part_name size_estimate_B skip_ok)) d
  := by
  rw [updateBootPartFromDirOrDie, wp_bind]
  apply wp_isPartSkipped hadm (partEnds_cut _ d)
  dsimp only
  unfold partChecks
  simp only [beq_iff_eq]
  split
  · -- the partition is skipped
    cases skip_ok with
    | false => exact ⟨rfl, rfl⟩
    | true => exact ⟨rfl, rfl⟩
  · rw [wp_bind]
    apply wp_partSizeB hadm (partEnds_cut _ d)
    · intro hsize
      rw [hsize]
      exact ⟨rfl, rfl⟩
    intro max_size_B hsize
    rw [hsize]
    dsimp only
    split
    · exact ⟨rfl, rfl⟩
    · rw [wp_bind, wp_issue]
      use partEnds_cut _ d
      intro x hx
      have hok : x.ok = there (partFile dirs part_name "_MOUNT_POINT".toList) := hadm _ _ _ hx
      change wp machine adm (match Option.map Text.chomp (if x.ok then
        some (d.part_info (partFile dirs part_name "_MOUNT_POINT".toList)) else none) with
        | none | some [] => _ | some _ => _) _ d
      rw [hok]
      change wp machine adm (match Option.map Text.chomp
        (partInfo there d (partFile dirs part_name "_MOUNT_POINT".toList)) with
        | none | some [] => _ | some _ => _) _ d
      unfold mountPoint?
      cases (partInfo there d (partFile dirs part_name "_MOUNT_POINT".toList)).map Text.chomp with
      | none => exact ⟨rfl, rfl⟩
      | some mount_point =>
          cases mount_point with
          | nil => exact ⟨rfl, rfl⟩
          | cons c rest =>
              change wp machine adm (copyDirOrDie dir (c :: rest) >>= fun _ =>
                removeDoNotRebootFlagOrDie dirs)
                (Ends adm (· = Function.update d.boot_files (c :: rest) (some payload.files)) d) d
              apply ends_bind (ends_copyDirOrDie hadm dir (c :: rest))
              intro d' hboot
              exact ends_removeDoNotRebootFlagOrDie hboot

/-- The size estimate is what `du` prints. -/
theorem wp_sizeEstimateB (hadm : ∀ c x w, adm c x w → AnsweredBy there payload c x w)
    {dir : Text} {Q : Post Device Nat (Option Nat)} (hcut : Q.cut d)
    (hreturned : Q.returned payload.sizeEstimateB? d) :
  wp machine adm (sizeEstimateB dir) Q d
  := by
  rw [sizeEstimateB, wp_bind, wp_issue]
  use hcut
  intro x hx
  have hdu : (if x.ok then some x.text else none) = payload.du := hadm _ _ _ hx
  unfold PayloadDir.sizeEstimateB? at hreturned
  rw [← hdu] at hreturned
  revert hreturned
  simp only [machine, perform]
  cases x.ok with
  | false => exact id
  | true =>
      simp only [if_true, Option.bind_some]
      cases x.text.decimalValue? with
      | none => exact id
      | some n =>
          cases n with
          | zero => exact id
          | succ n => exact id

/-! ### The installer -/

/-- A check of BOOT fails, or there is no size estimate. -/
def FirstFails (dirs : Dirs) (there : Text → Bool) (payload : PayloadDir) (d : Device) : Prop :=
  ∀ size_estimate_B mount_point, payload.sizeEstimateB? = some size_estimate_B →
    partChecks dirs (partInfo there d) "BOOT".toList size_estimate_B false ≠ .ok (some mount_point)

/-- The payload was copied to BOOT, and then a check of the partition of the boot loader failed. -/
def SecondFails (dirs : Dirs) (there : Text → Bool) (payload : PayloadDir) (d d' : Device) : Prop :=
  ∃ size_estimate_B mount_point, payload.sizeEstimateB? = some size_estimate_B
    ∧ partChecks dirs (partInfo there d) "BOOT".toList size_estimate_B false
      = .ok (some mount_point)
    ∧ (∀ copied_to, partChecks dirs (partInfo there d) "WKS_BOOTLOADER_FS".toList size_estimate_B
      true ≠ .ok copied_to)
    ∧ d'.boot_files = Function.update d.boot_files mount_point (some payload.files)

/-- How the runs of the installer end. -/
def InstallerEnds (dirs : Dirs) (adm : Call → Choice → Device → Prop) (there : Text → Bool)
    (payload : PayloadDir) (d : Device) : Post Device Nat Unit where
  returned _ _ := ∃ size_estimate_B copied_to, payload.sizeEstimateB? = some size_estimate_B
    ∧ partChecks dirs (partInfo there d) "WKS_BOOTLOADER_FS".toList size_estimate_B true
      = .ok copied_to
  raised status d' := RefusedOnly adm status
    ∨ FirstFails dirs there payload d ∧ status ∈ checkStatuses ∧ d'.boot_files = d.boot_files
    ∨ SecondFails dirs there payload d d' ∧ status ∈ checkStatuses
  cut _ := True

/-- A partition that need not be skipped is skipped only where that is no failure. -/
theorem partChecks_required {info : Text → Option Text} {part_name : Text} {size_estimate_B : Nat} :
  partChecks dirs info part_name size_estimate_B false ≠ .ok none
  := by
  unfold partChecks
  split
  · nofun
  · split
    · nofun
    · split
      · nofun
      · split <;> nofun

/-- A check that fails has a status of its own. -/
theorem mem_checkStatuses {info : Text → Option Text} {part_name : Text} {size_estimate_B : Nat}
    {skip_ok : Bool} {status : Nat}
    (h : partChecks dirs info part_name size_estimate_B skip_ok = .error status) :
  status ∈ checkStatuses
  := by
  unfold partChecks at h
  split at h
  · split at h
    · contradiction
    · obtain rfl := Except.error.inj h
      decide
  · split at h
    · obtain rfl := Except.error.inj h
      decide
    · split at h
      · obtain rfl := Except.error.inj h
        decide
      · split at h
        · obtain rfl := Except.error.inj h
          decide
        · contradiction

theorem partInfo_congr {d' : Device} (h : d'.part_info = d.part_info) :
  partInfo there d' = partInfo there d
  := by
  unfold partInfo
  rw [h]

/-- The partition of the boot loader, when the payload has been copied to BOOT. -/
theorem wp_secondPart (hadm : ∀ c x w, adm c x w → AnsweredBy there payload c x w) {d₃ : Device}
    {size_estimate_B : Nat} {mount_point : Text}
    (hsize : payload.sizeEstimateB? = some size_estimate_B)
    (hboots : partChecks dirs (partInfo there d) "BOOT".toList size_estimate_B false
      = .ok (some mount_point))
    (hboot : d₃.boot_files = Function.update d.boot_files mount_point (some payload.files))
    (hinfo : partInfo there d₃ = partInfo there d) (dir : Text) :
  wp machine adm
    (updateBootPartFromDirOrDie dirs "WKS_BOOTLOADER_FS".toList dir size_estimate_B true >>= fun _ =>
      removeDoNotRebootFlagOrDie dirs)
    (InstallerEnds dirs adm there payload d) d₃
  := by
  have hsecond : wp machine adm
      (updateBootPartFromDirOrDie dirs "WKS_BOOTLOADER_FS".toList dir size_estimate_B true) _ d₃ :=
    wp_updateBootPartFromDirOrDie hadm "WKS_BOOTLOADER_FS".toList dir size_estimate_B true
  rw [hinfo] at hsecond
  cases hloader : partChecks dirs (partInfo there d) "WKS_BOOTLOADER_FS".toList
      size_estimate_B true with
  | error status =>
      rw [hloader] at hsecond
      rw [wp_bind]
      apply hsecond.mono
      · exact fun _ _ h => h.elim
      · rintro status' d' ⟨rfl, hkept⟩
        right
        right
        refine ⟨⟨size_estimate_B, mount_point, hsize, hboots, ?_, hkept.trans hboot⟩,
          mem_checkStatuses hloader⟩
        rw [hloader]
        nofun
      · exact fun _ _ => trivial
  | ok copied_to =>
      rw [hloader] at hsecond
      have hcopied : wp machine adm _
        (Ends adm (· = payload.copiedTo d₃.boot_files copied_to) d₃) d₃ := hsecond
      apply wp_bind_of_ends hcopied (fun _ _ => Or.inl) fun _ => trivial
      intro d₄ _ _
      apply (ends_removeDoNotRebootFlagOrDie (P := fun _ => True) trivial).mono
      · exact fun _ _ _ => ⟨size_estimate_B, copied_to, hsize, hloader⟩
      · exact fun _ _ h => Or.inl h
      · exact fun _ _ => trivial

/-- The second partition is turned to when the first one has been written. -/
theorem wp_bothParts (hadm : ∀ c x w, adm c x w → AnsweredBy there payload c x w) {d₂ : Device}
    (hboot : d₂.boot_files = d.boot_files) (hinfo : partInfo there d₂ = partInfo there d)
    {size_estimate_B : Nat} (hsize : payload.sizeEstimateB? = some size_estimate_B) (dir : Text) :
  wp machine adm
    (updateBootPartFromDirOrDie dirs "BOOT".toList dir size_estimate_B false >>= fun _ =>
      updateBootPartFromDirOrDie dirs "WKS_BOOTLOADER_FS".toList dir size_estimate_B true >>= fun _ =>
        removeDoNotRebootFlagOrDie dirs)
    (InstallerEnds dirs adm there payload d) d₂
  := by
  have hfirst : wp machine adm
      (updateBootPartFromDirOrDie dirs "BOOT".toList dir size_estimate_B false) _ d₂ :=
    wp_updateBootPartFromDirOrDie hadm "BOOT".toList dir size_estimate_B false
  rw [hinfo] at hfirst
  cases hboots : partChecks dirs (partInfo there d) "BOOT".toList size_estimate_B false with
  | error status =>
      rw [hboots] at hfirst
      rw [wp_bind]
      apply hfirst.mono
      · exact fun _ _ h => h.elim
      · rintro status' d' ⟨rfl, hkept⟩
        right
        left
        refine ⟨?_, mem_checkStatuses hboots, hkept.trans hboot⟩
        intro size_estimate_B' mount_point hsize'
        rw [hsize] at hsize'
        obtain rfl := Option.some.inj hsize'
        rw [hboots]
        nofun
      · exact fun _ _ => trivial
  | ok copied_to =>
      cases copied_to with
      | none => exact absurd hboots partChecks_required
      | some mount_point =>
          rw [hboots] at hfirst
          have hcopied : wp machine adm _ (Ends adm
            (· = payload.copiedTo d₂.boot_files (some mount_point)) d₂) d₂ := hfirst
          apply wp_bind_of_ends hcopied (fun _ _ => Or.inl) fun _ => trivial
          rintro d₃ hboot₃ hinfo₃
          apply wp_secondPart hadm hsize hboots _ ((partInfo_congr hinfo₃).trans hinfo)
          rw [hboot₃, hboot]
          rfl

/-- The checks of the second partition come after the copy to the first one. -/
theorem wp_updateBootOrDie_ends (hadm : ∀ c x w, adm c x w → AnsweredBy there payload c x w)
    (path : Text) :
  wp machine adm (updateBootOrDie dirs path) (InstallerEnds dirs adm there payload d) d
  := by
  have hrefused : ∀ status d', RefusedOnly adm status →
      (InstallerEnds dirs adm there payload d).raised status d' := fun _ _ => Or.inl
  have hcut : ∀ d', (InstallerEnds dirs adm there payload d).cut d' := fun _ => trivial
  rw [updateBootOrDie]
  apply wp_bind_of_ends (P := (· = d.boot_files)) _ hrefused hcut
  · rintro d₁ hboot₁ hinfo₁
    apply wp_bind_of_ends (P := (· = d.boot_files)) _ hrefused hcut
    · rintro d₂ hboot₂ hinfo₂
      have hinfo : partInfo there d₂ = partInfo there d := partInfo_congr (hinfo₂.trans hinfo₁)
      rw [wp_bind]
      apply wp_sizeEstimateB hadm trivial
      dsimp only
      cases hsize : payload.sizeEstimateB? with
      | none =>
          right
          left
          refine ⟨?_, by decide, hboot₂⟩
          intro size_estimate_B mount_point h
          rw [hsize] at h
          contradiction
      | some size_estimate_B =>
          exact wp_bothParts hadm (hboot₂.trans rfl) hinfo hsize _
    · apply ends_orDie (c := .tarX path (dirs.PAYLOAD_TMP_DIR ++ "/boot".toList)) (by decide)
      · exact fun Q hcut hends => ⟨hcut, hends⟩
      · exact fun x hx => hx
      · exact fun x _ _ => ⟨hboot₁, rfl⟩
  · apply ends_orDie (c := .mkdirP (dirs.PAYLOAD_TMP_DIR ++ "/boot".toList)) (by decide)
    · exact fun Q hcut hends => ⟨hcut, hends⟩
    · exact fun x hx => hx
    · exact fun x _ _ => ⟨rfl, rfl⟩

/-- The calls are answered, and none of them is refused. -/
def Granted (there : Text → Bool) (payload : PayloadDir) (c : Call) (x : Choice) (d : Device) : Prop :=
  AnsweredBy there payload c x d ∧ ¬ Refused c x

/-- Every call can be granted. -/
theorem exists_granted (c : Call) (d : Device) :
  ∃ x, Granted there payload c x d
  := by
  cases c with
  | readFile path => exact ⟨{ ok := there path }, rfl, id⟩
  | duK dir =>
      use { ok := payload.du.isSome, text := payload.du.getD [] }
      constructor
      · cases hdu : payload.du <;> simp [AnsweredBy, hdu]
      · exact id
  | cpFAll dir mount_point => exact ⟨{ ok := true, num := payload.files }, rfl, nofun⟩
  | _ => exact ⟨{ ok := true }, trivial, nofun⟩

/-- The files of the partitions are left as they were by every run that a check makes exit, just
when no check of the second partition fails after those of the first one have passed, unless the
first one holds the files of the payload already. -/
theorem checksBeforeWriting_iff (dirs : Dirs) (there : Text → Bool) (payload : PayloadDir)
    (d : Device) :
  ChecksBeforeWriting dirs there payload d ↔ SecondPasses dirs there payload d
  := by
  constructor
  · intro h size_estimate_B mount_point hsize hboot
    by_contra hfails
    rw [not_or, not_exists] at hfails
    -- a run in which nothing is refused comes to the check that fails
    obtain ⟨xs, hobeys, huncut⟩ : ∃ xs, Obeys machine (Granted there payload)
        (updateBootOrDie dirs []) xs d ∧ (run machine (updateBootOrDie dirs []) xs d).1 ≠ .cut :=
      exists_uncut_run exists_granted
    have hends := holds_of_wp (wp_updateBootOrDie_ends (fun _ _ _ h => h.1) []) hobeys
    rcases hrun : run machine (updateBootOrDie dirs []) xs d with ⟨outcome, rest, d'⟩
    rw [hrun] at hends huncut
    cases outcome with
    | returned a =>
        obtain ⟨size_estimate_B', copied_to, hsize', hloader⟩ := hends
        rw [hsize] at hsize'
        obtain rfl := Option.some.inj hsize'
        exact hfails.1 copied_to hloader
    | cut => exact huncut rfl
    | raised status =>
        rcases hends with ⟨-, c, x, w, hgranted, hrefused⟩ | ⟨hfirst, -⟩ | ⟨hsecond, hstatus⟩
        · exact hgranted.2 hrefused
        · exact hfirst size_estimate_B mount_point hsize hboot
        · obtain ⟨size_estimate_B', mount_point', hsize', hboot', -, hwritten⟩ := hsecond
          rw [hsize] at hsize'
          obtain rfl := Option.some.inj hsize'
          rw [hboot] at hboot'
          obtain rfl := Option.some.inj (Except.ok.inj hboot')
          apply hfails.2
          have hkept := h [] xs rest status d' (hobeys.mono fun _ _ _ h => h.1) hrun hstatus
          rw [← hkept, hwritten, Function.update_self]
  · intro h path xs rest status d' hobeys hrun hstatus
    have hends := holds_of_wp (wp_updateBootOrDie_ends (fun _ _ _ h => h) path) hobeys
    rw [hrun] at hends
    rcases hends with hrefused | ⟨-, -, hkept⟩ | ⟨hsecond, -⟩
    · exact absurd hstatus hrefused.1
    · exact hkept
    · obtain ⟨size_estimate_B, mount_point, hsize, hboot, hloader, hwritten⟩ := hsecond
      rcases h size_estimate_B mount_point hsize hboot with ⟨copied_to, hpasses⟩ | hsame
      · exact absurd hpasses (hloader copied_to)
      · rw [hwritten, ← hsame, Function.update_eq_self]

/-! ### A board without the size of the second partition -/

def sizelessDirs : Dirs where
  BOOTFLAGS_DIR := "/boot/flags".toList
  TMP_DIR := "/tmp".toList
  PAYLOAD_TMP_DIR := "/scratch".toList
  PART_INFO_DIR := "/part-info".toList

/-- All files of the partition info directory are there but for one. -/
def sizelessThere (path : Text) : Bool :=
  path != "/part-info/MBL_WKS_BOOTLOADER_FS_SIZE_KiB".toList

def sizelessDevice : Device where
  mtab := []
  part_info path :=
    if path = "/part-info/MBL_BOOT_SIZE_KiB".toList then "1000\n".toList
    else if path = "/part-info/MBL_BOOT_MOUNT_POINT".toList then "/boot\n".toList
    else "0\n".toList
  flags := []
  image _ := none
  boot_files _ := some 1
  saved_header := none
  apps := 0

def newPayload : PayloadDir where
  du := some "100".toList
  files := 2

/-- The choices of a run in which no call is refused. -/
def grantedChoices : List Choice :=
  [{ ok := true }, { ok := true }, { ok := true, text := "100".toList },
    { ok := true }, { ok := true }, { ok := true },
    { ok := true }, { ok := true }, { ok := true, num := 2 }, { ok := true }, { ok := true },
    { ok := true }, { ok := false }]

/-- The size of the second partition is missing, which is found out when the first one has been
written. -/
theorem not_checksBeforeWriting_missing :
  ¬ ChecksBeforeWriting sizelessDirs sizelessThere newPayload sizelessDevice
  := by
  intro h
  rcases hrun : run machine (updateBootOrDie sizelessDirs "/scratch/boot.tar".toList)
    grantedChoices sizelessDevice with ⟨outcome, rest, d'⟩
  have hstatus : (run machine (updateBootOrDie sizelessDirs "/scratch/boot.tar".toList)
      grantedChoices sizelessDevice).1 = .raised 11 := by decide
  have hwritten : (run machine (updateBootOrDie sizelessDirs "/scratch/boot.tar".toList)
      grantedChoices sizelessDevice).2.2.boot_files "/boot".toList = some 2 := by decide
  have hobeys : Obeys machine (AnsweredBy sizelessThere newPayload)
      (updateBootOrDie sizelessDirs "/scratch/boot.tar".toList) grantedChoices
      sizelessDevice := by
    decide
  rw [hrun] at hstatus hwritten
  obtain rfl := hstatus
  have hkept := h _ _ _ _ _ hobeys hrun (by decide)
  rw [hkept] at hwritten
  contradiction

end Swupdate
