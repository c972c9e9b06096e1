import MblCore.Swupdate.Writes

/-!
# Remounts of the boot partitions

`boot_partition_installer.sh` remounts a boot partition for writing, replaces its files, and
remounts it for reading.  The record of an activation tells how each mount point was last
remounted.  Files are replaced only where that was for writing, and a mount point is left so just
by the failure that ends the activation.
-/

namespace Swupdate

open Prog

variable {dirs : Dirs} {images : List PayloadImage}

/-! ### How a mount point was last remounted -/

/-- Whether the mount point is open for writing after one more call. -/
def openAfter (mount_point : Text) (was : Bool) : (c : Call) × Reply c → Bool
  | ⟨.remount rpod_mount_point rpod_mount_opts, (ok : Bool)⟩ =>
      if rpod_mount_point = mount_point ∧ ok = true then rpod_mount_opts == "rw".toList else was
  | _ => was

/-- Whether the last remount of the mount point that succeeded was for writing. -/
def isOpen (record : Record) (mount_point : Text) : Bool :=
  record.foldl (openAfter mount_point) false

@[simp]
theorem isOpen_concat {record : Record} {mount_point : Text} {entry : (c : Call) × Reply c} :
  isOpen (record ++ [entry]) mount_point = openAfter mount_point (isOpen record mount_point) entry
  := by
  simp [isOpen]

/-- Files of a boot partition are removed and written only while its mount point is open.  Calls
that might do so anywhere are not made. -/
def WriteAllowed (before : Record) : Call → Prop
  | .rmFAll mount_point | .cpFAll _ mount_point => isOpen before mount_point = true
  | .copyElsewhere _ _ | .commandLine _ => False
  | _ => True

/-- The call failed to replace the files at the mount point, or to remount it for reading. -/
def FailedAt (mount_point : Text) : (c : Call) × Reply c → Prop
  | ⟨.rmFAll cfod_mnt_point, (ok : Bool)⟩ | ⟨.cpFAll _ cfod_mnt_point, (ok : Bool)⟩ =>
      cfod_mnt_point = mount_point ∧ ok = false
  | ⟨.remount rpod_mount_point rpod_mount_opts, (ok : Bool)⟩ =>
      rpod_mount_point = mount_point ∧ rpod_mount_opts = "ro".toList ∧ ok = false
  | _ => False

/-- A mount point is open just when the last call failed there. -/
def OpenOnlyByFailure (record : Record) : Prop :=
  ∀ mount_point, isOpen record mount_point = true ↔
    ∃ entry, record.getLast? = some entry ∧ FailedAt mount_point entry

/-! ### Between the images -/

/-- Every write so far was allowed. -/
def WritesAllowed (s : Recorded) : Prop :=
  EveryCall WriteAllowed s.2

/-- Every write so far was allowed, and no mount point is open. -/
structure Closed (s : Recorded) : Prop where
  writes : WritesAllowed s
  closed : ∀ mount_point, isOpen s.2 mount_point = false
  last : ∀ entry ∈ s.2.getLast?, ∀ mount_point, ¬ FailedAt mount_point entry

/-- What holds where an activation fails. -/
structure FailedClosed (s : Recorded) : Prop where
  writes : WritesAllowed s
  by_failure : OpenOnlyByFailure s.2

theorem Closed.failedClosed {s : Recorded} (h : Closed s) :
  FailedClosed s
  := by
  constructor
  · exact h.writes
  · intro mount_point
    rw [h.closed]
    constructor
    · exact fun hfalse => absurd hfalse Bool.false_ne_true
    · rintro ⟨entry, hentry, hfailed⟩
      exact absurd hfailed (h.last entry hentry mount_point)

variable {adm : Call → Choice → Recorded → Prop} {s : Recorded}

/-- The call has to do with no mount point. -/
def NoMount : Call → Prop
  | .remount _ _ | .rmFAll _ | .cpFAll _ _ | .copyElsewhere _ _ | .commandLine _ => False
  | _ => True

theorem noMount_of_quiet {α : Type} {p : Script α} (h : Issues Quiet p) :
  Issues NoMount p
  := by
  apply h.mono
  intro c hc
  cases c <;> trivial

/-- A call that has to do with no mount point leaves all of them closed. -/
theorem Closed.perform {c : Call} (hc : NoMount c) (x : Choice) (h : Closed s) :
  Closed (machine.traced.perform c x s).2
  := by
  change Closed ((Swupdate.perform c x s.1).2, s.2 ++ [⟨c, (Swupdate.perform c x s.1).1⟩])
  generalize (Swupdate.perform c x s.1).1 = r
  constructor
  · apply everyCall_concat.mpr ⟨h.writes, _⟩
    cases c <;> trivial
  · intro mount_point
    rw [isOpen_concat, h.closed]
    cases c with
    | remount _ _ => exact hc.elim
    | _ => rfl
  · intro entry hentry mount_point
    rw [List.getLast?_concat] at hentry
    obtain rfl := Option.some.inj hentry
    cases c <;> first | exact hc.elim | exact id

theorem kept_closed :
  Kept Closed FailedClosed WritesAllowed
  := by
  constructor
  · intro c x s hc hs
    apply hs.perform
    cases c <;> trivial
  · exact fun _ hs => hs.failedClosed
  · exact fun _ hs => hs.writes

/-! ### One boot partition -/

/-- Every write so far was allowed, and this mount point alone is open. -/
structure OpenAt (mount_point : Text) (s : Recorded) : Prop where
  writes : WritesAllowed s
  is_open : ∀ m, isOpen s.2 m = true ↔ m = mount_point

/-- A closed mount point is remounted for writing, or nothing has changed. -/
theorem Closed.remount_rw (h : Closed s) (mount_point : Text) (d' : Device) (ok : Bool) :
  if ok = true
    then OpenAt mount_point (d', s.2 ++ [⟨.remount mount_point "rw".toList, ok⟩])
    else Closed (d', s.2 ++ [⟨.remount mount_point "rw".toList, ok⟩])
  := by
  have hwrites : WritesAllowed (d', s.2 ++ [⟨.remount mount_point "rw".toList, ok⟩]) :=
    everyCall_concat.mpr ⟨h.writes, trivial⟩
  cases ok with
  | true =>
      use hwrites
      intro m
      simp only [isOpen_concat, openAfter, h.closed]
      simp [eq_comm]
  | false =>
      constructor
      · exact hwrites
      · intro m
        simp only [isOpen_concat, openAfter, h.closed]
        simp
      · intro entry hentry m
        rw [List.getLast?_concat] at hentry
        obtain rfl := Option.some.inj hentry
        rintro ⟨-, hro, -⟩
        exact absurd hro (by decide)

/-- A write at an open mount point leaves it open. -/
theorem OpenAt.write {mount_point : Text} {c : Call} (h : OpenAt mount_point s)
    (hallowed : WriteAllowed s.2 c) (r : Reply c) (d' : Device)
    (hkept : ∀ m was, openAfter m was ⟨c, r⟩ = was) :
  OpenAt mount_point (d', s.2 ++ [⟨c, r⟩])
  := by
  constructor
  · exact everyCall_concat.mpr ⟨h.writes, hallowed⟩
  · intro m
    rw [isOpen_concat, hkept]
    exact h.is_open m

/-- Where the last call failed, its mount point is open. -/
theorem OpenAt.failedClosed {mount_point : Text} {record : Record}
    {entry : (c : Call) × Reply c} (h : OpenAt mount_point s) (hrecord : s.2 = record ++ [entry])
    (hfailed : ∀ m, FailedAt m entry ↔ mount_point = m) :
  FailedClosed s
  := by
  use h.writes
  intro m
  rw [h.is_open, hrecord, List.getLast?_concat]
  constructor
  · rintro rfl
    exact ⟨entry, rfl, (hfailed m).mpr rfl⟩
  · rintro ⟨entry', hentry', hm⟩
    obtain rfl := Option.some.inj hentry'
    exact ((hfailed m).mp hm).symm

/-- An open mount point is remounted for reading, or is left open. -/
theorem OpenAt.remount_ro {mount_point : Text} (h : OpenAt mount_point s) (d' : Device)
    (ok : Bool) :
  if ok = true
    then Closed (d', s.2 ++ [⟨.remount mount_point "ro".toList, ok⟩])
    else FailedClosed (d', s.2 ++ [⟨.remount mount_point "ro".toList, ok⟩])
  := by
  cases ok with
  | true =>
      constructor
      · exact everyCall_concat.mpr ⟨h.writes, trivial⟩
      · intro m
        rw [isOpen_concat]
        by_cases hm : mount_point = m
        · simp only [openAfter, hm, and_self, if_true]
          decide
        · rw [openAfter, if_neg (by simp [hm])]
          rw [Bool.eq_false_iff, ne_eq, h.is_open]
          exact fun heq => hm heq.symm
      · intro entry hentry m
        rw [List.getLast?_concat] at hentry
        obtain rfl := Option.some.inj hentry
        rintro ⟨-, -, hfalse⟩
        exact absurd hfalse (by decide)
  | false =>
      have hopen : OpenAt mount_point (d', s.2 ++ [⟨.remount mount_point "ro".toList, false⟩]) := by
        apply h.write (c := .remount mount_point "ro".toList) (by trivial) false d'
        intro m was
        simp [openAfter]
      apply hopen.failedClosed rfl
      intro m
      simp [FailedAt]

/-- The reply to a call is put on the record. -/
theorem wp_recorded {c : Call} {Q : Post Recorded Nat (Reply c)} (hcut : Q.cut s)
    (hreturned : ∀ r d', Q.returned r (d', s.2 ++ [⟨c, r⟩])) :
  wp machine.traced adm (issue c) Q s
  := by
  rw [wp_issue]
  use hcut
  exact fun x _ => hreturned _ _

/-- `copy_dir_or_die` opens a mount point, and closes it unless it fails. -/
theorem wp_copyDirOrDie_closed {source_path mnt_point : Text} (hs : Closed s) :
  wp machine.traced adm (copyDirOrDie source_path mnt_point)
    (AfterInstaller Closed FailedClosed WritesAllowed) s
  := by
  simp only [copyDirOrDie, remountPartitionOrDie, orDie, wp_bind]
  apply wp_recorded hs.writes
  intro remounted d₁
  cases remounted with
  | false => exact ⟨(hs.remount_rw mnt_point d₁ false).failedClosed, by simp⟩
  | true =>
      have hopen : OpenAt mnt_point (d₁, s.2 ++ [⟨.remount mnt_point "rw".toList, true⟩]) :=
        hs.remount_rw mnt_point d₁ true
      simp only [if_true, wp_pure, wp_bind]
      apply wp_recorded hopen.writes
      intro removed d₂
      have hremoved := hopen.write (c := .rmFAll mnt_point)
        ((hopen.is_open mnt_point).mpr rfl) removed d₂ fun _ _ => rfl
      cases removed with
      | false =>
          use hremoved.failedClosed rfl fun m => by simp [FailedAt]
          simp
      | true =>
          simp only [if_true, wp_pure, wp_bind]
          apply wp_recorded hremoved.writes
          intro copied d₃
          have hcopied := hremoved.write (c := .cpFAll source_path mnt_point)
            ((hremoved.is_open mnt_point).mpr rfl) copied d₃ fun _ _ => rfl
          cases copied with
          | false =>
              use hcopied.failedClosed rfl fun m => by simp [FailedAt]
              simp
          | true =>
              simp only [if_true, wp_pure, wp_bind]
              apply wp_recorded hcopied.writes
              intro closed d₄
              cases closed with
              | false => exact ⟨hcopied.remount_ro d₄ false, by simp⟩
              | true => exact hcopied.remount_ro d₄ true

/-! ### The installer and the activation -/

/-- What one part of an installer does before the rest. -/
theorem wp_installer_bind {p : Script Unit} {f : Unit → Script Unit}
    (hp : wp machine.traced adm p (AfterInstaller Closed FailedClosed WritesAllowed) s)
    (hf : ∀ s, Closed s →
      wp machine.traced adm (f ()) (AfterInstaller Closed FailedClosed WritesAllowed) s) :
  wp machine.traced adm (p >>= f) (AfterInstaller Closed FailedClosed WritesAllowed) s
  := by
  rw [wp_bind]
  apply hp.of_returned
  exact fun _ s hs => hf s hs

theorem wp_updateBootPartFromDirOrDie_closed {part_name dir : Text} {size : Nat}
    {skip_ok : Bool} (hs : Closed s) :
  wp machine.traced adm (updateBootPartFromDirOrDie dirs part_name dir size skip_ok)
    (AfterInstaller Closed FailedClosed WritesAllowed) s
  := by
  have hraised (e : Nat) (s : Recorded) (hs : Closed s) : FailedClosed s ∧ (e = 0 → Closed s) :=
    ⟨hs.failedClosed, fun _ => hs⟩
  have hcut (s : Recorded) (hs : Closed s) : WritesAllowed s := hs.writes
  simp only [updateBootPartFromDirOrDie, wp_bind]
  apply kept_closed.wp_of_quiet (quiet_of_prepares (prepares_isPartSkipped _)) hs _ hraised hcut
  intro skipped s hs
  simp only
  split
  · split
    · exact hs
    · exact hraised 65 s hs
  · simp only [wp_bind]
    apply kept_closed.wp_of_quiet (quiet_of_prepares (valueOrDie_issues (prepares_getPartSizeVarB _ _))) hs _ hraised hcut
    intro max_size_B s hs
    simp only
    split
    · exact hraised 60 s hs
    · simp only [wp_bind]
      apply kept_closed.wp_of_quiet (issue_quiet (by trivial)) hs _ hraised hcut
      intro mount_point s hs
      simp only
      split
      · exact hraised 31 s hs
      · exact hraised 31 s hs
      · apply wp_installer_bind (wp_copyDirOrDie_closed hs)
        exact fun s hs => kept_closed.wp_installer_of_quiet (quiet_of_prepares prepares_removeDoNotRebootFlagOrDie) hs

/-- The installer of the boot partition opens one mount point at a time. -/
theorem wp_updateBootOrDie_closed {path : Text} (hs : Closed s) :
  wp machine.traced adm (updateBootOrDie dirs path)
    (AfterInstaller Closed FailedClosed WritesAllowed) s
  := by
  have hraised (e : Nat) (s : Recorded) (hs : Closed s) : FailedClosed s ∧ (e = 0 → Closed s) :=
    ⟨hs.failedClosed, fun _ => hs⟩
  have hcut (s : Recorded) (hs : Closed s) : WritesAllowed s := hs.writes
  simp only [updateBootOrDie]
  apply wp_installer_bind
  · exact kept_closed.wp_installer_of_quiet (orDie_issues (issue_quiet (by trivial))) hs
  · intro s hs
    apply wp_installer_bind
    · exact kept_closed.wp_installer_of_quiet (orDie_issues (issue_quiet (by trivial))) hs
    · intro s hs
      rw [wp_bind]
      apply kept_closed.wp_of_quiet (quiet_of_prepares (prepares_sizeEstimateB dirs _)) hs _ hraised hcut
      intro size s hs
      cases size with
      | none => exact hraised 59 s hs
      | some size =>
          apply wp_installer_bind (wp_updateBootPartFromDirOrDie_closed hs)
          intro s hs
          apply wp_installer_bind (wp_updateBootPartFromDirOrDie_closed hs)
          exact fun s hs => kept_closed.wp_installer_of_quiet (quiet_of_prepares prepares_removeDoNotRebootFlagOrDie) hs

/-! ### The installer of boot loaders -/

theorem noMount_writeToFlashOrDie (file : Text) (offset_B max_size_B : Nat) :
  Issues NoMount (writeToFlashOrDie file offset_B max_size_B)
  := by
  apply Issues.bind
  · apply (noMount_of_quiet (issue_quiet (by trivial))).bind
    intro lines
    split
    · apply (noMount_of_quiet (issue_quiet (by trivial))).bind
      intro found
      split <;> trivial
    · trivial
  · intro device
    split
    · trivial
    · apply (noMount_of_quiet (issue_quiet (by trivial))).bind
      intro size
      split
      · trivial
      · split
        · trivial
        · exact orDie_issues (issues_issue.mpr (by trivial))

theorem noMount_updateBootloaderOrDie (path : Text) :
  Issues NoMount (updateBootloaderOrDie dirs path)
  := by
  apply (noMount_of_quiet (quiet_of_prepares (prepares_isPartSkipped _))).bind
  intro skipped
  split
  · trivial
  · apply (noMount_of_quiet (quiet_of_prepares (valueOrDie_issues (prepares_getPartSizeVarB _ _)))).bind
    intro max_size_B
    apply (noMount_of_quiet (quiet_of_prepares (valueOrDie_issues (prepares_getPartSizeVarB _ _)))).bind
    intro offset_B
    apply (noMount_of_quiet (orDie_issues (issue_quiet (by trivial)))).bind
    intro _
    apply (noMount_writeToFlashOrDie _ _ _).bind
    exact fun _ => noMount_of_quiet (quiet_of_prepares prepares_removeDoNotRebootFlagOrDie)

/-- The installer of boot loaders leaves all mount points closed. -/
theorem wp_updateBootloaderOrDie_closed {path : Text} (hs : Closed s) :
  wp machine.traced adm (updateBootloaderOrDie dirs path)
    (AfterInstaller Closed FailedClosed WritesAllowed) s
  := by
  apply (wp_of_issues Closed (noMount_updateBootloaderOrDie path) _ hs).mono
  · exact fun _ _ hs => hs
  · exact fun _ _ hs => ⟨hs.failedClosed, fun _ => hs⟩
  · exact fun _ hs => hs.writes
  · exact fun c x s hc _ hs => hs.perform hc x

/-! ### The activation -/

/-- In every activation the files of a boot partition are removed and written only while its mount
point is remounted for writing.  However an activation ends that is not cut, a mount point is left
so just when the last call of the activation failed to replace the files there or to remount it
for reading, and then a handler has failed. -/
theorem boot_partitions_closed (HEADER FIRMWARE : Text) {images : List PayloadImage}
    (hpassed : AllPassedOn dirs images) (choices : List Choice) (d : Device) :
  let (outcome, _, _, record) :=
    run machine.traced (armUpdateActivate dirs HEADER FIRMWARE images) choices (d, [])
  EveryCall WriteAllowed record ∧
    (outcome ≠ .cut → OpenOnlyByFailure record ∧
      ((∃ mount_point, isOpen record mount_point = true) → outcome = .raised 25))
  := by
  have hinit : Closed (d, []) := by
    constructor
    · exact everyCall_nil
    · exact fun _ => rfl
    · intro entry hentry
      simp at hentry
  have hwp : wp machine.traced (fun _ _ _ => True) (armUpdateActivate dirs HEADER FIRMWARE images)
      { returned := fun _ => Closed
        raised := fun status s => FailedClosed s ∧ (status ≠ 25 → Closed s)
        cut := WritesAllowed } (d, []) := by
    apply kept_closed.wp_armUpdateActivate hpassed hinit
    · exact fun image s _ hs _ => wp_updateBootloaderOrDie_closed hs
    · exact fun image s hs => wp_updateBootOrDie_closed hs
  have hends := holds_of_wp hwp (obeys_true : Obeys _ _ _ choices _)
  revert hends
  generalize run machine.traced (armUpdateActivate dirs HEADER FIRMWARE images) choices (d, [])
    = result
  obtain ⟨outcome, rest, d', record⟩ := result
  intro hends
  cases outcome with
  | returned a =>
      have hclosed : Closed (d', record) := hends
      refine ⟨hclosed.writes, fun _ => ⟨hclosed.failedClosed.by_failure, ?_⟩⟩
      rintro ⟨mount_point, hopen⟩
      rw [hclosed.closed] at hopen
      contradiction
  | raised status =>
      obtain ⟨hfailed, hclosed⟩ := hends
      refine ⟨hfailed.writes, fun _ => ⟨hfailed.by_failure, ?_⟩⟩
      rintro ⟨mount_point, hopen⟩
      by_contra hne
      rw [(hclosed fun h => hne (congrArg _ h)).closed] at hopen
      contradiction
  | cut => exact ⟨hends, fun hne => absurd rfl hne⟩

/-- A boot image is unpacked, and its files cannot be copied. -/
def bootNotCopied : List Choice :=
  List.replicate 14 { ok := true, text := "4".toList } ++ [{ ok := false }]

/-- A device on which all settings are `8`. -/
def eightDevice : Device :=
  { AbSafety.freshBoard.device with part_info := fun _ => "8".toList }

/-- A payload with a boot image. -/
def bootPayload : List PayloadImage :=
  [⟨.BOOT, ⟨"boot.tar.xz".toList, 1⟩⟩]

/-- The mount point of the boot partition stays open only for the copy that failed. -/
theorem boot_partitions_closed_notCopied :
  let (outcome, _, _, record) := run machine.traced
    (armUpdateActivate AbSafety.boardDirs [] [] bootPayload) bootNotCopied (eightDevice, [])
  EveryCall WriteAllowed record ∧
    (outcome ≠ .cut → OpenOnlyByFailure record ∧
      ((∃ mount_point, isOpen record mount_point = true) → outcome = .raised 25))
  := by
  have hpassed : AllPassedOn AbSafety.boardDirs bootPayload := by
    intro image himage h hh
    obtain rfl := List.mem_singleton.mp himage
    obtain rfl := Option.some.inj hh
    constructor <;> decide
  exact boot_partitions_closed [] [] hpassed bootNotCopied eightDevice

end Swupdate
