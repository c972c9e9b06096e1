import MblCore.Swupdate.HandlerBuffers

/-!
# The handler is safe, but for what it prints

With its memory `rootfsv4_handler` issues the calls of the handler without, returns what that returns
and gives every block back.  It prints a buffer that it has not filled when it finds no device or no
target, and the block for a file can be too small.  Otherwise its behaviour is defined.
-/

namespace Swupdate

namespace WithMemory

open InMemory

open Prog hiding pure throw bind

variable {w : Width} {env : Surroundings w} {α : Type} {m m' : Memory Char}

/-! ### The functions that issue calls -/

/-- The part issues the calls of a script and ends as it does. -/
abbrev FollowsScript (r : Prog Call Reply Stop (α × Memory Char)) (q : Script α)
    (post : α → Memory Char → Prop) : Prop :=
  Follows .exited r q post

theorem follows_script (q : Script α) (m : Memory Char) :
  FollowsScript (script q m) q fun _ m' => m' = m
  := Follows.lift q fun _ => rfl

theorem follows_withArray {size : ℕ} {body : Ptr → Code α} {q : Script α}
    {post post' : α → Memory Char → Prop}
    (h : FollowsScript (body ⟨m.unused, 0⟩ (m.put m.unused (List.replicate size none))) q post)
    (hpost : ∀ a m', post a m' →
      (∃ cells, m'.block m.unused = some cells) ∧ post' a (m'.erase m.unused)) :
  FollowsScript (withArray size body m) q post'
  := by
  rw [withArray, run_of_pure rfl, run_bind]
  apply h.bind_state
  intro a m' ha
  obtain ⟨⟨cells, hcells⟩, ha'⟩ := hpost a m' ha
  exact ⟨_, by rw [run_of_pure (free_of_block hcells)]; rfl, ha'⟩

/-- What is printed of a string does not matter. -/
theorem error_eq {p : Ptr} {s : Text} (h : m.string NUL p = some s) :
  error env p m = pure ((), m)
  := by
  unfold error
  split
  · rw [run_of_pure (string_of_some h)]
    rfl
  · rfl

/-- A function that begins with a path in a local array, and leaves the memory as it is then: the path
is too long, or the array holds it. -/
theorem follows_withPath {path : Text} (hpath : NUL ∉ path) {rest : Ptr → ℤ → Code α} {q : Script α}
    (hlong : Swupdate.snprintf PATH_MAX path = none →
      ∀ m' array, FollowsScript (rest array (-1) m') q fun _ m'' => m'' = m')
    (hfits : Swupdate.snprintf PATH_MAX path = some path → ∀ m' array, m'.string NUL array = some path →
      FollowsScript (rest array 0 m') q fun _ m'' => m'' = m') :
  FollowsScript (withArray PATH_MAX (fun array => printPath array path PATH_MAX >>= rest array) m) q
    fun _ m' => SameBlocks m m'
  := by
  have hm := NewBlock.allocated m (List.replicate PATH_MAX none)
  obtain ⟨cells, hprint, hstring, -, -⟩ := printPath_cases hm.block_self List.length_replicate
    (by decide) hpath
  have hm := hm.written cells
  generalize (m.put m.unused (List.replicate PATH_MAX none)).put m.unused cells = m' at hprint hm
  have hrest : FollowsScript
      (rest ⟨m.unused, 0⟩ (if Swupdate.snprintf PATH_MAX path = none then -1 else 0) m') q
      fun _ m'' => m'' = m' := by
    cases hprinted : Swupdate.snprintf PATH_MAX path with
    | none =>
        rw [if_pos rfl]
        exact hlong hprinted _ _
    | some path' =>
        obtain rfl := snprintf_eq_some hprinted
        rw [if_neg (Option.some_ne_none _)]
        apply hfits hprinted
        rw [hm.string_self, List.drop_zero]
        apply hstring (by rw [hprinted]; exact Option.some_ne_none _)
  rw [← run_of_pure (f := rest ⟨m.unused, 0⟩) hprint] at hrest
  apply follows_withArray hrest
  rintro _ _ rfl
  exact ⟨⟨cells, hm.block_self⟩, hm.erase⟩

theorem follows_removeBootflagFile {filename : Text} (hname : NUL ∉ filename) (m : Memory Char) :
  FollowsScript (removeBootflagFile env filename m) (Swupdate.removeBootflagFile env.dirs filename)
    fun _ m' => SameBlocks m m'
  := by
  unfold Swupdate.removeBootflagFile Swupdate.getBootflagFilePath
  apply follows_withPath (notMem_path (env.dirs_strings env.dirs.BOOTFLAGS_DIR (by simp)) hname)
  · intro hlong m' array
    rw [hlong]
    exact Follows.pure rfl
  · intro hfits m' array hread
    rw [hfits, if_neg (by decide), run_of_pure (string_of_some hread)]
    exact follows_script _ _

/-- The part of `write_bootflag_file` once the directory is there. -/
theorem follows_openCreat {filename : Text} (hname : NUL ∉ filename) (m : Memory Char) :
  FollowsScript
    (withArray PATH_MAX (fun bootflags_file_path => do
      if (← getBootflagFilePath env bootflags_file_path filename PATH_MAX) = -1 then return -1
      else
        match ← script (issue (.openCreat (← string bootflags_file_path))) with
        | .error _ =>
            error env bootflags_file_path
            return -1
        | .ok () => return 0) m)
    (match Swupdate.getBootflagFilePath env.dirs filename PATH_MAX with
      | none => pure (-1)
      | some bootflags_file_path => do
          match ← issue (.openCreat bootflags_file_path) with
          | .error _ => pure (-1)
          | .ok () => pure 0)
    fun _ m' => SameBlocks m m'
  := by
  unfold Swupdate.getBootflagFilePath
  apply follows_withPath (notMem_path (env.dirs_strings env.dirs.BOOTFLAGS_DIR (by simp)) hname)
  · intro hlong m' array
    rw [hlong]
    exact Follows.pure rfl
  · intro hfits m' array hread
    rw [hfits, if_neg (by decide), run_of_pure (string_of_some hread), run_bind]
    apply (follows_script _ _).bind
    rintro r _ rfl
    cases r with
    | error errno =>
        dsimp only
        rw [run_of_pure (error_eq hread)]
        exact Follows.pure rfl
    | ok _ => exact Follows.pure rfl

theorem follows_writeBootflagFile {filename : Text} (hname : NUL ∉ filename) (m : Memory Char) :
  FollowsScript (writeBootflagFile env filename m) (Swupdate.writeBootflagFile env.dirs filename)
    fun _ m' => SameBlocks m m'
  := by
  rw [writeBootflagFile, run_bind, Swupdate.writeBootflagFile]
  apply (follows_script _ _).bind
  rintro r _ rfl
  cases r with
  | error errno =>
      cases errno with
      | EEXIST => exact follows_openCreat hname _
      | ENOENT => exact Follows.pure (SameBlocks.refl _)
      | other => exact Follows.pure (SameBlocks.refl _)
  | ok _ => exact follows_openCreat hname _

theorem follows_removeDoNotRebootFlag (m : Memory Char) :
  FollowsScript (removeDoNotRebootFlag env m) (Swupdate.removeDoNotRebootFlag env.dirs)
    fun _ m' => SameBlocks m m'
  := by
  have hname : NUL ∉ "do_not_reboot".toList := by decide
  unfold Swupdate.removeDoNotRebootFlag doNotRebootPath
  apply follows_withPath (notMem_path (env.dirs_strings env.dirs.TMP_DIR (by simp)) hname)
  · intro hlong m' array
    rw [hlong]
    exact Follows.pure rfl
  · intro hfits m' array hread
    rw [hfits, if_neg (by decide), run_of_pure (string_of_some hread)]
    exact follows_script _ _

theorem follows_copyImageAndSync {p : Ptr} {device : Text} (img : Img)
    (h : m.string NUL p = some device) :
  FollowsScript (copyImageAndSync env img p m) (Swupdate.copyImageAndSync img device)
    fun _ m' => m' = m
  := by
  rw [copyImageAndSync, run_of_pure (string_of_some h), run_bind, Swupdate.copyImageAndSync]
  apply (follows_script _ _).bind
  rintro opened _ rfl
  cases opened with
  | false =>
      rw [if_pos rfl, if_pos rfl, run_of_pure (error_eq h)]
      exact Follows.pure rfl
  | true =>
      rw [if_neg Bool.noConfusion, if_neg Bool.noConfusion, run_bind]
      apply (follows_script _ _).bind
      rintro copied _ rfl
      have hclose (m : Memory Char) : FollowsScript
          ((do if ← script (issue .close) then return 0 else return -1 : Code Int) m)
          (do if ← issue .close then pure 0 else pure (-1)) fun _ m' => m' = m := by
        apply (follows_script _ _).bind
        rintro closed _ rfl
        cases closed <;> exact Follows.pure rfl
      cases copied with
      | false =>
          rw [if_pos rfl, run_of_pure (error_eq h)]
          exact hclose _
      | true => exact hclose _

theorem follows_selectTarget {p p' : Ptr} {target b2 : Text} (hp : m.string NUL p = some target)
    (hp' : m.string NUL p' = some b2) :
  FollowsScript (selectTarget env p p' m) (Swupdate.selectTarget env.dirs target b2)
    fun _ m' => SameBlocks m m'
  := by
  have hname : NUL ∉ rootfsFilename := by decide
  have hset : FollowsScript (setBootflag env p p' m) (Swupdate.setBootflag env.dirs target b2)
      fun _ m' => SameBlocks m m' := by
    rw [setBootflag, run_of_pure (strEndswith_eq hp' hp), Swupdate.setBootflag]
    split
    · exact follows_writeBootflagFile hname m
    · exact follows_removeBootflagFile hname m
  rw [selectTarget, run_bind, Swupdate.selectTarget]
  apply hset.bind
  intro rc m' hsame
  dsimp only
  split
  · exact Follows.pure hsame
  · rw [run_bind]
    apply (follows_removeDoNotRebootFlag m').bind
    intro rc m'' hsame'
    dsimp only
    split
    · exact Follows.pure (hsame.trans hsame')
    · exact Follows.pure (hsame.trans hsame')

/-! ### What is known before an image is copied -/

/-- The calls that only ask are answered by the mount table and the files. -/
def Surroundings.answer (env : Surroundings w) : (c : Call) → Option (Reply c)
  | .setmntent => some (env.mtab.map Subtype.val)
  | .readFile path => some (contents w (env.file path))
  | _ => none

/-- The target, and the part number of bank 2. -/
def Surroundings.updateTarget (env : Surroundings w) : Option (Text × Text) :=
  env.device.bind fun device =>
    (env.partNumber "MBL_ROOT_FS_PART_NUMBER_BANK1".toList).bind fun b1 =>
      (env.partNumber "MBL_ROOT_FS_PART_NUMBER_BANK2".toList).bind fun b2 =>
        (Swupdate.findTargetPartition device b1 b2 MAX_DEVICE_FILE_PATH).map fun target => (target, b2)

theorem answered_getMountedDevice (env : Surroundings w) :
  (Swupdate.getMountedDevice "/".toList MAX_DEVICE_FILE_PATH).answered env.answer = pure env.device
  := by
  have hanswer : env.answer .setmntent = some (env.mtab.map Subtype.val) := rfl
  rw [Swupdate.getMountedDevice, answered_bind, answered_issue hanswer, Surroundings.device]
  cases env.mtab with
  | none => rfl
  | some mtab =>
      simp only [Option.map_some, Option.bind_some, pure_bind_eq]
      obtain hfirst | ⟨mntent_desc, hfirst⟩ := Option.eq_none_or_eq_some
        (mtab.val.find? fun mntent_desc => mntent_desc.mnt_dir == "/".toList)
      · rw [hfirst]
        rfl
      · rw [hfirst, Option.bind_some]
        dsimp only
        split
        · rfl
        · rfl

theorem answered_readPartInfoFileToNewStr (env : Surroundings w) (file_name : Text) :
  (Swupdate.readPartInfoFileToNewStr env.dirs file_name).answered env.answer
    = pure (env.partNumber file_name)
  := by
  unfold Swupdate.readPartInfoFileToNewStr Surroundings.partNumber
  cases Swupdate.getPartInfoFilepath env.dirs file_name PATH_MAX with
  | none => rfl
  | some path => exact answered_issue rfl

theorem answered_findUpdateTarget (env : Surroundings w) :
  (findUpdateTarget env.dirs).answered env.answer = pure env.updateTarget
  := by
  rw [findUpdateTarget, answered_bind, answered_getMountedDevice, Surroundings.updateTarget]
  cases env.device with
  | none => rfl
  | some device =>
      rw [pure_bind_eq, answered_bind, answered_readPartInfoFileToNewStr]
      cases env.partNumber "MBL_ROOT_FS_PART_NUMBER_BANK1".toList with
      | none => rfl
      | some b1 =>
          rw [pure_bind_eq, answered_bind, answered_readPartInfoFileToNewStr]
          cases env.partNumber "MBL_ROOT_FS_PART_NUMBER_BANK2".toList with
          | none => rfl
          | some b2 =>
              simp only [pure_bind_eq, Option.bind_some]
              cases Swupdate.findTargetPartition device b1 b2 MAX_DEVICE_FILE_PATH with
              | none => rfl
              | some target => rfl

/-- What the handler does once it has a target. -/
def installTarget (dirs : Dirs) (img : Img) (target b2_pnum : Text) : Script Int := do
  if (← Swupdate.copyImageAndSync img target) = -1 then pure 1
  else Swupdate.selectTarget dirs target b2_pnum

/-- The calls that only ask come before the image is copied. -/
theorem answered_installTarget (env : Surroundings w) (img : Img) (target b2_pnum : Text) :
  (installTarget env.dirs img target b2_pnum).answered env.answer
    = installTarget env.dirs img target b2_pnum
  := by
  have hissues : Issues (fun c => ¬ QueryCall c) (installTarget env.dirs img target b2_pnum) := by
    apply Issues.bind
    · apply Issues.bind
      · exact issues_issue.mpr id
      · intro opened
        split
        · trivial
        · apply Issues.bind
          · exact issues_issue.mpr id
          · intro _
            apply Issues.bind
            · exact issues_issue.mpr id
            · intro closed
              split <;> trivial
    · intro rc
      split
      · trivial
      · apply (selectTarget_issues _ _).mono
        intro c hc
        cases c with
        | mkdir _ | openCreat _ | remove _ => exact id
        | _ => exact hc.elim
  apply answered_of_issues hissues
  intro c hc
  cases c with
  | setmntent | readFile _ => exact absurd trivial hc
  | _ => rfl

theorem answered_rootfsv4Handler (env : Surroundings w) (img : Img) :
  (Swupdate.rootfsv4Handler env.dirs Swupdate.copyImageAndSync img).answered env.answer
    = match env.updateTarget with
      | none => pure 1
      | some (target, b2_pnum) => installTarget env.dirs img target b2_pnum
  := by
  rw [Swupdate.rootfsv4Handler, answered_bind, answered_findUpdateTarget]
  cases env.updateTarget with
  | none => rfl
  | some target =>
      obtain ⟨target, b2_pnum⟩ := target
      exact answered_installTarget env img target b2_pnum

/-! ### The handler -/

/-- A part with memory aborts for want of it, or its behaviour is undefined, just when so told, or it
does what a script does. -/
inductive Refines (env : Surroundings w) (undefined : Prop)
    (r : Prog Call Reply Stop (α × Memory Char)) (q : Script α) (post : α → Memory Char → Prop) : Prop
  | aborted (n : ℕ) (size : SizeT w) (hrefused : env.malloc n size = false) (h : r = .throw .aborted)
  | undefined (hundefined : undefined) (h : r = .throw .undefined)
  | follows (hdefined : ¬ undefined) (h : FollowsScript r q post)

theorem Refines.withArray {undefined : Prop} {size : ℕ} {body : Ptr → Code α} {q : Script α}
    {post' : α → Memory Char → Prop} (post : α → Memory Char → Prop)
    (h : Refines env undefined (body ⟨m.unused, 0⟩ (m.put m.unused (List.replicate size none))) q post)
    (hpost : ∀ a m', post a m' →
      (∃ cells, m'.block m.unused = some cells) ∧ post' a (m'.erase m.unused)) :
  Refines env undefined (withArray size body m) q post'
  := by
  cases h with
  | aborted n size hrefused h => exact .aborted n size hrefused (withArray_of_throw h)
  | undefined hundefined h => exact .undefined hundefined (withArray_of_throw h)
  | follows hdefined h => exact .follows hdefined (follows_withArray h hpost)

theorem Refines.mono {undefined undefined' : Prop} {r : Prog Call Reply Stop (α × Memory Char)}
    {q : Script α} {post post' : α → Memory Char → Prop} (h : Refines env undefined r q post)
    (hundefined : undefined ↔ undefined') (hpost : ∀ a m', post a m' → post' a m') :
  Refines env undefined' r q post'
  := by
  cases h with
  | aborted n size hrefused h => exact .aborted n size hrefused h
  | undefined h' h => exact .undefined (hundefined.mp h') h
  | follows hdefined h => exact .follows (mt hundefined.mpr hdefined) (h.mono hpost)

/-- A buffer that need not hold a string is printed, and the script returns. -/
theorem error_refines {p : Ptr} {undefined : Prop} {a : α} {post : α → Memory Char → Prop}
    (hundefined : undefined ↔ env.formats = true ∧ m.string NUL p = none) (hpost : post a m) :
  Refines env undefined ((error env p >>= fun _ => pure a) m) (pure a) post
  := by
  cases hstring : m.string NUL p with
  | some s =>
      rw [run_of_pure (error_eq hstring)]
      refine .follows ?_ (Follows.pure hpost)
      rw [hundefined, hstring]
      simp
  | none =>
      cases hformats : env.formats with
      | true =>
          apply Refines.undefined (hundefined.mpr ⟨hformats, hstring⟩)
          apply run_of_throw
          rw [error, hformats, if_pos rfl, run_of_throw (string_of_none hstring)]
      | false =>
          have hnothing : error env p m = pure ((), m) := by
            rw [error, hformats]
            rfl
          rw [run_of_pure hnothing]
          refine .follows ?_ (Follows.pure hpost)
          rw [hundefined, hformats]
          simp

theorem installImage_refines (env : Surroundings w) {mounted bank1 bank2 : Ptr} {s b1 b2 : Text}
    (img : Img)
    (hs : m.string NUL mounted = some s) (hlength : s.length < MAX_DEVICE_FILE_PATH)
    (hb1 : m.string NUL bank1 = some b1) (hb2 : m.string NUL bank2 = some b2) :
  Refines env (env.formats = true ∧ ∀ name ∈ targetName s b1 b2, INT_MAX < name.length)
    (installImage env img mounted bank1 bank2 m)
    (match Swupdate.findTargetPartition s b1 b2 MAX_DEVICE_FILE_PATH with
      | none => pure 1
      | some target => installTarget env.dirs img target b2)
    fun _ m' => SameBlocks m m'
  := by
  have hm := NewBlock.allocated m (List.replicate MAX_DEVICE_FILE_PATH none)
  refine Refines.withArray (fun _ m' => ∃ cells, NewBlock m m' m.unused cells) ?_
    fun _ m' ⟨cells, h⟩ => ⟨⟨cells, h.block_self⟩, h.erase⟩
  cases findTargetPartition_ends hm hs hlength hb1 hb2 with
  | aborted n size hrefused h => exact .aborted n size hrefused (run_of_throw h)
  | undefined hundefined => exact hundefined.elim
  | returned _ found m' h hQ =>
      obtain ⟨cells, hnew, hfound⟩ := hQ
      rw [run_of_pure h]
      unfold TargetFound at hfound
      cases htarget : Swupdate.findTargetPartition s b1 b2 MAX_DEVICE_FILE_PATH with
      | none =>
          rw [htarget] at hfound
          obtain ⟨rfl, hempty⟩ := hfound
          rw [if_pos (by decide)]
          exact error_refines (by rw [hnew.string_self, List.drop_zero, hempty]) ⟨cells, hnew⟩
      | some target =>
          rw [htarget] at hfound
          obtain ⟨rfl, hstring⟩ := hfound
          have hread : m'.string NUL ⟨m.unused, 0⟩ = some target :=
            (hnew.string_self 0).trans hstring
          rw [if_neg (not_not_intro rfl), run_bind]
          apply Refines.follows
          · rintro ⟨-, hlong⟩
            rw [findTargetPartition_eq] at htarget
            obtain ⟨name, hname, hfits⟩ := Option.bind_eq_some_iff.mp htarget
            have hint := hlong name hname
            rw [Swupdate.snprintf, if_pos (Or.inl hint)] at hfits
            contradiction
          · apply (follows_copyImageAndSync img hread).bind
            rintro rc _ rfl
            dsimp only
            split
            · exact Follows.pure ⟨cells, hnew⟩
            · apply (follows_selectTarget hread (hnew.string hb2)).mono
              exact fun _ m'' hsame => ⟨cells, hnew.trans_same hsame⟩

theorem length_of_device {device : Text} (h : env.device = some device) :
  device.length < MAX_DEVICE_FILE_PATH
  := by
  obtain ⟨mtab, -, hmtab⟩ := Option.bind_eq_some_iff.mp h
  obtain ⟨mntent_desc, -, hfits⟩ := Option.bind_eq_some_iff.mp hmtab
  split at hfits
  · contradiction
  · obtain rfl := Option.some.inj hfits
    omega

/-- The handler gives back the part numbers. -/
theorem Refines.free {r : Prog Call Reply Stop (Int × Memory Char)} {undefined : Prop} {q : Script Int}
    {m₁ m₂ : Memory Char} {b b' : ℕ} {cells cells' : Cells Char} (hb : NewBlock m m₁ b cells)
    (hb' : NewBlock m₁ m₂ b' cells') (h : Refines env undefined r q fun _ m' => SameBlocks m₂ m') :
  Refines env undefined
    (r >>= fun result => (do
      WithMemory.free ⟨b, 0⟩
      WithMemory.free ⟨b', 0⟩
      return result.1 : Code Int) result.2) q fun _ m' => SameBlocks m m'
  := by
  cases h with
  | aborted n size hrefused h => exact .aborted n size hrefused (by rw [h]; rfl)
  | undefined hundefined h => exact .undefined hundefined (by rw [h]; rfl)
  | follows hdefined h =>
      apply Refines.follows hdefined
      apply h.bind_state
      intro rc m' hsame
      have hnew := hb'.trans_same hsame
      have hfree := hb.erase_first hnew
      have hfirst : m'.block b = some cells := by
        rw [hnew.block, Function.update_of_ne (hb.lt_unused.trans_le hb'.fresh).ne, hb.block_self]
      refine ⟨(m'.erase b).erase b', ?_, hfree.erase⟩
      dsimp only
      rw [run_of_pure (free_of_block hfirst), run_of_pure (free_of_block hfree.block_self)]
      rfl

/-- Once the first part number is read, the behaviour is undefined when the file for the second one is
too long for its block, or when the buffer for the target is printed and nothing has been printed into
it. -/
def Surroundings.UndefinedWithNumber (env : Surroundings w) (device b1 : Text) : Prop :=
  env.Overflows "MBL_ROOT_FS_PART_NUMBER_BANK2".toList
    ∨ ∃ b2 ∈ env.partNumber "MBL_ROOT_FS_PART_NUMBER_BANK2".toList,
      env.formats = true ∧ ∀ name ∈ targetName device b1 b2, INT_MAX < name.length

/-- Once the device is found, the behaviour is undefined when the file for the first part number is
too long for its block, or later. -/
def Surroundings.UndefinedWithDevice (env : Surroundings w) (device : Text) : Prop :=
  env.Overflows "MBL_ROOT_FS_PART_NUMBER_BANK1".toList
    ∨ ∃ b1 ∈ env.partNumber "MBL_ROOT_FS_PART_NUMBER_BANK1".toList, env.UndefinedWithNumber device b1

/-- The behaviour of the handler is undefined when the buffer for the mounted device is printed and no
device is found, or later. -/
def Surroundings.Undefined (env : Surroundings w) : Prop :=
  env.device = none ∧ env.formats = true ∨ ∃ device ∈ env.device, env.UndefinedWithDevice device

theorem withFirstNumber_refines {mounted : Ptr} {b : ℕ} {cells : Cells Char} {device b1 : Text}
    (img : Img) (hmounted : m.string NUL mounted = some device)
    (hdevice : device.length < MAX_DEVICE_FILE_PATH) (hb : NewBlock m m' b cells)
    (hb1 : Cells.string NUL cells = some b1) :
  Refines env (env.UndefinedWithNumber device b1) (withFirstNumber env img mounted ⟨b, 0⟩ m')
    (match (env.partNumber "MBL_ROOT_FS_PART_NUMBER_BANK2".toList).bind fun b2 =>
        (Swupdate.findTargetPartition device b1 b2 MAX_DEVICE_FILE_PATH).map fun target =>
          (target, b2) with
      | none => pure 1
      | some (target, b2) => installTarget env.dirs img target b2)
    fun _ m' => SameBlocks m m'
  := by
  have hname : NUL ∉ "MBL_ROOT_FS_PART_NUMBER_BANK2".toList := by decide
  have hread1 := (hb.string_self 0).trans hb1
  unfold Surroundings.UndefinedWithNumber
  cases readPartInfoFileToNewStr_ends env hname m' with
  | aborted n size hrefused h => exact .aborted n size hrefused (run_of_throw h)
  | undefined hlong h => exact .undefined (Or.inl hlong) (run_of_throw h)
  | returned hfits p m₂ h hQ =>
      rw [withFirstNumber, run_of_pure h]
      cases p with
      | none =>
          obtain ⟨hnone, hsame⟩ := hQ
          have hfree := hb.trans_same hsame
          rw [hnone]
          refine .follows ?_ ?_
          · rintro (hlong | ⟨_, hb2, -⟩)
            · exact hfits hlong
            · contradiction
          · dsimp only
            rw [run_of_pure (free_of_block hfree.block_self)]
            exact Follows.pure hfree.erase
      | some p =>
          obtain ⟨b', offset⟩ := p
          obtain ⟨b2, cells', hb2, rfl, hb', hread2⟩ := hQ
          have hinstall := installImage_refines env img (hb'.string (hb.string hmounted)) hdevice
            (hb'.string hread1) ((hb'.string_self 0).trans hread2)
          have hundefined : (env.formats = true ∧ ∀ name ∈ targetName device b1 b2, INT_MAX < name.length)
              ↔ env.Overflows "MBL_ROOT_FS_PART_NUMBER_BANK2".toList
                ∨ ∃ b2' ∈ some b2, env.formats = true
                  ∧ ∀ name ∈ targetName device b1 b2', INT_MAX < name.length := by
            constructor
            · exact fun h => Or.inr ⟨b2, rfl, h⟩
            · rintro (hlong | ⟨b2', hb2', h⟩)
              · exact absurd hlong hfits
              · exact Option.some.inj hb2' ▸ h
          have hfree := (Refines.free hb hb' hinstall).mono hundefined fun _ _ h => h
          rw [hb2, Option.bind_some]
          revert hfree
          cases Swupdate.findTargetPartition device b1 b2 MAX_DEVICE_FILE_PATH with
          | none => exact id
          | some target => exact id

theorem withMountedDevice_refines {mounted : Ptr} {device : Text} (img : Img)
    (hmounted : m.string NUL mounted = some device)
    (hdevice : device.length < MAX_DEVICE_FILE_PATH) :
  Refines env (env.UndefinedWithDevice device) (withMountedDevice env img mounted m)
    (match (env.partNumber "MBL_ROOT_FS_PART_NUMBER_BANK1".toList).bind fun b1 =>
        (env.partNumber "MBL_ROOT_FS_PART_NUMBER_BANK2".toList).bind fun b2 =>
          (Swupdate.findTargetPartition device b1 b2 MAX_DEVICE_FILE_PATH).map fun target =>
            (target, b2) with
      | none => pure 1
      | some (target, b2) => installTarget env.dirs img target b2)
    fun _ m' => SameBlocks m m'
  := by
  have hname : NUL ∉ "MBL_ROOT_FS_PART_NUMBER_BANK1".toList := by decide
  unfold Surroundings.UndefinedWithDevice
  cases readPartInfoFileToNewStr_ends env hname m with
  | aborted n size hrefused h => exact .aborted n size hrefused (run_of_throw h)
  | undefined hlong h => exact .undefined (Or.inl hlong) (run_of_throw h)
  | returned hfits p m' h hQ =>
      rw [withMountedDevice, run_of_pure h]
      cases p with
      | none =>
          obtain ⟨hnone, hsame⟩ := hQ
          rw [hnone]
          refine .follows ?_ (Follows.pure hsame)
          rintro (hlong | ⟨_, hb1, -⟩)
          · exact hfits hlong
          · contradiction
      | some p =>
          obtain ⟨b, offset⟩ := p
          obtain ⟨b1, cells, hb1, rfl, hb, hread⟩ := hQ
          rw [hb1, Option.bind_some]
          apply (withFirstNumber_refines img hmounted hdevice hb hread).mono _ fun _ _ h => h
          constructor
          · exact fun h => Or.inr ⟨b1, rfl, h⟩
          · rintro (hlong | ⟨b1', hb1', h⟩)
            · exact absurd hlong hfits
            · exact Option.some.inj hb1' ▸ h

/-- With its memory the handler does what it does without, and gives every block back, except when it
aborts for want of memory and when its behaviour is undefined. -/
theorem rootfsv4Handler_refines (env : Surroundings w) (img : Img) (m : Memory Char) :
  Refines env env.Undefined (rootfsv4Handler env img m)
    ((Swupdate.rootfsv4Handler env.dirs Swupdate.copyImageAndSync img).answered env.answer)
    fun _ m' => m'.block = m.block
  := by
  have hm := NewBlock.allocated m (List.replicate MAX_DEVICE_FILE_PATH none)
  obtain ⟨cells, hget, hstring⟩ := getMountedDevice_eq env hm.block_self
  have hm := hm.written cells
  have hread := hm.string_self 0
  rw [List.drop_zero, hstring] at hread
  rw [answered_rootfsv4Handler]
  unfold Surroundings.Undefined Surroundings.updateTarget
  refine Refines.withArray (fun _ m' => ∃ cells, NewBlock m m' m.unused cells) ?_
    fun _ m' ⟨cells, h⟩ => ⟨⟨cells, h.block_self⟩, h.erase.block⟩
  rw [run_of_pure hget]
  cases hdevice : env.device with
  | none =>
      rw [if_pos rfl, if_pos (by decide)]
      apply error_refines _ ⟨cells, hm⟩
      rw [hread, hdevice]
      simp [and_comm]
  | some device =>
      rw [if_neg (Option.some_ne_none _), if_neg (not_not_intro rfl), Option.bind_some]
      apply (withMountedDevice_refines img (hread.trans hdevice) (length_of_device hdevice)).mono
      · simp
      · exact fun _ _ hsame => ⟨cells, hm.trans_same hsame⟩

end WithMemory

end Swupdate
