import MblCore.Lib.Follows
import MblCore.Lib.Memory
import MblCore.Swupdate.Buffers
import MblCore.Swupdate.RootfsHandler

/-!
# The memory of the handler for root file systems

`rootfsv4_handler` and what it calls once more, with the blocks of memory that they obtain, fill, read
and release.  A local array is a block that is released when its function returns.  The messages of
errors read the strings that they are given when swupdate formats them.
-/

namespace Swupdate

namespace WithMemory

open InMemory

/-- How a function ends that does not return. -/
inductive Stop
  /-- `abort`, when there is no memory left. -/
  | aborted
  /-- The behaviour is undefined. -/
  | undefined
  | exited (status : Nat)
deriving DecidableEq

/-- What the handler meets on a device with pointers of some width. -/
structure Surroundings (w : Width) where
  /-- Whether there is memory, by what has been obtained before. -/
  malloc : ℕ → SizeT w → Bool
  /-- swupdate formats the messages of errors. -/
  formats : Bool
  mtab : Option Mtab
  file : Text → File
  dirs : Dirs
  /-- The directories are strings. -/
  dirs_strings : ∀ dir ∈ [dirs.BOOTFLAGS_DIR, dirs.TMP_DIR, dirs.PART_INFO_DIR], NUL ∉ dir

abbrev Code (α : Type) :=
  StateT (Memory Char) (Prog Call Reply Stop) α

/-- What is undefined when it is not there. -/
def orUndefined {α : Type} (a : Option α) : Code α :=
  fun m => match a with
    | none => .throw .undefined
    | some a => pure (a, m)

/-- A part that does nothing to the memory. -/
def script {α : Type} (p : Script α) : Code α :=
  fun m => p.mapThrow .exited >>= fun a => pure (a, m)

/-! ### Memory and strings -/

def allocate (size : ℕ) : Code Ptr :=
  fun m => pure (⟨m.unused, 0⟩, m.put m.unused (List.replicate size none))

/-- `free`, and the end of a local array. -/
def free (p : Ptr) : Code Unit :=
  fun m =>
    if (m.block p.block).isSome ∧ p.offset = 0 then pure ((), m.erase p.block)
    else .throw .undefined

/-- A function with a local array. -/
def withArray {α : Type} (size : ℕ) (body : Ptr → Code α) : Code α := do
  let array ← allocate size
  let result ← body array
  free array
  return result

/-- Write data. -/
def store (p : Ptr) (data : Text) : Code Unit :=
  fun m => match m.write p data with
    | none => .throw .undefined
    | some m => pure ((), m)

/-- Read a string. -/
def string (p : Ptr) : Code Text :=
  fun m => orUndefined (m.string NUL p) m

/-- Read a character. -/
def load (p : Ptr) : Code Char :=
  fun m => orUndefined (m.load p) m

def strcpy (dst src : Ptr) : Code Unit := do
  store dst ((← string src) ++ [NUL])

def strncpy (dst : Ptr) (src : Text) (n : ℕ) : Code Unit :=
  store dst (src.take n ++ List.replicate (n - src.length) NUL)

/-- `snprintf`: a length that an `int` cannot hold is an error, and what is written then is not
told. -/
def snprintf (dst : Ptr) (size : ℕ) (s : Text) : Code ℤ :=
  if s.length > INT_MAX then pure (-1)
  else do
    store dst (s.take (size - 1) ++ [NUL])
    return s.length

/-- The first token of a string: the delimiter after it is overwritten. -/
def strtok (s : Ptr) (delim : Char) : Code (Option Ptr) := do
  let text ← string s
  let token := text.dropWhile (· == delim)
  if token = [] then return none
  else
    let start := s.add (text.takeWhile (· == delim)).length
    let size := (token.takeWhile (· != delim)).length
    if size < token.length then store (start.add size) [NUL]
    return some start

/-! ### `arm-handler-common.c` -/

variable {w : Width} (env : Surroundings w)

/-- `ERROR`, of which only a buffer that it prints matters. -/
def error (printed : Ptr) : Code Unit :=
  if env.formats then do
    let _ ← string printed
    return ()
  else pure ()

def mallocOrAbort (size : SizeT w) : Code Ptr :=
  fun m => match InMemory.mallocOrAbort (env.malloc m.unused) size with
    | none => .throw .aborted
    | some dst => allocate dst.size m

def strCopyToNew (src : Ptr) : Code Ptr := do
  let dst_size := BitVec.ofNat w.bits (← string src).length + 1
  let dst ← mallocOrAbort env dst_size
  strcpy dst src
  return dst

/-- `str_endswith` returns 0 just when this is true. -/
def strEndswith (substr fullstr : Ptr) : Code Bool := do
  return Swupdate.strEndswith (← string substr) (← string fullstr)

/-- `fread` from the file that is open, and `fclose`. -/
def readStream (file : File) (dst : Ptr) (st_size : ℤ) (count : SizeT w) (stream : Text) :
    Code (Option Ptr) := do
  store dst (stream.take count.toNat)
  -- `feof` or `ferror` tells that there was not as much to read
  if stream.length < count.toNat then
    free dst
    return none
  else
    store (dst.add st_size.toNat) [NUL]
    if file.closeFails then
      free dst
      return none
    else return some dst

def readFileToNewStr (filepath : Text) : Code (Option Ptr) :=
  match (env.file filepath).st_size with
  | none => pure none
  | some st_size =>
      if st_size < 0 then pure none
      else do
        let dst ← mallocOrAbort env (BitVec.ofInt w.bits st_size + 1)
        match (env.file filepath).stream with
        | none =>
            free dst
            return none
        | some stream =>
            readStream (env.file filepath) dst st_size (BitVec.ofInt w.bits st_size) stream

def getMountedDevice (dst : Ptr) (mount_point : Text) (dst_size : ℕ) : Code ℤ :=
  match env.mtab with
  | none => pure (-1)
  | some mtab =>
      match mtab.val.find? fun mntent_desc => mntent_desc.mnt_dir == mount_point with
      | none => pure (-1)
      | some mntent_desc => do
          strncpy dst mntent_desc.mnt_fsname dst_size
          if (← load (dst.add (dst_size - 1))) ≠ NUL then return -1
          else return 0

/-- Print a path into a buffer, and see whether it fits. -/
def printPath (dst : Ptr) (path : Text) (dst_size : ℕ) : Code ℤ := do
  let num_written ← snprintf dst dst_size path
  if num_written < 0 then return -1
  else if num_written.toNat ≥ dst_size then return -1
  else return 0

/-- The part of `find_target_partition` that has the token. -/
def printTarget (dst mounted_partition bank1_part_num bank2_part_num : Ptr) (dst_size : ℕ) :
    Option Ptr → Code ℤ
  | none => pure (-1)
  | some token => do
      if ← strEndswith bank1_part_num mounted_partition then
        printPath dst ((← string token) ++ "p".toList ++ (← string bank2_part_num)) dst_size
      else if ← strEndswith bank2_part_num mounted_partition then
        printPath dst ((← string token) ++ "p".toList ++ (← string bank1_part_num)) dst_size
      else pure (-1)

def findTargetPartition (dst mounted_partition bank1_part_num bank2_part_num : Ptr)
    (dst_size : ℕ) : Code ℤ := do
  let mnt_device_cpy ← strCopyToNew env mounted_partition
  let token ← strtok mnt_device_cpy 'p'
  let return_value ← printTarget dst mounted_partition bank1_part_num bank2_part_num dst_size token
  free mnt_device_cpy
  return return_value

def getPartInfoFilepath (dst : Ptr) (file_name : Text) (dst_size : ℕ) : Code ℤ :=
  printPath dst (env.dirs.PART_INFO_DIR ++ "/".toList ++ file_name) dst_size

def readPartInfoFileToNewStr (file_name : Text) : Code (Option Ptr) :=
  withArray PATH_MAX fun part_info_filepath => do
    if (← getPartInfoFilepath env part_info_filepath file_name PATH_MAX) = -1 then return none
    else readFileToNewStr env (← string part_info_filepath)

def getBootflagFilePath (dst : Ptr) (filename : Text) (size : ℕ) : Code ℤ :=
  printPath dst (env.dirs.BOOTFLAGS_DIR ++ "/".toList ++ filename) size

def writeBootflagFile (filename : Text) : Code Int := do
  match ← script (issue (.mkdir env.dirs.BOOTFLAGS_DIR)) with
  | .error .ENOENT => pure (-1)
  | .error .other => pure (-1)
  | .error .EEXIST | .ok () =>
      withArray PATH_MAX fun bootflags_file_path => do
        if (← getBootflagFilePath env bootflags_file_path filename PATH_MAX) = -1 then return -1
        else
          match ← script (issue (.openCreat (← string bootflags_file_path))) with
          | .error _ =>
              error env bootflags_file_path
              return -1
          | .ok () => return 0

def removeBootflagFile (filename : Text) : Code Int :=
  withArray PATH_MAX fun bootflags_file_path => do
    if (← getBootflagFilePath env bootflags_file_path filename PATH_MAX) < 0 then return -1
    else script (removeFile (← string bootflags_file_path))

def copyImageAndSync (img : Img) (device_filepath : Ptr) : Code Int := do
  let device ← string device_filepath
  if (← script (issue (.openfileoutput device))) = false then
    error env device_filepath
    return -1
  else
    if (← script (issue (.copyimage img device))) = false then error env device_filepath
    if ← script (issue .close) then return 0 else return -1

def removeDoNotRebootFlag : Code Int :=
  withArray PATH_MAX fun reboot_flag_path => do
    if (← printPath reboot_flag_path (doNotRebootPath env.dirs) PATH_MAX) = -1 then return -1
    else script (removeFile (← string reboot_flag_path))

/-! ### `rootfs-handler.c` -/

/-- Set or remove the boot flag. -/
def setBootflag (target_device_filepath b2_pnum : Ptr) : Code Int := do
  if ← strEndswith b2_pnum target_device_filepath then writeBootflagFile env rootfsFilename
  else removeBootflagFile env rootfsFilename

/-- The rest of the handler once the image is copied. -/
def selectTarget (target_device_filepath b2_pnum : Ptr) : Code Int := do
  if (← setBootflag env target_device_filepath b2_pnum) = -1 then return 1
  else if (← removeDoNotRebootFlag env) = -1 then return 1
  else return 0

/-- The handler with the part numbers, up to its label `clean`. -/
def installImage (img : Img) (mounted_device_filepath b1_pnum b2_pnum : Ptr) : Code Int :=
  withArray MAX_DEVICE_FILE_PATH fun target_device_filepath => do
    let found ← findTargetPartition env target_device_filepath mounted_device_filepath b1_pnum b2_pnum
      MAX_DEVICE_FILE_PATH
    if found ≠ 0 then
      error env target_device_filepath
      return 1
    else if (← copyImageAndSync env img target_device_filepath) = -1 then return 1
    else selectTarget env target_device_filepath b2_pnum

/-- The handler once the first part number is read. -/
def withFirstNumber (img : Img) (mounted_device_filepath b1_pnum : Ptr) : Code Int := do
  match ← readPartInfoFileToNewStr env "MBL_ROOT_FS_PART_NUMBER_BANK2".toList with
  | none =>
      free b1_pnum
      return 1
  | some b2_pnum =>
      let return_value ← installImage env img mounted_device_filepath b1_pnum b2_pnum
      free b1_pnum
      free b2_pnum
      return return_value

/-- The handler once the mounted device is found. -/
def withMountedDevice (img : Img) (mounted_device_filepath : Ptr) : Code Int := do
  match ← readPartInfoFileToNewStr env "MBL_ROOT_FS_PART_NUMBER_BANK1".toList with
  | none => return 1
  | some b1_pnum => withFirstNumber env img mounted_device_filepath b1_pnum

def rootfsv4Handler (img : Img) : Code Int :=
  withArray MAX_DEVICE_FILE_PATH fun mounted_device_filepath => do
    if (← getMountedDevice env mounted_device_filepath "/".toList MAX_DEVICE_FILE_PATH) ≠ 0 then
      error env mounted_device_filepath
      return 1
    else withMountedDevice env img mounted_device_filepath

/-! ### Steps -/

section

variable {env} {α β : Type} {p : Code α} {f : α → Code β} {m m' : Memory Char} {a : α} {e : Stop}

theorem run_bind (p : Code α) (f : α → Code β) (m : Memory Char) :
  (p >>= f) m = p m >>= fun r => f r.1 r.2
  := rfl

theorem run_of_pure (h : p m = pure (a, m')) :
  (p >>= f) m = f a m'
  := by
  rw [run_bind, h]
  rfl

theorem run_of_throw (h : p m = .throw e) :
  (p >>= f) m = .throw e
  := by
  rw [run_bind, h]
  rfl

variable {b : ℕ} {cells : Cells Char} {s : Text}

theorem store_of_le (offset : ℕ) (data : Text) (h : m.block b = some cells)
    (hfits : offset + data.length ≤ cells.length) :
  store ⟨b, offset⟩ data m = pure ((), m.put b (cells.overwrite offset data))
  := by rw [store, Memory.write_of_le h hfits]

theorem store_of_lt (offset : ℕ) (data : Text) (h : m.block b = some cells)
    (hfits : cells.length < offset + data.length) :
  store ⟨b, offset⟩ data m = .throw .undefined
  := by rw [store, Memory.write_of_lt h hfits]

theorem string_of_some {p : Ptr} (h : m.string NUL p = some s) :
  string p m = pure (s, m)
  := by
  rw [string, h]
  rfl

theorem string_of_none {p : Ptr} (h : m.string NUL p = none) :
  string p m = .throw .undefined
  := by
  rw [string, h]
  rfl

theorem free_of_block (h : m.block b = some cells) :
  free ⟨b, 0⟩ m = pure ((), m.erase b)
  := by
  rw [free, if_pos]
  simp [h]

/-- The body of a function has the array and leaves it there. -/
theorem run_withArray {size : ℕ} {body : Ptr → Code α}
    (h : body ⟨m.unused, 0⟩ (m.put m.unused (List.replicate size none)) = pure (a, m'))
    (hm' : m'.block m.unused = some cells) :
  withArray size body m = pure (a, m'.erase m.unused)
  := by
  rw [withArray, run_of_pure rfl, run_of_pure h, run_of_pure (free_of_block hm')]
  rfl

theorem withArray_of_throw {size : ℕ} {body : Ptr → Code α}
    (h : body ⟨m.unused, 0⟩ (m.put m.unused (List.replicate size none)) = .throw e) :
  withArray size body m = .throw e
  := by rw [withArray, run_of_pure rfl, run_of_throw h]

end

/-! ### What a function leaves in memory -/

/-- The same blocks are there. -/
structure SameBlocks (m m' : Memory Char) : Prop where
  unused : m.unused ≤ m'.unused
  block : m'.block = m.block

/-- There is one block more. -/
structure NewBlock (m m' : Memory Char) (b : ℕ) (cells : Cells Char) : Prop where
  fresh : m.unused ≤ b
  unused : m.unused ≤ m'.unused
  block : m'.block = Function.update m.block b (some cells)

section

variable {m m' m'' : Memory Char} {b b' offset : ℕ} {cells cells' : Cells Char} {s : Text} {p : Ptr}

theorem SameBlocks.refl (m : Memory Char) : SameBlocks m m
  := ⟨le_rfl, rfl⟩

theorem SameBlocks.trans (h : SameBlocks m m') (h' : SameBlocks m' m'') :
  SameBlocks m m''
  := ⟨h.unused.trans h'.unused, h'.block.trans h.block⟩

namespace NewBlock

theorem block_self (h : NewBlock m m' b cells) :
  m'.block b = some cells
  := by rw [h.block, Function.update_self]

theorem lt_unused (h : NewBlock m m' b cells) :
  b < m'.unused
  := Memory.lt_unused h.block_self

theorem allocated (m : Memory Char) (cells : Cells Char) :
  NewBlock m (m.put m.unused cells) m.unused cells
  := ⟨le_rfl, le_max_left _ _, rfl⟩

theorem written (h : NewBlock m m' b cells) (cells' : Cells Char) :
  NewBlock m (m'.put b cells') b cells'
  := by
  refine ⟨h.fresh, h.unused.trans (le_max_left _ _), ?_⟩
  rw [Memory.block_put, h.block, Function.update_idem]

theorem trans_same (h : NewBlock m m' b cells) (h' : SameBlocks m' m'') :
  NewBlock m m'' b cells
  := ⟨h.fresh, h.unused.trans h'.unused, h'.block.trans h.block⟩

theorem update_none (h : NewBlock m m' b cells) :
  Function.update m.block b none = m.block
  := Function.update_eq_self_iff.mpr (m.block_of_unused h.fresh).symm

/-- The block is given back. -/
theorem erase (h : NewBlock m m' b cells) :
  SameBlocks m (m'.erase b)
  := by
  refine ⟨h.unused, ?_⟩
  rw [Memory.block_erase, h.block, Function.update_idem, h.update_none]

/-- The block is given back after another one has been obtained. -/
theorem erase_first (h : NewBlock m m' b cells) (h' : NewBlock m' m'' b' cells') :
  NewBlock m (m''.erase b) b' cells'
  := by
  have hne : b' ≠ b := (h.lt_unused.trans_le h'.fresh).ne'
  refine ⟨h.unused.trans h'.fresh, h.unused.trans h'.unused, ?_⟩
  rw [Memory.block_erase, h'.block, Function.update_comm hne, h.block, Function.update_idem,
    h.update_none]

/-- A block that is written while a later one is there. -/
theorem erase_second {cells'' : Cells Char} (h : NewBlock m m' b cells)
    (h' : NewBlock m' m'' b' cells') :
  NewBlock m ((m''.put b cells'').erase b') b cells''
  := by
  have hne : b ≠ b' := (h.lt_unused.trans_le h'.fresh).ne
  refine ⟨h.fresh, (h.unused.trans h'.unused).trans (le_max_left _ _), ?_⟩
  rw [Memory.block_erase, Memory.block_put, Function.update_comm hne, h'.block, Function.update_idem,
    h'.update_none, h.block, Function.update_idem]

theorem string_self (h : NewBlock m m' b cells) (offset : ℕ) :
  m'.string NUL ⟨b, offset⟩ = Cells.string NUL (cells.drop offset)
  := Memory.string_of_block h.block_self

/-- The strings that were there are still there. -/
theorem string (h : NewBlock m m' b cells) (hs : m.string NUL p = some s) :
  m'.string NUL p = some s
  := by
  obtain ⟨cells', hcells', -⟩ := Memory.exists_of_string hs
  have hne : p.block ≠ b := ((Memory.lt_unused hcells').trans_le h.fresh).ne
  rw [← hs]
  apply Memory.string_congr (by rw [h.block, Function.update_of_ne hne])

end NewBlock

end

end WithMemory

end Swupdate
