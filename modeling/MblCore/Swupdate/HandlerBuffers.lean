import MblCore.Swupdate.HandlerMemory

/-!
# The buffers of the handler for root file systems

How the functions end that find the mounted device and the target, and what they leave in their
buffers.
-/

namespace Swupdate

namespace WithMemory

open InMemory

variable {w : Width} {env : Surroundings w}

/-! ### How a function ends -/

/-- A function aborts for want of memory, or its behaviour is undefined, just when so told, or it
returns, having issued no call. -/
inductive Ends {α : Type} (env : Surroundings w) (undefined : Prop)
    (r : Prog Call Reply Stop (α × Memory Char)) (Q : α → Memory Char → Prop) : Prop
  | aborted (n : ℕ) (size : SizeT w) (hrefused : env.malloc n size = false) (h : r = .throw .aborted)
  | undefined (hundefined : undefined) (h : r = .throw .undefined)
  | returned (hdefined : ¬ undefined) (a : α) (m' : Memory Char) (h : r = pure (a, m')) (hQ : Q a m')

theorem mallocOrAbort_ends (env : Surroundings w) (size : SizeT w) (m : Memory Char) :
  Ends env False (mallocOrAbort env size m) fun p m' =>
    p = ⟨m.unused, 0⟩
      ∧ m' = m.put m.unused
        (List.replicate (BitVec.ofNat w.bits w.pointerSize * size).toNat none)
  := by
  cases hmalloc : env.malloc m.unused (BitVec.ofNat w.bits w.pointerSize * size) with
  | false =>
      apply Ends.aborted _ _ hmalloc
      simp [mallocOrAbort, InMemory.mallocOrAbort, hmalloc]
  | true =>
      refine .returned not_false _ _ ?_ ⟨rfl, rfl⟩
      simp [mallocOrAbort, InMemory.mallocOrAbort, hmalloc, allocate]

/-! ### Files -/

/-- More is written for a file than the block for it holds. -/
def Overflows (w : Width) (file : File) : Prop :=
  ∃ block ∈ (InMemory.readFileToNewStr (w := w) (fun _ => true) file).block,
    block.size < block.written

/-- The string at the start of a file, when it can be read. -/
def contents (w : Width) (file : File) : Option Text :=
  match file.st_size, file.stream with
  | some st_size, some stream =>
      if st_size < 0 ∨ stream.length < (BitVec.ofInt w.bits st_size).toNat ∨ file.closeFails then none
      else some ((stream.take (BitVec.ofInt w.bits st_size).toNat).takeWhile (· ≠ NUL))
  | _, _ => none

/-- A file is read: there is a new block with its string, or no block. -/
def FileRead (m : Memory Char) (contents : Option Text) : Option Ptr → Memory Char → Prop
  | none, m' => contents = none ∧ SameBlocks m m'
  | some p, m' =>
      ∃ s cells, contents = some s ∧ p.offset = 0 ∧ NewBlock m m' p.block cells
        ∧ Cells.string NUL cells = some s

/-- What is written into the block is the stream when it is too short, and the file with a terminator
otherwise. -/
theorem readStream_overflows_iff (fails : Bool) (size st_size : ℕ) (count : SizeT w) (stream : Text) :
  (∃ block ∈ (closeStream fails (InMemory.readStream ⟨size, 0⟩ st_size count stream)).block,
      block.size < block.written)
    ↔ size < if stream.length < count.toNat then stream.length else st_size + 1
  := by
  rw [block_closeStream, InMemory.readStream]
  split
  · next hshort => simp [Ending.block, Nat.min_eq_right hshort.le]
  · simp [Ending.block]

/-- The whole file is read, and a terminator is written after it. -/
theorem readStream_of_le {file : File} {st_size : ℕ} {stream : Text} {m m' : Memory Char} {b size : ℕ}
    (hsize : size < 2 ^ w.bits) (hm : NewBlock m m' b (List.replicate size none))
    (hlong : ¬ stream.length < st_size) (hfits : st_size + 1 ≤ size) :
  ∃ p m'', readStream file ⟨b, 0⟩ st_size (BitVec.ofNat w.bits st_size) stream m' = pure (p, m'')
    ∧ FileRead m
      (if file.closeFails then none else some ((stream.take st_size).takeWhile (· ≠ NUL))) p m''
  := by
  have hn : (BitVec.ofNat w.bits st_size).toNat = st_size := by
    rw [BitVec.toNat_ofNat, Nat.mod_eq_of_lt (by omega)]
  have htake : (stream.take st_size).length = st_size := by rw [List.length_take]; omega
  have hlength : (List.replicate size (none : Option Char)).length = size := List.length_replicate
  have hstore := store_of_le 0 (stream.take st_size) hm.block_self (by omega)
  have hm := hm.written (Cells.overwrite (List.replicate size none) 0 (stream.take st_size))
  have hnul := store_of_le st_size [NUL] hm.block_self
    (by rw [Cells.length_overwrite (by omega), List.length_singleton]; omega)
  have hcells : Cells.overwrite (Cells.overwrite (List.replicate size none) 0 (stream.take st_size))
      st_size [NUL] = Cells.overwrite (List.replicate size none) 0 (stream.take st_size ++ [NUL]) := by
    rw [← Cells.overwrite_overwrite, htake]
  rw [hcells] at hnul
  have hm := hm.written (Cells.overwrite (List.replicate size none) 0 (stream.take st_size ++ [NUL]))
  rw [readStream, hn, run_of_pure hstore, if_neg hlong, Ptr.add, Int.toNat_natCast, Nat.zero_add,
    run_of_pure hnul]
  by_cases hcloses : file.closeFails
  · rw [if_pos hcloses, if_pos hcloses, run_of_pure (free_of_block hm.block_self)]
    exact ⟨none, _, rfl, rfl, hm.erase⟩
  · rw [if_neg hcloses, if_neg hcloses]
    exact ⟨some ⟨b, 0⟩, _, rfl, _, _, rfl, rfl, hm, Cells.string_overwrite _ _ _⟩

/-- The file is read into a block that has been obtained for it. -/
theorem readStream_ends (file : File) {st_size : ℕ} {stream : Text} {m m' : Memory Char} {b size : ℕ}
    (hsize : size < 2 ^ w.bits) (hm : NewBlock m m' b (List.replicate size none)) :
  Ends env
    (∃ block ∈ (closeStream file.closeFails (InMemory.readStream ⟨size, 0⟩ st_size
        (BitVec.ofNat w.bits st_size) stream)).block, block.size < block.written)
    (readStream file ⟨b, 0⟩ st_size (BitVec.ofNat w.bits st_size) stream m')
    (FileRead m
      (if stream.length < (BitVec.ofNat w.bits st_size).toNat ∨ file.closeFails then none
        else some ((stream.take (BitVec.ofNat w.bits st_size).toNat).takeWhile (· ≠ NUL))))
  := by
  have hcount : (BitVec.ofNat w.bits st_size).toNat ≤ st_size := by
    rw [BitVec.toNat_ofNat]
    apply Nat.mod_le _ _
  have hlength : (List.replicate size (none : Option Char)).length = size := List.length_replicate
  rw [readStream_overflows_iff]
  by_cases hshort : stream.length < (BitVec.ofNat w.bits st_size).toNat
  · -- the end of the file or an error comes first
    rw [if_pos hshort, if_pos (Or.inl hshort), readStream, List.take_of_length_le hshort.le]
    by_cases hfits : stream.length ≤ size
    · have hstore := store_of_le 0 stream hm.block_self (by omega)
      have hm := hm.written (Cells.overwrite (List.replicate size none) 0 stream)
      refine .returned (Nat.not_lt.mpr hfits) none _ ?_ ⟨rfl, hm.erase⟩
      rw [run_of_pure hstore, if_pos hshort, run_of_pure (free_of_block hm.block_self)]
      rfl
    · apply Ends.undefined (Nat.not_le.mp hfits)
      rw [run_of_throw (store_of_lt _ _ hm.block_self (by omega))]
  · rw [if_neg hshort]
    by_cases hfits : st_size + 1 ≤ size
    · have hn : (BitVec.ofNat w.bits st_size).toNat = st_size := by
        rw [BitVec.toNat_ofNat, Nat.mod_eq_of_lt (by omega)]
      rw [hn] at hshort ⊢
      obtain ⟨p, m'', hread, hQ⟩ := readStream_of_le hsize hm hshort hfits
      refine .returned (Nat.not_lt.mpr hfits) p m'' hread ?_
      simpa only [hshort, false_or] using hQ
    · apply Ends.undefined (Nat.not_le.mp hfits)
      generalize hn : (BitVec.ofNat w.bits st_size).toNat = count at hcount hshort
      have htake : (stream.take count).length = count := by rw [List.length_take]; omega
      rw [readStream, hn]
      by_cases hread : count ≤ size
      · -- the terminator goes beyond the block
        have hstore := store_of_le 0 (stream.take count) hm.block_self (by omega)
        have hm := hm.written (Cells.overwrite (List.replicate size none) 0 (stream.take count))
        rw [run_of_pure hstore, if_neg hshort, Ptr.add, Int.toNat_natCast, Nat.zero_add]
        apply run_of_throw (store_of_lt _ _ hm.block_self _)
        rw [Cells.length_overwrite (by omega), List.length_singleton]
        omega
      · rw [run_of_throw (store_of_lt _ _ hm.block_self (by omega))]

theorem readFileToNewStr_ends (env : Surroundings w) (filepath : Text) (m : Memory Char) :
  Ends env (Overflows w (env.file filepath)) (readFileToNewStr env filepath m)
    (FileRead m (contents w (env.file filepath)))
  := by
  simp only [readFileToNewStr, Overflows, InMemory.readFileToNewStr, contents]
  generalize env.file filepath = file
  obtain ⟨st_size, stream, closeFails⟩ := file
  cases st_size with
  | none => exact .returned (by rintro ⟨_, ⟨⟩, -⟩) none m rfl ⟨rfl, SameBlocks.refl m⟩
  | some st_size =>
      dsimp only
      by_cases hneg : st_size < 0
      · rw [if_pos hneg, if_pos hneg]
        refine .returned (by rintro ⟨_, ⟨⟩, -⟩) none m rfl ⟨?_, SameBlocks.refl m⟩
        cases stream with
        | none => rfl
        | some stream => exact if_pos (Or.inl hneg)
      · rw [if_neg hneg, if_neg hneg]
        obtain ⟨st_size, rfl⟩ := Int.eq_ofNat_of_zero_le (Int.not_lt.mp hneg)
        cases mallocOrAbort_ends env (BitVec.ofInt w.bits st_size + 1) m with
        | aborted n size hrefused h => exact .aborted n size hrefused (run_of_throw h)
        | undefined hundefined => exact hundefined.elim
        | returned _ p m' h hQ =>
            obtain ⟨rfl, rfl⟩ := hQ
            rw [run_of_pure h]
            have hm := NewBlock.allocated m (List.replicate
              (BitVec.ofNat w.bits w.pointerSize * (BitVec.ofInt w.bits st_size + 1)).toNat none)
            cases stream with
            | none =>
                refine .returned ?_ none _ (run_of_pure (free_of_block hm.block_self)) ⟨rfl, hm.erase⟩
                rintro ⟨_, ⟨⟩, hlt⟩
                exact absurd hlt (Nat.not_lt_zero _)
            | some stream =>
                simp only [hneg, false_or, BitVec.ofInt_natCast]
                exact readStream_ends ⟨_, _, closeFails⟩ (BitVec.isLt _) hm

/-! ### Paths -/

/-- A text without a terminator is the string that is written. -/
theorem takeWhile_of_notMem {s : Text} (h : NUL ∉ s) :
  s.takeWhile (· ≠ NUL) = s
  := by
  rw [List.takeWhile_eq_self_iff]
  intro c hc
  simp only [ne_eq, decide_eq_true_eq]
  rintro rfl
  apply h hc

/-- A path is in the buffer when it fits; what fits of it is there when it is not too long for an
`int`, and nothing is written otherwise. -/
theorem printPath_cases {m : Memory Char} {b size : ℕ} {cells : Cells Char} {path : Text}
    (hb : m.block b = some cells) (hcells : cells.length = size) (hsize : 0 < size)
    (hpath : NUL ∉ path) :
  ∃ cells', printPath ⟨b, 0⟩ path size m
        = pure (if Swupdate.snprintf size path = none then -1 else 0, m.put b cells')
      ∧ (Swupdate.snprintf size path ≠ none → Cells.string NUL cells' = some path)
      ∧ (path.length ≤ INT_MAX → Cells.string NUL cells' ≠ none)
      ∧ (INT_MAX < path.length → cells' = cells)
  := by
  by_cases hlong : path.length > INT_MAX
  · have hnone : Swupdate.snprintf size path = none := if_pos (Or.inl hlong)
    refine ⟨cells, ?_, fun h => absurd hnone h, fun h => absurd hlong h.not_gt, fun _ => rfl⟩
    rw [if_pos hnone, Memory.put_self hb, printPath, snprintf, if_pos hlong, run_of_pure rfl]
    rfl
  · have hstore := store_of_le 0 (path.take (size - 1) ++ [NUL]) hb
      (by rw [List.length_append, List.length_take, List.length_singleton]; omega)
    have hstring : Cells.string NUL (cells.overwrite 0 (path.take (size - 1) ++ [NUL]))
        = some (path.take (size - 1)) := by
      rw [Cells.string_overwrite, takeWhile_of_notMem fun h => hpath (List.mem_of_mem_take h)]
    refine ⟨cells.overwrite 0 (path.take (size - 1) ++ [NUL]), ?_, ?_, ?_, fun h => absurd h hlong⟩
    · have hpos : ¬ ((path.length : ℤ) < 0) := by omega
      have hprint : snprintf ⟨b, 0⟩ size path m
          = pure ((path.length : ℤ), m.put b (cells.overwrite 0 (path.take (size - 1) ++ [NUL]))) := by
        rw [snprintf, if_neg hlong, run_of_pure hstore]
        rfl
      rw [printPath, run_of_pure hprint, if_neg hpos, Int.toNat_natCast, Swupdate.snprintf]
      by_cases hfits : path.length ≥ size
      · rw [if_pos hfits, if_pos (Or.inr hfits), if_pos rfl]
        rfl
      · rw [if_neg hfits, if_neg (not_or_intro hlong hfits), if_neg (Option.some_ne_none _)]
        rfl
    · intro h
      rw [hstring, List.take_of_length_le]
      unfold Swupdate.snprintf at h
      split at h
      · contradiction
      · omega
    · intro _ hnone
      rw [hstring] at hnone
      contradiction

theorem Ends.withArray {α : Type} {undefined : Prop} {Q Q' : α → Memory Char → Prop} {size : ℕ}
    {body : Ptr → Code α} {m : Memory Char}
    (h : Ends env undefined (body ⟨m.unused, 0⟩ (m.put m.unused (List.replicate size none))) Q)
    (hQ : ∀ a m', Q a m' → (∃ cells, m'.block m.unused = some cells) ∧ Q' a (m'.erase m.unused)) :
  Ends env undefined (withArray size body m) Q'
  := by
  cases h with
  | aborted n size hrefused h => exact .aborted n size hrefused (withArray_of_throw h)
  | undefined hundefined h => exact .undefined hundefined (withArray_of_throw h)
  | returned hdefined a m' h hq =>
      obtain ⟨⟨cells, hcells⟩, hq'⟩ := hQ a m' hq
      exact .returned hdefined a _ (run_withArray h hcells) hq'

/-- A file that is read while there is an array is there without it. -/
theorem FileRead.erase {m m' m'' : Memory Char} {b : ℕ} {cells : Cells Char} {contents : Option Text}
    {p? : Option Ptr} (hm : NewBlock m m' b cells) (h : FileRead m' contents p? m'') :
  (∃ cells, m''.block b = some cells) ∧ FileRead m contents p? (m''.erase b)
  := by
  cases p? with
  | none =>
      obtain ⟨hnone, hsame⟩ := h
      have hm := hm.trans_same hsame
      exact ⟨⟨cells, hm.block_self⟩, hnone, hm.erase⟩
  | some p =>
      obtain ⟨s, cells', hsome, hoffset, hnew, hstring⟩ := h
      refine ⟨⟨cells, ?_⟩, s, cells', hsome, hoffset, hm.erase_first hnew, hstring⟩
      rw [hnew.block, Function.update_of_ne (hm.lt_unused.trans_le hnew.fresh).ne, hm.block_self]

/-- A part number, as the file for it tells. -/
def Surroundings.partNumber (env : Surroundings w) (file_name : Text) : Option Text :=
  (Swupdate.getPartInfoFilepath env.dirs file_name PATH_MAX).bind fun path => contents w (env.file path)

/-- The file for a part number is too long for its block. -/
def Surroundings.Overflows (env : Surroundings w) (file_name : Text) : Prop :=
  ∃ path ∈ Swupdate.getPartInfoFilepath env.dirs file_name PATH_MAX,
    WithMemory.Overflows w (env.file path)

theorem notMem_path {dir file_name : Text} (hdir : NUL ∉ dir) (hname : NUL ∉ file_name) :
  NUL ∉ dir ++ "/".toList ++ file_name
  := by
  simp only [List.mem_append, not_or]
  exact ⟨⟨hdir, by decide⟩, hname⟩

theorem readPartInfoFileToNewStr_ends (env : Surroundings w) {file_name : Text} (hname : NUL ∉ file_name)
    (m : Memory Char) :
  Ends env (env.Overflows file_name) (readPartInfoFileToNewStr env file_name m)
    (FileRead m (env.partNumber file_name))
  := by
  have hm := NewBlock.allocated m (List.replicate PATH_MAX none)
  obtain ⟨cells, hprint, hstring, -, -⟩ := printPath_cases hm.block_self List.length_replicate
    (by decide) (notMem_path (env.dirs_strings env.dirs.PART_INFO_DIR (by simp)) hname)
  have hm := hm.written cells
  refine Ends.withArray ?_ fun p? m' h => FileRead.erase hm h
  unfold Surroundings.Overflows Surroundings.partNumber getPartInfoFilepath
  rw [run_of_pure hprint, Swupdate.getPartInfoFilepath]
  cases hpath : Swupdate.snprintf PATH_MAX (env.dirs.PART_INFO_DIR ++ "/".toList ++ file_name) with
  | none => exact .returned (by rintro ⟨_, ⟨⟩, -⟩) none _ rfl ⟨rfl, SameBlocks.refl _⟩
  | some path =>
      obtain rfl := snprintf_eq_some hpath
      have hread := hstring (by rw [hpath]; exact Option.some_ne_none _)
      rw [if_neg (Option.some_ne_none _), if_neg (by decide),
        run_of_pure (string_of_some ((hm.string_self 0).trans hread))]
      simpa using readFileToNewStr_ends env (env.dirs.PART_INFO_DIR ++ "/".toList ++ file_name) _

/-! ### The mounted device -/

/-- The device of the root file system, when its name fits. -/
def Surroundings.device (env : Surroundings w) : Option Text :=
  env.mtab.bind fun mtab =>
    (mtab.val.find? fun mntent_desc => mntent_desc.mnt_dir == "/".toList).bind fun mntent_desc =>
      if mntent_desc.mnt_fsname.length ≥ MAX_DEVICE_FILE_PATH then none
      else some mntent_desc.mnt_fsname

/-- The buffer holds the whole name, or nothing that could be read as a string. -/
theorem strncpy_cases {m : Memory Char} {b size : ℕ} {cells : Cells Char} {src : Text}
    (hb : m.block b = some cells) (hcells : cells.length = size) (hsize : 0 < size)
    (hsrc : NUL ∉ src) :
  ∃ cells' last, strncpy ⟨b, 0⟩ src size m = pure ((), m.put b cells')
    ∧ (m.put b cells').load ⟨b, size - 1⟩ = some last
    ∧ (last = NUL ↔ src.length < size)
    ∧ Cells.string NUL cells' = if src.length ≥ size then none else some src
  := by
  have hlength : (List.replicate size NUL).length = size := List.length_replicate
  have hcopy := @CString.strncpy_length _ NUL (List.replicate size NUL) src
  have hlast := @CString.strncpy_last _ NUL (List.replicate size NUL) src hsrc (by omega)
  rw [hlength] at hcopy hlast
  have hdata : (src.take size ++ List.replicate (size - src.length) NUL).length = cells.length := by
    rw [List.length_append, List.length_take, List.length_replicate]
    omega
  have hwhole := Cells.overwrite_of_length hdata
  generalize hd : src.take size ++ List.replicate (size - src.length) NUL = data
    at hcopy hdata hwhole
  rw [hcopy] at hlast
  have hin : size - 1 < data.length := by omega
  refine ⟨data.map some, data[size - 1], ?_, ?_, ?_, ?_⟩
  · rw [strncpy, hd, store_of_le 0 data hb (by omega), hwhole]
  · simp [Memory.load, hin]
  · rw [← hlast, List.getElem?_eq_getElem hin, Option.some.injEq]
  · split
    · next hlong =>
        rw [← hd, Nat.sub_eq_zero_of_le hlong, List.replicate_zero, List.append_nil]
        exact Cells.string_map_some fun h => hsrc (List.mem_of_mem_take h)
    · next hfits =>
        obtain ⟨-, rest, hrest⟩ := @CString.holds_strncpy _ NUL (List.replicate size NUL) src
          hsrc (by omega)
        rw [hlength, hcopy] at hrest
        rw [hrest, List.map_append, List.map_cons, Cells.string_append, takeWhile_of_notMem hsrc]

/-- What is in the buffer can be read just when the device is found. -/
theorem getMountedDevice_eq (env : Surroundings w) {m : Memory Char} {b : ℕ}
    (hb : m.block b = some (List.replicate MAX_DEVICE_FILE_PATH none)) :
  ∃ cells', getMountedDevice env ⟨b, 0⟩ "/".toList MAX_DEVICE_FILE_PATH m
      = pure (if env.device = none then -1 else 0, m.put b cells')
    ∧ Cells.string NUL cells' = env.device
  := by
  have hempty : Cells.string NUL (List.replicate MAX_DEVICE_FILE_PATH none) = none :=
    Cells.string_replicate_none _
  unfold getMountedDevice Surroundings.device
  cases env.mtab with
  | none => exact ⟨_, by rw [Memory.put_self hb]; rfl, hempty⟩
  | some mtab =>
      simp only [Option.bind_some]
      obtain hfirst | ⟨mntent_desc, hfirst⟩ := Option.eq_none_or_eq_some
        (mtab.val.find? fun mntent_desc => mntent_desc.mnt_dir == "/".toList)
      · simp only [hfirst]
        exact ⟨_, by rw [Memory.put_self hb]; rfl, hempty⟩
      · obtain ⟨cells', last, hcopy, hload, hlast, hstring⟩ := strncpy_cases hb
          List.length_replicate (by decide) (mtab.property _ (List.mem_of_find?_eq_some hfirst))
        simp only [hfirst, Option.bind_some]
        refine ⟨cells', ?_, hstring⟩
        have hread : load ⟨b, MAX_DEVICE_FILE_PATH - 1⟩ (m.put b cells')
            = pure (last, m.put b cells') := by
          rw [load, hload]
          rfl
        rw [run_of_pure hcopy, Ptr.add, Nat.zero_add, run_of_pure hread]
        by_cases hfits : mntent_desc.mnt_fsname.length < MAX_DEVICE_FILE_PATH
        · rw [if_neg (not_not_intro (hlast.mpr hfits)), if_neg (Nat.not_le.mpr hfits),
            if_neg (Option.some_ne_none _)]
          rfl
        · rw [if_pos (mt hlast.mp hfits), if_pos (Nat.not_lt.mp hfits), if_pos rfl]
          rfl

/-! ### The target -/

/-- The name of the target, which is printed into the buffer for it. -/
def targetName (mounted_partition bank1_part_num bank2_part_num : Text) : Option Text :=
  (Swupdate.strtok mounted_partition 'p').bind fun token =>
    if Swupdate.strEndswith bank1_part_num mounted_partition then
      some (token ++ "p".toList ++ bank2_part_num)
    else if Swupdate.strEndswith bank2_part_num mounted_partition then
      some (token ++ "p".toList ++ bank1_part_num)
    else none

theorem findTargetPartition_eq (mounted_partition bank1_part_num bank2_part_num : Text)
    (dst_size : ℕ) :
  Swupdate.findTargetPartition mounted_partition bank1_part_num bank2_part_num dst_size
    = (targetName mounted_partition bank1_part_num bank2_part_num).bind (Swupdate.snprintf dst_size)
  := by
  unfold Swupdate.findTargetPartition targetName
  cases Swupdate.strtok mounted_partition 'p' with
  | none => rfl
  | some token =>
      simp only [Option.bind_some]
      split
      · rfl
      · split <;> rfl

/-- The copy of a name that fits into a buffer. -/
theorem strCopyToNew_ends (env : Surroundings w) {m : Memory Char} {src : Ptr} {s : Text}
    (hsrc : m.string NUL src = some s) (hs : s.length < MAX_DEVICE_FILE_PATH) :
  Ends env False (strCopyToNew env src m) fun p m' =>
    ∃ b cells, p = ⟨b, 0⟩ ∧ NewBlock m m' b cells ∧ Cells.string NUL cells = some s
  := by
  have hsize : (BitVec.ofNat w.bits w.pointerSize
      * (BitVec.ofNat w.bits s.length + 1)).toNat = w.pointerSize * (s.length + 1) := by
    have hone : BitVec.ofNat w.bits s.length + 1 = BitVec.ofNat w.bits (s.length + 1) :=
      (BitVec.ofNat_add ..).symm
    rw [hone, ← BitVec.ofNat_mul, BitVec.toNat_ofNat, Nat.mod_eq_of_lt]
    unfold MAX_DEVICE_FILE_PATH at hs
    cases w
    · simp only [Width.pointerSize, Width.bits]
      omega
    · simp only [Width.pointerSize, Width.bits]
      omega
  rw [strCopyToNew, run_of_pure (string_of_some hsrc)]
  cases mallocOrAbort_ends env (BitVec.ofNat w.bits s.length + 1) m with
  | aborted n size hrefused h => exact .aborted n size hrefused (run_of_throw h)
  | undefined hundefined => exact hundefined.elim
  | returned _ p m' h hQ =>
      obtain ⟨rfl, rfl⟩ := hQ
      rw [hsize] at h
      have hm := NewBlock.allocated m (List.replicate (w.pointerSize * (s.length + 1)) none)
      obtain ⟨cells, hcells, hstring⟩ := Memory.exists_of_string hsrc
      have hfits : 0 + (s ++ [NUL]).length
          ≤ (List.replicate (w.pointerSize * (s.length + 1)) (none : Option Char)).length := by
        rw [List.length_replicate, List.length_append, List.length_singleton, Nat.zero_add]
        apply Nat.le_mul_of_pos_left
        cases w <;> decide
      have hcopy := run_of_pure (f := fun text => store ⟨m.unused, 0⟩ (text ++ [NUL]))
        (string_of_some (hm.string hsrc))
      rw [store_of_le 0 (s ++ [NUL]) hm.block_self hfits] at hcopy
      have hm := hm.written
        (Cells.overwrite (List.replicate (w.pointerSize * (s.length + 1)) none) 0 (s ++ [NUL]))
      refine .returned not_false _ _ ?_ ⟨m.unused, _, rfl, hm, ?_⟩
      · rw [run_of_pure h]
        exact run_of_pure hcopy
      · rw [Cells.string_overwrite, takeWhile_of_notMem (Cells.string_eq_some.mp hstring).1]

/-- The token that is found in a string. -/
theorem strtok_eq (delim : Char) {m : Memory Char} {b : ℕ} {cells : Cells Char} {s : Text}
    (hb : m.block b = some cells) (hs : Cells.string NUL cells = some s) :
  match Swupdate.strtok s delim with
  | none => strtok ⟨b, 0⟩ delim m = pure (none, m)
  | some token => ∃ offset cells', strtok ⟨b, 0⟩ delim m = pure (some ⟨b, offset⟩, m.put b cells')
      ∧ Cells.string NUL (cells'.drop offset) = some token
  := by
  have hread : string ⟨b, 0⟩ m = pure (s, m) := string_of_some ((Memory.string_of_block hb).trans hs)
  have hsplit : s.takeWhile (· == delim) ++ s.dropWhile (· == delim) = s :=
    List.takeWhile_append_dropWhile
  rw [Swupdate.strtok, strtok, run_of_pure hread]
  generalize s.takeWhile (· == delim) = skipped at hsplit ⊢
  generalize s.dropWhile (· == delim) = rest at hsplit ⊢
  cases rest with
  | nil => rfl
  | cons c rest =>
      dsimp only
      rw [if_neg (List.cons_ne_nil _ _)]
      have hlength : (skipped ++ c :: rest).length = s.length := by rw [hsplit]
      have hrest : Cells.string NUL (cells.drop skipped.length) = some (c :: rest) := by
        rw [Cells.string_drop hs (by rw [← hlength, List.length_append]; omega), ← hsplit,
          List.drop_left]
      have hprefix := List.prefix_iff_eq_take.mp (List.takeWhile_prefix (l := c :: rest) (· != delim))
      by_cases hfound : ((c :: rest).takeWhile (· != delim)).length < (c :: rest).length
      · have hroom := Cells.length_lt_of_string hs
        rw [List.length_append] at hlength
        refine ⟨skipped.length, _, ?_, (Cells.string_overwrite_nul hrest hfound.le).trans
          (congrArg some hprefix.symm)⟩
        have hstore := store_of_le
          (skipped.length + ((c :: rest).takeWhile (· != delim)).length) [NUL] hb
          (by rw [List.length_singleton]; omega)
        rw [if_pos hfound, Ptr.add, Ptr.add, Nat.zero_add, run_of_pure hstore]
        rfl
      · have hwhole := (List.takeWhile_prefix (l := c :: rest) (· != delim)).eq_of_length_le
          (Nat.not_lt.mp hfound)
        refine ⟨skipped.length, cells, ?_, by rw [hwhole]; exact hrest⟩
        rw [if_neg hfound, Memory.put_self hb, Ptr.add, Nat.zero_add]
        rfl

/-- The buffer for the target afterwards: it holds the target, or it can be read only when a name
that is too long for it has been printed there. -/
def TargetFound (mounted b1 b2 : Text) (found : ℤ) (cells : Cells Char) : Prop :=
  match Swupdate.findTargetPartition mounted b1 b2 MAX_DEVICE_FILE_PATH with
  | some target => found = 0 ∧ Cells.string NUL cells = some target
  | none => found = -1
      ∧ (Cells.string NUL cells = none ↔ ∀ name ∈ targetName mounted b1 b2, INT_MAX < name.length)

/-- Nothing is printed when there is no name. -/
theorem targetFound_of_none {mounted b1 b2 : Text} (h : targetName mounted b1 b2 = none) :
  TargetFound mounted b1 b2 (-1) (List.replicate MAX_DEVICE_FILE_PATH none)
  := by
  have hnone : Swupdate.findTargetPartition mounted b1 b2 MAX_DEVICE_FILE_PATH = none := by
    rw [findTargetPartition_eq, h, Option.bind_none]
  unfold TargetFound
  rw [hnone, h]
  refine ⟨rfl, fun _ _ hname => ?_, fun _ => Cells.string_replicate_none _⟩
  exact absurd hname (Option.not_mem_none _)

theorem targetFound_of_printed {mounted b1 b2 name : Text} {cells : Cells Char}
    (h : targetName mounted b1 b2 = some name)
    (hprinted : Swupdate.snprintf MAX_DEVICE_FILE_PATH name ≠ none → Cells.string NUL cells = some name)
    (hshort : name.length ≤ INT_MAX → Cells.string NUL cells ≠ none)
    (hlong : INT_MAX < name.length → cells = List.replicate MAX_DEVICE_FILE_PATH none) :
  TargetFound mounted b1 b2
    (if Swupdate.snprintf MAX_DEVICE_FILE_PATH name = none then -1 else 0) cells
  := by
  unfold TargetFound
  rw [findTargetPartition_eq, h, Option.bind_some]
  cases hfits : Swupdate.snprintf MAX_DEVICE_FILE_PATH name with
  | some target =>
      obtain rfl := snprintf_eq_some hfits
      exact ⟨if_neg (Option.some_ne_none _), hprinted (by rw [hfits]; exact Option.some_ne_none _)⟩
  | none =>
      refine ⟨if_pos rfl, ?_⟩
      simp only [Option.mem_def, Option.some.injEq, forall_eq']
      constructor
      · intro hnone
        by_contra hle
        exact hshort (Nat.not_lt.mp hle) hnone
      · intro hlt
        rw [hlong hlt]
        exact Cells.string_replicate_none _

theorem strEndswith_eq {m : Memory Char} {p p' : Ptr} {s s' : Text} (hs : m.string NUL p = some s)
    (hs' : m.string NUL p' = some s') :
  strEndswith p p' m = pure (Swupdate.strEndswith s s', m)
  := by
  rw [strEndswith, run_of_pure (string_of_some hs), run_of_pure (string_of_some hs')]
  rfl

/-- The name is printed when there is one. -/
theorem printTarget_eq (dst : Ptr) (dst_size : ℕ) {m : Memory Char} {mounted bank1 bank2 : Ptr}
    {token : Option Ptr} {s b1 b2 : Text} (hs : m.string NUL mounted = some s)
    (hb1 : m.string NUL bank1 = some b1) (hb2 : m.string NUL bank2 = some b2)
    (htoken : token.map (m.string NUL) = (Swupdate.strtok s 'p').map some) :
  printTarget dst mounted bank1 bank2 dst_size token m
    = match targetName s b1 b2 with
      | none => pure (-1, m)
      | some name => printPath dst name dst_size m
  := by
  unfold targetName
  cases htext : Swupdate.strtok s 'p' with
  | none =>
      rw [htext, Option.map_none, Option.map_eq_none_iff] at htoken
      rw [htoken]
      rfl
  | some text =>
      rw [htext, Option.map_some, Option.map_eq_some_iff] at htoken
      obtain ⟨token, rfl, hread⟩ := htoken
      rw [printTarget, run_of_pure (strEndswith_eq hb1 hs), Option.bind_some]
      split
      · rw [run_of_pure (string_of_some hread), run_of_pure (string_of_some hb2)]
      · rw [run_of_pure (strEndswith_eq hb2 hs)]
        split
        · rw [run_of_pure (string_of_some hread), run_of_pure (string_of_some hb1)]
        · rfl

theorem notMem_of_string {m : Memory Char} {p : Ptr} {s : Text} (h : m.string NUL p = some s) :
  NUL ∉ s
  := by
  obtain ⟨cells, -, hcells⟩ := Memory.exists_of_string h
  exact (Cells.string_eq_some.mp hcells).1

theorem notMem_of_targetName {s b1 b2 name : Text} (h : targetName s b1 b2 = some name)
    (hs : NUL ∉ s) (hb1 : NUL ∉ b1) (hb2 : NUL ∉ b2) :
  NUL ∉ name
  := by
  unfold targetName at h
  obtain ⟨token, htoken, hname⟩ := Option.bind_eq_some_iff.mp h
  have hfree : NUL ∉ token := by
    rw [Swupdate.strtok] at htoken
    split at htoken
    · contradiction
    · obtain rfl := Option.some.inj htoken
      intro hmem
      have hrest := (List.takeWhile_prefix fun c => c != 'p').subset hmem
      apply hs ((List.dropWhile_suffix fun c => c == 'p').subset hrest)
  split at hname
  · obtain rfl := Option.some.inj hname
    simp only [List.mem_append, not_or]
    exact ⟨⟨hfree, by decide⟩, hb2⟩
  · split at hname
    · obtain rfl := Option.some.inj hname
      simp only [List.mem_append, not_or]
      exact ⟨⟨hfree, by decide⟩, hb1⟩
    · contradiction

/-- The copy once the delimiter is overwritten, and the token in it. -/
theorem strtok_copy {m m' : Memory Char} {c : ℕ} {cells : Cells Char} {s : Text}
    (hc : NewBlock m m' c cells) (hs : Cells.string NUL cells = some s) :
  ∃ token m'' cells', strtok ⟨c, 0⟩ 'p' m' = pure (token, m'') ∧ NewBlock m m'' c cells'
    ∧ token.map (m''.string NUL) = (Swupdate.strtok s 'p').map some
  := by
  have htok := strtok_eq 'p' hc.block_self hs
  cases htext : Swupdate.strtok s 'p' with
  | none =>
      rw [htext] at htok
      exact ⟨none, m', cells, htok, hc, rfl⟩
  | some text =>
      rw [htext] at htok
      obtain ⟨offset, cells', htok, hread⟩ := htok
      refine ⟨some ⟨c, offset⟩, _, cells', htok, hc.written cells', ?_⟩
      rw [Option.map_some, (hc.written cells').string_self, hread]
      rfl

theorem findTargetPartition_ends {m m' : Memory Char} {b : ℕ} {mounted bank1 bank2 : Ptr}
    {s b1 b2 : Text} (hm : NewBlock m m' b (List.replicate MAX_DEVICE_FILE_PATH none))
    (hs : m.string NUL mounted = some s) (hlength : s.length < MAX_DEVICE_FILE_PATH)
    (hb1 : m.string NUL bank1 = some b1) (hb2 : m.string NUL bank2 = some b2) :
  Ends env False (findTargetPartition env ⟨b, 0⟩ mounted bank1 bank2 MAX_DEVICE_FILE_PATH m')
    fun found m'' => ∃ cells, NewBlock m m'' b cells ∧ TargetFound s b1 b2 found cells
  := by
  cases strCopyToNew_ends env (hm.string hs) hlength with
  | aborted n size hrefused h => exact .aborted n size hrefused (run_of_throw h)
  | undefined hundefined => exact hundefined.elim
  | returned _ p m₁ h hQ =>
      obtain ⟨c, cellsC, rfl, hc, hcopy⟩ := hQ
      rw [findTargetPartition, run_of_pure h]
      obtain ⟨token, m₂, cellsC', htok, hc', htoken⟩ := strtok_copy hc hcopy
      rw [run_of_pure htok]
      have hprint := printTarget_eq ⟨b, 0⟩ MAX_DEVICE_FILE_PATH
        (hc'.string (hm.string hs)) (hc'.string (hm.string hb1)) (hc'.string (hm.string hb2)) htoken
      cases hname : targetName s b1 b2 with
      | none =>
          rw [hname] at hprint
          refine .returned not_false (-1) (m₂.erase c) ?_
            ⟨_, hm.trans_same hc'.erase, targetFound_of_none hname⟩
          rw [run_of_pure hprint, run_of_pure (free_of_block hc'.block_self)]
          rfl
      | some name =>
          rw [hname] at hprint
          have hb : m₂.block b = some (List.replicate MAX_DEVICE_FILE_PATH none) := by
            rw [hc'.block, Function.update_of_ne (hm.lt_unused.trans_le hc'.fresh).ne, hm.block_self]
          obtain ⟨cells, hpath, hprinted, hshort, hlong⟩ := printPath_cases hb List.length_replicate
            (by decide) (notMem_of_targetName hname (notMem_of_string hs) (notMem_of_string hb1)
              (notMem_of_string hb2))
          have hfree : (m₂.put b cells).block c = some cellsC' := by
            rw [Memory.block_put, Function.update_of_ne (hm.lt_unused.trans_le hc'.fresh).ne',
              hc'.block_self]
          refine .returned not_false _ ((m₂.put b cells).erase c) ?_
            ⟨cells, hm.erase_second hc', targetFound_of_printed hname hprinted hshort hlong⟩
          rw [run_of_pure (hprint.trans hpath), run_of_pure (free_of_block hfree)]
          rfl

end WithMemory

end Swupdate
