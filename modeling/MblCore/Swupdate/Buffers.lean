import MblCore.Swupdate.MountedDevice
import Mathlib.Algebra.Order.Ring.Int

/-!
# Buffers for files and strings

`malloc_or_abort` multiplies the size that it is asked for by the size of a pointer, and sizes are
numbers of 32 or 64 bits.  So the buffers are larger than they need be, until the product wraps.
-/

namespace Swupdate

namespace InMemory

/-- The width of pointers and of `size_t`. -/
inductive Width
  | w32
  | w64
deriving DecidableEq

def Width.bits : Width → ℕ
  | .w32 => 32
  | .w64 => 64

/-- `sizeof (char *)`. -/
def Width.pointerSize : Width → ℕ
  | .w32 => 4
  | .w64 => 8

abbrev SizeT (w : Width) :=
  BitVec w.bits

/-- A string that fits into the address space with its terminator. -/
abbrev Str (w : Width) :=
  { src : Text // NUL ∉ src ∧ src.length < 2 ^ w.bits }

/-- A block of memory, and the end of what has been written to it. -/
structure Block where
  size : ℕ
  written : ℕ
deriving DecidableEq

variable {w : Width} (malloc : SizeT w → Bool)

/-- A block that nothing has been written to, when `malloc` has one of the size that it is asked
for. -/
def mallocOrAbort (size : SizeT w) : Option Block :=
  let requested := BitVec.ofNat w.bits w.pointerSize * size
  if malloc requested then some ⟨requested.toNat, 0⟩ else none

def strlen (src : Str w) : SizeT w :=
  BitVec.ofNat w.bits src.val.length

/-- `str_copy_to_new`, with `strcpy` at its end. -/
def strCopyToNew (src : Str w) : Option Block := do
  let dst ← mallocOrAbort malloc (strlen src + 1)
  return { dst with written := src.val.length + 1 }

/-- A file, as the calls of `read_file_to_new_str` see it. -/
structure File where
  /-- What `stat` reports. -/
  st_size : Option ℤ
  /-- What can be read, up to the end of the file or an error, when the file can be opened. -/
  stream : Option Text
  /-- `fclose` fails. -/
  closeFails : Bool

/-- How `read_file_to_new_str` ends, and with which block. -/
inductive Ending
  | abort
  | null (block : Option Block)
  | str (block : Block)
deriving DecidableEq

/-- The block that has been obtained. -/
def Ending.block : Ending → Option Block
  | .abort => none
  | .null block => block
  | .str block => some block

/-- `fread` into a block, and the terminator after it. -/
def readStream (dst : Block) (st_size : ℤ) (count : SizeT w) (stream : Text) : Ending :=
  let dst := { dst with written := min count.toNat stream.length }
  -- `feof` or `ferror` tells that there was not as much to read
  if stream.length < count.toNat then .null (some dst)
  else .str { dst with written := st_size.toNat + 1 }

/-- `fclose`, after which nothing is returned when it fails. -/
def closeStream (fails : Bool) : Ending → Ending
  | .str dst => if fails then .null (some dst) else .str dst
  | ending => ending

@[simp]
theorem block_closeStream (fails : Bool) (ending : Ending) :
  (closeStream fails ending).block = ending.block
  := by
  cases ending with
  | str dst => cases fails <;> rfl
  | abort => rfl
  | null block => rfl

def readFileToNewStr (file : File) : Ending :=
  match file.st_size with
  | none => .null none
  | some st_size =>
      if st_size < 0 then .null none
      else
        match mallocOrAbort malloc (BitVec.ofInt w.bits st_size + 1) with
        | none => .abort
        | some dst =>
            match file.stream with
            | none => .null (some dst)
            | some stream =>
                closeStream file.closeFails
                  (readStream dst st_size (BitVec.ofInt w.bits st_size) stream)

/-! ### The sizes of blocks -/

variable {malloc}

/-- The size of the block for so many bytes: that of as many pointers, as far as the address space
goes. -/
def blockSize (w : Width) (n : ℕ) : ℕ :=
  w.pointerSize * n % 2 ^ w.bits

theorem mallocOrAbort_ofNat (n : ℕ) :
  mallocOrAbort malloc (BitVec.ofNat w.bits n)
    = if malloc (BitVec.ofNat w.bits (w.pointerSize * n)) then some ⟨blockSize w n, 0⟩ else none
  := by
  rw [mallocOrAbort, ← BitVec.ofNat_mul, BitVec.toNat_ofNat]
  rfl

/-- The block for a string, and the end of what is written to it. -/
theorem strCopyToNew_eq (src : Str w) :
  strCopyToNew malloc src
    = if malloc (BitVec.ofNat w.bits (w.pointerSize * (src.val.length + 1))) then
        some ⟨blockSize w (src.val.length + 1), src.val.length + 1⟩
      else none
  := by
  have hsize : strlen src + 1 = BitVec.ofNat w.bits (src.val.length + 1) :=
    (BitVec.ofNat_add ..).symm
  rw [strCopyToNew, hsize, mallocOrAbort_ofNat]
  split
  · rfl
  · rfl

/-- Reading keeps the block, and writes no more than the file and a terminator to it. -/
theorem readStream_block {dst dst' : Block} {st_size : ℕ} {stream : Text}
    (h : dst' ∈ (readStream dst st_size (BitVec.ofNat w.bits st_size) stream).block) :
  dst'.size = dst.size ∧ dst'.written ≤ st_size + 1
  := by
  have hcount : (BitVec.ofNat w.bits st_size).toNat ≤ st_size := by
    rw [BitVec.toNat_ofNat]
    apply Nat.mod_le _ _
  rw [readStream] at h
  split at h
  · obtain rfl := Option.some.inj h
    exact ⟨rfl, by dsimp only; omega⟩
  · obtain rfl := Option.some.inj h
    exact ⟨rfl, by simp⟩

/-- The function for a file of some size, once its size is known. -/
theorem readFileToNewStr_of_stat {file : File} {st_size : ℕ}
    (hfile : file.st_size = some (st_size : ℤ)) :
  readFileToNewStr malloc file
    = if malloc (BitVec.ofNat w.bits (w.pointerSize * (st_size + 1))) then
        match file.stream with
        | none => .null (some ⟨blockSize w (st_size + 1), 0⟩)
        | some stream =>
            closeStream file.closeFails
              (readStream ⟨blockSize w (st_size + 1), 0⟩ st_size (BitVec.ofNat w.bits st_size) stream)
      else .abort
  := by
  have hpos : ¬ (st_size : ℤ) < 0 := Int.not_lt.mpr (Int.natCast_nonneg st_size)
  have hsize : BitVec.ofNat w.bits st_size + 1 = BitVec.ofNat w.bits (st_size + 1) :=
    (BitVec.ofNat_add ..).symm
  simp only [readFileToNewStr, hfile, if_neg hpos, BitVec.ofInt_natCast, hsize, mallocOrAbort_ofNat]
  by_cases hmalloc : malloc (BitVec.ofNat w.bits (w.pointerSize * (st_size + 1))) = true
  · rw [if_pos hmalloc, if_pos hmalloc]
  · rw [if_neg hmalloc, if_neg hmalloc]

/-- The block for a file, and the end of what is written to it. -/
theorem block_of_readFileToNewStr {file : File} {st_size : ℕ} {dst : Block}
    (hfile : file.st_size = some (st_size : ℤ)) (h : dst ∈ (readFileToNewStr malloc file).block) :
  dst.size = blockSize w (st_size + 1) ∧ dst.written ≤ st_size + 1
  := by
  rw [readFileToNewStr_of_stat hfile] at h
  split at h
  · split at h
    · obtain rfl := Option.some.inj h
      exact ⟨rfl, Nat.zero_le _⟩
    · rw [block_closeStream] at h
      apply readStream_block h
  · exact absurd h (Option.not_mem_none _)

/-! ### When the blocks are large enough -/

/-- The block for a file has room for its contents and a terminator, when there is a block. -/
def FileFits (w : Width) (st_size : ℕ) : Prop :=
  ∀ (malloc : SizeT w → Bool) (file : File), file.st_size = some (st_size : ℤ) →
    ∀ dst ∈ (readFileToNewStr malloc file).block, st_size + 1 ≤ dst.size

/-- The copy of a string has room for it and its terminator, when there is a block. -/
def CopyFits {w : Width} (src : Str w) : Prop :=
  ∀ malloc : SizeT w → Bool, ∀ dst ∈ strCopyToNew malloc src, src.val.length + 1 ≤ dst.size

/-- So many bytes are few enough: where their multiple wraps, this many times, they lie in the upper
part of the range in which it does. -/
def FewEnough (w : Width) (n : ℕ) : Prop :=
  ∃ laps < w.pointerSize - 1,
    laps * 2 ^ w.bits ≤ (w.pointerSize - 1) * n ∧ w.pointerSize * n < (laps + 1) * 2 ^ w.bits

theorem le_blockSize_iff {w : Width} {n : ℕ} (hn : 0 < n) :
  n ≤ blockSize w n ↔ FewEnough w n
  := by
  cases w with
  | w32 =>
      simp only [blockSize, FewEnough, Width.bits, Width.pointerSize]
      constructor
      · intro h
        exact ⟨4 * n / 2 ^ 32, by omega, by omega, by omega⟩
      · rintro ⟨laps, _, hlow, hhigh⟩
        have hlaps : 4 * n / 2 ^ 32 = laps := Nat.div_eq_of_lt_le (by omega) hhigh
        omega
  | w64 =>
      simp only [blockSize, FewEnough, Width.bits, Width.pointerSize]
      constructor
      · intro h
        exact ⟨8 * n / 2 ^ 64, by omega, by omega, by omega⟩
      · rintro ⟨laps, _, hlow, hhigh⟩
        have hlaps : 8 * n / 2 ^ 64 = laps := Nat.div_eq_of_lt_le (by omega) hhigh
        omega

theorem fileFits_iff (w : Width) (st_size : ℕ) :
  FileFits w st_size ↔ FewEnough w (st_size + 1)
  := by
  rw [← le_blockSize_iff (Nat.succ_pos st_size)]
  constructor
  · intro hfits
    exact hfits (fun _ => true) ⟨some st_size, none, false⟩ rfl _
      (by rw [readFileToNewStr_of_stat rfl]; rfl)
  · intro h malloc file hfile dst hdst
    rwa [(block_of_readFileToNewStr hfile hdst).1]

theorem copyFits_iff {w : Width} (src : Str w) :
  CopyFits src ↔ FewEnough w (src.val.length + 1)
  := by
  rw [← le_blockSize_iff (Nat.succ_pos src.val.length)]
  constructor
  · intro hfits
    exact hfits (fun _ => true) _ (by rw [strCopyToNew_eq]; rfl)
  · intro h malloc dst hdst
    rw [strCopyToNew_eq, Option.mem_def, Option.ite_none_right_eq_some] at hdst
    obtain rfl := Option.some.inj hdst.2
    exact h

/-- The blocks for files and strings have room for them just when these are small enough. -/
theorem buffers_fit_iff (w : Width) :
  (∀ st_size : ℕ, FileFits w st_size ↔ FewEnough w (st_size + 1))
    ∧ ∀ src : Str w, CopyFits src ↔ FewEnough w (src.val.length + 1)
  := ⟨fileFits_iff w, copyFits_iff⟩

/-- A file of a gigabyte is read into a block of four bytes. -/
theorem not_fileFits_gigabyte :
  ¬ FileFits .w32 (2 ^ 30)
  := by
  intro h
  have hblock := h (fun _ => true) ⟨some ((2 ^ 30 : ℕ) : ℤ), none, false⟩ rfl ⟨4, 0⟩ rfl
  exact absurd hblock (by decide)

/-- Nothing is written behind the block for a file that is small enough. -/
theorem written_le_size {w : Width} {malloc : SizeT w → Bool} {file : File} {st_size : ℕ}
    {dst : Block} (hfile : file.st_size = some (st_size : ℤ)) (h : FewEnough w (st_size + 1))
    (hdst : dst ∈ (readFileToNewStr malloc file).block) :
  dst.written ≤ dst.size
  := by
  obtain ⟨hsize, hwritten⟩ := block_of_readFileToNewStr hfile hdst
  rw [hsize]
  apply hwritten.trans ((le_blockSize_iff (Nat.succ_pos st_size)).mpr h)

end InMemory

end Swupdate
