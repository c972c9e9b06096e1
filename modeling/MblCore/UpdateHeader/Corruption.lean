import MblCore.Lib.Crc
import MblCore.UpdateHeader.Format

/-!
# Corrupted HEADERs

A HEADER that was accepted, and in which up to four consecutive bytes in front of the checksum, or
bytes of the checksum, have changed, is refused.  The checksum is a cyclic redundancy check over the
bytes in front of it, in a register of four bytes.
-/

/-! ### The checksum as a division -/

/-- The polynomial of `crc32`. -/
def crcPoly : BitVec 32 := 0xEDB88320

theorem toBitVec_crcBit (c : UInt32) :
  (crcBit c).toBitVec = Crc.step crcPoly c.toBitVec
  := by
  have hlow : c &&& 1 = 1 ↔ c.toBitVec.getLsbD 0 = true := by
    rw [← UInt32.toBitVec_inj, UInt32.toBitVec_and]
    change c.toBitVec &&& 1#32 = 1#32 ↔ _
    rw [BitVec.and_one_eq_setWidth_ofBool_getLsbD]
    cases c.toBitVec.getLsbD 0 <;> decide
  rw [crcBit, Crc.step]
  by_cases h : c &&& 1 = 1
  · rw [if_pos h, if_pos (hlow.mp h)]
    rfl
  · rw [if_neg h, if_neg (mt hlow.mpr h)]
    rfl

theorem toBitVec_iterate_crcBit (n : Nat) (c : UInt32) :
  (crcBit^[n] c).toBitVec = (Crc.step crcPoly)^[n] c.toBitVec
  := by
  induction n generalizing c with
  | zero => rfl
  | succ n ih => rw [Function.iterate_succ_apply, Function.iterate_succ_apply, ih, toBitVec_crcBit]

theorem toBitVec_foldl_crcByte (data : Bytes) (c : UInt32) :
  (data.foldl crcByte c).toBitVec = Crc.divide crcPoly c.toBitVec (data.map UInt8.toBitVec)
  := by
  induction data generalizing c with
  | nil => rfl
  | cons x data ih =>
      rw [List.foldl_cons, ih, crcByte, toBitVec_iterate_crcBit]
      rfl

/-- Byte strings that differ in at most four consecutive bytes have different checksums. -/
theorem crc32_injective_between {before after xs ys : Bytes} (hlen : xs.length = ys.length)
    (hshort : xs.length ≤ 4) (h : crc32 (before ++ xs ++ after) = crc32 (before ++ ys ++ after)) :
  xs = ys
  := by
  have hregister := (UInt32.xor_left_inj _).mp h
  have hdivide := congrArg UInt32.toBitVec hregister
  rw [toBitVec_foldl_crcByte, toBitVec_foldl_crcByte] at hdivide
  simp only [List.map_append] at hdivide
  have hmap := Crc.eq_of_divide_eq (by decide) (by simp [hlen]) (by simp; omega) hdivide
  exact (List.map_inj_right fun _ _ => UInt8.toBitVec_inj.mp).mp hmap

namespace FirmwareUpdateHeader

/-! ### Short corruptions -/

/-- The byte strings are equal but for bytes from position `i` up to position `j`. -/
def EqualOutside (i j : Nat) (d d' : Bytes) : Prop :=
  ∀ p, p < i ∨ j ≤ p → d'[p]? = d[p]?

/-- `d'` is `d` with other bytes, all of which are among four consecutive ones in front of the
checksum, or all of which are in the checksum. -/
structure ShortCorruption (d d' : Bytes) : Prop where
  length : d'.length = d.length
  differs : d' ≠ d
  within : (∃ i n, n ≤ 4 ∧ i + n ≤ 108 ∧ EqualOutside i (i + n) d d') ∨ EqualOutside 108 112 d d'

variable {d d' : Bytes} {i j : Nat}

theorem EqualOutside.slice_eq (h : EqualOutside i j d d') {a b : Nat} (hab : b ≤ i ∨ j ≤ a) :
  slice d' a b = slice d a b
  := by
  apply List.ext_getElem?
  intro p
  simp only [slice, List.getElem?_drop, List.getElem?_take]
  split
  · exact h _ (by omega)
  · rfl

theorem EqualOutside.drop_eq (h : EqualOutside i j d d') {a : Nat} (ha : j ≤ a) :
  d'.drop a = d.drop a
  := by
  apply List.ext_getElem?
  intro p
  simp only [List.getElem?_drop]
  exact h _ (by omega)

/-- Strings that differ do so where they may. -/
theorem EqualOutside.slice_ne (h : EqualOutside i j d d') (hij : i ≤ j) (hne : d' ≠ d) :
  slice d' i j ≠ slice d i j
  := by
  intro hsame
  apply hne
  have hsplit (b : Bytes) : slice b 0 i ++ slice b i j ++ b.drop j = b := by
    rw [slice_append_slice b (Nat.zero_le i) hij, slice, List.drop_zero, List.take_append_drop]
  rw [← hsplit d', ← hsplit d, h.slice_eq (Or.inl (Nat.le_refl i)), hsame,
    h.drop_eq (Nat.le_refl j)]

/-- The two parts of the bytes in front of the checksum, and the bytes between them. -/
theorem take_eq_slices (b : Bytes) (hij : i ≤ j) (hj : j ≤ 108) :
  b.take 108 = slice b 0 i ++ slice b i j ++ slice b j 108
  := by
  rw [slice_append_slice b (Nat.zero_le i) hij, slice_append_slice b (Nat.zero_le j) hj, slice,
    List.drop_zero]

/-- The checksum of a HEADER that was accepted is not right after a short corruption. -/
theorem not_wellFormed_of_shortCorruption (hd : WellFormed d) (h : ShortCorruption d d') :
  ¬ WellFormed d'
  := by
  intro hd'
  have hlong := hd.long
  have hlength := h.length
  rcases h.within with ⟨i, n, hn, hi, houtside⟩ | houtside
  · apply houtside.slice_ne (Nat.le_add_right i n) h.differs
    have hchecksum : (crc32 (d'.take 108)).toNat = (crc32 (d.take 108)).toNat := by
      rw [← hd.checksum, ← hd'.checksum, number, number, houtside.slice_eq (Or.inr hi)]
    have hcrc := UInt32.toNat_inj.mp hchecksum
    rw [take_eq_slices d (Nat.le_add_right i n) hi, take_eq_slices d' (Nat.le_add_right i n) hi,
      houtside.slice_eq (Or.inl (Nat.le_refl i)), houtside.slice_eq (Or.inr (Nat.le_refl (i + n)))]
      at hcrc
    apply crc32_injective_between _ _ hcrc
    · rw [length_slice (by omega), length_slice (by omega)]
    · rw [length_slice (by omega)]
      omega
  · apply houtside.slice_ne (by decide) h.differs
    have hnumber : number d' 108 112 = number d 108 112 := by
      have hheader : d'.take 108 = d.take 108 := by
        have hslice := houtside.slice_eq (a := 0) (Or.inl (Nat.le_refl 108))
        simpa [slice] using hslice
      rw [hd.checksum, hd'.checksum, hheader]
    have hlen (b : Bytes) (hb : 112 ≤ b.length) : (slice b 108 112).length = 4 := length_slice hb
    rw [← Struct.bigEndian_ofBigEndian (slice d' 108 112),
      ← Struct.bigEndian_ofBigEndian (slice d 108 112), hlen d hlong, hlen d' (by omega)]
    exact congrArg _ hnumber

/-- `unpack` refuses a HEADER with a short corruption, on any object. -/
theorem shortCorruption_refused {d d' : Bytes} {self self' : FirmwareUpdateHeader}
    (haccepted : ((unpack d).call self).1 = .ok ()) (h : ShortCorruption d d') :
  ∃ message, ((unpack d').call self').1 = .error (.formatError message)
  := by
  have hd' := not_wellFormed_of_shortCorruption (wellFormed_of_call haccepted) h
  rcases unpack_cases d' self' with ⟨-, message, hcall⟩ | ⟨-, -, message, hcall⟩ | ⟨hformat, -⟩
    | ⟨hformat, -⟩
  · exact ⟨message, by rw [hcall]⟩
  · exact ⟨message, by rw [hcall]⟩
  · contradiction
  · contradiction

/-- Another byte in front of the checksum is a short corruption. -/
theorem shortCorruption_set {p : Nat} {x : UInt8} (hd : WellFormed d) (hp : p < 108)
    (hx : d[p]? ≠ some x) :
  ShortCorruption d (d.set p x)
  where
    length := List.length_set
    differs := by
      intro hsame
      apply hx
      have hlong := hd.long
      rw [← hsame, List.getElem?_set_self (by omega)]
    within := by
      left
      use p, 1, by decide, hp
      intro q hq
      exact List.getElem?_set_ne (by omega)

theorem shortCorruption_refused_unsigned :
  ∃ blob, pack init = .ok blob
    ∧ ∃ message, ((unpack (blob.set 3 (blob.getD 3 0 + 1))).call init).1
      = .error (.formatError message)
  := by
  obtain ⟨blob, hpack, hformat, -⟩ := exists_unsigned
  use blob, hpack
  have haccepted : ((unpack blob).call init).1 = .ok () := by
    rcases decides_unpack blob with ⟨-, hr⟩ | ⟨hno, -⟩
    · rw [hr]
    · exact absurd hformat hno
  apply shortCorruption_refused haccepted
  apply shortCorruption_set hformat (by decide)
  intro hsame
  rw [List.getD_eq_getElem?_getD] at hsame
  cases hthird : blob[3]? with
  | none => simp [hthird] at hsame
  | some x => simp [hthird] at hsame

end FirmwareUpdateHeader
