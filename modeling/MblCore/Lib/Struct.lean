import Mathlib.Data.List.Induction
import Mathlib.Data.List.TakeDrop
import Mathlib.Algebra.Order.Ring.Int
import Mathlib.Tactic.Zify

/-!
# Packed binary data in network byte order

A format is a list of field codes, read in big-endian order and without padding between the
fields: `I` and `Q` are unsigned numbers of four and eight bytes, and `s n` is a string of `n`
bytes.  `pack` writes the values of a format to bytes and `unpack` reads them back.  Packing
refuses numbers that do not fit and pads or truncates strings; unpacking asks for the exact
number of bytes.  On values that fit, the two are inverse to each other.
-/

/-- A byte string. -/
abbrev Bytes := List UInt8

namespace Struct

/-! ### Numbers in big-endian order -/

/-- The `width` low bytes of `n`, the most significant one first. -/
def bigEndian : Nat → Nat → Bytes
  | 0, _ => []
  | width + 1, n => bigEndian width (n / 256) ++ [UInt8.ofNat n]

/-- The number a byte string denotes, its first byte being the most significant one. -/
def ofBigEndian (b : Bytes) : Nat :=
  b.foldl (fun n x => n * 256 + x.toNat) 0

@[simp]
theorem length_bigEndian (width n : Nat) :
  (bigEndian width n).length = width
  := by
  induction width generalizing n with
  | zero => rfl
  | succ width ih => simp [bigEndian, ih]

@[simp]
theorem ofBigEndian_nil :
  ofBigEndian [] = 0
  := rfl

@[simp]
theorem ofBigEndian_concat (b : Bytes) (x : UInt8) :
  ofBigEndian (b ++ [x]) = ofBigEndian b * 256 + x.toNat
  := by
  simp [ofBigEndian]

/-- A byte string of length `k` denotes a number below `256 ^ k`. -/
theorem ofBigEndian_lt (b : Bytes) :
  ofBigEndian b < 256 ^ b.length
  := by
  induction b using List.reverseRecOn with
  | nil => simp
  | append_singleton b x ih =>
      have hx := x.toNat_lt
      simp only [ofBigEndian_concat, List.length_append, List.length_singleton, pow_succ]
      omega

/-- Reading the bytes of a number gives back the number. -/
theorem ofBigEndian_bigEndian {width n : Nat} (h : n < 256 ^ width) :
  ofBigEndian (bigEndian width n) = n
  := by
  induction width generalizing n with
  | zero => simp_all [bigEndian]
  | succ width ih =>
      have hdiv : n / 256 < 256 ^ width := by
        rw [pow_succ] at h
        omega
      have hmod : (UInt8.ofNat n).toNat = n % 256 := UInt8.toNat_ofNat'
      rw [bigEndian, ofBigEndian_concat, ih hdiv, hmod]
      omega

/-- Writing the number of a byte string gives back the bytes. -/
theorem bigEndian_ofBigEndian (b : Bytes) :
  bigEndian b.length (ofBigEndian b) = b
  := by
  induction b using List.reverseRecOn with
  | nil => rfl
  | append_singleton b x ih =>
      have hx := x.toNat_lt
      have hdiv : (ofBigEndian b * 256 + x.toNat) / 256 = ofBigEndian b := by omega
      have hlast : UInt8.ofNat (ofBigEndian b * 256 + x.toNat) = x := by
        apply UInt8.toNat_inj.mp
        rw [UInt8.toNat_ofNat']
        omega
      rw [ofBigEndian_concat, List.length_append, List.length_singleton, bigEndian, hdiv, ih, hlast]

/-! ### Fields -/

/-- The format characters of the fields. -/
inductive Code
  | I
  | Q
  | s (n : Nat)
deriving DecidableEq

/-- The error raised for values and byte strings a format does not allow. -/
inductive StructError
  | error
deriving DecidableEq

namespace Code

/-- The number of bytes of a field. -/
def size : Code → Nat
  | .I => 4
  | .Q => 8
  | .s n => n

/-- The values of a field. -/
@[reducible]
def Value : Code → Type
  | .I => Int
  | .Q => Int
  | .s _ => Bytes

/-- The values that a field represents exactly. -/
def Fits : (c : Code) → c.Value → Prop
  | .I, n => 0 ≤ n ∧ n < 2 ^ 32
  | .Q, n => 0 ≤ n ∧ n < 2 ^ 64
  | .s n, b => b.length = n

/-- The bytes of an unsigned number of `width` bytes. -/
def packNumber (width : Nat) (n : Int) : Except StructError Bytes :=
  if 0 ≤ n ∧ n < 256 ^ width then .ok (bigEndian width n.toNat) else .error .error

/-- The bytes of a field. -/
def pack : (c : Code) → c.Value → Except StructError Bytes
  | .I, n => packNumber 4 n
  | .Q, n => packNumber 8 n
  | .s n, b => .ok (b.take n ++ List.replicate (n - b.length) 0)

/-- The value of a field. -/
def unpack : (c : Code) → Bytes → c.Value
  | .I, b => (ofBigEndian b : Int)
  | .Q, b => (ofBigEndian b : Int)
  | .s _, b => b

theorem packNumber_of_lt {width : Nat} {n : Int} (hpos : 0 ≤ n) (hlt : n < 256 ^ width) :
  packNumber width n = .ok (bigEndian width n.toNat)
  := if_pos ⟨hpos, hlt⟩

theorem ofNat_ofBigEndian_bigEndian {width : Nat} {n : Int} (hpos : 0 ≤ n)
    (hlt : n < 256 ^ width) :
  (ofBigEndian (bigEndian width n.toNat) : Int) = n
  := by
  have hnat : n.toNat < 256 ^ width := by
    zify
    rwa [Int.toNat_of_nonneg hpos]
  rw [ofBigEndian_bigEndian hnat]
  exact Int.toNat_of_nonneg hpos

theorem packNumber_ofBigEndian (b : Bytes) :
  packNumber b.length (ofBigEndian b : Int) = .ok b
  := by
  have hlt : (ofBigEndian b : Int) < 256 ^ b.length := by
    have h := ofBigEndian_lt b
    zify at h
    exact h
  rw [packNumber_of_lt (Int.natCast_nonneg _) hlt, Int.toNat_natCast, bigEndian_ofBigEndian]

/-- A value that fits is packed to as many bytes as the field has, which unpack to the value. -/
theorem pack_of_fits {c : Code} {v : c.Value} (h : c.Fits v) :
  ∃ b, c.pack v = .ok b ∧ b.length = c.size ∧ c.unpack b = v
  := by
  cases c with
  | I =>
      have hlt : v < 256 ^ 4 := h.2
      exact ⟨_, packNumber_of_lt h.1 hlt, by simp [size], ofNat_ofBigEndian_bigEndian h.1 hlt⟩
  | Q =>
      have hlt : v < 256 ^ 8 := h.2
      exact ⟨_, packNumber_of_lt h.1 hlt, by simp [size], ofNat_ofBigEndian_bigEndian h.1 hlt⟩
  | s n =>
      have hlen : v.length = n := h
      refine ⟨v, ?_, hlen, rfl⟩
      simp [pack, ← hlen]

/-- The value read from the bytes of a field fits, and it is packed to these bytes. -/
theorem pack_unpack {c : Code} {b : Bytes} (h : b.length = c.size) :
  c.pack (c.unpack b) = .ok b
  := by
  cases c with
  | I =>
      have hpack := packNumber_ofBigEndian b
      rwa [h] at hpack
  | Q =>
      have hpack := packNumber_ofBigEndian b
      rwa [h] at hpack
  | s n =>
      have hlen : b.length = n := h
      simp [pack, unpack, ← hlen]

/-- The values that can be packed: numbers that fit, and any byte strings, which are cut or
padded. -/
def InRange : (c : Code) → c.Value → Prop
  | .I, n => Fits .I n
  | .Q, n => Fits .Q n
  | .s _, _ => True

/-- A value is packed just when it is in range. -/
theorem exists_pack_iff {c : Code} {v : c.Value} :
  (∃ b, c.pack v = .ok b) ↔ c.InRange v
  := by
  have hnumber (width : Nat) (n : Int) :
      (∃ b, packNumber width n = .ok b) ↔ 0 ≤ n ∧ n < 256 ^ width := by
    unfold packNumber
    split
    · next h => simp [h]
    · next h => simp [h]
  cases c with
  | I => exact hnumber 4 v
  | Q => exact hnumber 8 v
  | s n => exact ⟨fun _ => trivial, fun _ => ⟨_, rfl⟩⟩

end Code

/-! ### Formats -/

/-- The number of bytes of a format. -/
def size (fmt : List Code) : Nat :=
  (fmt.map Code.size).sum

/-- The tuples of values of a format. -/
@[reducible]
def Values : List Code → Type
  | [] => Unit
  | c :: fmt => c.Value × Values fmt

/-- The tuples whose values all fit. -/
def Fit : (fmt : List Code) → Values fmt → Prop
  | [], _ => True
  | c :: fmt, (v, vs) => c.Fits v ∧ Fit fmt vs

/-- The bytes of a tuple. -/
def pack : (fmt : List Code) → Values fmt → Except StructError Bytes
  | [], _ => .ok []
  | c :: fmt, (v, vs) => do
      let b ← c.pack v
      let bs ← pack fmt vs
      return b ++ bs

/-- The tuples whose values can all be packed. -/
def AllInRange : (fmt : List Code) → Values fmt → Prop
  | [], _ => True
  | c :: fmt, (v, vs) => c.InRange v ∧ AllInRange fmt vs

/-- A tuple is packed just when all its values are in range. -/
theorem exists_pack_iff {fmt : List Code} {vs : Values fmt} :
  (∃ b, pack fmt vs = .ok b) ↔ AllInRange fmt vs
  := by
  induction fmt with
  | nil => exact ⟨fun _ => trivial, fun _ => ⟨[], rfl⟩⟩
  | cons c fmt ih =>
      obtain ⟨v, vs⟩ := vs
      rw [AllInRange, ← Code.exists_pack_iff, ← ih]
      constructor
      · rintro ⟨bytes, hbytes⟩
        rw [pack] at hbytes
        cases hb : c.pack v with
        | error e =>
            rw [hb] at hbytes
            cases hbytes
        | ok b =>
            cases hbs : pack fmt vs with
            | error e =>
                rw [hb, hbs] at hbytes
                cases hbytes
            | ok bs => exact ⟨⟨b, rfl⟩, bs, rfl⟩
      · rintro ⟨⟨b, hb⟩, bs, hbs⟩
        use b ++ bs
        rw [pack, hb, hbs]
        rfl

/-- The values of the fields, each read from the bytes that follow those of the one before. -/
def unpackFields : (fmt : List Code) → Bytes → Values fmt
  | [], _ => ()
  | c :: fmt, b => (c.unpack (b.take c.size), unpackFields fmt (b.drop c.size))

/-- The tuple of a byte string, which must have the size of the format. -/
def unpack (fmt : List Code) (b : Bytes) : Except StructError (Values fmt) :=
  if b.length = size fmt then .ok (unpackFields fmt b) else .error .error

/-- `buffer` with the bytes of a tuple written over it at `offset`. -/
def packInto (fmt : List Code) (buffer : Bytes) (offset : Nat) (vs : Values fmt) :
    Except StructError Bytes :=
  if offset + size fmt ≤ buffer.length then do
    let b ← pack fmt vs
    return buffer.take offset ++ b ++ buffer.drop (offset + size fmt)
  else .error .error

/-- A tuple that cannot be written into a buffer that is large enough. -/
theorem packInto_of_not_inRange {fmt : List Code} {vs : Values fmt} (buffer : Bytes) (offset : Nat)
    (h : ¬ AllInRange fmt vs) :
  packInto fmt buffer offset vs = .error .error
  := by
  rw [← exists_pack_iff] at h
  unfold packInto
  split
  · cases hpack : pack fmt vs with
    | error e => rfl
    | ok b => exact absurd ⟨b, hpack⟩ h
  · rfl

/-- A tuple of values that fit is packed to a byte string of the size of the format, whose
fields are these values. -/
theorem pack_of_fit {fmt : List Code} {vs : Values fmt} (h : Fit fmt vs) :
  ∃ b, pack fmt vs = .ok b ∧ b.length = size fmt ∧ unpackFields fmt b = vs
  := by
  induction fmt with
  | nil => exact ⟨[], rfl, rfl, rfl⟩
  | cons c fmt ih =>
      obtain ⟨v, vs⟩ := vs
      obtain ⟨b, hb, hlen, hv⟩ := Code.pack_of_fits h.1
      obtain ⟨bs, hbs, hlens, hvs⟩ := ih h.2
      refine ⟨b ++ bs, ?_, ?_, ?_⟩
      · rw [pack, hb, hbs]
        rfl
      · simp [size, hlen, hlens]
      · simp [unpackFields, ← hlen, hv, hvs]

/-- Packing the fields of a byte string of the size of the format gives back the bytes. -/
theorem pack_unpackFields {fmt : List Code} {b : Bytes} (h : b.length = size fmt) :
  pack fmt (unpackFields fmt b) = .ok b
  := by
  induction fmt generalizing b with
  | nil =>
      rw [List.eq_nil_of_length_eq_zero h]
      rfl
  | cons c fmt ih =>
      have hlen : b.length = c.size + size fmt := by
        simpa [size] using h
      have hfirst : (b.take c.size).length = c.size := by
        rw [List.length_take]
        omega
      have hrest : (b.drop c.size).length = size fmt := by
        rw [List.length_drop]
        omega
      rw [unpackFields, pack, Code.pack_unpack hfirst, ih hrest]
      exact congrArg _ (List.take_append_drop c.size b)

/-- Writing a tuple that fits over part of a buffer that is large enough. -/
theorem packInto_of_pack {fmt : List Code} {vs : Values fmt} {before middle after b : Bytes}
    (hb : pack fmt vs = .ok b) (hmiddle : middle.length = size fmt) :
  packInto fmt (before ++ middle ++ after) before.length vs = .ok (before ++ b ++ after)
  := by
  rw [packInto, if_pos (by simp [hmiddle]), hb]
  simp [← hmiddle, pure, Except.pure, bind, Except.bind]

end Struct
