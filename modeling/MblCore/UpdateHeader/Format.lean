import MblCore.UpdateHeader.FirmwareUpdateHeader

/-!
# The HEADER format

`WellFormed d` says that `d` begins with a HEADER: it is long enough, its magic number, version,
hash and checksum are right, and the signature it announces is there.  `decoded d` are the
attributes such a HEADER stands for.  `unpack` accepts exactly the well-formed byte strings, and
on these `pack` is its inverse in both directions.
-/

namespace FirmwareUpdateHeader

/-- The number in the bytes of `d` from position `i` up to position `j`. -/
def number (d : Bytes) (i j : Nat) : Nat :=
  Struct.ofBigEndian (slice d i j)

/-- The size of the signature that a HEADER announces. -/
def signatureSize (d : Bytes) : Nat :=
  number d 104 108

/-- `d` begins with a HEADER. -/
structure WellFormed (d : Bytes) : Prop where
  long : 112 ≤ d.length
  magic : number d 0 4 = 0x5A51B3D4
  version : number d 4 8 = 2
  padding : ∀ b ∈ slice d 56 88, b = 0
  checksum : number d 108 112 = (crc32 (d.take 108)).toNat
  signature : 112 + signatureSize d ≤ d.length

/-- The attributes that the HEADER at the beginning of `d` stands for. -/
def decoded (d : Bytes) : FirmwareUpdateHeader where
  firmware_version := number d 8 16
  firmware_size := number d 16 24
  firmware_hash := slice d 24 56
  campaign_id := slice d 88 104
  firmware_signature := slice d 112 (112 + signatureSize d)

/-! ### The fields of a HEADER -/

theorem header_size_eq :
  header_size = 108
  := rfl

theorem header_and_crc_size_eq :
  header_and_crc_size = 112
  := rfl

/-- A part of the beginning of a byte string. -/
theorem take_drop_take {d : Bytes} {i n k : Nat} (h : i + n ≤ k) :
  ((d.take k).drop i).take n = slice d i (i + n)
  := by
  rw [slice, List.drop_take, List.drop_take, List.take_take]
  congr 1
  omega

theorem drop_slice (d : Bytes) (i j n : Nat) :
  (slice d i j).drop n = slice d (i + n) j
  := by
  rw [slice, slice, List.drop_drop]

theorem take_slice {d : Bytes} {i j n : Nat} (h : i + n ≤ j) :
  (slice d i j).take n = slice d i (i + n)
  := take_drop_take h

theorem slice_append_slice (d : Bytes) {i j k : Nat} (hij : i ≤ j) (hjk : j ≤ k) :
  slice d i j ++ slice d j k = slice d i k
  := by
  have hjoin := List.take_append_drop (j - i) (slice d i k)
  rw [take_slice (by omega), drop_slice] at hjoin
  rwa [Nat.add_sub_cancel' hij] at hjoin

theorem length_slice {d : Bytes} {i j : Nat} (h : j ≤ d.length) :
  (slice d i j).length = j - i
  := by
  rw [slice, List.length_drop, List.length_take, Nat.min_eq_left h]

/-- The fields in front of the checksum. -/
theorem unpackFields_header (d : Bytes) :
  Struct.unpackFields HEADER_FORMAT (d.take 108)
    = ((number d 0 4 : Int), (number d 4 8 : Int), (number d 8 16 : Int), (number d 16 24 : Int),
        slice d 24 88, slice d 88 104, (signatureSize d : Int), ())
  := by
  have h (i n : Nat) (hk : i + n ≤ 108) := take_drop_take (d := d) hk
  simp only [Struct.unpackFields, Struct.Code.unpack, Struct.Code.size, List.drop_drop,
    SIZEOF_SHA512, SIZEOF_GUID]
  rw [← List.drop_zero (l := d.take 108)]
  simp only [List.drop_drop, h, Nat.reduceLeDiff, Nat.reduceAdd, Nat.reduceDiv]
  rfl

theorem length_header {d : Bytes} (h : 112 ≤ d.length) :
  (d.take header_size).length = Struct.size HEADER_FORMAT
  := by
  rw [List.length_take, ← header_size]
  rw [header_size_eq]
  omega

theorem unpack_header {d : Bytes} (h : 112 ≤ d.length) :
  Struct.unpack HEADER_FORMAT (d.take header_size)
    = .ok ((number d 0 4 : Int), (number d 4 8 : Int), (number d 8 16 : Int),
        (number d 16 24 : Int), slice d 24 88, slice d 88 104, (signatureSize d : Int), ())
  := by
  rw [Struct.unpack, if_pos (length_header h), header_size_eq, unpackFields_header]

theorem unpack_crc {d : Bytes} (h : 112 ≤ d.length) :
  Struct.unpack CRC_FORMAT (slice d header_size header_and_crc_size)
    = .ok ((number d 108 112 : Int), ())
  := by
  have hlen : (slice d 108 112).length = Struct.size CRC_FORMAT := length_slice h
  have htake : (slice d 108 112).take 4 = slice d 108 112 := List.take_of_length_le hlen.le
  rw [header_size_eq, header_and_crc_size_eq, Struct.unpack, if_pos hlen, Struct.unpackFields,
    Struct.Code.unpack, Struct.Code.size, htake]
  rfl

theorem calculateCrc_eq (b : Bytes) :
  calculateCrc b = (crc32 b).toNat
  := by
  have hlt := (crc32 b).toNat_lt
  have hmask : (0xFFFFFFFF : Nat) = 2 ^ 32 - 1 := rfl
  rw [calculateCrc, hmask, Nat.and_two_pow_sub_one_eq_mod, Nat.mod_eq_of_lt hlt]

/-! ### Checks and fields of methods -/

section

variable {β : Type} (self : FirmwareUpdateHeader)

/-- A check that fails raises its exception, and one that succeeds does nothing. -/
theorem call_raiseIf_bind (p : Prop) {_ : Decidable p} (e : HeaderError)
    (f : Unit → Method HeaderError FirmwareUpdateHeader β) :
  (raiseIf p e >>= f).call self = if p then (.error e, self) else (f ()).call self
  := by
  rw [raiseIf]
  split
  · apply Method.call_bind_of_error
    rfl
  · apply Method.call_bind_of_ok
    rfl

/-- An operation of `struct` that succeeds. -/
theorem call_ofStruct_bind {α : Type} (a : α) (f : α → Method HeaderError FirmwareUpdateHeader β) :
  (ofStruct (.ok a) >>= f).call self = (f a).call self
  := by
  apply Method.call_bind_of_ok
  rfl

end

/-! ### What `unpack` accepts -/

/-- The attributes of an object after the fields in front of the checksum were read from `d`. -/
def fieldsRead (d : Bytes) (self : FirmwareUpdateHeader) : FirmwareUpdateHeader :=
  { decoded d with firmware_signature := self.firmware_signature }

/-- `unpack` on any object: data that is too short is refused at once, data that is not well-formed
is refused after the fields were read, and a signature is taken only from data that announces
one. -/
theorem unpack_cases (d : Bytes) (self : FirmwareUpdateHeader) :
  (d.length < 112 ∧ ∃ message, (unpack d).call self = (.error (.formatError message), self))
    ∨ (112 ≤ d.length ∧ ¬ WellFormed d
      ∧ ∃ message, (unpack d).call self = (.error (.formatError message), fieldsRead d self))
    ∨ (WellFormed d ∧ signatureSize d = 0 ∧ (unpack d).call self = (.ok (), fieldsRead d self))
    ∨ (WellFormed d ∧ signatureSize d ≠ 0 ∧ (unpack d).call self = (.ok (), decoded d))
  := by
  rcases lt_or_ge d.length header_and_crc_size with hshort | hlong
  · rw [unpack, call_raiseIf_bind, if_pos hshort]
    exact Or.inl ⟨hshort, _, rfl⟩
  · right
    have hrefused {message : String} (h : ¬ WellFormed d) :
        (112 ≤ d.length ∧ ¬ WellFormed d
          ∧ ∃ message', ((.error (.formatError message) : Except HeaderError Unit),
            fieldsRead d self) = (.error (.formatError message'), fieldsRead d self)) :=
      ⟨hlong, h, message, rfl⟩
    simp only [unpack, call_raiseIf_bind, call_ofStruct_bind,
      Method.call_modify_bind, unpack_header hlong, unpack_crc hlong, take_slice, drop_slice,
      SIZEOF_SHA256, Nat.reduceDiv, Nat.reduceAdd, Nat.reduceLeDiff, calculateCrc_eq,
      if_neg (Nat.not_lt.mpr hlong)]
    split
    · next hpadding =>
        left
        apply hrefused
        intro h
        apply hpadding
        simpa using h.padding
    split
    · next hmagic =>
        left
        apply hrefused
        intro h
        apply hmagic
        rw [h.magic]
        rfl
    split
    · next hversion =>
        left
        apply hrefused
        intro h
        apply hversion
        rw [h.version]
        rfl
    split
    · next hchecksum =>
        left
        apply hrefused
        intro h
        exact hchecksum (congrArg _ h.checksum)
    next hpadding hmagic hversion hchecksum =>
    rw [not_not] at hmagic hversion hchecksum
    rw [header_size_eq] at hchecksum
    rw [header_and_crc_size_eq] at hlong ⊢
    have hformat (hsignature : 112 + signatureSize d ≤ d.length) : WellFormed d := {
      long := hlong
      magic := Int.ofNat_inj.mp hmagic
      version := Int.ofNat_inj.mp hversion
      padding := by simpa using hpadding
      checksum := Int.ofNat_inj.mp hchecksum
      signature := hsignature }
    split
    · next hsize =>
        rw [call_raiseIf_bind]
        split
        · next hshort =>
            have hshort : (d.length : Int) < 112 + (signatureSize d : Int) := hshort
            left
            apply hrefused
            intro h
            have hsignature := h.signature
            omega
        · next hlong =>
            have hlong : ¬ (d.length : Int) < 112 + (signatureSize d : Int) := hlong
            have hsize : signatureSize d ≠ 0 := fun h => hsize (congrArg _ h)
            exact Or.inr (Or.inr ⟨hformat (by omega), hsize, rfl⟩)
    · next hempty =>
        have hsize : signatureSize d = 0 := Int.ofNat_inj.mp (not_not.mp hempty)
        exact Or.inr (Or.inl ⟨hformat (by omega), hsize, rfl⟩)

theorem wellFormed_of_call {d : Bytes} {self : FirmwareUpdateHeader}
    (h : ((unpack d).call self).1 = .ok ()) :
  WellFormed d
  := by
  rcases unpack_cases d self with ⟨-, message, hcall⟩ | ⟨-, -, message, hcall⟩ | ⟨hformat, -⟩
    | ⟨hformat, -⟩
  · simp [hcall] at h
  · simp [hcall] at h
  · exact hformat
  · exact hformat

/-- The right result `r` for `d`: the attributes of a HEADER, and a `FormatError` for other
data. -/
def Decides (d : Bytes) (r : Except HeaderError Unit × FirmwareUpdateHeader) : Prop :=
  (WellFormed d ∧ r = (.ok (), decoded d)) ∨
    (¬ WellFormed d ∧ ∃ message, r.1 = .error (.formatError message))

/-- `unpack` refuses data that is not well-formed, and takes the attributes from data that is. -/
theorem decides_unpack (d : Bytes) :
  Decides d ((unpack d).call init)
  := by
  rcases unpack_cases d init with ⟨hshort, message, hcall⟩ | ⟨-, hno, message, hcall⟩
    | ⟨hformat, hsize, hcall⟩ | ⟨hformat, -, hcall⟩
  · rw [hcall]
    refine .inr ⟨fun h => ?_, message, rfl⟩
    exact absurd h.long (Nat.not_le.mpr hshort)
  · rw [hcall]
    exact .inr ⟨hno, message, rfl⟩
  · rw [hcall]
    refine .inl ⟨hformat, ?_⟩
    have hnone : slice d 112 (112 + signatureSize d) = [] := by
      rw [hsize, slice, Nat.add_zero, List.drop_take_self]
    rw [fieldsRead, decoded, hnone]
    rfl
  · rw [hcall]
    exact .inl ⟨hformat, rfl⟩

/-! ### What `pack` writes -/

/-- The attributes that a HEADER can hold. -/
structure Packable (h : FirmwareUpdateHeader) : Prop where
  version : 0 ≤ h.firmware_version ∧ h.firmware_version < 2 ^ 64
  size : 0 ≤ h.firmware_size ∧ h.firmware_size < 2 ^ 64
  hash : h.firmware_hash.length = 32
  campaign : h.campaign_id.length = 16
  signature : h.firmware_signature.length < 2 ^ 32

/-- The fields of the HEADER for the attributes `h`. -/
def fields (h : FirmwareUpdateHeader) : Struct.Values HEADER_FORMAT :=
  (HEADER_MAGIC, HEADER_FORMAT_VERSION, h.firmware_version, h.firmware_size,
    h.firmware_hash ++ List.replicate 32 0, h.campaign_id, (h.firmware_signature.length : Int), ())

theorem fit_fields {h : FirmwareUpdateHeader} (hh : Packable h) :
  Struct.Fit HEADER_FORMAT (fields h)
  := by
  have hmagic : Struct.Code.I.Fits HEADER_MAGIC := by
    constructor <;> decide
  have hversion : Struct.Code.I.Fits HEADER_FORMAT_VERSION := by
    constructor <;> decide
  have hsignature : Struct.Code.I.Fits h.firmware_signature.length := by
    have hlt := hh.signature
    zify at hlt
    exact ⟨Int.natCast_nonneg _, hlt⟩
  have hhash : (Struct.Code.s SIZEOF_SHA512).Fits (h.firmware_hash ++ List.replicate 32 0) := by
    rw [Struct.Code.Fits, List.length_append, hh.hash]
    rfl
  exact ⟨hmagic, hversion, hh.version, hh.size, hhash, hh.campaign, hsignature, trivial⟩

theorem fit_crc (b : Bytes) :
  Struct.Fit CRC_FORMAT (calculateCrc b, ())
  := by
  have hlt := (crc32 b).toNat_lt
  zify at hlt
  rw [calculateCrc_eq]
  exact ⟨⟨Int.natCast_nonneg _, hlt⟩, trivial⟩

/-- A check that succeeds does nothing. -/
theorem raiseIf_bind_of_not {p : Prop} {_ : Decidable p} {e : HeaderError} {α : Type}
    {f : Unit → Except HeaderError α} (h : ¬ p) :
  raiseIf p e >>= f = f ()
  := by
  rw [raiseIf, if_neg h]
  rfl

theorem ofStruct_ok_bind {α β : Type} (a : α) (f : α → Except HeaderError β) :
  ofStruct (.ok a) >>= f = f a
  := rfl

/-- `pack` writes the fields, their checksum and the signature. -/
theorem pack_eq {h : FirmwareUpdateHeader} {header crc : Bytes}
    (hhash : h.firmware_hash.length = SIZEOF_SHA256) (hcampaign : h.campaign_id.length = SIZEOF_GUID)
    (hheader : Struct.pack HEADER_FORMAT (fields h) = .ok header) (hlen : header.length = 108)
    (hcrc : Struct.pack CRC_FORMAT (calculateCrc header, ()) = .ok crc) (hcrclen : crc.length = 4) :
  pack h = .ok (header ++ crc ++ h.firmware_signature)
  := by
  let n := h.firmware_signature.length
  have hzeros : List.replicate (header_and_crc_size + n) (0 : UInt8)
      = [] ++ List.replicate 108 0 ++ (List.replicate 4 0 ++ List.replicate n 0) := by
    rw [List.nil_append, ← List.append_assoc, List.replicate_append_replicate,
      List.replicate_append_replicate]
    rfl
  have hfirst : Struct.packInto HEADER_FORMAT (List.replicate (header_and_crc_size + n) 0) 0
      (fields h) = .ok (header ++ List.replicate 4 0 ++ List.replicate n 0) := by
    rw [hzeros, List.append_assoc header]
    apply Struct.packInto_of_pack hheader
    rfl
  have hsecond : Struct.packInto CRC_FORMAT
      (header ++ List.replicate 4 0 ++ List.replicate n 0) header_size (calculateCrc header, ())
      = .ok (header ++ crc ++ List.replicate n 0) := by
    rw [header_size_eq, ← hlen]
    apply Struct.packInto_of_pack hcrc
    rfl
  have hcovered : slice (header ++ List.replicate 4 0 ++ List.replicate n 0) 0 header_size
      = header := by
    rw [slice, List.drop_zero, List.append_assoc, header_size_eq, ← hlen, List.take_left]
  have hkept : (header ++ crc ++ List.replicate n 0).take header_and_crc_size = header ++ crc := by
    rw [header_and_crc_size_eq]
    apply List.take_left'
    rw [List.length_append, hlen, hcrclen]
  rw [pack, raiseIf_bind_of_not (not_not.mpr hhash), raiseIf_bind_of_not (not_not.mpr hcampaign)]
  change (ofStruct (Struct.packInto HEADER_FORMAT _ 0 (fields h)) >>= _) = _
  rw [hfirst, ofStruct_ok_bind, hcovered, hsecond, ofStruct_ok_bind, hkept]
  rfl

/-! ### Decoding what was encoded -/

/-- The bytes of a HEADER for attributes that a HEADER can hold. -/
theorem exists_pack {h : FirmwareUpdateHeader} (hh : Packable h) :
  ∃ header crc, pack h = .ok (header ++ crc ++ h.firmware_signature) ∧
    header.length = 108 ∧ crc.length = 4 ∧
    Struct.unpackFields HEADER_FORMAT header = fields h ∧
    Struct.ofBigEndian crc = (crc32 header).toNat
  := by
  obtain ⟨header, hheader, hlen, hfields⟩ := Struct.pack_of_fit (fit_fields hh)
  obtain ⟨crc, hcrc, hcrclen, hvalue⟩ := Struct.pack_of_fit (fit_crc header)
  refine ⟨header, crc, pack_eq hh.hash hh.campaign hheader hlen hcrc hcrclen, hlen, hcrclen,
    hfields, ?_⟩
  have hcrcvalue : (Struct.ofBigEndian (crc.take 4) : Int) = calculateCrc header :=
    congrArg Prod.fst hvalue
  have htake : crc.take 4 = crc := List.take_of_length_le hcrclen.le
  rw [htake, calculateCrc_eq] at hcrcvalue
  exact Int.ofNat_inj.mp hcrcvalue

/-- A HEADER, followed by its signature and any bytes, is well-formed and stands for its
attributes. -/
theorem wellFormed_pack {h : FirmwareUpdateHeader} {header crc : Bytes} (t : Bytes)
    (hh : Packable h) (hlen : header.length = 108) (hcrclen : crc.length = 4)
    (hfields : Struct.unpackFields HEADER_FORMAT header = fields h)
    (hcrc : Struct.ofBigEndian crc = (crc32 header).toNat) :
  WellFormed (header ++ crc ++ h.firmware_signature ++ t) ∧
    decoded (header ++ crc ++ h.firmware_signature ++ t) = h
  := by
  set d := header ++ crc ++ h.firmware_signature ++ t with hd
  have hheader : d.take 108 = header := by
    rw [hd, List.append_assoc, List.append_assoc, ← hlen, List.take_left]
  have hchecksum : slice d 108 112 = crc := by
    have htake : d.take 112 = header ++ crc := by
      rw [hd, List.append_assoc]
      apply List.take_left'
      rw [List.length_append, hlen, hcrclen]
    rw [slice, htake, ← hlen, List.drop_left]
  have hlong : 112 + h.firmware_signature.length ≤ d.length := by
    simp only [hd, List.length_append]
    omega
  have hsignature : slice d 112 (112 + h.firmware_signature.length) = h.firmware_signature := by
    have hfront : (header ++ crc).length = 112 := by
      rw [List.length_append, hlen, hcrclen]
    rw [slice, hd]
    rw [List.take_left' (by rw [List.length_append, hfront]), ← hfront, List.drop_left]
  have hvalues := unpackFields_header d
  rw [hheader, hfields] at hvalues
  simp only [fields, Prod.mk.injEq] at hvalues
  obtain ⟨hmagic, hversion, hfirmware, hsize, hhash, hcampaign, hsignatureSize, -⟩ := hvalues
  have hsignatureSize : signatureSize d = h.firmware_signature.length :=
    (Int.ofNat_inj.mp hsignatureSize).symm
  constructor
  · refine ⟨by omega, ?_, ?_, ?_, ?_, by omega⟩
    · exact (Int.ofNat_inj.mp hmagic).symm
    · exact (Int.ofNat_inj.mp hversion).symm
    · intro b hb
      rw [← drop_slice d 24 88 32, ← hhash, List.drop_left' hh.hash] at hb
      exact List.eq_of_mem_replicate hb
    · rw [number, hchecksum, hheader, hcrc]
  · rw [decoded, ← hfirmware, ← hsize, ← hcampaign, hsignatureSize, hsignature]
    rw [← take_slice (d := d) (i := 24) (j := 88) (n := 32) (by decide), ← hhash,
      List.take_left' hh.hash]

/-- Decoding a HEADER that was encoded, followed by any bytes, succeeds and gives back the
attributes. -/
theorem unpack_pack {h : FirmwareUpdateHeader} (hh : Packable h) (t : Bytes) :
  ∃ blob, pack h = .ok blob ∧ (unpack (blob ++ t)).call init = (.ok (), h)
  := by
  obtain ⟨header, crc, hpack, hlen, hcrclen, hfields, hcrc⟩ := exists_pack hh
  obtain ⟨hformat, hdecoded⟩ := wellFormed_pack t hh hlen hcrclen hfields hcrc
  use header ++ crc ++ h.firmware_signature
  constructor
  · exact hpack
  · rcases decides_unpack (header ++ crc ++ h.firmware_signature ++ t) with ⟨_, hr⟩ | ⟨hno, _⟩
    · rw [hr, hdecoded]
    · contradiction

/-- The attributes of a signed update. -/
def signedUpdate : FirmwareUpdateHeader where
  firmware_version := 1555000000
  firmware_size := 2 ^ 64 - 1
  firmware_hash := List.replicate 32 0xAB
  campaign_id := List.replicate 16 7
  firmware_signature := [0x30, 0x45]

theorem unpack_pack_signedUpdate :
  ∃ blob, pack signedUpdate = .ok blob ∧
    (unpack (blob ++ [0xFF])).call init = (.ok (), signedUpdate)
  := by
  apply unpack_pack
  exact ⟨by decide, by decide, rfl, rfl, by decide⟩

/-! ### Encoding what was decoded -/

theorem length_signature {d : Bytes} (h : WellFormed d) :
  (decoded d).firmware_signature.length = signatureSize d
  := by
  have hlen := length_slice (i := 112) h.signature
  rw [decoded, hlen]
  omega

/-- A new object writes a HEADER without a signature. -/
theorem exists_unsigned :
  ∃ blob, pack init = .ok blob ∧ WellFormed blob ∧ signatureSize blob = 0
  := by
  have hinit : Packable init := ⟨by decide, by decide, rfl, rfl, by decide⟩
  obtain ⟨header, crc, hpack, hlen, hcrclen, hfields, hcrc⟩ := exists_pack hinit
  obtain ⟨hformat, hdecoded⟩ := wellFormed_pack [] hinit hlen hcrclen hfields hcrc
  rw [List.append_nil] at hformat hdecoded
  use header ++ crc ++ init.firmware_signature, hpack, hformat
  rw [← length_signature hformat, hdecoded]
  rfl

/-- The fields of a well-formed HEADER are determined by its attributes. -/
theorem fields_decoded {d : Bytes} (h : WellFormed d) :
  fields (decoded d) = Struct.unpackFields HEADER_FORMAT (d.take 108)
  := by
  have hlong := h.long
  have hsize := length_signature h
  have hpadding : slice d 56 88 = List.replicate 32 0 := by
    apply List.eq_replicate_iff.mpr
    constructor
    · rw [length_slice (by omega)]
    · exact h.padding
  have hhash : (decoded d).firmware_hash ++ List.replicate 32 0 = slice d 24 88 := by
    rw [← hpadding]
    exact slice_append_slice d (by decide) (by decide)
  rw [unpackFields_header, h.magic, h.version, fields, hhash, hsize]
  rfl

/-- Encoding the attributes of a well-formed HEADER gives back its bytes. -/
theorem pack_decoded {d : Bytes} (h : WellFormed d) :
  pack (decoded d) = .ok (d.take (112 + signatureSize d))
  := by
  have hlong := h.long
  have hlen : (d.take 108).length = 108 := by
    rw [List.length_take]
    omega
  have hcrclen : (slice d 108 112).length = 4 := length_slice hlong
  have hheader : Struct.pack HEADER_FORMAT (fields (decoded d)) = .ok (d.take 108) := by
    rw [fields_decoded h]
    exact Struct.pack_unpackFields hlen
  have hcrc : Struct.pack CRC_FORMAT (calculateCrc (d.take 108), ()) = .ok (slice d 108 112) := by
    have hvalue : Struct.unpackFields CRC_FORMAT (slice d 108 112)
        = (calculateCrc (d.take 108), ()) := by
      have htake : (slice d 108 112).take 4 = slice d 108 112 := List.take_of_length_le hcrclen.le
      rw [calculateCrc_eq, ← h.checksum, Struct.unpackFields, Struct.Code.size, htake]
      rfl
    rw [← hvalue]
    exact Struct.pack_unpackFields hcrclen
  have hhash : (decoded d).firmware_hash.length = SIZEOF_SHA256 := length_slice (by omega)
  have hcampaign : (decoded d).campaign_id.length = SIZEOF_GUID := length_slice (by omega)
  have hjoin : d.take 108 ++ slice d 108 112 ++ slice d 112 (112 + signatureSize d)
      = d.take (112 + signatureSize d) := by
    have hfirst := slice_append_slice d (Nat.zero_le 108) (by decide : 108 ≤ 112)
    have hsecond := slice_append_slice d (Nat.zero_le 112) (Nat.le_add_right 112 (signatureSize d))
    rw [← hfirst] at hsecond
    exact hsecond
  rw [pack_eq hhash hcampaign hheader hlen hcrc hcrclen]
  exact congrArg _ hjoin

/-- `unpack` accepts exactly the HEADER format, refuses everything else with a `FormatError`, and
`pack` gives back the bytes of what it accepts. -/
theorem unpack_canonical (d : Bytes) :
  (((unpack d).call init).1 = .ok () ↔ WellFormed d) ∧
    (¬ WellFormed d → ∃ message, ((unpack d).call init).1 = .error (.formatError message)) ∧
    (((unpack d).call init).1 = .ok () →
      pack ((unpack d).call init).2 = .ok (d.take (112 + signatureSize d)))
  := by
  rcases decides_unpack d with ⟨hformat, hr⟩ | ⟨hno, message, hr⟩
  · rw [hr]
    refine ⟨by simpa using hformat, fun hno => absurd hformat hno, fun _ => pack_decoded hformat⟩
  · rw [hr]
    refine ⟨by simpa using hno, fun _ => ⟨message, rfl⟩, fun h => by simp at h⟩

end FirmwareUpdateHeader
