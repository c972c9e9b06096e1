import MblCore.UpdateHeader.Format

/-!
# What `pack` makes of an object

The attributes of an object can be set to anything.  `pack` refuses the lengths it checks with a
`FormatError`, numbers that have no room in their fields with an error of `struct`, and nothing
else.  Nothing is cut off or padded on the way: a HEADER that is written stands for the attributes
it was written for.
-/

namespace FirmwareUpdateHeader

variable {self : FirmwareUpdateHeader}

/-- The hash and the campaign have the lengths that `pack` checks. -/
def HasSizes (self : FirmwareUpdateHeader) : Prop :=
  self.firmware_hash.length = SIZEOF_SHA256 ∧ self.campaign_id.length = SIZEOF_GUID

/-- There is room for the numbers in their fields. -/
structure HasRoom (header : FirmwareUpdateHeader) : Prop where
  version : 0 ≤ header.firmware_version ∧ header.firmware_version < 2 ^ 64
  size : 0 ≤ header.firmware_size ∧ header.firmware_size < 2 ^ 64
  signature : header.firmware_signature.length < 2 ^ 32

theorem packable_iff :
  Packable self ↔ HasSizes self ∧ HasRoom self
  := by
  constructor
  · intro hh
    exact ⟨⟨hh.hash, hh.campaign⟩, hh.version, hh.size, hh.signature⟩
  · rintro ⟨⟨hhash, hcampaign⟩, hroom⟩
    obtain ⟨hversion, hsize, hsignature⟩ := hroom
    exact ⟨hversion, hsize, hhash, hcampaign, hsignature⟩

/-- The fields of the HEADER can be packed just when there is room for the numbers. -/
theorem allInRange_fields :
  Struct.AllInRange HEADER_FORMAT (fields self) ↔ HasRoom self
  := by
  have hmagic : Struct.Code.I.InRange HEADER_MAGIC := by
    constructor <;> decide
  have hversion : Struct.Code.I.InRange HEADER_FORMAT_VERSION := by
    constructor <;> decide
  have hsignature :
      Struct.Code.I.InRange (self.firmware_signature.length : Int) ↔
        self.firmware_signature.length < 2 ^ 32 := by
    constructor
    · rintro ⟨-, hlt⟩
      zify
      exact hlt
    · intro hlt
      zify at hlt
      exact ⟨Int.natCast_nonneg _, hlt⟩
  constructor
  · rintro ⟨-, -, hfirmware, hsize, -, -, hlength, -⟩
    exact ⟨hfirmware, hsize, hsignature.mp hlength⟩
  · rintro ⟨hfirmware, hsize, hlength⟩
    exact ⟨hmagic, hversion, hfirmware, hsize, trivial, trivial, hsignature.mpr hlength, trivial⟩

theorem raiseIf_bind_of {p : Prop} {_ : Decidable p} {e : HeaderError} {α : Type}
    {f : Unit → Except HeaderError α} (hp : p) :
  raiseIf p e >>= f = .error e
  := by
  rw [raiseIf, if_pos hp]
  rfl

/-- A hash or a campaign of a wrong length. -/
theorem pack_of_not_hasSizes (h : ¬ HasSizes self) :
  ∃ message, pack self = .error (.formatError message)
  := by
  by_cases hhash : self.firmware_hash.length = SIZEOF_SHA256
  · have hcampaign : self.campaign_id.length ≠ SIZEOF_GUID := fun hlength => h ⟨hhash, hlength⟩
    rw [pack, raiseIf_bind_of_not (not_not.mpr hhash), raiseIf_bind_of hcampaign]
    exact ⟨_, rfl⟩
  · rw [pack, raiseIf_bind_of hhash]
    exact ⟨_, rfl⟩

/-- A number without room. -/
theorem pack_of_not_hasRoom (hsizes : HasSizes self) (h : ¬ HasRoom self) :
  pack self = .error .structError
  := by
  obtain ⟨hhash, hcampaign⟩ := hsizes
  rw [pack, raiseIf_bind_of_not (not_not.mpr hhash), raiseIf_bind_of_not (not_not.mpr hcampaign)]
  change (ofStruct (Struct.packInto HEADER_FORMAT _ 0 (fields self)) >>= _) = _
  rw [Struct.packInto_of_not_inRange _ _ (mt allInRange_fields.mp h)]
  rfl

/-- What is written is read back by a new object. -/
theorem exists_pack_unpack (hsizes : HasSizes self) (hroom : HasRoom self) :
  ∃ blob, pack self = .ok blob ∧ (unpack blob).call init = (.ok (), self)
  := by
  have hpackable := packable_iff.mpr ⟨hsizes, hroom⟩
  obtain ⟨header, crc, hpack, hlen, hcrclen, hfields, hcrc⟩ := exists_pack hpackable
  obtain ⟨hformat, hdecoded⟩ := wellFormed_pack [] hpackable hlen hcrclen hfields hcrc
  rw [List.append_nil] at hformat hdecoded
  use header ++ crc ++ self.firmware_signature, hpack
  rcases decides_unpack (header ++ crc ++ self.firmware_signature) with ⟨_, hcall⟩ | ⟨hno, _⟩
  · rw [hcall, hdecoded]
  · contradiction

/-- Whatever was written is read back by a new object. -/
theorem unpack_of_pack {blob : Bytes} (h : pack self = .ok blob) :
  (unpack blob).call init = (.ok (), self)
  := by
  by_cases hsizes : HasSizes self
  · by_cases hroom : HasRoom self
    · obtain ⟨blob', hpack, hunpack⟩ := exists_pack_unpack hsizes hroom
      rw [h] at hpack
      obtain rfl := Except.ok.inj hpack
      exact hunpack
    · rw [pack_of_not_hasRoom hsizes hroom] at h
      contradiction
  · obtain ⟨message, hpack⟩ := pack_of_not_hasSizes hsizes
    rw [hpack] at h
    contradiction

/-- What is right about the result of `pack`. -/
def PacksRight (self : FirmwareUpdateHeader) : Except HeaderError Bytes → Prop
  | .ok blob => HasSizes self ∧ HasRoom self ∧ (unpack blob).call init = (.ok (), self)
  | .error (.formatError _) => ¬ HasSizes self
  | .error .structError => HasSizes self ∧ ¬ HasRoom self

/-- Whatever the attributes of an object are: `pack` writes a HEADER that is read back as these
attributes just when the hash and the campaign have their sizes and there is room for the numbers;
it raises a `FormatError` just when they do not have their sizes, and an error of `struct` just
when they have and there is no room. -/
theorem packsRight_pack (self : FirmwareUpdateHeader) :
  PacksRight self (pack self)
  := by
  by_cases hsizes : HasSizes self
  · by_cases hroom : HasRoom self
    · obtain ⟨blob, hpack, hunpack⟩ := exists_pack_unpack hsizes hroom
      rw [hpack]
      exact ⟨hsizes, hroom, hunpack⟩
    · rw [pack_of_not_hasRoom hsizes hroom]
      exact ⟨hsizes, hroom⟩
  · obtain ⟨message, hpack⟩ := pack_of_not_hasSizes hsizes
    rw [hpack]
    exact hsizes

end FirmwareUpdateHeader
