import MblCore.UpdateHeader.Format

/-!
# Objects that are used again

`unpack` on an object that has held another HEADER.  An object keeps its signature when the data
announces none, and data that is refused leaves what was read from it in the object.
-/

namespace FirmwareUpdateHeader

variable {d : Bytes}

/-! ### Data that is accepted -/

/-- If two objects accept the data, they have the same attributes afterwards and write the same
HEADER. -/
def DependsOnlyOnInput (d : Bytes) (self₁ self₂ : FirmwareUpdateHeader) : Prop :=
  ((unpack d).call self₁).1 = .ok () → ((unpack d).call self₂).1 = .ok () →
    ((unpack d).call self₁).2 = ((unpack d).call self₂).2
      ∧ pack ((unpack d).call self₁).2 = pack ((unpack d).call self₂).2

/-- What an object holds after it has accepted the data. -/
def accepted (d : Bytes) (self : FirmwareUpdateHeader) : FirmwareUpdateHeader :=
  if signatureSize d = 0 then fieldsRead d self else decoded d

/-- Whether data is accepted does not depend on the object. -/
theorem call_unpack_of_wellFormed (h : WellFormed d) (self : FirmwareUpdateHeader) :
  (unpack d).call self = (.ok (), accepted d self)
  := by
  rcases unpack_cases d self with ⟨hshort, -⟩ | ⟨-, hno, -⟩ | ⟨-, hsize, hcall⟩ | ⟨-, hsize, hcall⟩
  · exact absurd h.long (Nat.not_le.mpr hshort)
  · contradiction
  · rw [hcall, accepted, if_pos hsize]
  · rw [hcall, accepted, if_neg hsize]

/-- Two objects hold the same after they have accepted the data, just when the data announces a
signature or they held the same one before. -/
theorem accepted_eq_iff {self₁ self₂ : FirmwareUpdateHeader} :
  accepted d self₁ = accepted d self₂
    ↔ signatureSize d ≠ 0 ∨ self₁.firmware_signature = self₂.firmware_signature
  := by
  unfold accepted
  split
  · rename_i hsize
    simp [fieldsRead, hsize]
  · rename_i hsize
    simp [hsize]

/-- The result of `unpack` depends on the data alone, just when the data is not a HEADER without a
signature, or the objects held the same signature before. -/
theorem dependsOnlyOnInput_iff (d : Bytes) (self₁ self₂ : FirmwareUpdateHeader) :
  DependsOnlyOnInput d self₁ self₂ ↔
    (WellFormed d → signatureSize d ≠ 0 ∨ self₁.firmware_signature = self₂.firmware_signature)
  := by
  constructor
  · intro h hformat
    have hcalls := h (by rw [call_unpack_of_wellFormed hformat])
      (by rw [call_unpack_of_wellFormed hformat])
    rw [call_unpack_of_wellFormed hformat, call_unpack_of_wellFormed hformat] at hcalls
    exact accepted_eq_iff.mp hcalls.1
  · intro h hfirst _
    have hformat := wellFormed_of_call hfirst
    have hsame := accepted_eq_iff.mpr (h hformat)
    rw [call_unpack_of_wellFormed hformat, call_unpack_of_wellFormed hformat]
    exact ⟨hsame, congrArg pack hsame⟩

/-- A new object, and one that has held a signature, accept the HEADER of a new object. -/
theorem not_dependsOnlyOnInput_reused :
  ∃ blob, pack init = .ok blob ∧ WellFormed blob
    ∧ ¬ DependsOnlyOnInput blob init { init with firmware_signature := [1] }
  := by
  obtain ⟨blob, hpack, hformat, hsize⟩ := exists_unsigned
  use blob, hpack, hformat
  intro h
  have hcalls := h (by rw [call_unpack_of_wellFormed hformat])
    (by rw [call_unpack_of_wellFormed hformat])
  rw [call_unpack_of_wellFormed hformat, call_unpack_of_wellFormed hformat] at hcalls
  rcases accepted_eq_iff.mp hcalls.1 with hsigned | hsignature
  · exact hsigned hsize
  · simp [init] at hsignature

/-! ### Data that is refused -/

/-- If an object refuses the data, its attributes are what they were. -/
def RefusalKeeps (d : Bytes) (self : FirmwareUpdateHeader) : Prop :=
  ∀ message, ((unpack d).call self).1 = .error (.formatError message) →
    ((unpack d).call self).2 = self

/-- The object holds what the fields of the data stand for. -/
def HoldsFields (d : Bytes) (self : FirmwareUpdateHeader) : Prop :=
  self.firmware_version = number d 8 16 ∧ self.firmware_size = number d 16 24
    ∧ self.firmware_hash = slice d 24 56 ∧ self.campaign_id = slice d 88 104

theorem fieldsRead_eq_self_iff {self : FirmwareUpdateHeader} :
  fieldsRead d self = self ↔ HoldsFields d self
  := by
  obtain ⟨version, size, hash, campaign, signature⟩ := self
  simp only [fieldsRead, decoded, HoldsFields, FirmwareUpdateHeader.mk.injEq, and_true]
  constructor
  · rintro ⟨hversion, hsize, hhash, hcampaign⟩
    exact ⟨hversion.symm, hsize.symm, hhash.symm, hcampaign.symm⟩
  · rintro ⟨hversion, hsize, hhash, hcampaign⟩
    exact ⟨hversion.symm, hsize.symm, hhash.symm, hcampaign.symm⟩

/-- A refusal leaves the object as it was, just when the data is not refused, or is too short to be
read, or holds in its fields what the object holds. -/
theorem refusalKeeps_iff (d : Bytes) (self : FirmwareUpdateHeader) :
  RefusalKeeps d self ↔ WellFormed d ∨ d.length < 112 ∨ HoldsFields d self
  := by
  constructor
  · intro h
    rcases unpack_cases d self with ⟨hshort, -⟩ | ⟨-, -, message, hcall⟩ | ⟨hformat, -⟩
      | ⟨hformat, -⟩
    · exact Or.inr (Or.inl hshort)
    · have hkept := h message (by rw [hcall])
      rw [hcall] at hkept
      exact Or.inr (Or.inr (fieldsRead_eq_self_iff.mp hkept))
    · exact Or.inl hformat
    · exact Or.inl hformat
  · intro h message hrefused
    rcases unpack_cases d self with ⟨-, message', hcall⟩ | ⟨hlong, hno, message', hcall⟩
      | ⟨-, -, hcall⟩ | ⟨-, -, hcall⟩
    · rw [hcall]
    · rw [hcall]
      rcases h with hformat | hshort | hsame
      · contradiction
      · exact absurd hlong (Nat.not_le.mpr hshort)
      · exact fieldsRead_eq_self_iff.mpr hsame
    · simp [hcall] at hrefused
    · simp [hcall] at hrefused

/-- A string of zeros but for the last byte of the version number. -/
def versionOne : Bytes :=
  List.replicate 15 0 ++ [1] ++ List.replicate 96 0

/-- A new object refuses the data, and holds its version number afterwards. -/
theorem not_refusalKeeps_versionOne :
  ¬ RefusalKeeps versionOne init
  := by
  have hlong : 112 ≤ versionOne.length := by decide
  intro h
  rcases unpack_cases versionOne init with ⟨hshort, -⟩ | ⟨-, -, message, hcall⟩ | ⟨hformat, -⟩
    | ⟨hformat, -⟩
  · exact absurd hlong (Nat.not_le.mpr hshort)
  · have hkept := h message (by rw [hcall])
    rw [hcall] at hkept
    have hversion := (fieldsRead_eq_self_iff.mp hkept).1
    exact absurd hversion (by decide)
  · exact absurd hformat.magic (by decide)
  · exact absurd hformat.magic (by decide)

end FirmwareUpdateHeader
