import MblCore.Lib.Method
import MblCore.Lib.Struct

/-!
# The HEADER of a firmware update

The class `FirmwareUpdateHeader` of `firmware_update_header_util.py`.  `unpack` sets the
attributes of an object as it reads them, so that an object it refuses the data for may have
changed; it is a computation on the state of the object.  `pack` writes a HEADER for the
attributes of an object.
-/

/-- The bytes of `data` from position `i` up to position `j`. -/
def slice (data : Bytes) (i j : Nat) : Bytes :=
  (data.take j).drop i

/-! ### The checksum of `zlib` -/

/-- One bit of the reflected CRC-32 division. -/
def crcBit (c : UInt32) : UInt32 :=
  if c &&& 1 = 1 then (c >>> 1) ^^^ 0xEDB88320 else c >>> 1

/-- The eight bits of a byte. -/
def crcByte (c : UInt32) (x : UInt8) : UInt32 :=
  crcBit^[8] (c ^^^ x.toUInt32)

/-- `zlib.crc32`. -/
def crc32 (data : Bytes) : UInt32 :=
  data.foldl crcByte 0xFFFFFFFF ^^^ 0xFFFFFFFF

example : crc32 [0x31, 0x32, 0x33, 0x34, 0x35, 0x36, 0x37, 0x38, 0x39] = 0xCBF43926 := by
  decide +kernel

/-- The exceptions of the module: `FormatError`, with its message, and the errors of `struct`. -/
inductive HeaderError
  | formatError (message : String)
  | structError
deriving DecidableEq

/-- The attributes of a `FirmwareUpdateHeader`. -/
structure FirmwareUpdateHeader where
  firmware_version : Int
  firmware_size : Int
  firmware_hash : Bytes
  campaign_id : Bytes
  firmware_signature : Bytes
deriving DecidableEq

namespace FirmwareUpdateHeader

/-- The number of bytes of a SHA-512 hash. -/
def SIZEOF_SHA512 : Nat := 512 / 8

/-- The number of bytes of a SHA-256 hash. -/
def SIZEOF_SHA256 : Nat := 256 / 8

/-- The number of bytes of a GUID. -/
def SIZEOF_GUID : Nat := 128 / 8

/-- The number in the "magic" field of every HEADER. -/
def HEADER_MAGIC : Int := 0x5A51B3D4

/-- The version of the HEADER format. -/
def HEADER_FORMAT_VERSION : Int := 2

/-- The fields of a HEADER up to its CRC. -/
@[reducible]
def HEADER_FORMAT : List Struct.Code :=
  [.I, .I, .Q, .Q, .s SIZEOF_SHA512, .s SIZEOF_GUID, .I]

/-- The CRC field. -/
@[reducible]
def CRC_FORMAT : List Struct.Code :=
  [.I]

/-- The number of bytes in front of the CRC. -/
def header_size : Nat := Struct.size HEADER_FORMAT

/-- The number of bytes of the CRC. -/
def crc_size : Nat := Struct.size CRC_FORMAT

/-- The number of bytes in front of the signature. -/
def header_and_crc_size : Nat := header_size + crc_size

/-- A newly created object. -/
def init : FirmwareUpdateHeader where
  firmware_version := 0
  firmware_size := 0
  firmware_hash := List.replicate SIZEOF_SHA256 0
  campaign_id := List.replicate SIZEOF_GUID 0
  firmware_signature := []

/-- The value of the CRC field for the bytes in front of it. -/
def calculateCrc (header_bytes : Bytes) : Int :=
  ((crc32 header_bytes).toNat &&& 0xFFFFFFFF : Nat)

/-- The hexadecimal digits of a number. -/
def hex (n : Int) : String :=
  String.ofList (Nat.toDigits 16 n.toNat)

/-- An error of `struct` ends the method. -/
def ofStruct {α : Type} {m : Type → Type} [MonadExceptOf HeaderError m] [Pure m] :
    Except Struct.StructError α → m α
  | .ok a => pure a
  | .error _ => throw .structError

/-- `if p: raise e`. -/
def raiseIf {m : Type → Type} [MonadExceptOf HeaderError m] [Pure m] (p : Prop) [Decidable p]
    (e : HeaderError) : m Unit :=
  if p then throw e else pure ()

/-- Set the attributes from a HEADER. -/
def unpack (data : Bytes) : Method HeaderError FirmwareUpdateHeader Unit := do
  raiseIf (data.length < header_and_crc_size)
    (.formatError ("Data is too short (expecting at least " ++ toString header_and_crc_size ++
      "B, received " ++ toString data.length ++ "B)"))
  let (header_magic, header_version, firmware_version, firmware_size, firmware_hash_512,
    campaign_id, firmware_signature_size, ()) ←
      ofStruct (Struct.unpack HEADER_FORMAT (data.take header_size))
  modify fun self => { self with firmware_version, firmware_size, campaign_id }
  -- only the part of the field that holds a SHA-256 hash is used
  modify fun self => { self with firmware_hash := firmware_hash_512.take SIZEOF_SHA256 }
  raiseIf (¬ (firmware_hash_512.drop SIZEOF_SHA256).all (· == 0))
    (.formatError "Invalid sha256 value in firmware_hash field")
  let (header_crc, ()) ←
    ofStruct (Struct.unpack CRC_FORMAT (slice data header_size header_and_crc_size))
  raiseIf (header_magic ≠ HEADER_MAGIC)
    (.formatError ("Invalid header magic value 0x" ++ hex header_magic ++ " (should be 0x" ++
      hex HEADER_MAGIC ++ ")"))
  raiseIf (header_version ≠ HEADER_FORMAT_VERSION)
    (.formatError ("Unsupported header version " ++ toString header_version ++
      ". Version supported: " ++ toString HEADER_FORMAT_VERSION))
  let correct_crc := calculateCrc (data.take header_size)
  raiseIf (header_crc ≠ correct_crc)
    (.formatError ("Invalid header CRC field 0x" ++ hex header_crc ++ " (should be 0x" ++
      hex correct_crc ++ ")"))
  if firmware_signature_size ≠ 0 then do
    let total_size := header_and_crc_size + firmware_signature_size
    raiseIf (data.length < total_size)
      (.formatError ("Data is too short (expecting at least " ++ toString total_size ++
        "B with " ++ toString firmware_signature_size ++ "B for firmware signature; received " ++
        toString data.length ++ "B)"))
    modify fun self =>
      { self with firmware_signature := slice data header_and_crc_size total_size.toNat }

/-- A HEADER for the attributes of an object. -/
def pack (self : FirmwareUpdateHeader) : Except HeaderError Bytes := do
  raiseIf (self.firmware_hash.length ≠ SIZEOF_SHA256)
    (.formatError ("Firmware hash has incorrect size: should be " ++ toString SIZEOF_SHA256 ++
      "B, received " ++ toString self.firmware_hash.length ++ "B"))
  raiseIf (self.campaign_id.length ≠ SIZEOF_GUID)
    (.formatError ("Campaign ID has incorrect size: should be " ++ toString SIZEOF_GUID ++
      "B, received " ++ toString self.campaign_id.length ++ "B"))
  let firmware_hash_512 := List.replicate SIZEOF_SHA512 0
  let firmware_hash_512 := self.firmware_hash ++ firmware_hash_512.drop SIZEOF_SHA256
  let data := List.replicate (header_and_crc_size + self.firmware_signature.length) 0
  let data ← ofStruct (Struct.packInto HEADER_FORMAT data 0
    (HEADER_MAGIC, HEADER_FORMAT_VERSION, self.firmware_version, self.firmware_size,
      firmware_hash_512, self.campaign_id, (self.firmware_signature.length : Int), ()))
  let data ← ofStruct (Struct.packInto CRC_FORMAT data header_size
    (calculateCrc (slice data 0 header_size), ()))
  return data.take header_and_crc_size ++ self.firmware_signature

end FirmwareUpdateHeader
