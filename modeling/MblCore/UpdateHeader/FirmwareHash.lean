import MblCore.Lib.Sha256
import MblCore.UpdateHeader.FirmwareUpdateHeader

/-!
# The hash of a firmware payload

`calculate_firmware_hash` reads a payload into one buffer over and over, and gives what has been read
to a hasher of `hashlib`.
-/

namespace FirmwareHash

open BlockHash

/-- The size of the buffer. -/
def BUFFER_SIZE : ℕ := 1024 * 128

/-- What a read delivers: a byte at least, and no more than the buffer holds. -/
abbrev Delivery :=
  { bytes : Bytes // 0 < bytes.length ∧ bytes.length ≤ BUFFER_SIZE }

/-- What a stream delivers, read by read, until there is nothing left. -/
abbrev FirmwareStream :=
  List Delivery

/-- `readinto`: the number of bytes that have been read, the buffer with them over its start, and
the rest of the stream. -/
def readinto (buffer : Bytes) : FirmwareStream → ℕ × Bytes × FirmwareStream
  | [] => (0, buffer, [])
  | bytes :: stream => (bytes.val.length, bytes.val ++ buffer.drop bytes.val.length, stream)

/-- The buffer keeps its size. -/
theorem length_readinto {buffer : Bytes} (h : buffer.length = BUFFER_SIZE) (stream : FirmwareStream) :
  (readinto buffer stream).2.1.length = BUFFER_SIZE
  := by
  cases stream with
  | nil => exact h
  | cons bytes stream =>
      have hle := bytes.property.2
      rw [readinto, List.length_append, List.length_drop, h]
      omega

/-- The bytes that are new in the buffer are those that have been delivered. -/
theorem slice_readinto (buffer : Bytes) (bytes : Delivery) (stream : FirmwareStream) :
  slice (readinto buffer (bytes :: stream)).2.1 0 (readinto buffer (bytes :: stream)).1 = bytes
  := by
  simp [readinto, slice]

/-- A read that is not empty takes something of the stream. -/
theorem length_lt_of_readinto {buffer : Bytes} {stream : FirmwareStream}
    (h : (readinto buffer stream).1 ≠ 0) :
  (readinto buffer stream).2.2.length < stream.length
  := by
  cases stream with
  | nil => exact absurd rfl h
  | cons bytes stream => exact Nat.lt_succ_self _

/-- The loop. -/
def hashLoop (hasher : Sha256.blockHash.Hasher) (buffer : Bytes) (stream : FirmwareStream) :
    Sha256.blockHash.Hasher :=
  let read := (readinto buffer stream).1
  if h : read = 0 then hasher
  else
    let filled := (readinto buffer stream).2.1
    have := length_lt_of_readinto h
    hashLoop (hasher.update (slice filled 0 read)) filled (readinto buffer stream).2.2
termination_by stream.length

def calculateFirmwareHash (firmware_stream : FirmwareStream) : Bytes :=
  let buffer := List.replicate BUFFER_SIZE 0
  Sha256.output (hashLoop .new buffer firmware_stream).digest

/-- Whatever the buffer holds, the hasher is given the bytes of the stream. -/
theorem hashLoop_eq (hasher : Sha256.blockHash.Hasher) (buffer : Bytes) (stream : FirmwareStream) :
  hashLoop hasher buffer stream = hasher.update (stream.flatMap Subtype.val)
  := by
  induction stream generalizing hasher buffer with
  | nil =>
      rw [hashLoop]
      rfl
  | cons bytes stream ih =>
      have hread : (readinto buffer (bytes :: stream)).1 ≠ 0 := bytes.property.1.ne'
      have hrest : (readinto buffer (bytes :: stream)).2.2 = stream := rfl
      rw [hashLoop]
      dsimp only
      rw [dif_neg hread, slice_readinto, hrest, ih, List.flatMap_cons, Hasher.update_append]

/-- The hash is that of all the bytes of the stream, however they are delivered. -/
theorem calculateFirmwareHash_eq (firmware_stream : FirmwareStream) :
  calculateFirmwareHash firmware_stream
    = Sha256.sha256 (firmware_stream.flatMap Subtype.val)
  := by
  rw [calculateFirmwareHash, hashLoop_eq, Hasher.digest_update_new, Sha256.sha256]

/-- It has the size that the HEADER has for it. -/
theorem length_calculateFirmwareHash (firmware_stream : FirmwareStream) :
  (calculateFirmwareHash firmware_stream).length = FirmwareUpdateHeader.SIZEOF_SHA256
  := Sha256.length_output _

end FirmwareHash
