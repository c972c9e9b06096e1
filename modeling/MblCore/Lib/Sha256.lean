import MblCore.Lib.BlockHash
import MblCore.Lib.Struct

/-!
# SHA-256

The hash of messages of bytes, by the compression of blocks of 64 bytes.
-/

namespace Sha256

/-- The eight words of the state. -/
structure State where
  a : UInt32
  b : UInt32
  c : UInt32
  d : UInt32
  e : UInt32
  f : UInt32
  g : UInt32
  h : UInt32
deriving DecidableEq

def initial : State :=
  ⟨0x6A09E667, 0xBB67AE85, 0x3C6EF372, 0xA54FF53A, 0x510E527F, 0x9B05688C, 0x1F83D9AB, 0x5BE0CD19⟩

/-- The constants of the rounds. -/
def K : List UInt32 :=
  [0x428A2F98, 0x71374491, 0xB5C0FBCF, 0xE9B5DBA5, 0x3956C25B, 0x59F111F1, 0x923F82A4, 0xAB1C5ED5,
    0xD807AA98, 0x12835B01, 0x243185BE, 0x550C7DC3, 0x72BE5D74, 0x80DEB1FE, 0x9BDC06A7, 0xC19BF174,
    0xE49B69C1, 0xEFBE4786, 0x0FC19DC6, 0x240CA1CC, 0x2DE92C6F, 0x4A7484AA, 0x5CB0A9DC, 0x76F988DA,
    0x983E5152, 0xA831C66D, 0xB00327C8, 0xBF597FC7, 0xC6E00BF3, 0xD5A79147, 0x06CA6351, 0x14292967,
    0x27B70A85, 0x2E1B2138, 0x4D2C6DFC, 0x53380D13, 0x650A7354, 0x766A0ABB, 0x81C2C92E, 0x92722C85,
    0xA2BFE8A1, 0xA81A664B, 0xC24B8B70, 0xC76C51A3, 0xD192E819, 0xD6990624, 0xF40E3585, 0x106AA070,
    0x19A4C116, 0x1E376C08, 0x2748774C, 0x34B0BCB5, 0x391C0CB3, 0x4ED8AA4A, 0x5B9CCA4F, 0x682E6FF3,
    0x748F82EE, 0x78A5636F, 0x84C87814, 0x8CC70208, 0x90BEFFFA, 0xA4506CEB, 0xBEF9A3F7, 0xC67178F2]

def rotr (x n : UInt32) : UInt32 :=
  (x >>> n) ||| (x <<< (32 - n))

def Ch (x y z : UInt32) : UInt32 :=
  (x &&& y) ^^^ (~~~x &&& z)

def Maj (x y z : UInt32) : UInt32 :=
  (x &&& y) ^^^ (x &&& z) ^^^ (y &&& z)

def Sigma0 (x : UInt32) : UInt32 :=
  rotr x 2 ^^^ rotr x 13 ^^^ rotr x 22

def Sigma1 (x : UInt32) : UInt32 :=
  rotr x 6 ^^^ rotr x 11 ^^^ rotr x 25

def sigma0 (x : UInt32) : UInt32 :=
  rotr x 7 ^^^ rotr x 18 ^^^ (x >>> 3)

def sigma1 (x : UInt32) : UInt32 :=
  rotr x 17 ^^^ rotr x 19 ^^^ (x >>> 10)

/-- The words of a block, the last one first. -/
def words : Bytes → List UInt32 → List UInt32
  | a :: b :: c :: d :: block, w =>
      words block (UInt32.ofNat (Struct.ofBigEndian [a, b, c, d]) :: w)
  | _, w => w

/-- So many more words of the schedule, the last one first. -/
def extend : ℕ → List UInt32 → List UInt32
  | 0, w => w
  | n + 1, w =>
      let next := sigma1 (w.getD 1 0) + w.getD 6 0 + sigma0 (w.getD 14 0) + w.getD 15 0
      extend n (next :: w)

/-- The words of the schedule, in order. -/
def schedule (block : Bytes) : List UInt32 :=
  (extend 48 (words block [])).reverse

def round (s : State) (k w : UInt32) : State :=
  let t₁ := s.h + Sigma1 s.e + Ch s.e s.f s.g + k + w
  let t₂ := Sigma0 s.a + Maj s.a s.b s.c
  ⟨t₁ + t₂, s.a, s.b, s.c, s.d + t₁, s.e, s.f, s.g⟩

def compress (s : State) (block : Bytes) : State :=
  let t := (K.zip (schedule block)).foldl (fun s kw => round s kw.1 kw.2) s
  ⟨s.a + t.a, s.b + t.b, s.c + t.c, s.d + t.d, s.e + t.e, s.f + t.f, s.g + t.g, s.h + t.h⟩

/-- A bit, zeros, and the length of the message in bits. -/
def padding (n : ℕ) : Bytes :=
  0x80 :: List.replicate ((119 - n % 64) % 64) 0 ++ Struct.bigEndian 8 (8 * n)

/-- The bytes of the state. -/
def output (s : State) : Bytes :=
  [s.a, s.b, s.c, s.d, s.e, s.f, s.g, s.h].flatMap fun x => Struct.bigEndian 4 x.toNat

theorem length_output (s : State) :
  (output s).length = 32
  := by
  simp [output]

def blockHash : BlockHash UInt8 State where
  blockSize := 64
  initial := initial
  compress := compress
  padding := padding
  pos := by decide
  dvd := by
    intro n
    simp only [padding, List.cons_append, List.length_cons, List.length_append,
      List.length_replicate, Struct.length_bigEndian]
    omega

/-- `sha256` of a message. -/
def sha256 (message : Bytes) : Bytes :=
  output (blockHash.hash message)

/-- The hash of "test data". -/
example : sha256 [0x74, 0x65, 0x73, 0x74, 0x20, 0x64, 0x61, 0x74, 0x61]
    = [0x91, 0x6F, 0x00, 0x27, 0xA5, 0x75, 0x07, 0x4C, 0xE7, 0x2A, 0x33, 0x17, 0x77, 0xC3, 0x47, 0x8D,
      0x65, 0x13, 0xF7, 0x86, 0xA5, 0x91, 0xBD, 0x89, 0x2D, 0xA1, 0xA5, 0x77, 0xBF, 0x23, 0x35, 0xF9] := by
  decide +kernel

end Sha256
