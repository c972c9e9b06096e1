import Mathlib.Data.List.Basic

/-!
# Hashes that compress one block after the other

A block hash pads a message to whole blocks, and compresses them into a state.  A hasher does the
same while it is given the message piece by piece: it compresses a block as soon as it has one, and
keeps what is left.  What it returns does not depend on the pieces.
-/

/-- A block hash of messages over some type of bytes.  The padding depends on the length. -/
structure BlockHash (α σ : Type) where
  blockSize : ℕ
  initial : σ
  compress : σ → List α → σ
  padding : ℕ → List α
  pos : 0 < blockSize
  dvd : ∀ n, blockSize ∣ n + (padding n).length

namespace BlockHash

variable {α σ : Type} (H : BlockHash α σ)

/-- The state after the first blocks of a message, so many of them. -/
def absorb : ℕ → List α → σ → σ
  | 0, _, state => state
  | k + 1, message, state =>
      absorb k (message.drop H.blockSize) (H.compress state (message.take H.blockSize))

/-- The hash of a message. -/
def hash (message : List α) : σ :=
  let padded := message ++ H.padding message.length
  H.absorb (padded.length / H.blockSize) padded H.initial

/-- A hasher: the state, what has not been compressed, and the length of the message so far. -/
structure Hasher where
  state : σ
  pending : List α
  length : ℕ
  short : pending.length < H.blockSize

variable {H}

namespace Hasher

def new : H.Hasher :=
  ⟨H.initial, [], 0, H.pos⟩

/-- One more byte, which may complete a block. -/
def push (h : H.Hasher) (x : α) : H.Hasher :=
  if hfull : h.pending.length + 1 = H.blockSize then
    ⟨H.compress h.state (h.pending ++ [x]), [], h.length + 1, H.pos⟩
  else
    ⟨h.state, h.pending ++ [x], h.length + 1, by
      have := h.short
      rw [List.length_append, List.length_singleton]
      omega⟩

def update (h : H.Hasher) (piece : List α) : H.Hasher :=
  piece.foldl push h

/-- The hash of what has been given to the hasher, which can be given more afterwards. -/
def digest (h : H.Hasher) : σ :=
  (h.update (H.padding h.length)).state

/-- Updates are incremental. -/
theorem update_append (h : H.Hasher) (piece piece' : List α) :
  h.update (piece ++ piece') = (h.update piece).update piece'
  := List.foldl_append

/-- The hasher has been given a message: its blocks are in the state, and the rest is pending. -/
structure Given (h : H.Hasher) (message : List α) : Prop where
  length : h.length = message.length
  blocks : ∃ k whole, message = whole ++ h.pending ∧ whole.length = k * H.blockSize
    ∧ h.state = H.absorb k whole H.initial

theorem given_new :
  Given (new : H.Hasher) []
  := ⟨rfl, 0, [], rfl, (Nat.zero_mul _).symm, rfl⟩

end Hasher

/-- A block more. -/
theorem absorb_append {k : ℕ} {whole block : List α} {state : σ}
    (hwhole : whole.length = k * H.blockSize) (hblock : block.length = H.blockSize) :
  H.absorb (k + 1) (whole ++ block) state = H.compress (H.absorb k whole state) block
  := by
  induction k generalizing whole state with
  | zero =>
      rw [Nat.zero_mul] at hwhole
      rw [List.eq_nil_of_length_eq_zero hwhole, List.nil_append, absorb, absorb, absorb,
        List.take_of_length_le (Nat.le_of_eq hblock)]
  | succ k ih =>
      have hle : H.blockSize ≤ whole.length := by
        rw [hwhole, Nat.succ_mul]
        apply Nat.le_add_left ..
      have hrest : (whole.drop H.blockSize).length = k * H.blockSize := by
        rw [List.length_drop, hwhole, Nat.succ_mul, Nat.add_sub_cancel]
      rw [absorb, List.drop_append_of_le_length hle, List.take_append_of_le_length hle, ih hrest]
      rfl

namespace Hasher

theorem Given.push {h : H.Hasher} {message : List α} (hgiven : Given h message) (x : α) :
  Given (h.push x) (message ++ [x])
  := by
  obtain ⟨hlength, k, whole, hmessage, hwhole, hstate⟩ := hgiven
  have hsucc : h.length + 1 = (message ++ [x]).length := by simp [hlength]
  unfold Hasher.push
  split
  · rename_i hfull
    have hblock : (h.pending ++ [x]).length = H.blockSize := by simpa using hfull
    refine ⟨hsucc, k + 1, whole ++ (h.pending ++ [x]), ?_, ?_, ?_⟩
    · rw [hmessage, List.append_nil, List.append_assoc]
    · rw [List.length_append, hwhole, hblock, Nat.succ_mul]
    · rw [absorb_append hwhole hblock, hstate]
  · refine ⟨hsucc, k, whole, ?_, hwhole, hstate⟩
    rw [hmessage, List.append_assoc]

theorem Given.update {h : H.Hasher} {message : List α} (hgiven : Given h message) (piece : List α) :
  Given (h.update piece) (message ++ piece)
  := by
  induction piece generalizing h message with
  | nil => rwa [List.append_nil]
  | cons x piece ih =>
      have hrest := ih (hgiven.push x)
      rwa [List.append_assoc, List.singleton_append] at hrest

/-- With its padding, the message leaves nothing pending. -/
theorem Given.digest_eq {h : H.Hasher} {message : List α} (hgiven : Given h message) :
  h.digest = H.hash message
  := by
  have hpadded := hgiven.update (H.padding h.length)
  obtain ⟨-, k, whole, hmessage, hwhole, hstate⟩ := hpadded
  have hnothing : (h.update (H.padding h.length)).pending = [] := by
    have hdvd := H.dvd h.length
    rw [hgiven.length, ← List.length_append, ← hgiven.length, hmessage, List.length_append,
      hwhole] at hdvd
    have hpending := (Nat.dvd_add_right (Nat.dvd_mul_left _ k)).mp hdvd
    exact List.eq_nil_of_length_eq_zero
      (Nat.eq_zero_of_dvd_of_lt hpending (h.update (H.padding h.length)).short)
  rw [hnothing, List.append_nil] at hmessage
  have hcount : whole.length / H.blockSize = k := by
    rw [hwhole, Nat.mul_div_cancel _ H.pos]
  rw [digest, hstate, hash, ← hgiven.length, hmessage,
    hcount]

/-- A hasher that has been given a message piece by piece returns its hash. -/
theorem digest_update_new (message : List α) :
  ((new : H.Hasher).update message).digest = H.hash message
  := (given_new.update message).digest_eq

end Hasher

end BlockHash
