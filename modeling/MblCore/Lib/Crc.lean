import Mathlib.Logic.Function.Iterate
import Mathlib.Data.Nat.Notation

/-!
# Cyclic redundancy checks

The reflected division of data by a polynomial, in a register of `w` bits.  The data comes in
chunks of `k` bits: a chunk is added to the low end of the register, which then takes a step for
each bit of the chunk.  A step is linear for exclusive or.  When the top bit of the polynomial is
set no step loses anything, so that chunks which fill the register at most once, the rest of the
data being equal, are told from each other by what is in the register at the end.
-/

namespace Crc

variable {w k : ℕ}

/-- One step of the division. -/
def step (poly c : BitVec w) : BitVec w :=
  if c.getLsbD 0 then (c >>> 1) ^^^ poly else c >>> 1

/-- Take in one chunk. -/
def feed (poly c : BitVec w) (x : BitVec k) : BitVec w :=
  (step poly)^[k] (c ^^^ x.setWidth w)

/-- The register after the data. -/
def divide (poly c : BitVec w) (data : List (BitVec k)) : BitVec w :=
  data.foldl (feed poly) c

variable {poly : BitVec w}

/-! ### Steps are linear -/

theorem step_xor (a b : BitVec w) :
  step poly (a ^^^ b) = step poly a ^^^ step poly b
  := by
  have hcancel (x y : BitVec w) : x ^^^ poly ^^^ (y ^^^ poly) = x ^^^ y := by
    rw [BitVec.xor_assoc, BitVec.xor_comm y poly, ← BitVec.xor_assoc poly, BitVec.xor_self,
      BitVec.zero_xor]
  simp only [step, BitVec.getLsbD_xor, BitVec.ushiftRight_xor_distrib]
  cases a.getLsbD 0 <;> cases b.getLsbD 0
  · rfl
  · simp [BitVec.xor_assoc]
  · simp only [Bool.true_xor, Bool.not_false, if_true, Bool.false_eq_true, if_false]
    rw [BitVec.xor_assoc, BitVec.xor_assoc, BitVec.xor_comm poly]
  · simp [hcancel]

theorem iterate_step_xor (n : ℕ) (a b : BitVec w) :
  (step poly)^[n] (a ^^^ b) = (step poly)^[n] a ^^^ (step poly)^[n] b
  := by
  induction n generalizing a b with
  | zero => rfl
  | succ n ih => rw [Function.iterate_succ_apply, step_xor, ih]; rfl

/-! ### Steps lose nothing -/

/-- The top bit after a step is the bit the step takes out at the low end. -/
theorem msb_step (hpoly : poly.msb = true) (c : BitVec w) :
  (step poly c).msb = c.getLsbD 0
  := by
  cases w with
  | zero => simp [BitVec.of_length_zero] at hpoly
  | succ w =>
      unfold step
      split
      · rename_i hlow
        rw [BitVec.msb_xor, hpoly, BitVec.msb_ushiftRight, hlow]
        simp
      · rename_i hlow
        rw [Bool.eq_false_iff.mpr hlow, BitVec.msb_ushiftRight]
        simp

theorem step_eq_zero (hpoly : poly.msb = true) {c : BitVec w} (h : step poly c = 0) :
  c = 0
  := by
  have hlow := msb_step hpoly c
  rw [h] at hlow
  have hlow : c.getLsbD 0 = false := by simpa using hlow.symm
  rw [step, hlow, if_neg Bool.false_ne_true] at h
  apply BitVec.eq_of_getLsbD_eq
  intro i hi
  cases i with
  | zero => simpa using hlow
  | succ i =>
      have hbit := congrArg (fun x => x.getLsbD i) h
      simpa [BitVec.getLsbD_ushiftRight, Nat.add_comm 1] using hbit

theorem step_injective (hpoly : poly.msb = true) :
  Function.Injective (step poly)
  := by
  intro a b h
  have hzero : step poly (a ^^^ b) = 0 := by
    rw [step_xor, h]
    exact BitVec.xor_self
  exact BitVec.xor_eq_zero_iff.mp (step_eq_zero hpoly hzero)

theorem feed_injective (hpoly : poly.msb = true) (x : BitVec k) :
  Function.Injective fun c => feed poly c x
  := by
  intro a b h
  have hxor := (step_injective hpoly).iterate k h
  exact (BitVec.xor_left_inj _).mp hxor

theorem divide_injective (hpoly : poly.msb = true) (data : List (BitVec k)) :
  Function.Injective fun c => divide poly c data
  := by
  induction data with
  | nil => exact fun _ _ h => h
  | cons x data ih => exact fun a b h => feed_injective hpoly x (ih h)

/-! ### Data that fills the register at most once -/

/-- Chunks side by side, the first one at the low end. -/
def word (w : ℕ) : List (BitVec k) → BitVec w
  | [] => 0
  | x :: xs => x.setWidth w ^^^ (word w xs <<< k)

/-- What was only moved up moves down again. -/
theorem iterate_step_shiftLeft {n : ℕ} {c : BitVec w}
    (hc : ∀ i, w ≤ i + n → c.getLsbD i = false) :
  (step poly)^[n] (c <<< n) = c
  := by
  induction n with
  | zero => simp
  | succ n ih =>
      have hlow : step poly (c <<< (n + 1)) = c <<< n := by
        have hbit : (c <<< (n + 1)).getLsbD 0 = false := by simp
        rw [step, hbit, if_neg Bool.false_ne_true]
        apply BitVec.eq_of_getLsbD_eq
        intro i hi
        simp only [BitVec.getLsbD_ushiftRight, BitVec.getLsbD_shiftLeft]
        by_cases hin : i < n
        · simp [hin, Nat.add_comm 1]
        · by_cases htop : 1 + i < w
          · have hsub : 1 + i - (n + 1) = i - n := by omega
            have hnot : ¬ 1 + i < n + 1 := by omega
            simp [hin, htop, hi, hsub, hnot]
          · have hout : c.getLsbD (i - n) = false := hc _ (by omega)
            simp [htop, hout]
      rw [Function.iterate_succ_apply, hlow]
      apply ih
      exact fun i hi => hc i (by omega)

theorem getLsbD_word {xs : List (BitVec k)} {i : ℕ} (h : k * xs.length ≤ i) :
  (word w xs).getLsbD i = false
  := by
  induction xs generalizing i with
  | nil => simp [word]
  | cons x xs ih =>
      rw [List.length_cons, Nat.mul_succ] at h
      have hx : x.getLsbD i = false := BitVec.getLsbD_of_ge x i (by omega)
      have hxs : (word w xs).getLsbD (i - k) = false := ih (by omega)
      simp [word, hx, hxs]

/-- Data that fits into the register is taken in as if it came at once. -/
theorem divide_eq {xs : List (BitVec k)} (h : k * xs.length ≤ w) (c : BitVec w) :
  divide poly c xs = (step poly)^[k * xs.length] (c ^^^ word w xs)
  := by
  induction xs generalizing c with
  | nil => simp [divide, word]
  | cons x xs ih =>
      rw [List.length_cons, Nat.mul_succ] at h
      have hrest : (step poly)^[k] (word w xs <<< k) = word w xs := by
        apply iterate_step_shiftLeft
        exact fun i hi => getLsbD_word (by omega)
      have hfeed : feed poly c x ^^^ word w xs
          = (step poly)^[k] (c ^^^ word w (x :: xs)) := by
        rw [word, ← BitVec.xor_assoc, iterate_step_xor, hrest]
        rfl
      calc
        divide poly c (x :: xs) = divide poly (feed poly c x) xs := rfl
        _ = (step poly)^[k * xs.length] (feed poly c x ^^^ word w xs) := ih (by omega) _
        _ = (step poly)^[k * xs.length] ((step poly)^[k] (c ^^^ word w (x :: xs))) := by rw [hfeed]
        _ = (step poly)^[k * (x :: xs).length] (c ^^^ word w (x :: xs)) := by
          rw [← Function.iterate_add_apply, List.length_cons, Nat.mul_succ]

theorem word_injective {xs ys : List (BitVec k)} (hlen : xs.length = ys.length)
    (hshort : k * xs.length ≤ w) (h : word w xs = word w ys) :
  xs = ys
  := by
  induction xs generalizing ys with
  | nil => exact (List.length_eq_zero_iff.mp hlen.symm).symm
  | cons x xs ih =>
      cases ys with
      | nil => contradiction
      | cons y ys =>
          have hlen' : xs.length = ys.length := Nat.succ.inj hlen
          rw [List.length_cons, Nat.mul_succ] at hshort
          have hfirst : x = y := by
            apply BitVec.eq_of_getLsbD_eq
            intro i hi
            have hbit := congrArg (fun c => c.getLsbD i) h
            have hwidth : i < w := by omega
            simpa [word, hi, hwidth] using hbit
          subst hfirst
          have hshifted : word w xs <<< k = word w ys <<< k := by
            simp only [word] at h
            exact (BitVec.xor_right_inj _).mp h
          have hback (zs : List (BitVec k)) (hzs : zs.length = xs.length) :
              (step (0 : BitVec w))^[k] (word w zs <<< k) = word w zs := by
            apply iterate_step_shiftLeft
            intro i hi
            apply getLsbD_word
            rw [hzs]
            omega
          have hrest : word w xs = word w ys := by
            rw [← hback xs rfl, hshifted, hback ys hlen'.symm]
          rw [ih hlen' (by omega) hrest]

/-- Data that differs only in chunks which fit into the register together is told apart. -/
theorem eq_of_divide_eq (hpoly : poly.msb = true) {c : BitVec w} {before xs ys after : List (BitVec k)}
    (hlen : xs.length = ys.length) (hshort : k * xs.length ≤ w)
    (h : divide poly c (before ++ xs ++ after) = divide poly c (before ++ ys ++ after)) :
  xs = ys
  := by
  simp only [divide, List.foldl_append] at h
  have hmiddle := divide_injective hpoly after h
  change divide poly _ xs = divide poly _ ys at hmiddle
  rw [divide_eq hshort, divide_eq (hlen ▸ hshort), hlen] at hmiddle
  have hword := (step_injective hpoly).iterate _ hmiddle
  exact word_injective hlen hshort ((BitVec.xor_right_inj _).mp hword)

end Crc
