import MblCore.Lib.Prog
import Mathlib.Data.Nat.Notation

/-!
# Programs with a bounded number of calls

A bound on the number of calls a program issues, whatever the replies to them are.  A run with as
many choices as the bound is not cut.
-/

namespace Prog

variable {C : Type} {R : C → Type} {ε α β A X W : Type}

/-- The program issues at most `n` calls, whatever the replies are. -/
def AtMost : Prog C R ε α → ℕ → Prop
  | pure _, _ => True
  | throw _, _ => True
  | call _ _, 0 => False
  | call _ k, n + 1 => ∀ r, AtMost (k r) n

/-- A run with enough choices is not cut. -/
theorem AtMost.run_ne_cut {m : Machine C R X W} {p : Prog C R ε α} {n : ℕ} {xs : List X} {w : W}
    (hp : p.AtMost n) (hn : n ≤ xs.length) :
  (run m p xs w).1 ≠ .cut
  := by
  induction p generalizing n xs w with
  | pure a => simp [run]
  | throw e => simp [run]
  | call c k ih =>
      cases n with
      | zero => exact hp.elim
      | succ n =>
          cases xs with
          | nil => simp at hn
          | cons x xs => exact ih _ (hp _) (Nat.le_of_succ_le_succ hn)

/-! ### The rules -/

@[simp]
theorem atMost_pure (a : α) (n : ℕ) :
  (Pure.pure a : Prog C R ε α).AtMost n
  := trivial

@[simp]
theorem atMost_throw (e : ε) (n : ℕ) :
  (throw e : Prog C R ε α).AtMost n
  := trivial

theorem atMost_issue (c : C) :
  (issue c : Prog C R ε (R c)).AtMost 1
  := fun _ => trivial

theorem AtMost.mono {p : Prog C R ε α} {m n : ℕ} (hp : p.AtMost m) (h : m ≤ n) :
  p.AtMost n
  := by
  induction p generalizing m n with
  | pure a => trivial
  | throw e => trivial
  | call c k ih =>
      cases m with
      | zero => exact hp.elim
      | succ m =>
          obtain ⟨n, rfl⟩ := Nat.exists_eq_succ_of_ne_zero (Nat.ne_zero_of_lt h)
          intro r
          exact ih r (hp r) (Nat.le_of_succ_le_succ h)

/-- The calls of two parts add up. -/
theorem AtMost.bind {p : Prog C R ε α} {f : α → Prog C R ε β} {m n : ℕ} (hp : p.AtMost m)
    (hf : ∀ a, (f a).AtMost n) :
  (p >>= f).AtMost (m + n)
  := by
  change (p.bind f).AtMost (m + n)
  induction p generalizing m with
  | pure a => exact (hf a).mono (Nat.le_add_left n m)
  | throw e => trivial
  | call c k ih =>
      cases m with
      | zero => exact hp.elim
      | succ m =>
          rw [Nat.succ_add]
          intro r
          exact ih r (hp r)

theorem AtMost.attempt {p : Prog C R ε α} {n : ℕ} (hp : p.AtMost n) :
  p.attempt.AtMost n
  := by
  induction p generalizing n with
  | pure a => trivial
  | throw e => trivial
  | call c k ih =>
      cases n with
      | zero => exact hp.elim
      | succ n => exact fun r => ih r (hp r)

/-- A loop issues as many calls as its body for each element. -/
theorem atMost_forEach {as : List A} {f : A → Prog C R ε Unit} {n : ℕ}
    (hf : ∀ a ∈ as, (f a).AtMost n) :
  (forEach as f).AtMost (as.length * n)
  := by
  induction as with
  | nil => trivial
  | cons a as ih =>
      rw [List.length_cons, Nat.succ_mul, Nat.add_comm]
      apply AtMost.bind (hf a List.mem_cons_self)
      intro _
      apply ih
      exact fun b hb => hf b (List.mem_cons_of_mem a hb)

end Prog
