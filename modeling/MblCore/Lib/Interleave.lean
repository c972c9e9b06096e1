import Mathlib.Algebra.BigOperators.Group.Finset.Piecewise
import Mathlib.Logic.Function.Basic
import Mathlib.Order.Defs.Unbundled
import MblCore.Lib.Bounded
import MblCore.Lib.Breach
import MblCore.Lib.Lts

/-!
# Programs that run at once

Several programs share a world, and their calls are answered in any order.  `wpUnder` is the
weakest precondition of one of them when the others may change the world in between as its rely
allows.  When every step of a program is one that the others rely on, what each of them asks for
is met in the whole.
-/

namespace Prog

variable {ι C : Type} {R : C → Type} {ε α β X W : Type}

/-! ### One of several programs -/

/-- Every run of the program, with choices that are admitted, ends as asked and stays so, when the
world changes between its calls as the rely allows. -/
def wpUnder (m : Machine C R X W) (adm : C → X → W → Prop) (rely : W → W → Prop) :
    Prog C R ε α → Post W ε α → W → Prop
  | pure a, Q, w => ∀ w', rely w w' → Q.returned a w'
  | throw e, Q, w => ∀ w', rely w w' → Q.raised e w'
  | call c k, Q, w => ∀ w', rely w w' →
      Q.cut w' ∧ ∀ x, adm c x w' →
        wpUnder m adm rely (k (m.perform c x w').1) Q (m.perform c x w').2

variable {m : Machine C R X W} {adm : C → X → W → Prop} {rely : W → W → Prop}

@[simp]
theorem wpUnder_pure {a : α} {Q : Post W ε α} {w : W} :
  wpUnder m adm rely (Pure.pure a : Prog C R ε α) Q w ↔ ∀ w', rely w w' → Q.returned a w'
  := Iff.rfl

@[simp]
theorem wpUnder_throw {e : ε} {Q : Post W ε α} {w : W} :
  wpUnder m adm rely (throw e : Prog C R ε α) Q w ↔ ∀ w', rely w w' → Q.raised e w'
  := Iff.rfl

@[simp]
theorem wpUnder_issue {c : C} {Q : Post W ε (R c)} {w : W} :
  wpUnder m adm rely (issue c) Q w
    ↔ ∀ w', rely w w' → Q.cut w' ∧ ∀ x, adm c x w' →
        ∀ w'', rely (m.perform c x w').2 w'' → Q.returned (m.perform c x w').1 w''
  := Iff.rfl

/-- A program that begins with a call. -/
theorem wpUnder_issue_bind {c : C} {f : R c → Prog C R ε β} {Q : Post W ε β} {w : W} :
  wpUnder m adm rely (issue c >>= f) Q w
    ↔ ∀ w', rely w w' → Q.cut w' ∧ ∀ x, adm c x w' →
        wpUnder m adm rely (f (m.perform c x w').1) Q (m.perform c x w').2
  := Iff.rfl

/-- The rule of consequence. -/
theorem wpUnder.mono {p : Prog C R ε α} {Q Q' : Post W ε α} {w : W}
    (h : wpUnder m adm rely p Q w) (hreturned : ∀ a w, Q.returned a w → Q'.returned a w)
    (hraised : ∀ e w, Q.raised e w → Q'.raised e w) (hcut : ∀ w, Q.cut w → Q'.cut w) :
  wpUnder m adm rely p Q' w
  := by
  induction p generalizing w with
  | pure a =>
      intro w' hw'
      exact hreturned a w' (h w' hw')
  | throw e =>
      intro w' hw'
      exact hraised e w' (h w' hw')
  | call c k ih =>
      intro w' hw'
      obtain ⟨hcut', hrest⟩ := h w' hw'
      exact ⟨hcut w' hcut', fun x hx => ih _ (hrest x hx)⟩

/-- Fewer choices are admitted. -/
theorem wpUnder.of_admits {adm' : C → X → W → Prop} {p : Prog C R ε α} {Q : Post W ε α} {w : W}
    (h : wpUnder m adm rely p Q w) (hadm : ∀ c x w, adm' c x w → adm c x w) :
  wpUnder m adm' rely p Q w
  := by
  induction p generalizing w with
  | pure a => exact h
  | throw e => exact h
  | call c k ih =>
      intro w' hw'
      obtain ⟨hcut, hrest⟩ := h w' hw'
      exact ⟨hcut, fun x hx => ih _ (hrest x (hadm c x w' hx))⟩

@[simp]
theorem wpUnder_attempt {p : Prog C R ε α} {Q : Post W ε (Except ε α)} {w : W} :
  wpUnder m adm rely p.attempt Q w
    ↔ wpUnder m adm rely p
        { returned := fun a => Q.returned (.ok a)
          raised := fun e => Q.returned (.error e)
          cut := Q.cut } w
  := by
  induction p generalizing w with
  | pure a => exact Iff.rfl
  | throw e => exact Iff.rfl
  | call c k ih => simp only [attempt, wpUnder, ih]

/-- A part of a program goes on in the world its first part leaves. -/
theorem wpUnder_bind [Std.Refl rely] {p : Prog C R ε α} {f : α → Prog C R ε β} {Q : Post W ε β}
    {w : W}
    (h : wpUnder m adm rely p
      { returned := fun a => wpUnder m adm rely (f a) Q, raised := Q.raised, cut := Q.cut } w) :
  wpUnder m adm rely (p >>= f) Q w
  := by
  change wpUnder m adm rely (p.bind f) Q w
  induction p generalizing w with
  | pure a => exact h w (Std.Refl.refl w)
  | throw e => exact h
  | call c k ih =>
      intro w' hw'
      obtain ⟨hcut, hrest⟩ := h w' hw'
      exact ⟨hcut, fun x hx => ih _ (hrest x hx)⟩

/-- What the others do changes nothing. -/
theorem wpUnder.stable [IsTrans W rely] {p : Prog C R ε α} {Q : Post W ε α} {w w' : W}
    (h : wpUnder m adm rely p Q w) (hw : rely w w') :
  wpUnder m adm rely p Q w'
  := by
  cases p with
  | pure a => exact fun w'' hw' => h w'' (IsTrans.trans _ _ _ hw hw')
  | throw e => exact fun w'' hw' => h w'' (IsTrans.trans _ _ _ hw hw')
  | call c k => exact fun w'' hw' => h w'' (IsTrans.trans _ _ _ hw hw')

/-! ### Several programs -/

/-- The programs that run at once, and the world they share. -/
structure Tasks (ι : Type) (C : Type) (R : C → Type) (ε α W : Type) where
  world : W
  task : ι → Prog C R ε α

namespace Tasks

variable [DecidableEq ι] {m : ι → Machine C R X W} {adm : ι → C → X → W → Prop}
  {s s' : Tasks ι C R ε α W} {i : ι} {x : X}

/-- The next call of one of the programs is answered. -/
def step (m : ι → Machine C R X W) (s : Tasks ι C R ε α W) (a : ι × X) :
    Option (Tasks ι C R ε α W) :=
  match s.task a.1 with
  | call c k =>
      some
        { world := ((m a.1).perform c a.2 s.world).2
          task := Function.update s.task a.1 (k ((m a.1).perform c a.2 s.world).1) }
  | _ => none

/-- The choice is admitted for the next call of the program. -/
def Admits (adm : ι → C → X → W → Prop) (s : Tasks ι C R ε α W) (a : ι × X) : Prop :=
  match s.task a.1 with
  | call c _ => adm a.1 c a.2 s.world
  | _ => True

instance decidableAdmits [∀ i c x w, Decidable (adm i c x w)] (s : Tasks ι C R ε α W)
    (a : ι × X) : Decidable (Admits adm s a) :=
  match h : s.task a.1 with
  | call c _ => decidable_of_iff (adm a.1 c a.2 s.world) (by simp [Admits, h])
  | pure _ | throw _ => isTrue (by simp [Admits, h])

omit [DecidableEq ι] in
theorem admits_both {adm' : ι → C → X → W → Prop} {a : ι × X} :
  Admits (fun i => Both (adm i) (adm' i)) s a ↔ Admits adm s a ∧ Admits adm' s a
  := by
  unfold Admits
  split
  · exact Iff.rfl
  · simp

/-- All that a step does. -/
theorem exists_of_step (h : step m s (i, x) = some s') :
  ∃ c k, s.task i = call c k
    ∧ s' = { world := ((m i).perform c x s.world).2
             task := Function.update s.task i (k ((m i).perform c x s.world).1) }
  := by
  unfold step at h
  dsimp only at h
  split at h
  · rename_i c k htask
    exact ⟨c, k, htask, (Option.some.inj h).symm⟩
  · contradiction

/-- What each program asks for is met after a step that the others rely on. -/
theorem wpUnder_step {rely : ι → W → W → Prop} [∀ i, Std.Refl (rely i)] [∀ i, IsTrans W (rely i)]
    {Q : ι → Post W ε α}
    (hs : ∀ j, wpUnder (m j) (adm j) (rely j) (s.task j) (Q j) s.world)
    (hadm : Admits adm s (i, x)) (hrely : ∀ j, j ≠ i → rely j s.world s'.world)
    (h : step m s (i, x) = some s') (j : ι) :
  wpUnder (m j) (adm j) (rely j) (s'.task j) (Q j) s'.world
  := by
  obtain ⟨c, k, htask, rfl⟩ := exists_of_step h
  by_cases hj : j = i
  · subst hj
    have hcall := hs j
    rw [htask] at hcall
    simp only [Admits, htask] at hadm
    dsimp only
    rw [Function.update_self]
    exact (hcall s.world (Std.Refl.refl s.world)).2 x hadm
  · dsimp only
    rw [Function.update_of_ne hj]
    exact (hs j).stable (hrely j hj)

/-- What each call of a program keeps is kept by every step. -/
theorem task_step {P : Prog C R ε α → Prop} {j : ι} (h : step m s (i, x) = some s')
    (hs : P (s.task j))
    (hcall : ∀ c k, i = j → s.task j = call c k → P (k ((m j).perform c x s.world).1)) :
  P (s'.task j)
  := by
  obtain ⟨c, k, htask, rfl⟩ := exists_of_step h
  by_cases hj : j = i
  · subst hj
    dsimp only
    rw [Function.update_self]
    exact hcall c k rfl htask
  · dsimp only
    rw [Function.update_of_ne hj]
    exact hs

/-- A program issues no other calls after a step. -/
theorem issues_step {calls : C → Prop} (hs : ∀ j, Issues calls (s.task j))
    (h : step m s (i, x) = some s') (j : ι) :
  Issues calls (s'.task j)
  := by
  apply task_step h (hs j)
  intro c k _ htask
  have hcall := hs j
  rw [htask] at hcall
  exact hcall.2 _

/-- Programs with a bounded number of calls take a bounded number of steps. -/
theorem length_le [Fintype ι] {as : List (ι × X)} {n : ι → ℕ} {t : Tasks ι C R ε α W}
    (hs : ∀ j, (s.task j).AtMost (n j)) (hrun : Lts.exec (step m) s as = some t) :
  as.length ≤ ∑ j, n j
  := by
  induction as generalizing s n with
  | nil => exact Nat.zero_le _
  | cons a as ih =>
      obtain ⟨s', hstep, hrun⟩ := Lts.exec_cons_eq_some.mp hrun
      obtain ⟨i, x⟩ := a
      obtain ⟨c, k, htask, rfl⟩ := exists_of_step hstep
      have hcall := hs i
      rw [htask] at hcall
      obtain ⟨l, hl⟩ : ∃ l, n i = l + 1 := by
        cases hn : n i with
        | zero => rw [hn] at hcall; exact hcall.elim
        | succ l => exact ⟨l, rfl⟩
      rw [hl] at hcall
      have hrest : as.length ≤ ∑ j, Function.update n i l j := by
        apply ih _ hrun
        intro j
        by_cases hj : j = i
        · subst hj
          dsimp only
          rw [Function.update_self, Function.update_self]
          exact hcall _
        · dsimp only
          rw [Function.update_of_ne hj, Function.update_of_ne hj]
          exact hs j
      rw [Finset.sum_update_of_mem (Finset.mem_univ i)] at hrest
      rw [List.length_cons, Finset.sum_eq_add_sum_sdiff_singleton_of_mem (Finset.mem_univ i), hl]
      omega

end Tasks

end Prog
