import MblCore.Lib.Prog
import Mathlib.Data.List.Basic

/-!
# Properties of the calls on a record

A property of a record speaks of every call by the part of the record in front of it: that the
call was prepared, that it was allowed, that what it needs was done and not undone.  It is checked
where the call is issued, and calls of which nothing is asked leave it as it is.
-/

namespace Prog

variable {C : Type} {R : C → Type} {ε α X W : Type}

/-- A run with a record is a run without one, and its record. -/
theorem run_traced (m : Machine C R X W) (p : Prog C R ε α) (xs : List X) (w : W)
    (t : List ((c : C) × R c)) :
  run m p xs w
    = ((run m.traced p xs (w, t)).1, (run m.traced p xs (w, t)).2.1,
        (run m.traced p xs (w, t)).2.2.1)
  := by
  induction p generalizing xs w t with
  | pure a => rfl
  | throw e => rfl
  | call c k ih =>
      cases xs with
      | nil => rfl
      | cons x xs => exact ih _ _ _ _

/-- Every call of the record has the property, given the record in front of it. -/
def EveryCall (P : List ((c : C) × R c) → C → Prop) (record : List ((c : C) × R c)) : Prop :=
  ∀ before c r after, record = before ++ ⟨c, r⟩ :: after → P before c

variable {P : List ((c : C) × R c) → C → Prop} {record : List ((c : C) × R c)}

theorem everyCall_nil :
  EveryCall P []
  := by
  intro before c r after h
  simp at h

/-- A call is put on the record. -/
theorem everyCall_concat {c : C} {r : R c} :
  EveryCall P (record ++ [⟨c, r⟩]) ↔ EveryCall P record ∧ P record c
  := by
  constructor
  · intro h
    constructor
    · intro before c' r' after heq
      apply h before c' r' (after ++ [⟨c, r⟩])
      rw [heq, List.append_assoc, List.cons_append]
    · exact h record c r [] rfl
  · rintro ⟨hrecord, hc⟩ before c' r' after heq
    rcases List.eq_nil_or_concat after with rfl | ⟨after, last, rfl⟩
    · obtain ⟨rfl, hlast⟩ := List.append_inj' heq rfl
      obtain ⟨rfl, -⟩ := Sigma.mk.inj (List.cons.inj hlast).1
      exact hc
    · rw [List.concat_eq_append, ← List.cons_append, ← List.append_assoc] at heq
      exact hrecord before c' r' after (List.append_inj' heq rfl).1

end Prog
