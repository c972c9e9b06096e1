import MblCore.Lib.Lts

/-!
# Fair runs

An infinite run of a transition function whose actions are taken by parties.  A run is fair to a
party that does not stay able to act forever without acting.  In a run that is fair to all
parties a goal comes about when there is a ranking for it: there is always a party whose action
brings the goal nearer, and the actions of others do not take it further away.
-/

universe u v w

namespace Lts

variable {S : Type u} {A : Type v} {P : Type w}

/-- An infinite run. -/
structure Run (step : S → A → Option S) where
  state : ℕ → S
  action : ℕ → A
  step_eq : ∀ n, step (state n) (action n) = some (state (n + 1))

/-- The party can act in the state. -/
def Enabled (step : S → A → Option S) (party : A → Option P) (p : P) (s : S) : Prop :=
  ∃ a, party a = some p ∧ ∃ s', step s a = some s'

variable {step : S → A → Option S} {party : A → Option P} {ok : S → A → Prop} {goal : S → Prop}

/-- From every time on the party acts at some time, or at some time cannot act. -/
def Run.Fair (r : Run step) (party : A → Option P) (p : P) : Prop :=
  ∀ n, ∃ m, n ≤ m ∧ (party (r.action m) = some p ∨ ¬ Enabled step party p (r.state m))

/-- The run that takes one more action before. -/
def Run.cons (r : Run step) (s : S) (a : A) (h : step s a = some (r.state 0)) : Run step where
  state
    | 0 => s
    | n + 1 => r.state n
  action
    | 0 => a
    | n + 1 => r.action n
  step_eq
    | 0 => h
    | n + 1 => r.step_eq n

/-- What happens once before does not matter for fairness. -/
theorem Run.Fair.cons {r : Run step} {p : P} {s : S} {a : A} (hr : r.Fair party p)
    (h : step s a = some (r.state 0)) :
  (r.cons s a h).Fair party p
  := by
  intro n
  obtain ⟨m, hm, hacts⟩ := hr n
  exact ⟨m + 1, by omega, hacts⟩

/-- A fair run can follow a finite one. -/
theorem Run.exists_of_exec {r : Run step} {s : S} {as : List A} (hfair : ∀ p, r.Fair party p)
    (hok : ∀ n, ok (r.state n) (r.action n)) (hmeets : Meets step ok s as)
    (h : exec step s as = some (r.state 0)) :
  ∃ r' : Run step, r'.state 0 = s ∧ (∀ n, ok (r'.state n) (r'.action n))
    ∧ (∀ p, r'.Fair party p) ∧ ∀ n, exec step s (as.take n) = some (r'.state n) ∨ as.length < n
  := by
  induction as generalizing s with
  | nil =>
      obtain rfl := Option.some.inj h
      refine ⟨r, rfl, hok, hfair, ?_⟩
      rintro (_ | n)
      · exact Or.inl rfl
      · exact Or.inr n.succ_pos
  | cons a as ih =>
      obtain ⟨s', hs', hexec⟩ := exec_cons_eq_some.mp h
      obtain ⟨r', rfl, hok', hfair', hstates⟩ := ih (hmeets.2 s' hs') hexec
      refine ⟨r'.cons s a hs', rfl, ?_, fun p => (hfair' p).cons hs', ?_⟩
      · rintro (_ | n)
        · exact hmeets.1
        · exact hok' n
      · rintro (_ | n)
        · exact Or.inl rfl
        · apply (hstates n).imp
          · intro hexec'
            exact exec_cons_eq_some.mpr ⟨_, hs', hexec'⟩
          · exact Nat.succ_lt_succ

/-- How far the goal is, and whose action brings it nearer, while the invariant holds. -/
structure Ranking (step : S → A → Option S) (party : A → Option P) (ok : S → A → Prop)
    (goal : S → Prop) where
  Inv : S → Prop
  rank : S → ℕ
  helper : S → P
  enabled : ∀ s, Inv s → ¬ goal s → Enabled step party (helper s) s
  next : ∀ s a s', Inv s → ¬ goal s → ok s a → step s a = some s' →
    goal s' ∨ Inv s' ∧ (rank s' < rank s ∨
      party a ≠ some (helper s) ∧ rank s' = rank s ∧ helper s' = helper s)

namespace Ranking

variable {r : Run step} {n : ℕ}

/-- Until the goal has come about or come nearer, the same party helps. -/
theorem stays (R : Ranking step party ok goal) (hok : ∀ n, ok (r.state n) (r.action n))
    (hinv : R.Inv (r.state n)) (d : ℕ) :
  (∃ m, n ≤ m ∧ goal (r.state m))
    ∨ (∃ m, n ≤ m ∧ R.Inv (r.state m) ∧ R.rank (r.state m) < R.rank (r.state n))
    ∨ (R.Inv (r.state (n + d)) ∧ R.rank (r.state (n + d)) = R.rank (r.state n)
      ∧ R.helper (r.state (n + d)) = R.helper (r.state n))
  := by
  induction d with
  | zero => exact Or.inr (Or.inr ⟨hinv, rfl, rfl⟩)
  | succ d ih =>
      obtain hgoal | hnearer | ⟨hinv', hrank, hhelper⟩ := ih
      · exact Or.inl hgoal
      · exact Or.inr (Or.inl hnearer)
      · by_cases hgoal : goal (r.state (n + d))
        · exact Or.inl ⟨n + d, by omega, hgoal⟩
        · obtain hgoal' | ⟨hinv'', hless | ⟨-, hrank', hhelper'⟩⟩ :=
            R.next _ _ _ hinv' hgoal (hok _) (r.step_eq (n + d))
          · exact Or.inl ⟨n + d + 1, by omega, hgoal'⟩
          · exact Or.inr (Or.inl ⟨n + d + 1, by omega, hinv'', hrank ▸ hless⟩)
          · exact Or.inr (Or.inr ⟨hinv'', hrank'.trans hrank, hhelper'.trans hhelper⟩)

/-- The rule for goals, by induction on how far the goal is: the party that helps acts at some
time, unless the goal has come nearer before. -/
theorem eventually (R : Ranking step party ok goal) (hok : ∀ n, ok (r.state n) (r.action n))
    (hfair : ∀ p, r.Fair party p) (hinv : R.Inv (r.state n)) :
  ∃ m, n ≤ m ∧ goal (r.state m)
  := by
  induction hfar : R.rank (r.state n) using Nat.strongRecOn generalizing n with
  | ind far ih =>
      have hnearer {m : ℕ} (hm : n ≤ m) (hinv' : R.Inv (r.state m))
          (hless : R.rank (r.state m) < R.rank (r.state n)) :
          ∃ m, n ≤ m ∧ goal (r.state m) := by
        obtain ⟨m', hm', hgoal⟩ := ih _ (hfar ▸ hless) hinv' rfl
        exact ⟨m', Nat.le_trans hm hm', hgoal⟩
      obtain ⟨m, hm, hacts⟩ := hfair (R.helper (r.state n)) n
      obtain ⟨d, rfl⟩ := Nat.exists_eq_add_of_le hm
      obtain hgoal | ⟨m', hm', hinv', hless⟩ | ⟨hinv', hrank, hhelper⟩ := R.stays hok hinv d
      · exact hgoal
      · exact hnearer hm' hinv' hless
      · by_cases hgoal : goal (r.state (n + d))
        · exact ⟨n + d, hm, hgoal⟩
        · have henabled := R.enabled _ hinv' hgoal
          rw [hhelper] at henabled
          obtain hgoal' | ⟨hinv'', hless | ⟨hother, -⟩⟩ :=
            R.next _ _ _ hinv' hgoal (hok _) (r.step_eq (n + d))
          · exact ⟨n + d + 1, by omega, hgoal'⟩
          · exact hnearer (by omega) hinv'' (hrank ▸ hless)
          · rw [hhelper] at hother
            exact absurd henabled (hacts.resolve_left hother)

end Ranking

/-- The invariant rule for infinite runs. -/
theorem Run.invariant (r : Run step) (Inv : S → Prop)
    (hstep : ∀ s a s', Inv s → ok s a → step s a = some s' → Inv s')
    (hok : ∀ n, ok (r.state n) (r.action n)) (h : Inv (r.state 0)) (n : ℕ) :
  Inv (r.state n)
  := by
  induction n with
  | zero => exact h
  | succ n ih => exact hstep _ _ _ ih (hok n) (r.step_eq n)

end Lts
