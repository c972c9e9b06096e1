import Mathlib.Data.List.Basic

/-!
# Runs of a transition function

A transition function `step : S → A → Option S` takes a state and an action to the state
after the action, or to `none` when the action is not enabled.  `exec step s as` is the
state after the actions `as`.  `Meets step ok s as` says that every action of the run
satisfies the guard `ok` in the state it is taken in.  An invariant that every guarded
step preserves holds after every run whose steps meet the guard.
-/

universe u v

namespace Lts

variable {S : Type u} {A : Type v}

/-- The state after the actions `as` from `s`, if every one of them is enabled. -/
def exec (step : S → A → Option S) : S → List A → Option S
  | s, [] => some s
  | s, a :: as => (step s a).bind fun s' => exec step s' as

/-- Every action of the run of `as` from `s` satisfies `ok` in the state it is taken in. -/
def Meets (step : S → A → Option S) (ok : S → A → Prop) : S → List A → Prop
  | _, [] => True
  | s, a :: as => ok s a ∧ ∀ s', step s a = some s' → Meets step ok s' as

/-- Whether the guard holds along a run can be computed. -/
instance decidableMeets (step : S → A → Option S) (ok : S → A → Prop)
    [∀ s a, Decidable (ok s a)] : ∀ s as, Decidable (Meets step ok s as)
  | _, [] => isTrue trivial
  | s, a :: as =>
      match h : step s a with
      | none => decidable_of_iff (ok s a) (by simp [Meets, h])
      | some s' =>
          have := decidableMeets step ok s' as
          decidable_of_iff (ok s a ∧ Meets step ok s' as) (by simp [Meets, h])

variable {step : S → A → Option S} {ok : S → A → Prop}

@[simp]
theorem exec_nil (s : S) :
  exec step s [] = some s
  := rfl

/-- A run of `a :: as` takes `a` first. -/
theorem exec_cons_eq_some {s t : S} {a : A} {as : List A} :
  exec step s (a :: as) = some t ↔ ∃ s', step s a = some s' ∧ exec step s' as = some t
  := by
  simp only [exec, Option.bind_eq_some_iff]

/-- A run of `as ++ bs` is a run of `as` followed by a run of `bs`. -/
theorem exec_append (s : S) (as bs : List A) :
  exec step s (as ++ bs) = (exec step s as).bind fun s' => exec step s' bs
  := by
  induction as generalizing s with
  | nil => rfl
  | cons a as ih =>
      simp only [List.cons_append, exec, Option.bind_assoc]
      congr 1
      funext s'
      apply ih

/-- The last action of a run is taken in the state the actions before it lead to. -/
theorem exec_concat_eq_some {s t : S} {a : A} {as : List A} :
  exec step s (as ++ [a]) = some t ↔ ∃ s', exec step s as = some s' ∧ step s' a = some t
  := by
  simp only [exec_append, exec, Option.bind_eq_some_iff, Option.some.injEq, exists_eq_right]

@[simp]
theorem meets_nil (s : S) :
  Meets step ok s []
  := trivial

/-- The guard holds along `as ++ bs` exactly when it holds along `as` and along `bs` from
the state `as` leads to. -/
theorem meets_append {s : S} {as bs : List A} :
  Meets step ok s (as ++ bs)
    ↔ Meets step ok s as ∧ ∀ s', exec step s as = some s' → Meets step ok s' bs
  := by
  induction as generalizing s with
  | nil => simp
  | cons a as ih =>
      simp only [List.cons_append, Meets, exec_cons_eq_some, ih]
      constructor
      · rintro ⟨ha, has⟩
        use ⟨ha, fun s' hs' => (has s' hs').1⟩
        rintro t ⟨s', hs', ht⟩
        apply (has s' hs').2 t ht
      · rintro ⟨⟨ha, has⟩, hbs⟩
        use ha
        intro s' hs'
        use has s' hs'
        intro t ht
        apply hbs t ⟨s', hs', ht⟩

/-- A run that meets two guards meets both at once. -/
theorem Meets.and {ok' : S → A → Prop} {s : S} {as : List A} (h : Meets step ok s as)
    (h' : Meets step ok' s as) :
  Meets step (fun s a => ok s a ∧ ok' s a) s as
  := by
  induction as generalizing s with
  | nil => trivial
  | cons a as ih => exact ⟨⟨h.1, h'.1⟩, fun s' hs' => ih (h.2 s' hs') (h'.2 s' hs')⟩

/-- A run along which the guard does not hold takes a first step that does not satisfy it. -/
theorem exists_first_not_ok {s t : S} {as : List A} (h : ¬ Meets step ok s as)
    (hrun : exec step s as = some t) :
  ∃ bs a cs s₁ s₂, as = bs ++ a :: cs ∧ exec step s bs = some s₁ ∧ Meets step ok s bs
    ∧ ¬ ok s₁ a ∧ step s₁ a = some s₂ ∧ exec step s₂ cs = some t
  := by
  induction as generalizing s with
  | nil => exact absurd trivial h
  | cons a as ih =>
      obtain ⟨s', hs', ht⟩ := exec_cons_eq_some.mp hrun
      by_cases ha : ok s a
      · have has : ¬ Meets step ok s' as := by
          intro has
          apply h
          use ha
          rw [hs']
          rintro _ ⟨rfl⟩
          exact has
        obtain ⟨bs, b, cs, s₁, s₂, rfl, hbs, hmeets, hb, hstep, hcs⟩ := ih has ht
        use a :: bs, b, cs, s₁, s₂
        refine ⟨rfl, exec_cons_eq_some.mpr ⟨s', hs', hbs⟩, ⟨ha, ?_⟩, hb, hstep, hcs⟩
        rw [hs']
        rintro _ ⟨rfl⟩
        exact hmeets
      · use [], a, as, s, s'
        exact ⟨rfl, rfl, trivial, ha, hs', ht⟩

/-- The invariant rule: what holds of `s` and is preserved by every guarded step holds after
every run from `s` whose steps meet the guard. -/
theorem invariant (Inv : S → Prop)
    (hstep : ∀ s a s', Inv s → ok s a → step s a = some s' → Inv s')
    {s t : S} {as : List A} (hs : Inv s) (hok : Meets step ok s as)
    (hrun : exec step s as = some t) :
  Inv t
  := by
  induction as generalizing s with
  | nil =>
      obtain rfl := Option.some.inj hrun
      exact hs
  | cons a as ih =>
      obtain ⟨s', hs', ht⟩ := exec_cons_eq_some.mp hrun
      apply ih (hstep s a s' hs hok.1 hs') (hok.2 s' hs') ht

/-- A guard that the invariant and the guard of the steps imply holds along the run. -/
theorem Meets.of_invariant {ok' : S → A → Prop} (Inv : S → Prop)
    (hstep : ∀ s a s', Inv s → ok s a → step s a = some s' → Inv s')
    (hok : ∀ s a, Inv s → ok s a → ok' s a) {s : S} {as : List A} (hs : Inv s)
    (h : Meets step ok s as) :
  Meets step ok' s as
  := by
  induction as generalizing s with
  | nil => trivial
  | cons a as ih =>
      constructor
      · exact hok s a hs h.1
      · intro s' hs'
        apply ih (hstep s a s' hs h.1 hs') (h.2 s' hs')

/-- What each step keeps exactly when it satisfies the guard holds after a run exactly when it held
before and the guard holds along the run. -/
theorem iff_meets (P : S → Prop) (allowed : A → Prop)
    (hstep : ∀ s a s', allowed a → step s a = some s' → (P s' ↔ P s ∧ ok s a))
    {s t : S} {as : List A} (has : ∀ a ∈ as, allowed a) (hrun : exec step s as = some t) :
  P t ↔ P s ∧ Meets step ok s as
  := by
  induction as generalizing s with
  | nil =>
      obtain rfl := Option.some.inj hrun
      simp
  | cons a as ih =>
      obtain ⟨s', hs', ht⟩ := exec_cons_eq_some.mp hrun
      rw [ih (fun b hb => has b (List.mem_cons_of_mem a hb)) ht,
        hstep s a s' (has a List.mem_cons_self) hs', and_assoc]
      simp [Meets, hs']

/-- A guard that always holds holds along every run. -/
theorem meets_true (s : S) (as : List A) :
  Meets step (fun _ _ => True) s as
  := by
  induction as generalizing s with
  | nil => trivial
  | cons a as ih => exact ⟨trivial, fun s' _ => ih s'⟩

/-- The invariant rule for runs without a guard. -/
theorem invariant' (Inv : S → Prop)
    (hstep : ∀ s a s', Inv s → step s a = some s' → Inv s')
    {s t : S} {as : List A} (hs : Inv s) (hrun : exec step s as = some t) :
  Inv t
  := by
  apply invariant Inv _ hs (meets_true s as) hrun
  exact fun s a s' hs _ => hstep s a s' hs

end Lts
