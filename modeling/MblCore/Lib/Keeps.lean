import MblCore.Lib.Prog

/-!
# Programs that keep to a guard

`Keeps m adm ok p w` says that every call which the program `p` issues from the world `w`, in
any run with admitted choices, satisfies the guard `ok`.  What a world is like at a call is
known by the weakest precondition of what comes before.
-/

namespace Prog

variable {C : Type} {R : C → Type} {ε α β A X W : Type}

/-- Every call of every run with admitted choices satisfies the guard. -/
def Keeps (m : Machine C R X W) (adm ok : C → X → W → Prop) : Prog C R ε α → W → Prop
  | pure _, _ => True
  | throw _, _ => True
  | call c k, w =>
      ∀ x, adm c x w → ok c x w ∧ Keeps m adm ok (k (m.perform c x w).1) (m.perform c x w).2

variable {m : Machine C R X W} {adm ok : C → X → W → Prop}

/-- A run with admitted choices keeps to the guard. -/
theorem Keeps.obeys {p : Prog C R ε α} {xs : List X} {w : W} (h : Keeps m adm ok p w)
    (hadm : Obeys m adm p xs w) :
  Obeys m ok p xs w
  := by
  induction p generalizing xs w with
  | pure a => trivial
  | throw e => trivial
  | call c k ih =>
      cases xs with
      | nil => trivial
      | cons x xs =>
          obtain ⟨hok, hrest⟩ := h x hadm.1
          constructor
          · exact hok
          · apply ih _ hrest hadm.2

@[simp]
theorem keeps_pure {a : α} {w : W} :
  Keeps m adm ok (Pure.pure a : Prog C R ε α) w
  := trivial

@[simp]
theorem keeps_throw {e : ε} {w : W} :
  Keeps m adm ok (throw e : Prog C R ε α) w
  := trivial

@[simp]
theorem keeps_issue {c : C} {w : W} :
  Keeps m adm ok (issue c : Prog C R ε (R c)) w ↔ ∀ x, adm c x w → ok c x w
  := by
  constructor
  · intro h x hx
    exact (h x hx).1
  · intro h x hx
    exact ⟨h x hx, trivial⟩

/-- The rest keeps to the guard in every world in which the first part returns. -/
theorem keeps_bind {p : Prog C R ε α} {f : α → Prog C R ε β} {w : W} (hp : Keeps m adm ok p w)
    (hf : wp m adm p
      { returned := fun a => Keeps m adm ok (f a), raised := fun _ _ => True, cut := fun _ => True }
      w) :
  Keeps m adm ok (p >>= f) w
  := by
  change Keeps m adm ok (p.bind f) w
  induction p generalizing w with
  | pure a => exact hf
  | throw e => trivial
  | call c k ih =>
      intro x hx
      obtain ⟨hok, hrest⟩ := hp x hx
      constructor
      · exact hok
      · apply ih _ hrest (hf.2 x hx)

@[simp]
theorem keeps_attempt {p : Prog C R ε α} {w : W} :
  Keeps m adm ok p.attempt w ↔ Keeps m adm ok p w
  := by
  induction p generalizing w with
  | pure a => exact Iff.rfl
  | throw e => exact Iff.rfl
  | call c k ih => simp only [attempt, Keeps, ih]

/-- A program whose calls all satisfy the guard, whatever they are answered with. -/
theorem keeps_of_issues {calls : C → Prop} {p : Prog C R ε α} {w : W} (hp : Issues calls p)
    (hok : ∀ c x w, calls c → adm c x w → ok c x w) :
  Keeps m adm ok p w
  := by
  induction p generalizing w with
  | pure a => trivial
  | throw e => trivial
  | call c k ih =>
      intro x hx
      constructor
      · apply hok c x w hp.1 hx
      · apply ih _ (hp.2 _)

/-! ### When a program returns -/

/-- Something is asked of the runs that return only. -/
def Post.ifReturned (Q : α → W → Prop) : Post W ε α where
  returned := Q
  raised _ _ := True
  cut _ := True

theorem wp_ifReturned_of_forall {Q : α → W → Prop} {p : Prog C R ε α} {w : W}
    (hQ : ∀ a w, Q a w) :
  wp m adm p (Post.ifReturned Q) w
  := by
  induction p generalizing w with
  | pure a => exact hQ a w
  | throw e => trivial
  | call c k ih => exact ⟨trivial, fun x _ => ih _⟩

theorem wp_ifReturned_bind {P : α → W → Prop} {Q : β → W → Prop} {p : Prog C R ε α}
    {f : α → Prog C R ε β} {w : W} (hp : wp m adm p (Post.ifReturned P) w)
    (hf : ∀ a w, P a w → wp m adm (f a) (Post.ifReturned Q) w) :
  wp m adm (p >>= f) (Post.ifReturned Q) w
  := by
  rw [wp_bind]
  apply hp.mono
  · intro a w' ha
    apply hf a w' ha
  · exact fun _ _ h => h
  · exact fun _ h => h

/-- What comes after a first part of which nothing is known. -/
theorem wp_ifReturned_bind_of_forall {Q : β → W → Prop} {p : Prog C R ε α}
    {f : α → Prog C R ε β} {w : W} (hf : ∀ a w, wp m adm (f a) (Post.ifReturned Q) w) :
  wp m adm (p >>= f) (Post.ifReturned Q) w
  := by
  apply wp_ifReturned_bind (wp_ifReturned_of_forall (Q := fun _ _ => True) fun _ _ => trivial)
  exact fun a w _ => hf a w

/-- Of what is asked of a program, what is asked of the runs that return. -/
theorem wp_ifReturned_of_wp {Q : α → W → Prop} {Q' : Post W ε α} {p : Prog C R ε α} {w : W}
    (hp : wp m adm p Q' w) (h : ∀ a w, Q'.returned a w → Q a w) :
  wp m adm p (Post.ifReturned Q) w
  := hp.mono h (fun _ _ _ => trivial) (fun _ _ => trivial)

theorem wp_ifReturned_mono {P Q : α → W → Prop} {p : Prog C R ε α} {w : W}
    (hp : wp m adm p (Post.ifReturned P) w) (h : ∀ a w, P a w → Q a w) :
  wp m adm p (Post.ifReturned Q) w
  := wp_ifReturned_of_wp hp h

/-- The rest keeps to the guard in every world in which the first part can return. -/
theorem keeps_bind_of_ifReturned {P : α → W → Prop} {p : Prog C R ε α}
    {f : α → Prog C R ε β} {w : W} (hp : Keeps m adm ok p w)
    (hreturns : wp m adm p (Post.ifReturned P) w)
    (hf : ∀ a w, P a w → Keeps m adm ok (f a) w) :
  Keeps m adm ok (p >>= f) w
  := by
  apply keeps_bind hp
  apply hreturns.mono
  · exact hf
  · exact fun _ _ h => h
  · exact fun _ h => h

/-! ### What the guard keeps -/

/-- What every call that satisfies the guard keeps holds at the end of a run that keeps to it. -/
theorem Obeys.invariant (Inv : W → Prop) {p : Prog C R ε α} {xs : List X} {w : W}
    (h : Obeys m ok p xs w) (hkeep : ∀ c x w, ok c x w → Inv w → Inv (m.perform c x w).2)
    (hw : Inv w) :
  Inv (run m p xs w).2.2
  := by
  induction p generalizing xs w with
  | pure a => exact hw
  | throw e => exact hw
  | call c k ih =>
      cases xs with
      | nil => exact hw
      | cons x xs => apply ih _ h.2 (hkeep c x w h.1 hw)

/-- A run that keeps to a guard keeps to a weaker one. -/
theorem Obeys.mono {ok' : C → X → W → Prop} {p : Prog C R ε α} {xs : List X} {w : W}
    (h : Obeys m ok p xs w) (hok : ∀ c x w, ok c x w → ok' c x w) :
  Obeys m ok' p xs w
  := by
  induction p generalizing xs w with
  | pure a => trivial
  | throw e => trivial
  | call c k ih =>
      cases xs with
      | nil => trivial
      | cons x xs => exact ⟨hok c x w h.1, ih _ h.2⟩

end Prog
