/-!
# Programs that issue calls

A program over calls `C`, where the call `c` is answered by a reply in `R c`, returns a value,
raises an exception, or issues a call and goes on with the reply.  A machine answers calls: it
takes a call, a choice of the outcome made by the environment, and a world, to the reply and
the world afterwards.  A run is given by the list of the choices.  When the list ends before
the program does, the run is cut, as by a loss of power between two calls.
-/

/-- A program that returns a value in `α` or raises an exception in `ε`. -/
inductive Prog (C : Type) (R : C → Type) (ε α : Type)
  | pure (a : α)
  | throw (e : ε)
  | call (c : C) (k : R c → Prog C R ε α)

namespace Prog

variable {C : Type} {R : C → Type} {ε α β A : Type}

/-! ### Building programs -/

/-- Run `p`, then `f` on the value it returns. -/
def bind : Prog C R ε α → (α → Prog C R ε β) → Prog C R ε β
  | pure a, f => f a
  | throw e, _ => throw e
  | call c k, f => call c fun r => (k r).bind f

instance : Monad (Prog C R ε) where
  pure := Prog.pure
  bind := Prog.bind

theorem bind_assoc {γ : Type} (p : Prog C R ε α) (f : α → Prog C R ε β) (g : β → Prog C R ε γ) :
  p >>= f >>= g = p >>= fun a => f a >>= g
  := by
  change (p.bind f).bind g = p.bind fun a => (f a).bind g
  induction p with
  | pure a => rfl
  | throw e => rfl
  | call c k ih => simp only [bind, ih]

/-- Issue one call. -/
def issue (c : C) : Prog C R ε (R c) :=
  call c pure

/-- Run `p` and catch every exception. -/
def attempt : Prog C R ε α → Prog C R ε (Except ε α)
  | pure a => pure (.ok a)
  | throw e => pure (.error e)
  | call c k => call c fun r => (k r).attempt

/-- Run `f` on the elements of a list, one after the other. -/
def forEach : List A → (A → Prog C R ε Unit) → Prog C R ε Unit
  | [], _ => pure ()
  | a :: as, f => f a >>= fun _ => forEach as f

/-- A program that raises nothing, with every call answered by another program. -/
def interpret {C' : Type} {R' : C' → Type} {ε' : Type} (f : (c : C) → Prog C' R' ε' (R c)) :
    Prog C R Empty α → Prog C' R' ε' α
  | pure a => pure a
  | throw e => e.elim
  | call c k => f c >>= fun r => (k r).interpret f

/-! ### Running programs -/

/-- How a run ends. -/
inductive Outcome (ε α : Type)
  | returned (a : α)
  | raised (e : ε)
  | cut
deriving DecidableEq

/-- What answers the calls: the reply and the next world, for an outcome chosen by the
environment. -/
structure Machine (C : Type) (R : C → Type) (X W : Type) where
  perform : (c : C) → X → W → R c × W

variable {X W : Type}

/-- The machine that keeps a record of the calls it has answered and of the replies. -/
def Machine.traced (m : Machine C R X W) : Machine C R X (W × List ((c : C) × R c)) where
  perform c x s :=
    let (r, w) := m.perform c x s.1
    (r, w, s.2 ++ [⟨c, r⟩])

/-- The run of a program with the given choices: how it ends, the choices that are left, and
the world at the end. -/
def run (m : Machine C R X W) : Prog C R ε α → List X → W → Outcome ε α × List X × W
  | pure a, xs, w => (.returned a, xs, w)
  | throw e, xs, w => (.raised e, xs, w)
  | call _ _, [], w => (.cut, [], w)
  | call c k, x :: xs, w => run m (k (m.perform c x w).1) xs (m.perform c x w).2

/-- A run of a program goes on with the choices its first part leaves. -/
theorem run_bind (m : Machine C R X W) (p : Prog C R ε α) (f : α → Prog C R ε β) (xs : List X)
    (w : W) :
  run m (p >>= f) xs w = match run m p xs w with
    | (.returned a, xs, w) => run m (f a) xs w
    | (.raised e, xs, w) => (.raised e, xs, w)
    | (.cut, xs, w) => (.cut, xs, w)
  := by
  change run m (p.bind f) xs w = _
  induction p generalizing xs w with
  | pure a => rfl
  | throw e => rfl
  | call c k ih =>
      cases xs with
      | nil => rfl
      | cons x xs => exact ih _ xs _

/-- Every choice of the run is admitted at the call it is made for, in the world the call is
issued in. -/
def Obeys (m : Machine C R X W) (adm : C → X → W → Prop) : Prog C R ε α → List X → W → Prop
  | pure _, _, _ => True
  | throw _, _, _ => True
  | call _ _, [], _ => True
  | call c k, x :: xs, w =>
      adm c x w ∧ Obeys m adm (k (m.perform c x w).1) xs (m.perform c x w).2

/-- Whether a run keeps to a guard can be computed. -/
instance decidableObeys (m : Machine C R X W) (adm : C → X → W → Prop)
    [∀ c x w, Decidable (adm c x w)] :
    ∀ (p : Prog C R ε α) (xs : List X) (w : W), Decidable (Obeys m adm p xs w)
  | pure _, _, _ => isTrue trivial
  | throw _, _, _ => isTrue trivial
  | call _ _, [], _ => isTrue trivial
  | call c k, x :: xs, w =>
      have := decidableObeys m adm (k (m.perform c x w).1) xs (m.perform c x w).2
      inferInstanceAs (Decidable (_ ∧ _))

/-- Every run keeps to the guard that admits everything. -/
theorem obeys_true {m : Machine C R X W} {p : Prog C R ε α} {xs : List X} {w : W} :
  Obeys m (fun _ _ _ => True) p xs w
  := by
  induction p generalizing xs w with
  | pure a => trivial
  | throw e => trivial
  | call c k ih =>
      cases xs with
      | nil => trivial
      | cons x xs => exact ⟨trivial, ih _⟩

/-- A run keeps to a guard that admits its choices for every call. -/
theorem obeys_of_forall {m : Machine C R X W} {adm : C → X → W → Prop} {p : Prog C R ε α}
    {xs : List X} {w : W} (h : ∀ x ∈ xs, ∀ c w, adm c x w) :
  Obeys m adm p xs w
  := by
  induction p generalizing xs w with
  | pure a => trivial
  | throw e => trivial
  | call c k ih =>
      cases xs with
      | nil => trivial
      | cons x xs =>
          constructor
          · exact h x List.mem_cons_self c w
          · exact ih _ fun y hy => h y (List.mem_cons_of_mem x hy)

/-! ### Weakest preconditions -/

/-- What is asked of a run: of the value and the world when it returns, of the exception and
the world when it raises, and of the world when it is cut. -/
structure Post (W ε α : Type) where
  returned : α → W → Prop
  raised : ε → W → Prop
  cut : W → Prop

/-- The world is the same way however the run ends. -/
def Post.always (Inv : W → Prop) : Post W ε α where
  returned := fun _ => Inv
  raised := fun _ => Inv
  cut := Inv

/-- The world is one way up to the end, and another when the run returns. -/
def Post.upTo (Inv : W → Prop) (Q : α → W → Prop) : Post W ε α where
  returned := Q
  raised := fun _ => Inv
  cut := Inv

/-- The end of a run is as asked. -/
def Post.Holds (Q : Post W ε α) : Outcome ε α → W → Prop
  | .returned a, w => Q.returned a w
  | .raised e, w => Q.raised e w
  | .cut, w => Q.cut w

/-- Every run of the program from the world, with choices that are admitted, ends as asked. -/
def wp (m : Machine C R X W) (adm : C → X → W → Prop) : Prog C R ε α → Post W ε α → W → Prop
  | pure a, Q, w => Q.returned a w
  | throw e, Q, w => Q.raised e w
  | call c k, Q, w =>
      Q.cut w ∧ ∀ x, adm c x w → wp m adm (k (m.perform c x w).1) Q (m.perform c x w).2

variable {m : Machine C R X W} {adm : C → X → W → Prop}

/-- The runs a weakest precondition speaks about end as asked. -/
theorem holds_of_wp {p : Prog C R ε α} {Q : Post W ε α} {xs : List X} {w : W}
    (h : wp m adm p Q w) (hobeys : Obeys m adm p xs w) :
  Q.Holds (run m p xs w).1 (run m p xs w).2.2
  := by
  induction p generalizing xs w with
  | pure a => exact h
  | throw e => exact h
  | call c k ih =>
      cases xs with
      | nil => exact h.1
      | cons x xs => exact ih _ (h.2 x hobeys.1) hobeys.2

/-- What a program keeps holds at the end of its runs. -/
theorem of_wp_always {p : Prog C R ε α} {Inv : W → Prop} {xs : List X} {w : W}
    (h : wp m adm p (Post.always Inv) w) (hobeys : Obeys m adm p xs w) :
  Inv (run m p xs w).2.2
  := by
  have hends := holds_of_wp h hobeys
  revert hends
  generalize run m p xs w = result
  obtain ⟨outcome, rest, w'⟩ := result
  cases outcome <;> exact id

/-- Where some choice is admitted for every call, there is a run with admitted choices that is not
cut. -/
theorem exists_uncut_run {p : Prog C R ε α} {w : W} (h : ∀ c w, ∃ x, adm c x w) :
  ∃ xs, Obeys m adm p xs w ∧ (run m p xs w).1 ≠ .cut
  := by
  induction p generalizing w with
  | pure a => exact ⟨[], trivial, nofun⟩
  | throw e => exact ⟨[], trivial, nofun⟩
  | call c k ih =>
      obtain ⟨x, hx⟩ := h c w
      obtain ⟨xs, hobeys, hends⟩ := ih (m.perform c x w).1 (w := (m.perform c x w).2)
      exact ⟨x :: xs, ⟨hx, hobeys⟩, hends⟩

/-! ### The rules -/

@[simp]
theorem wp_pure {a : α} {Q : Post W ε α} {w : W} :
  wp m adm (Pure.pure a : Prog C R ε α) Q w ↔ Q.returned a w
  := Iff.rfl

@[simp]
theorem wp_throw {e : ε} {Q : Post W ε α} {w : W} :
  wp m adm (throw e : Prog C R ε α) Q w ↔ Q.raised e w
  := Iff.rfl

@[simp]
theorem wp_issue {c : C} {Q : Post W ε (R c)} {w : W} :
  wp m adm (issue c) Q w
    ↔ Q.cut w ∧ ∀ x, adm c x w → Q.returned (m.perform c x w).1 (m.perform c x w).2
  := Iff.rfl

@[simp]
theorem wp_bind {p : Prog C R ε α} {f : α → Prog C R ε β} {Q : Post W ε β} {w : W} :
  wp m adm (p >>= f) Q w
    ↔ wp m adm p { returned := fun a => wp m adm (f a) Q, raised := Q.raised, cut := Q.cut } w
  := by
  change wp m adm (p.bind f) Q w ↔ _
  induction p generalizing w with
  | pure a => exact Iff.rfl
  | throw e => exact Iff.rfl
  | call c k ih => simp only [bind, wp, ih]

@[simp]
theorem wp_attempt {p : Prog C R ε α} {Q : Post W ε (Except ε α)} {w : W} :
  wp m adm p.attempt Q w
    ↔ wp m adm p
        { returned := fun a => Q.returned (.ok a)
          raised := fun e => Q.returned (.error e)
          cut := Q.cut } w
  := by
  induction p generalizing w with
  | pure a => exact Iff.rfl
  | throw e => exact Iff.rfl
  | call c k ih => simp only [attempt, wp, ih]

/-- The rule of consequence. -/
theorem wp.mono {p : Prog C R ε α} {Q Q' : Post W ε α} {w : W} (h : wp m adm p Q w)
    (hreturned : ∀ a w, Q.returned a w → Q'.returned a w)
    (hraised : ∀ e w, Q.raised e w → Q'.raised e w) (hcut : ∀ w, Q.cut w → Q'.cut w) :
  wp m adm p Q' w
  := by
  induction p generalizing w with
  | pure a => exact hreturned a w h
  | throw e => exact hraised e w h
  | call c k ih =>
      constructor
      · exact hcut w h.1
      · intro x hx
        exact ih _ (h.2 x hx)

/-- The rule of consequence where only less is asked of a run that returns. -/
theorem wp.of_returned {P P' : α → W → Prop} {raised : ε → W → Prop} {cut : W → Prop}
    {p : Prog C R ε α} {w : W}
    (h : wp m adm p { returned := P, raised := raised, cut := cut } w)
    (hreturned : ∀ a w, P a w → P' a w) :
  wp m adm p { returned := P', raised := raised, cut := cut } w
  := h.mono hreturned (fun _ _ h => h) (fun _ h => h)

/-- What two parts of a program keep is kept by the whole. -/
theorem wp_always_bind {p : Prog C R ε α} {f : α → Prog C R ε β} {Inv : W → Prop} {w : W}
    (hp : wp m adm p (Post.always Inv) w) (hf : ∀ a w, Inv w → wp m adm (f a) (Post.always Inv) w) :
  wp m adm (p >>= f) (Post.always Inv) w
  := by
  rw [wp_bind]
  exact hp.mono hf (fun _ _ h => h) (fun _ h => h)

/-- The rule of conjunction. -/
theorem wp_and {p : Prog C R ε α} {Q Q' : Post W ε α} {w : W} (h : wp m adm p Q w)
    (h' : wp m adm p Q' w) :
  wp m adm p
    { returned := fun a w => Q.returned a w ∧ Q'.returned a w
      raised := fun e w => Q.raised e w ∧ Q'.raised e w
      cut := fun w => Q.cut w ∧ Q'.cut w } w
  := by
  induction p generalizing w with
  | pure a => exact ⟨h, h'⟩
  | throw e => exact ⟨h, h'⟩
  | call c k ih =>
      constructor
      · exact ⟨h.1, h'.1⟩
      · intro x hx
        exact ih _ (h.2 x hx) (h'.2 x hx)

/-- What is kept up to the end of two parts of a program is kept by the whole. -/
theorem wp_upTo_bind {p : Prog C R ε α} {f : α → Prog C R ε β} {Inv : W → Prop}
    {P : α → W → Prop} {Q : β → W → Prop} {w : W} (hp : wp m adm p (Post.upTo Inv P) w)
    (hf : ∀ a w, P a w → wp m adm (f a) (Post.upTo Inv Q) w) :
  wp m adm (p >>= f) (Post.upTo Inv Q) w
  := by
  rw [wp_bind]
  exact hp.mono hf (fun _ _ h => h) (fun _ h => h)

theorem wp_always_attempt {p : Prog C R ε α} {Inv : W → Prop} {w : W}
    (hp : wp m adm p (Post.always Inv) w) :
  wp m adm p.attempt (Post.always Inv) w
  := wp_attempt.mpr hp

/-- The rule for loops: the invariant is indexed by the elements done and those still to do. -/
theorem wp_forEach {as : List A} {f : A → Prog C R ε Unit} {Q : Post W ε Unit} {w : W}
    (Inv : List A → List A → W → Prop)
    (hstep : ∀ done a todo w, as = done ++ a :: todo → Inv done (a :: todo) w →
      wp m adm (f a)
        { returned := fun _ => Inv (done ++ [a]) todo, raised := Q.raised, cut := Q.cut } w)
    (hend : ∀ w, Inv as [] w → Q.returned () w) (hstart : Inv [] as w) :
  wp m adm (forEach as f) Q w
  := by
  suffices h : ∀ todo done w, as = done ++ todo → Inv done todo w →
      wp m adm (forEach todo f) Q w from h as [] w rfl hstart
  intro todo
  induction todo with
  | nil =>
      intro done w has hinv
      apply hend
      rw [has, List.append_nil]
      exact hinv
  | cons a todo ih =>
      intro done w has hinv
      simp only [forEach, wp_bind]
      apply (hstep done a todo w has hinv).mono
      · intro _ w' hinv'
        apply ih (done ++ [a]) w' _ hinv'
        simp [has]
      · exact fun _ _ h => h
      · exact fun _ h => h

/-- What the body of a loop keeps is kept by the loop. -/
theorem wp_always_forEach {as : List A} {f : A → Prog C R ε Unit} {Inv : W → Prop} {w : W}
    (hf : ∀ a ∈ as, ∀ w, Inv w → wp m adm (f a) (Post.always Inv) w) (hw : Inv w) :
  wp m adm (forEach as f) (Post.always Inv) w
  := by
  induction as generalizing w with
  | nil => exact hw
  | cons a as ih =>
      apply wp_always_bind (hf a List.mem_cons_self w hw)
      intro _ w' hw'
      apply ih _ hw'
      exact fun b hb => hf b (List.mem_cons_of_mem a hb)

/-! ### Which calls a program issues -/

/-- Every call the program can issue is among the given ones. -/
def Issues (calls : C → Prop) : Prog C R ε α → Prop
  | pure _ => True
  | throw _ => True
  | call c k => calls c ∧ ∀ r, Issues calls (k r)

variable {calls : C → Prop}

@[simp]
theorem issues_pure (a : α) :
  Issues calls (Pure.pure a : Prog C R ε α)
  := trivial

@[simp]
theorem issues_throw (e : ε) :
  Issues calls (throw e : Prog C R ε α)
  := trivial

@[simp]
theorem issues_issue {c : C} :
  Issues calls (issue c : Prog C R ε (R c)) ↔ calls c
  := by
  simp [issue, Issues]

/-- A program issues the calls of its parts. -/
theorem Issues.bind {p : Prog C R ε α} {f : α → Prog C R ε β} (hp : Issues calls p)
    (hf : ∀ a, Issues calls (f a)) :
  Issues calls (p >>= f)
  := by
  change Issues calls (p.bind f)
  induction p with
  | pure a => exact hf a
  | throw e => trivial
  | call c k ih => exact ⟨hp.1, fun r => ih r (hp.2 r)⟩

@[simp]
theorem issues_attempt {p : Prog C R ε α} :
  Issues calls p.attempt ↔ Issues calls p
  := by
  induction p with
  | pure a => exact Iff.rfl
  | throw e => exact Iff.rfl
  | call c k ih => simp only [attempt, Issues, ih]

theorem Issues.mono {calls' : C → Prop} {p : Prog C R ε α} (hp : Issues calls p)
    (h : ∀ c, calls c → calls' c) :
  Issues calls' p
  := by
  induction p with
  | pure a => trivial
  | throw e => trivial
  | call c k ih => exact ⟨h c hp.1, fun r => ih r (hp.2 r)⟩

/-- The frame rule: what every call of a program keeps is kept by its runs. -/
theorem wp_of_issues (Inv : W → Prop) {p : Prog C R ε α} {w : W} (hp : Issues calls p)
    (hkeep : ∀ c x w, calls c → adm c x w → Inv w → Inv (m.perform c x w).2) (hw : Inv w) :
  wp m adm p (Post.always Inv) w
  := by
  induction p generalizing w with
  | pure a => exact hw
  | throw e => exact hw
  | call c k ih =>
      constructor
      · exact hw
      · intro x hx
        exact ih _ (hp.2 _) (hkeep c x w hp.1 hx hw)

/-- What holds of all runs with admitted choices holds where no more choices are admitted for the
calls of the program. -/
theorem wp.restrict {adm' : C → X → W → Prop} {p : Prog C R ε α} {Q : Post W ε α} {w : W}
    (h : wp m adm p Q w) (hp : Issues calls p)
    (hadm : ∀ c x w, calls c → adm' c x w → adm c x w) :
  wp m adm' p Q w
  := by
  induction p generalizing w with
  | pure a => exact h
  | throw e => exact h
  | call c k ih =>
      constructor
      · exact h.1
      · intro x hx
        exact ih _ (h.2 x (hadm c x w hp.1 hx)) (hp.2 _)

/-- The record rule: the runs of a program end with a record end as its runs without one, and what
the calls of the program keep of the record is kept. -/
theorem wp_traced {p : Prog C R ε α} {Q : Post W ε α} {w : W} {t : List ((c : C) × R c)}
    (Keep : List ((c : C) × R c) → Prop) (h : wp m adm p Q w) (hp : Issues calls p)
    (hkeep : ∀ t c r, calls c → Keep t → Keep (t ++ [⟨c, r⟩])) (ht : Keep t) :
  wp m.traced (fun c x s => adm c x s.1) p
    { returned := fun a s => Q.returned a s.1 ∧ Keep s.2
      raised := fun e s => Q.raised e s.1 ∧ Keep s.2
      cut := fun s => Q.cut s.1 ∧ Keep s.2 } (w, t)
  := by
  induction p generalizing w t with
  | pure a => exact ⟨h, ht⟩
  | throw e => exact ⟨h, ht⟩
  | call c k ih =>
      constructor
      · exact ⟨h.1, ht⟩
      · intro x hx
        exact ih _ (h.2 x hx) (hp.2 _) (hkeep t c _ hp.1 ht)

/-! ### Which exceptions a program raises -/

/-- Every exception the program can raise is among the given ones. -/
def RaisesOnly (exceptions : ε → Prop) : Prog C R ε α → Prop
  | pure _ => True
  | throw e => exceptions e
  | call _ k => ∀ r, RaisesOnly exceptions (k r)

variable {exceptions : ε → Prop}

@[simp]
theorem raisesOnly_pure (a : α) :
  RaisesOnly exceptions (Pure.pure a : Prog C R ε α)
  := trivial

@[simp]
theorem raisesOnly_issue (c : C) :
  RaisesOnly exceptions (issue c : Prog C R ε (R c))
  := fun _ => trivial

/-- A program raises the exceptions of its parts. -/
theorem RaisesOnly.bind {p : Prog C R ε α} {f : α → Prog C R ε β} (hp : RaisesOnly exceptions p)
    (hf : ∀ a, RaisesOnly exceptions (f a)) :
  RaisesOnly exceptions (p >>= f)
  := by
  change RaisesOnly exceptions (p.bind f)
  induction p with
  | pure a => exact hf a
  | throw e => exact hp
  | call c k ih => exact fun r => ih r (hp r)

theorem raisesOnly_attempt (p : Prog C R ε α) :
  RaisesOnly exceptions p.attempt
  := by
  induction p with
  | pure a => trivial
  | throw e => trivial
  | call c k ih => exact ih

/-- What follows a program whose exceptions are caught is given one of them. -/
theorem RaisesOnly.attempt_bind {p : Prog C R ε α} {f : Except ε α → Prog C R ε β}
    (hp : RaisesOnly exceptions p) (hok : ∀ a, RaisesOnly exceptions (f (.ok a)))
    (herror : ∀ e, exceptions e → RaisesOnly exceptions (f (.error e))) :
  RaisesOnly exceptions (p.attempt >>= f)
  := by
  change RaisesOnly exceptions (p.attempt.bind f)
  induction p with
  | pure a => exact hok a
  | throw e => exact herror e hp
  | call c k ih => exact fun r => ih r (hp r)

/-- A program that raises nothing raises the exceptions of the programs that answer its calls. -/
theorem raisesOnly_interpret {C' : Type} {R' : C' → Type} {p : Prog C' R' Empty α}
    {f : (c : C') → Prog C R ε (R' c)} (hf : ∀ c, RaisesOnly exceptions (f c)) :
  RaisesOnly exceptions (p.interpret f)
  := by
  induction p with
  | pure a => trivial
  | throw e => exact e.elim
  | call c k ih => exact (hf c).bind ih

/-- A part of which nothing but its exceptions matters. -/
theorem wp_bind_of_raisesOnly {p : Prog C R ε α} {f : α → Prog C R ε β} {Q : Post W ε β} {w : W}
    (hp : RaisesOnly exceptions p) (hf : ∀ a w, wp m adm (f a) Q w)
    (hraised : ∀ e w, exceptions e → Q.raised e w) (hcut : ∀ w, Q.cut w) :
  wp m adm (p >>= f) Q w
  := by
  change wp m adm (p.bind f) Q w
  induction p generalizing w with
  | pure a => exact hf a w
  | throw e => exact hraised e w hp
  | call c k ih => exact ⟨hcut w, fun x _ => ih _ (hp _)⟩

end Prog
