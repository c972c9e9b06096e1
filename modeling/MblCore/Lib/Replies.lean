import MblCore.Lib.Interleave

/-!
# What is known of the replies

What a program comes to when the replies to its calls are known to be of some kind, whatever the
world is.  `FromCalls` says so of the rest of the program at each of its calls, with any replies
before it, and `FromLaterCalls` at each call but the first.
-/

namespace Prog

variable {C : Type} {R : C → Type} {ε α β : Type}

/-- With replies of the kind, the program returns, or raises, what it is asked to. -/
def Comes (known : (c : C) → R c → Prop) (returned : α → Prop) (raised : ε → Prop) :
    Prog C R ε α → Prop
  | pure a => returned a
  | throw e => raised e
  | call c k => ∀ r, known c r → Comes known returned raised (k r)

/-- What the rest of the program comes to, at each of its calls. -/
def FromCalls (known : (c : C) → R c → Prop) (returned : α → Prop) (raised : ε → Prop) :
    Prog C R ε α → Prop
  | pure _ => True
  | throw _ => True
  | call c k =>
      Comes known returned raised (call c k) ∧ ∀ r, FromCalls known returned raised (k r)

/-- What the rest of the program comes to, at each of its calls but the first. -/
def FromLaterCalls (known : (c : C) → R c → Prop) (returned : α → Prop) (raised : ε → Prop) :
    Prog C R ε α → Prop
  | call _ k => ∀ r, FromCalls known returned raised (k r)
  | _ => True

variable {known : (c : C) → R c → Prop} {returned : α → Prop} {raised : ε → Prop}

/-! ### The rules -/

@[simp]
theorem comes_pure {a : α} :
  Comes known returned raised (Pure.pure a : Prog C R ε α) ↔ returned a
  := Iff.rfl

@[simp]
theorem comes_bind {p : Prog C R ε α} {f : α → Prog C R ε β} {returned : β → Prop} :
  Comes known returned raised (p >>= f)
    ↔ Comes known (fun a => Comes known returned raised (f a)) raised p
  := by
  change Comes known returned raised (p.bind f) ↔ _
  induction p with
  | pure a => exact Iff.rfl
  | throw e => exact Iff.rfl
  | call c k ih => simp only [bind, Comes, ih]

@[simp]
theorem comes_attempt {p : Prog C R ε α} {returned : Except ε α → Prop} :
  Comes known returned raised p.attempt
    ↔ Comes known (fun a => returned (.ok a)) (fun e => returned (.error e)) p
  := by
  induction p with
  | pure a => exact Iff.rfl
  | throw e => exact Iff.rfl
  | call c k ih => simp only [attempt, Comes, ih]

/-- Whatever a program returns or raises is asked of it. -/
theorem comes_of_forall {p : Prog C R ε α} (hreturned : ∀ a, returned a)
    (hraised : ∀ e, raised e) :
  Comes known returned raised p
  := by
  induction p with
  | pure a => exact hreturned a
  | throw e => exact hraised e
  | call c k ih => exact fun r _ => ih r

theorem fromCalls_of_forall {p : Prog C R ε α} (hreturned : ∀ a, returned a)
    (hraised : ∀ e, raised e) :
  FromCalls known returned raised p
  := by
  induction p with
  | pure a => trivial
  | throw e => trivial
  | call c k ih => exact ⟨comes_of_forall hreturned hraised, ih⟩

theorem FromCalls.fromLaterCalls {p : Prog C R ε α} (h : FromCalls known returned raised p) :
  FromLaterCalls known returned raised p
  := by
  cases p with
  | pure a => trivial
  | throw e => trivial
  | call c k => exact h.2

theorem FromLaterCalls.fromCalls {p : Prog C R ε α} (h : FromLaterCalls known returned raised p)
    (hcomes : Comes known returned raised p) :
  FromCalls known returned raised p
  := by
  cases p with
  | pure a => trivial
  | throw e => trivial
  | call c k => exact ⟨hcomes, h⟩

/-- The rest goes on from what the first part comes to. -/
theorem FromCalls.bind {p : Prog C R ε α} {f : α → Prog C R ε β} {returned : β → Prop}
    (hp : FromCalls known (fun a => Comes known returned raised (f a)) raised p)
    (hf : ∀ a, FromCalls known returned raised (f a)) :
  FromCalls known returned raised (p >>= f)
  := by
  change FromCalls known returned raised (p.bind f)
  induction p with
  | pure a => exact hf a
  | throw e => trivial
  | call c k ih =>
      constructor
      · exact comes_bind.mpr hp.1
      · exact fun r => ih r (hp.2 r)

/-- The first part is the first call. -/
theorem fromLaterCalls_bind {p : Prog C R ε α} {f : α → Prog C R ε β} {returned : β → Prop}
    (hp : p.AtMost 1) (hf : ∀ a, FromCalls known returned raised (f a)) :
  FromLaterCalls known returned raised (p >>= f)
  := by
  change FromLaterCalls known returned raised (p.bind f)
  cases p with
  | pure a => exact (hf a).fromLaterCalls
  | throw e => trivial
  | call c k =>
      intro r
      have hends : (k r).AtMost 0 := hp r
      change FromCalls known returned raised ((k r).bind f)
      cases hk : k r with
      | pure a => exact hf a
      | throw e => trivial
      | call c' k' =>
          rw [hk] at hends
          exact hends.elim

/-! ### Steps -/

namespace Tasks

variable {ι X W : Type} [DecidableEq ι] {m : ι → Machine C R X W} {s s' : Tasks ι C R ε α W}
  {i j : ι} {x : X}

/-- A reply of the kind changes nothing of what a program comes to. -/
theorem comes_step (hs : Comes known returned raised (s.task j))
    (hknown : ∀ c k, i = j → s.task j = call c k → known c ((m j).perform c x s.world).1)
    (h : step m s (i, x) = some s') :
  Comes known returned raised (s'.task j)
  := by
  apply task_step h hs
  intro c k hi htask
  rw [htask] at hs
  exact hs _ (hknown c k hi htask)

theorem fromCalls_step (hs : FromCalls known returned raised (s.task j))
    (h : step m s (i, x) = some s') :
  FromCalls known returned raised (s'.task j)
  := by
  apply task_step h hs
  intro c k _ htask
  rw [htask] at hs
  exact hs.2 _

theorem fromLaterCalls_step (hs : FromLaterCalls known returned raised (s.task j))
    (h : step m s (i, x) = some s') :
  FromLaterCalls known returned raised (s'.task j)
  := by
  apply task_step h hs
  intro c k _ htask
  rw [htask] at hs
  exact (hs _).fromLaterCalls

/-- A program that has been answered is past its first call. -/
theorem fromCalls_of_step (hs : FromLaterCalls known returned raised (s.task i))
    (h : step m s (i, x) = some s') :
  FromCalls known returned raised (s'.task i)
  := by
  obtain ⟨c, k, htask, rfl⟩ := exists_of_step h
  rw [htask] at hs
  dsimp only
  rw [Function.update_self]
  exact hs _

end Tasks

end Prog
