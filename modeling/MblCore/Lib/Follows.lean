import MblCore.Lib.Prog

/-!
# Programs that follow other programs

A program with a state of its own follows a program without one: it issues the same calls, goes on
with the same replies, and ends in the same way, whatever it does to its state in between.  Calls
that only ask for what is known beforehand can be answered before a program is followed.
-/

namespace Prog

variable {C : Type} {R : C → Type} {ε ε' α β σ : Type}

/-! ### Exceptions and answers -/

/-- The program with its exceptions renamed. -/
def mapThrow (f : ε → ε') : Prog C R ε α → Prog C R ε' α
  | pure a => pure a
  | throw e => throw (f e)
  | call c k => call c fun r => (k r).mapThrow f

@[simp]
theorem mapThrow_bind (f : ε → ε') (p : Prog C R ε α) (g : α → Prog C R ε β) :
  (p >>= g).mapThrow f = p.mapThrow f >>= fun a => (g a).mapThrow f
  := by
  change (p.bind g).mapThrow f = (p.mapThrow f).bind fun a => (g a).mapThrow f
  induction p with
  | pure a => rfl
  | throw e => rfl
  | call c k ih => simp only [bind, mapThrow, ih]

/-- The program when some of its calls are answered beforehand. -/
def answered (answer : (c : C) → Option (R c)) : Prog C R ε α → Prog C R ε α
  | pure a => pure a
  | throw e => throw e
  | call c k =>
      match answer c with
      | some r => (k r).answered answer
      | none => call c fun r => (k r).answered answer

variable {answer : (c : C) → Option (R c)}

@[simp]
theorem answered_bind (p : Prog C R ε α) (f : α → Prog C R ε β) :
  (p >>= f).answered answer = p.answered answer >>= fun a => (f a).answered answer
  := by
  change (p.bind f).answered answer = (p.answered answer).bind fun a => (f a).answered answer
  induction p with
  | pure a => rfl
  | throw e => rfl
  | call c k ih =>
      simp only [bind, answered]
      split
      · apply ih
      · simp only [bind, ih]

theorem answered_issue {c : C} {r : R c} (h : answer c = some r) :
  (issue c : Prog C R ε (R c)).answered answer = Pure.pure r
  := by
  simp only [issue, answered, h]
  rfl

/-- Nothing is answered beforehand of a program that does not ask. -/
theorem answered_of_issues {calls : C → Prop} {p : Prog C R ε α} (hp : Issues calls p)
    (hcalls : ∀ c, calls c → answer c = none) :
  p.answered answer = p
  := by
  induction p with
  | pure a => rfl
  | throw e => rfl
  | call c k ih =>
      simp only [answered, hcalls c hp.1]
      congr
      funext r
      apply ih r (hp.2 r)

/-! ### Programs with a state -/

/-- Every value that the program can return is among the given ones. -/
def Returns (values : α → Prop) : Prog C R ε α → Prop
  | pure a => values a
  | throw _ => True
  | call _ k => ∀ r, Returns values (k r)

theorem Returns.mono {values values' : α → Prop} {p : Prog C R ε α} (hp : Returns values p)
    (h : ∀ a, values a → values' a) :
  Returns values' p
  := by
  induction p with
  | pure a => exact h a hp
  | throw e => trivial
  | call c k ih => exact fun r => ih r (hp r)

theorem Returns.bind {values : α → Prop} {values' : β → Prop} {p : Prog C R ε α}
    {f : α → Prog C R ε β} (hp : Returns values p) (hf : ∀ a, values a → Returns values' (f a)) :
  Returns values' (p >>= f)
  := by
  change Returns values' (p.bind f)
  induction p with
  | pure a => exact hf a hp
  | throw e => trivial
  | call c k ih => exact fun r => ih r (hp r)

/-- What follows a program only matters for the values that it can return. -/
theorem bind_congr {values : α → Prop} {p : Prog C R ε α} {f g : α → Prog C R ε β}
    (hp : Returns values p) (h : ∀ a, values a → f a = g a) :
  p >>= f = p >>= g
  := by
  change p.bind f = p.bind g
  induction p with
  | pure a => exact h a hp
  | throw e => rfl
  | call c k ih =>
      simp only [bind]
      congr
      funext r
      apply ih r (hp r)

theorem pure_bind_eq (a : α) (f : α → Prog C R ε β) :
  Pure.pure a >>= f = f a
  := rfl

theorem bind_pure (p : Prog C R ε α) :
  p >>= Pure.pure = p
  := by
  change p.bind Prog.pure = p
  induction p with
  | pure a => rfl
  | throw e => rfl
  | call c k ih => simp only [bind, ih]

variable {f : ε → ε'} {p : Prog C R ε' (α × σ)} {q : Prog C R ε α}

/-- The program that returns a state issues the calls of the other and ends as it does, and the state
that it returns is as asked. -/
structure Follows (f : ε → ε') (p : Prog C R ε' (α × σ)) (q : Prog C R ε α)
    (post : α → σ → Prop) : Prop where
  same : (p >>= fun r => Pure.pure r.1) = q.mapThrow f
  ends : Returns (fun r => post r.1 r.2) p

theorem Follows.mono {post post' : α → σ → Prop} (h : Follows f p q post)
    (hpost : ∀ a s, post a s → post' a s) :
  Follows f p q post'
  := ⟨h.same, h.ends.mono fun r => hpost r.1 r.2⟩

theorem Follows.pure {post : α → σ → Prop} {a : α} {s : σ} (h : post a s) :
  Follows f (Pure.pure (a, s) : Prog C R ε' (α × σ)) (Pure.pure a : Prog C R ε α) post
  := ⟨rfl, h⟩

/-- Two parts of a program follow the two parts of another. -/
theorem Follows.bind {post : α → σ → Prop} {post' : β → σ → Prop} {g : α × σ → Prog C R ε' (β × σ)}
    {g' : α → Prog C R ε β} (hp : Follows f p q post)
    (hg : ∀ a s, post a s → Follows f (g (a, s)) (g' a) post') :
  Follows f (p >>= g) (q >>= g') post'
  := by
  constructor
  · rw [bind_assoc, mapThrow_bind, ← hp.same, bind_assoc]
    apply bind_congr hp.ends
    intro r hr
    apply (hg r.1 r.2 hr).same
  · apply Returns.bind hp.ends
    intro r hr
    apply (hg r.1 r.2 hr).ends

/-- A last part that only changes the state. -/
theorem Follows.bind_state {post post' : α → σ → Prop} {g : α × σ → Prog C R ε' (α × σ)}
    (hp : Follows f p q post) (hg : ∀ a s, post a s → ∃ s', g (a, s) = Pure.pure (a, s') ∧ post' a s') :
  Follows f (p >>= g) q post'
  := by
  rw [← bind_pure q]
  apply hp.bind
  intro a s hpost
  obtain ⟨s', hs', hpost'⟩ := hg a s hpost
  rw [hs']
  exact Follows.pure hpost'

/-- A program that leaves the state alone. -/
theorem Follows.lift {post : α → σ → Prop} {s : σ} (q : Prog C R ε α) (h : ∀ a, post a s) :
  Follows f (q.mapThrow f >>= fun a => Pure.pure (a, s)) q post
  := by
  constructor
  · rw [bind_assoc]
    generalize q.mapThrow f = p
    induction p with
    | pure a => rfl
    | throw e => rfl
    | call c k ih => exact congrArg (call c) (funext ih)
  · generalize q.mapThrow f = p
    induction p with
    | pure a => exact h a
    | throw e => trivial
    | call c k ih => exact ih

end Prog
