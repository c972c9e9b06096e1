/-!
# Methods

A method is a computation on the state of an object that returns a value or raises an exception.
What it has done to the state before an exception stays done.  `call` runs a method on an object,
and the rules below run it step by step.
-/

/-- A method of objects with state `σ` that may raise an exception in `ε`. -/
abbrev Method (ε σ : Type) := ExceptT ε (StateM σ)

namespace Method

variable {ε σ α β : Type}

/-- What a method returns or raises on an object, and the object afterwards. -/
def call (m : Method ε σ α) (self : σ) : Except ε α × σ :=
  m.run.run self

@[simp]
theorem call_pure (a : α) (self : σ) :
  (pure a : Method ε σ α).call self = (.ok a, self)
  := rfl

@[simp]
theorem call_modify (f : σ → σ) (self : σ) :
  (modify f : Method ε σ Unit).call self = (.ok (), f self)
  := rfl

/-- A method that returns is followed by the next one on the object it leaves. -/
theorem call_bind_of_ok {m : Method ε σ α} {f : α → Method ε σ β} {a : α} {self self' : σ}
    (h : m.call self = (.ok a, self')) :
  (m >>= f).call self = (f a).call self'
  := by
  unfold call at h ⊢
  rw [ExceptT.run_bind, StateT.run_bind, h]
  rfl

/-- A method that raises an exception is followed by nothing. -/
theorem call_bind_of_error {m : Method ε σ α} {f : α → Method ε σ β} {e : ε} {self self' : σ}
    (h : m.call self = (.error e, self')) :
  (m >>= f).call self = (.error e, self')
  := by
  unfold call at h ⊢
  rw [ExceptT.run_bind, StateT.run_bind, h]
  rfl

theorem call_modify_bind (g : σ → σ) (f : Unit → Method ε σ β) (self : σ) :
  (modify g >>= f).call self = (f ()).call (g self)
  := by
  apply call_bind_of_ok
  rfl

@[simp]
theorem call_get_bind (f : σ → Method ε σ β) (self : σ) :
  (get >>= f).call self = (f self).call self
  := by
  apply call_bind_of_ok
  rfl

@[simp]
theorem call_set_bind (s : σ) (f : PUnit → Method ε σ β) (self : σ) :
  (set s >>= f).call self = (f ()).call s
  := by
  apply call_bind_of_ok
  rfl

/-- When neither the method nor the clean-up raises an exception, what the method returns is
returned. -/
theorem call_tryFinally_of_ok {m : Method ε σ α} {cleanUp : Method ε σ β} {a : α} {b : β}
    {self self' self'' : σ} (h : m.call self = (.ok a, self'))
    (hcleanUp : cleanUp.call self' = (.ok b, self'')) :
  (tryFinally m cleanUp).call self = (.ok a, self'')
  := by
  have h : m self = (.ok a, self') := h
  have hcleanUp : cleanUp self' = (.ok b, self'') := hcleanUp
  simp [call, tryFinally, tryFinally', ExceptT.run, StateT.run, ExceptT.mk, Functor.map,
    ExceptT.map, StateT.bind, h, hcleanUp, bind, pure]
  rfl

/-- When the method raises an exception, one is raised, whatever the clean-up does. -/
theorem call_tryFinally_of_error {m : Method ε σ α} {e : ε} {self self' : σ}
    (cleanUp : Method ε σ β) (h : m.call self = (.error e, self')) :
  ∃ e' self'', (tryFinally m cleanUp).call self = (.error e', self'')
  := by
  have h : m self = (.error e, self') := h
  cases hcleanUp : cleanUp self' with
  | mk result self'' =>
      cases result with
      | ok b =>
          refine ⟨e, self'', ?_⟩
          simp [call, tryFinally, tryFinally', ExceptT.run, StateT.run, ExceptT.mk, Functor.map,
            ExceptT.map, StateT.bind, h, hcleanUp, bind, pure]
          rfl
      | error e' =>
          refine ⟨e', self'', ?_⟩
          simp [call, tryFinally, tryFinally', ExceptT.run, StateT.run, ExceptT.mk, Functor.map,
            ExceptT.map, StateT.bind, h, hcleanUp, bind, pure]
          rfl

/-! ### What a method leaves -/

/-- The method leaves an object of which `ok` holds when it returns, and one of which `raised`
holds when it raises an exception. -/
structure Ends (m : Method ε σ α) (before : σ) (ok : α → σ → Prop) (raised : σ → Prop) :
    Prop where
  of_ok : ∀ {a after}, m.call before = (.ok a, after) → ok a after
  of_error : ∀ {e after}, m.call before = (.error e, after) → raised after

variable {self : σ} {ok : α → σ → Prop} {ok' : β → σ → Prop} {raised : σ → Prop}

/-- What a method leaves may be described more weakly. -/
theorem Ends.mono {m : Method ε σ α} {ok₁ : α → σ → Prop} {raised₁ : σ → Prop}
    (h : m.Ends self ok raised) (hok : ∀ a self', ok a self' → ok₁ a self')
    (hraised : ∀ self', raised self' → raised₁ self') :
  m.Ends self ok₁ raised₁
  := by
  constructor
  · intro a self' hcall
    exact hok a self' (h.of_ok hcall)
  · intro e self' hcall
    exact hraised self' (h.of_error hcall)

/-- Two descriptions of what a method leaves hold at once. -/
theorem Ends.and {m : Method ε σ α} {ok₁ : α → σ → Prop} {raised₁ : σ → Prop}
    (h : m.Ends self ok raised) (h₁ : m.Ends self ok₁ raised₁) :
  m.Ends self (fun a self' => ok a self' ∧ ok₁ a self')
    (fun self' => raised self' ∧ raised₁ self')
  := by
  constructor
  · intro a self' hcall
    exact ⟨h.of_ok hcall, h₁.of_ok hcall⟩
  · intro e self' hcall
    exact ⟨h.of_error hcall, h₁.of_error hcall⟩

/-- What holds of the object however the method ends. -/
theorem Ends.after {m : Method ε σ α} (h : m.Ends self (fun _ => raised) raised) :
  raised (m.call self).2
  := by
  cases hcall : m.call self with
  | mk result self' =>
      cases result with
      | ok a => exact h.of_ok hcall
      | error e => exact h.of_error hcall

/-- Every method ends somehow. -/
theorem ends_trivial (m : Method ε σ α) :
  m.Ends self (fun _ _ => True) (fun _ => True)
  := ⟨fun _ => trivial, fun _ => trivial⟩

theorem ends_pure {a : α} (h : ok a self) :
  (pure a : Method ε σ α).Ends self ok raised
  := by
  constructor
  · intro a' self' hcall
    obtain ⟨ha, rfl⟩ := Prod.mk.inj hcall
    obtain rfl := Except.ok.inj ha
    exact h
  · intro e self' hcall
    simp at hcall

theorem ends_throw {e : ε} (h : raised self) :
  (throw e : Method ε σ α).Ends self ok raised
  := by
  constructor
  · intro a self' hcall
    cases hcall
  · intro e' self' hcall
    cases hcall
    exact h

/-- A method is followed by the next one only where it returns. -/
theorem Ends.bind {m : Method ε σ α} {f : α → Method ε σ β} (h : m.Ends self ok raised)
    (hf : ∀ a self', ok a self' → (f a).Ends self' ok' raised) :
  (m >>= f).Ends self ok' raised
  := by
  cases hcall : m.call self with
  | mk result self' =>
      cases result with
      | ok a =>
          have hnext := hf a self' (h.of_ok hcall)
          constructor
          · intro b self'' hb
            rw [call_bind_of_ok hcall] at hb
            exact hnext.of_ok hb
          · intro e self'' he
            rw [call_bind_of_ok hcall] at he
            exact hnext.of_error he
      | error e =>
          have hraised := h.of_error hcall
          constructor
          · intro b self'' hb
            rw [call_bind_of_error hcall] at hb
            simp at hb
          · intro e' self'' he
            rw [call_bind_of_error hcall] at he
            obtain ⟨-, rfl⟩ := Prod.mk.inj he
            exact hraised

theorem ends_get_bind {f : σ → Method ε σ α} (h : (f self).Ends self ok raised) :
  (get >>= f).Ends self ok raised
  := by
  constructor
  · intro a self' hcall
    rw [call_get_bind] at hcall
    exact h.of_ok hcall
  · intro e self' hcall
    rw [call_get_bind] at hcall
    exact h.of_error hcall

theorem ends_set {s : σ} {ok : PUnit → σ → Prop} (h : ok ⟨⟩ s) :
  (set s : Method ε σ PUnit).Ends self ok raised
  := by
  constructor
  · intro a self' hcall
    cases hcall
    exact h
  · intro e self' hcall
    cases hcall

theorem ends_set_bind {s : σ} {f : PUnit → Method ε σ α} (h : (f ⟨⟩).Ends s ok raised) :
  (set s >>= f).Ends self ok raised
  := by
  constructor
  · intro a self' hcall
    rw [call_set_bind] at hcall
    exact h.of_ok hcall
  · intro e self' hcall
    rw [call_set_bind] at hcall
    exact h.of_error hcall

end Method
