import MblCore.CloudClient.MblCloudClient

/-!
# Callbacks and the lifetime of the instance

While `s_instance` is not 0, the instance is there and its `MbedCloudClient` can be used: the
destructor sets `s_instance` to 0 before it touches the client, and nothing sets it again.  So no
callback uses an instance that is being destroyed.
-/

namespace CloudClient

/-- The access was made through a pointer that is not 0, to a client that can be used. -/
def Access.Valid (a : Access) : Prop :=
  a.nonnull = true ∧ a.status = some .opened

instance (a : Access) : Decidable a.Valid :=
  inferInstanceAs (Decidable (_ ∧ _))

/-- The destructor has set `s_instance` to 0. -/
def RunPc.afterClear : RunPc → Bool
  | .cleared _ | .closed _ | .deleted _ | .returned _ => true
  | _ => false

namespace Process

variable {requests : UpdateRequests} {p p' : Process}

/-- The instance is there, and its client can be used. -/
def Usable (p : Process) : Prop :=
  ∃ i, p.object = some i ∧ i.cloud_client_.status = .opened

/-- A pointer that is not 0 can be used, it is 0 once the destructor has cleared it, and every
access so far was valid. -/
structure Guarded (p : Process) : Prop where
  usable : p.s_instance = true → p.Usable
  cleared : p.pc.afterClear = true → p.s_instance = false
  valid : ∀ a ∈ p.accesses, a.Valid

theorem Guarded.init :
  init.Guarded
  where
    usable := by simp [Process.init]
    cleared := by simp [Process.init]
    valid := by simp [Process.init]

/-! ### Callbacks -/

/-- What is done with an instance that leaves its client as usable as it was. -/
def KeepsStatus (f : Instance → Instance) : Prop :=
  ∀ i, (f i).cloud_client_.status = i.cloud_client_.status

theorem keepsStatus_setState (state : State) :
  KeepsStatus (·.setState state)
  := fun _ => rfl

theorem keepsStatus_callClient (c : ClientCall) :
  KeepsStatus (·.callClient c)
  := fun _ => rfl

/-- An instance that can be used still can be. -/
theorem opened_map {f : Instance → Instance} (hf : KeepsStatus f) {object : Option Instance}
    (h : ∃ i, object = some i ∧ i.cloud_client_.status = .opened) :
  ∃ i, object.map f = some i ∧ i.cloud_client_.status = .opened
  := by
  obtain ⟨i, hi, hopened⟩ := h
  use f i
  constructor
  · rw [hi, Option.map_some]
  · rw [hf i, hopened]

/-- An access through a pointer that is not 0 is valid. -/
theorem Guarded.access {f : Instance → Instance} (h : p.Guarded) (hf : KeepsStatus f)
    (hnonnull : p.s_instance = true) :
  (p.access f).Guarded
  where
    usable _ := opened_map hf (h.usable hnonnull)
    cleared := h.cleared
    valid := by
      intro a ha
      rcases List.mem_append.mp ha with ha | ha
      · exact h.valid a ha
      · obtain ⟨i, hi, hopened⟩ := h.usable hnonnull
        rw [List.mem_singleton.mp ha]
        constructor
        · exact hnonnull
        · simp [hi, hopened]

/-- Every callback looks at the pointer before it uses it. -/
theorem Guarded.criticalSection (h : p.Guarded) (c : Callback) :
  (p.criticalSection requests c).Guarded
  := by
  cases c with
  | handle_client_registered =>
      rw [Process.criticalSection]
      split
      · next hnonnull =>
          apply (h.access (keepsStatus_setState _) hnonnull).access (keepsStatus_callClient _)
          exact hnonnull
      · exact h
  | handle_client_unregistered =>
      rw [Process.criticalSection]
      split
      · next hnonnull => exact h.access (keepsStatus_setState _) hnonnull
      · exact h
  | handle_error cloud_client_code =>
      rw [Process.criticalSection]
      split
      · next hnonnull => exact h.access (keepsStatus_callClient _) hnonnull
      · exact h
  | handle_authorize request =>
      rw [Process.criticalSection]
      split
      · split
        · next hnonnull => exact h.access (keepsStatus_callClient _) hnonnull
        · exact h
      · exact h

/-- A callback that finds the pointer cleared does nothing. -/
theorem criticalSection_of_null (hnull : p.s_instance = false) (c : Callback) :
  p.criticalSection requests c = p
  := by
  cases c <;> simp [criticalSection, hnull]

/-! ### The main thread -/

theorem Guarded.onObject {f : Instance → Instance} {pc : RunPc} (h : p.Guarded)
    (hf : KeepsStatus f) (hpc : pc.afterClear = false) :
  (p.onObject f pc).Guarded
  where
    usable hnonnull := opened_map hf (h.usable hnonnull)
    cleared hclear := by
      have hclear : pc.afterClear = true := hclear
      rw [hpc] at hclear
      contradiction
    valid := h.valid

/-- Once the pointer is cleared, the instance may be taken apart. -/
theorem Guarded.of_null (h : p.Guarded) (hnull : p'.s_instance = false)
    (hsame : p'.accesses = p.accesses) :
  p'.Guarded
  where
    usable hnonnull := by
      rw [hnull] at hnonnull
      contradiction
    cleared _ := hnull
    valid := by
      rw [hsame]
      exact h.valid

/-- A step that only moves on. -/
theorem Guarded.move {pc : RunPc} (h : p.Guarded) (hpc : pc.afterClear = false) :
  { p with pc := pc }.Guarded
  where
    usable := h.usable
    cleared hclear := by
      have hclear : pc.afterClear = true := hclear
      rw [hpc] at hclear
      contradiction
    valid := h.valid

theorem Guarded.runStep (h : p.Guarded) (x : Bool) :
  (p.runStep x).Guarded
  := by
  have hnull (hclear : p.pc.afterClear = true) : p.s_instance = false := h.cleared hclear
  rw [Process.runStep]
  split
  · split
    · exact h.move rfl
    · constructor
      · exact fun _ => ⟨Instance.new, rfl, rfl⟩
      · exact fun hclear => by contradiction
      · exact h.valid
  · have hregistered : (p.onObject (·.callClient .register_handlers) .handlersRegistered).Guarded :=
      h.onObject (keepsStatus_callClient _) rfl
    exact ⟨hregistered.usable, hregistered.cleared, hregistered.valid⟩
  · exact h.onObject (keepsStatus_callClient _) rfl
  · exact h.onObject (keepsStatus_setState _) rfl
  · apply h.onObject (keepsStatus_callClient _)
    split <;> rfl
  · exact h.move rfl
  · apply h.move
    split <;> rfl
  · rw [checkState]
    split
    · exact h.move rfl
    · exact h.move rfl
  · split
    · exact h.onObject (keepsStatus_callClient _) rfl
    · exact h.move rfl
  · split
    · exact h.of_null rfl rfl
    · exact h.move rfl
  · next hpc => exact h.of_null (hnull (by rw [hpc]; rfl)) rfl
  · next hpc => exact h.of_null (hnull (by rw [hpc]; rfl)) rfl
  · next hpc => exact h.of_null (hnull (by rw [hpc]; rfl)) rfl
  · exact h
  · exact h

/-! ### Every interleaving -/

theorem Guarded.step {e : Event} (h : p.Guarded) (hstep : step requests p e = some p') :
  p'.Guarded
  := by
  cases e with
  | main x =>
      rw [Process.step] at hstep
      split at hstep
      · contradiction
      · obtain rfl := Option.some.inj hstep
        exact h.runStep x
  | invoke c =>
      rw [Process.step] at hstep
      split at hstep
      · obtain rfl := Option.some.inj hstep
        exact ⟨h.usable, h.cleared, h.valid⟩
      · contradiction
  | enter i =>
      rw [Process.step] at hstep
      split at hstep
      · contradiction
      · obtain rfl := Option.some.inj hstep
        apply Guarded.criticalSection
        exact ⟨h.usable, h.cleared, h.valid⟩

/-- In every run every access of a callback goes through a pointer that is not 0 to a client that
is neither closed nor deleted, and a callback that runs once the destructor has cleared the
pointer changes nothing of the instance and its client. -/
theorem callbacks_access_live {es : List Event} (hrun : Lts.exec (step requests) init es = some p) :
  (∀ a ∈ p.accesses, a.Valid) ∧
    (p.pc.afterClear = true → ∀ i p', step requests p (.enter i) = some p' →
      p'.object = p.object ∧ p'.accesses = p.accesses)
  := by
  have h := Lts.invariant' Guarded (fun _ _ _ => Guarded.step) Guarded.init hrun
  use h.valid
  intro hclear i p' hstep
  rw [Process.step] at hstep
  split at hstep
  · contradiction
  · obtain rfl := Option.some.inj hstep
    rw [criticalSection_of_null]
    · exact ⟨rfl, rfl⟩
    · exact h.cleared hclear

/-- Callbacks before, while and after the instance is destroyed. -/
theorem callbacks_access_live_shutdown :
  ∃ p, Lts.exec (step ⟨1, 2⟩) init
      ([.main true, .main true, .invoke .handle_client_registered, .main true, .main true, .enter 0,
        .invoke (.handle_authorize 2), .main true, .main true, .enter 0,
        .invoke (.handle_authorize 1), .main true, .main true, .invoke (.handle_error 7), .enter 1,
        .main true, .enter 0, .main true]) = some p
    ∧ p.accesses.length = 3 ∧ ∀ a ∈ p.accesses, a.Valid
  := by
  have hcount : (Lts.exec (step ⟨1, 2⟩) init
      ([.main true, .main true, .invoke .handle_client_registered, .main true, .main true, .enter 0,
        .invoke (.handle_authorize 2), .main true, .main true, .enter 0,
        .invoke (.handle_authorize 1), .main true, .main true, .invoke (.handle_error 7), .enter 1,
        .main true, .enter 0, .main true])).map (fun p => p.accesses.length) = some 3 := by decide
  obtain ⟨p, hrun, hp⟩ := Option.map_eq_some_iff.mp hcount
  use p, hrun, hp
  exact (callbacks_access_live hrun).1

end Process

end CloudClient
