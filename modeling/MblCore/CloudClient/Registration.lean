import MblCore.CloudClient.Callbacks

/-!
# Registration of the client over time

`run` registers the device again every half of the lifetime of a registration, by a clock that it
reads once in every pass of its loop.  The process of `MblCloudClient` is put into time here: the
clock goes on between any two steps, also between the reading and the registration it leads to, a
signal may come in at any time, and the callbacks of the event loop come in between.
-/

namespace CloudClient

def MBED_CLOUD_CLIENT_LIFETIME : Nat :=
  600

def g_reregister_period_s : Nat :=
  MBED_CLOUD_CLIENT_LIFETIME / 2

/-- A registration: the set-up, or a call of `register_update`. -/
structure Registration where
  /-- The time `run` went by: that before its loop, or that read before the call. -/
  read : Nat
  /-- The time of the call itself. -/
  called : Nat
deriving DecidableEq

/-- The call was no more than `ε` seconds off the time read for it. -/
def Registration.Quick (ε : Nat) (r : Registration) : Prop :=
  r.called ≤ r.read + ε ∧ r.read ≤ r.called + ε

/-- The process in time. -/
structure Timed where
  process : Process
  /-- What `get_monotonic_time_s` returns. -/
  now : Nat
  g_shutdown_signal : Bool
  next_registration_s : Nat
  /-- The time read in this pass of the loop, until `run` has acted on it. -/
  time_s : Option Nat
  /-- When `setup` was called. -/
  setup_s : Nat
  /-- The last one first. -/
  registrations : List Registration
  /-- The times read in `run`, the last one first. -/
  passes : List Nat
  /-- The callbacks that went through their critical sections since `State_CalledRegister` was
  set. -/
  since : List Callback
  /-- These callbacks at the time the loop was left for the state of the instance. -/
  decided : Option (List Callback)
deriving DecidableEq

namespace Timed

def init : Timed where
  process := .init
  now := 0
  g_shutdown_signal := false
  next_registration_s := 0
  time_s := none
  setup_s := 0
  registrations := []
  passes := []
  since := []
  decided := none

/-- What the environment answers the main thread: whether a signal came in and whether it is time
to register are known, and whether `setup` succeeds is `x`. -/
def answer (t : Timed) (x : Bool) : Bool :=
  match t.process.pc with
  | .looping => t.g_shutdown_signal
  | .checkingTime => t.time_s.any fun time_s => decide (t.next_registration_s ≤ time_s)
  | _ => x

/-- The main thread reads the time in a pass of its loop. -/
def readTime (t : Timed) : Timed :=
  { t with time_s := some t.now, passes := t.now :: t.passes }

/-- What else the main thread does with the clock, next to its step. -/
def clockStep (t : Timed) : Timed :=
  match t.process.pc with
  | .resourcesAdded => { t with since := [] }
  | .calledRegister => { t with setup_s := t.now }
  | .setUp =>
      { t with
        next_registration_s := t.now + g_reregister_period_s
        registrations := [⟨t.now, t.setup_s⟩]
        passes := [t.now] }
  | .checkingState =>
      if t.process.object.map Instance.state_ = some .State_Unregistered then
        { t with decided := some t.since }
      else t
  | .checkingTime =>
      match t.time_s with
      | none => t
      | some time_s =>
          if t.next_registration_s ≤ time_s then
            { t with
              time_s := none
              next_registration_s := time_s + g_reregister_period_s
              registrations := ⟨time_s, t.now⟩ :: t.registrations }
          else { t with time_s := none }
  | _ => t

inductive Event
  /-- The main thread takes a step; `x` tells whether `setup` succeeds. -/
  | main (x : Bool)
  | wait (seconds : Nat)
  /-- `mbl_shutdown_handler`. -/
  | signal
  | invoke (c : Callback)
  | enter (i : Nat)
deriving DecidableEq

variable (requests : Process.UpdateRequests)

/-- One step of the process in time. -/
def step (t : Timed) : Event → Option Timed
  | .main x =>
      if t.process.pc = .checkingTime ∧ t.time_s = none then some t.readTime
      else
        (Process.step requests t.process (.main (t.answer x))).map fun process =>
          { t.clockStep with process }
  | .wait seconds => some { t with now := t.now + seconds }
  | .signal => some { t with g_shutdown_signal := true }
  | .invoke c =>
      (Process.step requests t.process (.invoke c)).map fun process => { t with process }
  | .enter i =>
      match t.process.pending[i]? with
      | none => none
      | some c =>
          (Process.step requests t.process (.enter i)).map fun process =>
            { t with process, since := t.since ++ [c] }

/-- The exit status of the client: that of `main` once `daemon`, the log, the signal handlers and the
client library are set up. -/
def exitStatus (run_err : MblError) : Nat :=
  if run_err = .ShutdownRequested then 0 else 1

variable {requests : Process.UpdateRequests} {t t' : Timed}

/-- The main thread reads the time, or goes on; it does not check the time before it has read it. -/
theorem step_main {x : Bool} (h : step requests t (.main x) = some t') :
  (t.process.pc = .checkingTime ∧ t.time_s = none ∧ t' = t.readTime)
    ∨ ((t.process.pc = .checkingTime → t.time_s ≠ none)
      ∧ t' = { t.clockStep with process := t.process.runStep (t.answer x) })
  := by
  rw [step] at h
  split at h
  · next hreads => exact Or.inl ⟨hreads.1, hreads.2, (Option.some.inj h).symm⟩
  · next hreads =>
      right
      use fun hpc hnone => hreads ⟨hpc, hnone⟩
      simp only [Process.step] at h
      split at h
      · contradiction
      · exact (Option.some.inj h).symm

theorem step_invoke {c : Callback} (h : step requests t (.invoke c) = some t') :
  t' = { t with process := { t.process with pending := t.process.pending ++ [c] } }
  := by
  simp only [step, Process.step] at h
  split at h
  · exact (Option.some.inj h).symm
  · contradiction

theorem step_enter {i : Nat} (h : step requests t (.enter i) = some t') :
  ∃ c, t' = { t with
    process :=
      { t.process with pending := t.process.pending.eraseIdx i }.criticalSection requests c
    since := t.since ++ [c] }
  := by
  cases hc : t.process.pending[i]? with
  | none =>
      simp only [step, hc] at h
      contradiction
  | some c =>
      simp only [step, Process.step, hc] at h
      exact ⟨c, (Option.some.inj h).symm⟩

/-! ### The pace -/

/-- The main thread is in the loop of `run`. -/
def inLoop : RunPc → Bool
  | .looping | .checkingState | .checkingTime => true
  | _ => false

/-- The times read for the registrations are at least one period apart. -/
def Spaced (registrations : List Registration) : Prop :=
  registrations.IsChain fun newer older => older.read + g_reregister_period_s ≤ newer.read

/-- No pass of the loop is later than `δ` after the one before. -/
def Within (δ : Nat) (passes : List Nat) : Prop :=
  passes.IsChain fun newer older => newer ≤ older + δ

/-- No registration is read to be due a period and `δ` after the one before. -/
def Prompt (δ : Nat) (registrations : List Registration) : Prop :=
  registrations.IsChain fun newer older =>
    newer.read < older.read + g_reregister_period_s + δ

/-- Between two passes of the loop: the next registration is due one period after the time read for
the last one, and was not due at the last pass that `run` has acted on. -/
structure Due (t : Timed) : Prop where
  registered : ∃ last earlier, t.registrations = last :: earlier
    ∧ t.next_registration_s = last.read + g_reregister_period_s
  passed : ∃ pass earlier, t.passes = t.time_s.toList ++ pass :: earlier
    ∧ pass < t.next_registration_s

/-- The registrations keep the pace. -/
structure Paced (t : Timed) : Prop where
  spaced : Spaced t.registrations
  prompt : ∀ δ, Within δ t.passes → Prompt δ t.registrations
  reading : t.time_s ≠ none → t.process.pc = .checkingTime
  due : inLoop t.process.pc = true → Due t

/-- The time is read. -/
theorem Paced.readTime (h : Paced t) (hpc : t.process.pc = .checkingTime) (hnone : t.time_s = none) :
  Paced t.readTime
  := by
  obtain ⟨hregistered, pass, before, hpasses, hpass⟩ := h.due (by rw [hpc]; rfl)
  rw [hnone, Option.toList_none, List.nil_append] at hpasses
  constructor
  · exact h.spaced
  · intro δ hwithin
    apply h.prompt
    simp only [Within, Timed.readTime, hpasses, List.isChain_cons_cons] at hwithin ⊢
    exact hwithin.2
  · exact fun _ => hpc
  · intro _
    exact ⟨hregistered, pass, before, by simp [Timed.readTime, hpasses], hpass⟩

/-- A pass at which the next registration is due. -/
theorem Paced.register (h : Paced t) (hloop : inLoop t.process.pc = true) {time_s : Nat}
    (hread : t.time_s = some time_s) (hdue : t.next_registration_s ≤ time_s) (process : Process) :
  Paced { t with
    process
    time_s := none
    next_registration_s := time_s + g_reregister_period_s
    registrations := ⟨time_s, t.now⟩ :: t.registrations }
  := by
  obtain ⟨⟨last, earlier, hregistrations, hnext⟩, pass, before, hpasses, hpass⟩ := h.due hloop
  rw [hread, Option.toList_some, List.singleton_append] at hpasses
  constructor
  · simp only [Spaced, hregistrations, List.isChain_cons_cons]
    use hnext ▸ hdue
    have hspaced := h.spaced
    rwa [hregistrations] at hspaced
  · intro δ hwithin
    have hprompt := h.prompt δ hwithin
    simp only [Within, hpasses, List.isChain_cons_cons] at hwithin
    obtain ⟨hsoon, -⟩ := hwithin
    simp only [Prompt, hregistrations, List.isChain_cons_cons]
    rw [hregistrations] at hprompt
    refine ⟨?_, hprompt⟩
    omega
  · exact fun hsome => absurd rfl hsome
  · intro _
    constructor
    · exact ⟨_, t.registrations, rfl, rfl⟩
    · refine ⟨time_s, pass :: before, hpasses, ?_⟩
      simp only [g_reregister_period_s, MBED_CLOUD_CLIENT_LIFETIME]
      omega

/-- A pass at which it is not. -/
theorem Paced.pass (h : Paced t) (hloop : inLoop t.process.pc = true) {time_s : Nat}
    (hread : t.time_s = some time_s) (hdue : time_s < t.next_registration_s) (process : Process) :
  Paced { t with process, time_s := none }
  := by
  obtain ⟨hregistered, pass, before, hpasses, hpass⟩ := h.due hloop
  rw [hread, Option.toList_some, List.singleton_append] at hpasses
  constructor
  · exact h.spaced
  · exact h.prompt
  · exact fun hsome => absurd rfl hsome
  · intro _
    exact ⟨hregistered, time_s, pass :: before, hpasses, hdue⟩

/-- The loop begins. -/
theorem Paced.begin (h : Paced t) (hpc : t.process.pc = .setUp) (process : Process) :
  Paced { t with
    process
    next_registration_s := t.now + g_reregister_period_s
    registrations := [⟨t.now, t.setup_s⟩]
    passes := [t.now] }
  := by
  have hnone : t.time_s = none := by
    by_contra hsome
    simp [h.reading hsome] at hpc
  constructor
  · exact .singleton _
  · exact fun _ _ => .singleton _
  · exact fun hsome => absurd hnone hsome
  · intro _
    constructor
    · exact ⟨_, [], rfl, rfl⟩
    · refine ⟨t.now, [], by simp [hnone], ?_⟩
      simp only [g_reregister_period_s, MBED_CLOUD_CLIENT_LIFETIME]
      omega

/-- A step that has to do neither with the clock nor with the loop. -/
theorem Paced.other (h : Paced t) (hsame : t'.registrations = t.registrations)
    (hpasses : t'.passes = t.passes) (hnext : t'.next_registration_s = t.next_registration_s)
    (htime : t'.time_s = t.time_s) (hreading : t.time_s ≠ none → t'.process.pc = .checkingTime)
    (hloop : inLoop t'.process.pc = true → inLoop t.process.pc = true) :
  Paced t'
  := by
  constructor
  · rw [hsame]
    exact h.spaced
  · rw [hsame, hpasses]
    exact h.prompt
  · rw [htime]
    exact hreading
  · intro hin
    obtain ⟨hregistered, hpassed⟩ := h.due (hloop hin)
    constructor
    · rw [hsame, hnext]
      exact hregistered
    · rw [hpasses, hnext, htime]
      exact hpassed

/-- The loop is entered from where the client is set up. -/
theorem inLoop_runStep (p : Process) (x : Bool) (h : inLoop (p.runStep x).pc = true) :
  inLoop p.pc = true ∨ p.pc = .setUp
  := by
  rw [Process.runStep] at h
  split at h
  · split at h <;> contradiction
  · contradiction
  · contradiction
  · contradiction
  · rw [Process.onObject] at h
    cases x <;> contradiction
  · next hpc => exact Or.inr hpc
  · next hpc => exact Or.inl (by rw [hpc]; rfl)
  · next hpc => exact Or.inl (by rw [hpc]; rfl)
  · next hpc => exact Or.inl (by rw [hpc]; rfl)
  · split at h <;> contradiction
  · contradiction
  · contradiction
  · contradiction
  · next hpc => exact Or.inl h
  · next hpc => exact Or.inl h

/-- The main thread keeps the pace. -/
theorem Paced.main (h : Paced t) (x : Bool) (hread : t.process.pc = .checkingTime → t.time_s ≠ none) :
  Paced { t.clockStep with process := t.process.runStep (t.answer x) }
  := by
  have hloop := inLoop_runStep t.process (t.answer x)
  have hunread (hpc : t.process.pc ≠ .checkingTime) (hsome : t.time_s ≠ none) :
      (t.process.runStep (t.answer x)).pc = .checkingTime :=
    absurd (h.reading hsome) hpc
  unfold clockStep
  split
  · next hpc =>
      refine h.other rfl rfl rfl rfl (hunread (by simp [hpc])) ?_
      exact fun hin => (hloop hin).resolve_right (by simp [hpc])
  · next hpc =>
      refine h.other rfl rfl rfl rfl (hunread (by simp [hpc])) ?_
      exact fun hin => (hloop hin).resolve_right (by simp [hpc])
  · next hpc => exact h.begin hpc _
  · next hpc =>
      have hother : t.process.pc ≠ .checkingTime := by simp [hpc]
      split
      · exact h.other rfl rfl rfl rfl (hunread hother) fun _ => by rw [hpc]; rfl
      · exact h.other rfl rfl rfl rfl (hunread hother) fun _ => by rw [hpc]; rfl
  · next hpc =>
      have hin : inLoop t.process.pc = true := by rw [hpc]; rfl
      split
      · next hnone => exact absurd hnone (hread hpc)
      · next time_s htime =>
          split
          · next hdue => exact h.register hin htime hdue _
          · next hdue => exact h.pass hin htime (Nat.not_le.mp hdue) _
  · next hsetUp _ hother =>
      refine h.other rfl rfl rfl rfl (hunread hother) ?_
      exact fun hin => (hloop hin).resolve_right hsetUp

theorem pc_criticalSection (p : Process) (c : Callback) :
  (p.criticalSection requests c).pc = p.pc
  := by
  cases c with
  | handle_client_registered | handle_client_unregistered | handle_error _ =>
      rw [Process.criticalSection]
      split <;> rfl
  | handle_authorize request =>
      rw [Process.criticalSection]
      split
      · split <;> rfl
      · rfl

theorem Paced.step {e : Event} (h : Paced t) (hstep : step requests t e = some t') :
  Paced t'
  := by
  cases e with
  | main x =>
      obtain ⟨hpc, hnone, rfl⟩ | ⟨hread, rfl⟩ := step_main hstep
      · exact h.readTime hpc hnone
      · exact h.main x hread
  | wait seconds =>
      obtain rfl := Option.some.inj hstep
      exact h.other rfl rfl rfl rfl h.reading id
  | signal =>
      obtain rfl := Option.some.inj hstep
      exact h.other rfl rfl rfl rfl h.reading id
  | invoke c =>
      rw [step_invoke hstep]
      exact h.other rfl rfl rfl rfl h.reading id
  | enter i =>
      obtain ⟨c, rfl⟩ := step_enter hstep
      refine h.other rfl rfl rfl rfl ?_ ?_
      · simp only [pc_criticalSection]
        exact h.reading
      · simp only [pc_criticalSection]
        exact id

theorem Paced.init : Paced init
  := by
  constructor
  · exact .nil
  · exact fun _ _ => .nil
  · exact fun hsome => absurd rfl hsome
  · exact fun hloop => absurd hloop Bool.false_ne_true

/-! ### The instance and its state -/

/-- The instance is there and `s_instance` leads to it. -/
def live : RunPc → Bool
  | .start | .cleared _ | .closed _ | .deleted _ | .returned _ | .aborted => false
  | _ => true

/-- `State_CalledRegister` was set, and `run` has not been left. -/
def registering : RunPc → Bool
  | .calledRegister | .setUp | .looping | .checkingState | .checkingTime => true
  | _ => false

/-- The state the callbacks lead to from `State_CalledRegister`. -/
def reported (cs : List Callback) : State :=
  cs.foldl (fun state c => match c with
    | .handle_client_registered => .State_Registered
    | .handle_client_unregistered => .State_Unregistered
    | _ => state) .State_CalledRegister

/-- The instance is there as long as `run` needs it, its state is what the callbacks have made it,
and no assertion has failed. -/
structure Tracked (p : Process) (since : List Callback) : Prop where
  start : p.pc = .start → p.s_instance = false
  there : live p.pc = true → p.s_instance = true ∧ ∃ i, p.object = some i
  state : registering p.pc = true → p.object.map Instance.state_ = some (reported since)
  not_aborted : p.pc ≠ .aborted

theorem live_of_registering {pc : RunPc} (h : registering pc = true) :
  live pc = true
  := by
  cases pc <;> first | rfl | contradiction

/-- A step of the main thread on the instance. -/
theorem Tracked.onObject {p : Process} {since since' : List Callback} {f : Instance → Instance}
    {pc : RunPc} (h : Tracked p since) (hlive : live p.pc = true)
    (hpc : pc ≠ .start ∧ pc ≠ .aborted)
    (hstate : registering pc = true → (p.object.map f).map Instance.state_ = some (reported since')) :
  Tracked (p.onObject f pc) since'
  := by
  obtain ⟨hnonnull, i, hi⟩ := h.there hlive
  constructor
  · exact fun hstart => absurd hstart hpc.1
  · intro _
    use hnonnull, f i
    simp [Process.onObject, hi]
  · exact hstate
  · exact hpc.2

/-- A step of the main thread that only moves on. -/
theorem Tracked.move {p : Process} {since : List Callback} {pc : RunPc} (h : Tracked p since)
    (hlive : live p.pc = true) (hpc : pc ≠ .start ∧ pc ≠ .aborted)
    (hstate : registering pc = true → registering p.pc = true) :
  Tracked { p with pc := pc } since
  := by
  constructor
  · exact fun hstart => absurd hstart hpc.1
  · exact fun _ => h.there hlive
  · exact fun hregistering => h.state (hstate hregistering)
  · exact hpc.2

theorem state_callClient (object : Option Instance) (c : ClientCall) :
  (object.map (·.callClient c)).map Instance.state_ = object.map Instance.state_
  := by
  cases object <;> rfl

/-- The main thread keeps track, and begins anew where it sets the state. -/
theorem Tracked.main {p : Process} {since since' : List Callback} (h : Tracked p since) (x : Bool)
    (hanew : p.pc = .resourcesAdded → since' = [])
    (hsame : p.pc ≠ .resourcesAdded → since' = since) :
  Tracked (p.runStep x) since'
  := by
  have hlive {pc : RunPc} (hpc : p.pc = pc) (hpc' : live pc = true) : live p.pc = true := by
    rw [hpc, hpc']
  rw [Process.runStep]
  split
  · next hpc =>
      rw [if_neg (by simpa using h.start hpc)]
      exact ⟨by rintro ⟨⟩, fun _ => ⟨rfl, Instance.new, rfl⟩, by rintro ⟨⟩, by rintro ⟨⟩⟩
  · next hpc =>
      obtain ⟨hnonnull, i, hi⟩ := h.there (hlive hpc rfl)
      refine ⟨by rintro ⟨⟩, fun _ => ⟨hnonnull, i.callClient .register_handlers, ?_⟩, by rintro ⟨⟩, by rintro ⟨⟩⟩
      simp [Process.onObject, hi]
  · next hpc => exact h.onObject (hlive hpc rfl) (by simp) (by rintro ⟨⟩)
  · next hpc =>
      obtain ⟨-, i, hi⟩ := h.there (hlive hpc rfl)
      apply h.onObject (hlive hpc rfl) (by simp)
      intro _
      rw [hi, hanew hpc]
      rfl
  · next hpc =>
      obtain rfl := hsame (by simp [hpc])
      apply h.onObject (hlive hpc rfl)
      · split <;> simp
      · intro _
        rw [state_callClient]
        exact h.state (by rw [hpc]; rfl)
  · next hpc =>
      obtain rfl := hsame (by simp [hpc])
      exact h.move (hlive hpc rfl) (by simp) fun _ => by rw [hpc]; rfl
  · next hpc =>
      obtain rfl := hsame (by simp [hpc])
      apply h.move (hlive hpc rfl)
      · split <;> simp
      · exact fun _ => by rw [hpc]; rfl
  · next hpc =>
      obtain rfl := hsame (by simp [hpc])
      rw [Process.checkState]
      split
      · exact h.move (hlive hpc rfl) (by simp) fun _ => by rw [hpc]; rfl
      · exact h.move (hlive hpc rfl) (by simp) fun _ => by rw [hpc]; rfl
  · next hpc =>
      obtain rfl := hsame (by simp [hpc])
      split
      · apply h.onObject (hlive hpc rfl) (by simp)
        intro _
        rw [state_callClient]
        exact h.state (by rw [hpc]; rfl)
      · exact h.move (hlive hpc rfl) (by simp) fun _ => by rw [hpc]; rfl
  · next hpc =>
      rw [if_pos (h.there (hlive hpc rfl)).1]
      exact ⟨by rintro ⟨⟩, by rintro ⟨⟩, by rintro ⟨⟩, by rintro ⟨⟩⟩
  · exact ⟨by rintro ⟨⟩, by rintro ⟨⟩, by rintro ⟨⟩, by rintro ⟨⟩⟩
  · exact ⟨by rintro ⟨⟩, by rintro ⟨⟩, by rintro ⟨⟩, by rintro ⟨⟩⟩
  · exact ⟨by rintro ⟨⟩, by rintro ⟨⟩, by rintro ⟨⟩, by rintro ⟨⟩⟩
  · next hpc => exact ⟨by simp [hpc], by simp [hpc, live], by simp [hpc, registering], by simp [hpc]⟩
  · next hpc => exact absurd hpc h.not_aborted

/-- A callback does something with the instance. -/
theorem Tracked.access {p : Process} {since since' : List Callback} {f : Instance → Instance}
    (h : Tracked p since)
    (hstate : registering p.pc = true →
      (p.object.map f).map Instance.state_ = some (reported since')) :
  Tracked (p.access f) since'
  := by
  constructor
  · exact h.start
  · intro hlive
    obtain ⟨hnonnull, i, hi⟩ := h.there hlive
    use hnonnull, f i
    simp [Process.access, hi]
  · exact hstate
  · exact h.not_aborted

/-- Where there is no instance, no callback has to be accounted for. -/
theorem Tracked.of_null {p : Process} {since : List Callback} (since' : List Callback)
    (h : Tracked p since) (hnull : ¬ p.s_instance = true) :
  Tracked p since'
  := by
  refine ⟨h.start, h.there, ?_, h.not_aborted⟩
  intro hregistering
  exact absurd (h.there (live_of_registering hregistering)).1 hnull

/-- A callback that reports nothing about the registration. -/
theorem Tracked.access_callClient {p : Process} {since : List Callback} {c : Callback}
    (h : Tracked p since) (hc : reported (since ++ [c]) = reported since) (call : ClientCall) :
  Tracked (p.access (·.callClient call)) (since ++ [c])
  := by
  apply h.access
  intro hregistering
  rw [state_callClient, hc]
  exact h.state hregistering

/-- A callback that sets the state. -/
theorem Tracked.access_setState {p : Process} {since : List Callback} {c : Callback} {state : State}
    (h : Tracked p since) (hc : reported (since ++ [c]) = state) :
  Tracked (p.access (·.setState state)) (since ++ [c])
  := by
  apply h.access
  intro hregistering
  obtain ⟨-, i, hi⟩ := h.there (live_of_registering hregistering)
  rw [hi, hc]
  rfl

theorem reported_concat (since : List Callback) (c : Callback) :
  reported (since ++ [c]) = match c with
    | .handle_client_registered => .State_Registered
    | .handle_client_unregistered => .State_Unregistered
    | _ => reported since
  := by
  rw [reported, List.foldl_append]
  cases c <;> rfl

/-- A callback makes of the state what it reports. -/
theorem Tracked.criticalSection {p : Process} {since : List Callback} (h : Tracked p since)
    (c : Callback) :
  Tracked (p.criticalSection requests c) (since ++ [c])
  := by
  cases c with
  | handle_client_registered =>
      rw [Process.criticalSection]
      split
      · have hset := h.access_setState (reported_concat since .handle_client_registered)
        apply hset.access
        intro hregistering
        rw [state_callClient]
        exact hset.state hregistering
      · next hnull => exact h.of_null _ hnull
  | handle_client_unregistered =>
      rw [Process.criticalSection]
      split
      · exact h.access_setState (reported_concat since .handle_client_unregistered)
      · next hnull => exact h.of_null _ hnull
  | handle_error code =>
      rw [Process.criticalSection]
      split
      · exact h.access_callClient (reported_concat since (.handle_error code)) _
      · next hnull => exact h.of_null _ hnull
  | handle_authorize request =>
      have hsame := reported_concat since (.handle_authorize request)
      rw [Process.criticalSection]
      split
      · split
        · exact h.access_callClient hsame _
        · next hnull => exact h.of_null _ hnull
      · refine ⟨h.start, h.there, ?_, h.not_aborted⟩
        intro hregistering
        rw [hsame]
        exact h.state hregistering

/-- The callbacks that count are those since the state was set. -/
theorem since_clockStep (t : Timed) :
  (t.process.pc = .resourcesAdded → t.clockStep.since = [])
    ∧ (t.process.pc ≠ .resourcesAdded → t.clockStep.since = t.since)
  := by
  unfold clockStep
  constructor
  · intro hpc
    simp [hpc]
  · intro hpc
    split
    · contradiction
    · rfl
    · rfl
    · split <;> rfl
    · split
      · rfl
      · split <;> rfl
    · rfl

theorem Tracked.step {e : Event} (h : Tracked t.process t.since)
    (hstep : step requests t e = some t') :
  Tracked t'.process t'.since
  := by
  cases e with
  | main x =>
      obtain ⟨-, -, rfl⟩ | ⟨-, rfl⟩ := step_main hstep
      · exact h
      · exact h.main _ (since_clockStep t).1 (since_clockStep t).2
  | wait seconds =>
      obtain rfl := Option.some.inj hstep
      exact h
  | signal =>
      obtain rfl := Option.some.inj hstep
      exact h
  | invoke c =>
      rw [step_invoke hstep]
      exact ⟨h.start, h.there, h.state, h.not_aborted⟩
  | enter i =>
      obtain ⟨c, rfl⟩ := step_enter hstep
      have herased : Tracked { t.process with pending := t.process.pending.eraseIdx i } t.since :=
        ⟨h.start, h.there, h.state, h.not_aborted⟩
      exact herased.criticalSection c

theorem Tracked.init : Tracked Timed.init.process Timed.init.since
  := ⟨fun _ => rfl, nofun, nofun, nofun⟩

/-! ### Why `run` is left -/

/-- The result `run` is being left with. -/
def leaving : RunPc → Option MblError
  | .returning err | .cleared err | .closed err | .deleted err | .returned err => some err
  | _ => none

/-- What has happened when `run` is left with the error. -/
def Reason (t : Timed) : MblError → Prop
  | .ShutdownRequested => t.g_shutdown_signal = true
  | .DeviceUnregistered => ∃ cs, t.decided = some cs ∧ reported cs = .State_Unregistered
  | .ConnectUnknownError => t.registrations = []

/-- The loop has not begun. -/
def preLoop : RunPc → Bool
  | .start | .created | .handlersRegistered | .resourcesAdded | .calledRegister | .setUp => true
  | _ => false

/-- `run` is left for a reason, and nothing is registered before the loop. -/
structure Reasoned (t : Timed) : Prop where
  leaving : ∀ err, leaving t.process.pc = some err → Reason t err
  preLoop : preLoop t.process.pc = true → t.registrations = []

/-- A reason stays one. -/
theorem Reason.same {err : MblError} (h : Reason t err)
    (hsignal : t.g_shutdown_signal = true → t'.g_shutdown_signal = true)
    (hdecided : t'.decided = t.decided) (hregistrations : t'.registrations = t.registrations) :
  Reason t' err
  := by
  cases err with
  | ShutdownRequested => exact hsignal h
  | DeviceUnregistered =>
      obtain ⟨cs, hcs, hreported⟩ := h
      exact ⟨cs, hdecided.trans hcs, hreported⟩
  | ConnectUnknownError => exact hregistrations.trans h

/-- A step that neither leaves `run` nor begins the loop. -/
theorem Reasoned.same (h : Reasoned t)
    (hsignal : t.g_shutdown_signal = true → t'.g_shutdown_signal = true)
    (hdecided : t'.decided = t.decided) (hregistrations : t'.registrations = t.registrations)
    (hleaving : ∀ err, Timed.leaving t'.process.pc = some err →
      Timed.leaving t.process.pc = some err)
    (hpre : Timed.preLoop t'.process.pc = true → Timed.preLoop t.process.pc = true) :
  Reasoned t'
  := by
  constructor
  · intro err herr
    exact (h.leaving err (hleaving err herr)).same hsignal hdecided hregistrations
  · intro hbefore
    rw [hregistrations]
    exact h.preLoop (hpre hbefore)

/-- The main thread leaves `run` for a reason. -/
theorem Reasoned.main (h : Reasoned t) (htracked : Tracked t.process t.since) (x : Bool)
    (hread : t.process.pc = .checkingTime → t.time_s ≠ none) :
  Reasoned { t.clockStep with process := t.process.runStep (t.answer x) }
  := by
  cases hpc : t.process.pc with
  | start =>
      have hnull := htracked.start hpc
      have hrun : t.process.runStep (t.answer x)
          = { t.process with
            s_instance := true, object := some Instance.new, event_loop := true, pc := .created } := by
        simp [Process.runStep, hpc, hnull]
      simp only [clockStep, hpc, hrun]
      exact h.same id rfl rfl (by rintro _ ⟨⟩) fun _ => by rw [hpc]; rfl
  | created =>
      simp only [clockStep, hpc, Process.runStep]
      exact h.same id rfl rfl (by rintro _ ⟨⟩) fun _ => by rw [hpc]; rfl
  | handlersRegistered =>
      simp only [clockStep, hpc, Process.runStep]
      exact h.same id rfl rfl (by rintro _ ⟨⟩) fun _ => by rw [hpc]; rfl
  | resourcesAdded =>
      simp only [clockStep, hpc, Process.runStep]
      exact h.same id rfl rfl (by rintro _ ⟨⟩) fun _ => by rw [hpc]; rfl
  | calledRegister =>
      have hnone : t.registrations = [] := h.preLoop (by rw [hpc]; rfl)
      simp only [clockStep, hpc, Process.runStep]
      constructor
      · intro err herr
        cases hx : t.answer x with
        | true =>
            rw [hx] at herr
            contradiction
        | false =>
            rw [hx] at herr
            obtain rfl := Option.some.inj herr
            exact hnone
      · exact fun _ => hnone
  | setUp =>
      simp only [clockStep, hpc, Process.runStep]
      exact ⟨by rintro _ ⟨⟩, by rintro ⟨⟩⟩
  | looping =>
      simp only [clockStep, hpc, Process.runStep]
      have hanswer : t.answer x = t.g_shutdown_signal := by simp [answer, hpc]
      rw [hanswer]
      cases hsignal : t.g_shutdown_signal with
      | false => exact ⟨by rintro _ ⟨⟩, by rintro ⟨⟩⟩
      | true =>
          constructor
          · intro err herr
            obtain rfl := Option.some.inj herr
            rfl
          · rintro ⟨⟩
  | checkingState =>
      have hstate := htracked.state (by rw [hpc]; rfl)
      simp only [clockStep, hpc, Process.runStep, Process.checkState]
      split
      · next hunregistered =>
          constructor
          · intro err herr
            obtain rfl := Option.some.inj herr
            rw [hstate] at hunregistered
            exact ⟨t.since, rfl, Option.some.inj hunregistered⟩
          · rintro ⟨⟩
      · exact ⟨by rintro _ ⟨⟩, by rintro ⟨⟩⟩
  | checkingTime =>
      obtain ⟨time_s, htime⟩ := Option.ne_none_iff_exists'.mp (hread hpc)
      simp only [clockStep, hpc, htime, Process.runStep]
      cases t.answer x with
      | false => split <;> exact ⟨by rintro _ ⟨⟩, by rintro ⟨⟩⟩
      | true => split <;> exact ⟨by rintro _ ⟨⟩, by rintro ⟨⟩⟩
  | returning err =>
      have hnonnull := (htracked.there (by rw [hpc]; rfl)).1
      simp only [clockStep, hpc, Process.runStep, if_pos hnonnull]
      exact h.same id rfl rfl (fun _ herr => by rw [hpc]; exact herr) (by rintro ⟨⟩)
  | cleared err | closed err | deleted err =>
      simp only [clockStep, hpc, Process.runStep]
      exact h.same id rfl rfl (fun _ herr => by rw [hpc]; exact herr) (by rintro ⟨⟩)
  | returned err =>
      simp only [clockStep, hpc, Process.runStep]
      exact h.same id rfl rfl (fun _ => id) id
  | aborted => exact absurd hpc htracked.not_aborted

theorem Reasoned.step {e : Event} (h : Reasoned t) (htracked : Tracked t.process t.since)
    (hstep : step requests t e = some t') :
  Reasoned t'
  := by
  cases e with
  | main x =>
      obtain ⟨-, -, rfl⟩ | ⟨hread, rfl⟩ := step_main hstep
      · exact h.same id rfl rfl (fun _ => id) id
      · exact h.main htracked x hread
  | wait seconds =>
      obtain rfl := Option.some.inj hstep
      exact h.same id rfl rfl (fun _ => id) id
  | signal =>
      obtain rfl := Option.some.inj hstep
      exact h.same (fun _ => rfl) rfl rfl (fun _ => id) id
  | invoke c =>
      rw [step_invoke hstep]
      exact h.same id rfl rfl (fun _ => id) id
  | enter i =>
      obtain ⟨c, rfl⟩ := step_enter hstep
      refine h.same id rfl rfl ?_ ?_
      · simp only [pc_criticalSection]
        exact fun _ => id
      · simp only [pc_criticalSection]
        exact id

theorem Reasoned.init : Reasoned init
  := ⟨nofun, fun _ => rfl⟩

/-! ### The calls of `register_update` -/

/-- The number of calls of `register_update`. -/
def updates (i : Instance) : Nat :=
  i.cloud_client_.calls.count .register_update

/-- The instance has called `register_update` for every registration but that of the set-up. -/
def Counted (t : Timed) : Prop :=
  ∀ i ∈ t.process.object, updates i = t.registrations.length - 1

/-- What is done with an instance that calls `register_update` no more often than before. -/
def KeepsUpdates (f : Instance → Instance) : Prop :=
  ∀ i, updates (f i) = updates i

theorem keepsUpdates_setState (state : State) :
  KeepsUpdates (·.setState state)
  := fun _ => rfl

theorem keepsUpdates_setStatus (status : ClientStatus) :
  KeepsUpdates (·.setStatus status)
  := fun _ => rfl

theorem updates_callClient (i : Instance) (c : ClientCall) :
  updates (i.callClient c) = updates i + if c = .register_update then 1 else 0
  := by
  simp [updates, Instance.callClient, List.count_append, List.count_singleton]

theorem keepsUpdates_callClient {c : ClientCall} (hc : c ≠ .register_update) :
  KeepsUpdates (·.callClient c)
  := by
  intro i
  rw [updates_callClient, if_neg hc, Nat.add_zero]

/-- A step that calls no `register_update` and registers nothing. -/
theorem Counted.same {f : Instance → Instance} (h : Counted t) (hf : KeepsUpdates f)
    (hobject : t'.process.object = t.process.object.map f)
    (hregistrations : t'.registrations = t.registrations) :
  Counted t'
  := by
  intro i' hi'
  rw [hobject] at hi'
  obtain ⟨i, hi, rfl⟩ := Option.map_eq_some_iff.mp hi'
  rw [hf i, hregistrations]
  exact h i hi

theorem Counted.of_none (hnone : t.process.object = none) :
  Counted t
  := by
  intro i hi
  rw [hnone] at hi
  contradiction

/-- A step that leaves the instance as it is. -/
theorem Counted.move (h : Counted t) (hobject : t'.process.object = t.process.object)
    (hregistrations : t'.registrations = t.registrations) :
  Counted t'
  := by
  apply h.same (f := id) (fun _ => rfl) _ hregistrations
  rw [hobject, Option.map_id, id]

/-- The main thread calls `register_update` where it counts a registration. -/
theorem Counted.main (h : Counted t) (hright : Paced t ∧ Tracked t.process t.since ∧ Reasoned t)
    (x : Bool) (hread : t.process.pc = .checkingTime → t.time_s ≠ none) :
  Counted { t.clockStep with process := t.process.runStep (t.answer x) }
  := by
  obtain ⟨hpaced, htracked, hreasoned⟩ := hright
  cases hpc : t.process.pc with
  | start =>
      have hnone : t.registrations = [] := hreasoned.preLoop (by rw [hpc]; rfl)
      have hnull := htracked.start hpc
      intro i hi
      simp only [clockStep, hpc, Process.runStep, hnull, Bool.false_eq_true, if_false] at hi ⊢
      obtain rfl := Option.some.inj hi
      rw [hnone]
      rfl
  | created =>
      simp only [clockStep, hpc, Process.runStep]
      exact h.same (keepsUpdates_callClient (c := .register_handlers) (by decide)) rfl rfl
  | handlersRegistered =>
      simp only [clockStep, hpc, Process.runStep]
      exact h.same (keepsUpdates_callClient (c := .add_objects) (by decide)) rfl rfl
  | resourcesAdded =>
      simp only [clockStep, hpc, Process.runStep]
      exact h.same (keepsUpdates_setState .State_CalledRegister) rfl rfl
  | calledRegister =>
      simp only [clockStep, hpc, Process.runStep]
      exact h.same (keepsUpdates_callClient (c := .setup) (by decide)) rfl rfl
  | setUp =>
      have hnone : t.registrations = [] := hreasoned.preLoop (by rw [hpc]; rfl)
      intro i hi
      simp only [clockStep, hpc, Process.runStep] at hi ⊢
      have hcount := h i hi
      rw [hnone] at hcount
      exact hcount
  | looping =>
      simp only [clockStep, hpc, Process.runStep]
      exact h.move rfl rfl
  | checkingState =>
      simp only [clockStep, hpc, Process.runStep, Process.checkState]
      split
      · exact h.move rfl rfl
      · exact h.move rfl rfl
  | checkingTime =>
      obtain ⟨last, earlier, hregistrations, -⟩ := (hpaced.due (by rw [hpc]; rfl)).registered
      obtain ⟨time_s, htime⟩ := Option.ne_none_iff_exists'.mp (hread hpc)
      have hanswer : t.answer x = decide (t.next_registration_s ≤ time_s) := by
        simp [answer, hpc, htime]
      simp only [clockStep, hpc, htime, Process.runStep, hanswer]
      by_cases hdue : t.next_registration_s ≤ time_s
      · simp only [hdue, decide_true, if_true]
        intro i' hi'
        obtain ⟨i, hi, rfl⟩ := Option.map_eq_some_iff.mp hi'
        have hcount := h i hi
        rw [updates_callClient, if_pos rfl, hcount, hregistrations]
        rfl
      · simp only [hdue, decide_false, Bool.false_eq_true, if_false]
        exact h.move rfl rfl
  | returning err =>
      have hnonnull := (htracked.there (by rw [hpc]; rfl)).1
      simp only [clockStep, hpc, Process.runStep, if_pos hnonnull]
      exact h.move rfl rfl
  | cleared err =>
      simp only [clockStep, hpc, Process.runStep]
      exact h.same (keepsUpdates_setStatus .closed) rfl rfl
  | closed err =>
      simp only [clockStep, hpc, Process.runStep]
      exact h.same (keepsUpdates_setStatus .deleted) rfl rfl
  | deleted err =>
      apply Counted.of_none
      simp [Process.runStep, hpc]
  | returned err =>
      simp only [clockStep, hpc, Process.runStep]
      exact h.move rfl rfl
  | aborted => exact absurd hpc htracked.not_aborted

/-- No callback calls `register_update`. -/
theorem object_criticalSection (requests : Process.UpdateRequests) (p : Process) (c : Callback) :
  ∃ f, KeepsUpdates f ∧ (p.criticalSection requests c).object = p.object.map f
  := by
  have hid : KeepsUpdates id := fun _ => rfl
  have hsame : p.object = p.object.map id := by rw [Option.map_id, id]
  cases c with
  | handle_client_registered =>
      rw [Process.criticalSection]
      split
      · refine ⟨(·.callClient .endpoint_info) ∘ (·.setState .State_Registered), ?_, ?_⟩
        · intro i
          exact keepsUpdates_callClient (by decide) _
        · simp [Process.access]
      · exact ⟨id, hid, hsame⟩
  | handle_client_unregistered =>
      rw [Process.criticalSection]
      split
      · exact ⟨_, keepsUpdates_setState _, rfl⟩
      · exact ⟨id, hid, hsame⟩
  | handle_error code =>
      rw [Process.criticalSection]
      split
      · exact ⟨_, keepsUpdates_callClient (by decide), rfl⟩
      · exact ⟨id, hid, hsame⟩
  | handle_authorize request =>
      rw [Process.criticalSection]
      split
      · split
        · exact ⟨_, keepsUpdates_callClient (by simp), rfl⟩
        · exact ⟨id, hid, hsame⟩
      · exact ⟨id, hid, hsame⟩

theorem Counted.step {e : Event} (h : Counted t)
    (hright : Paced t ∧ Tracked t.process t.since ∧ Reasoned t)
    (hstep : step requests t e = some t') :
  Counted t'
  := by
  cases e with
  | main x =>
      obtain ⟨-, -, rfl⟩ | ⟨hread, rfl⟩ := step_main hstep
      · exact h.move rfl rfl
      · exact h.main hright x hread
  | wait seconds =>
      obtain rfl := Option.some.inj hstep
      exact h.move rfl rfl
  | signal =>
      obtain rfl := Option.some.inj hstep
      exact h.move rfl rfl
  | invoke c =>
      rw [step_invoke hstep]
      exact h.move rfl rfl
  | enter i =>
      obtain ⟨c, rfl⟩ := step_enter hstep
      obtain ⟨f, hf, hobject⟩ := object_criticalSection requests
        { t.process with pending := t.process.pending.eraseIdx i } c
      exact h.same hf hobject rfl

/-! ### Every interleaving -/

/-- What holds in every state the process can reach. -/
structure Right (t : Timed) : Prop where
  paced : Paced t
  tracked : Tracked t.process t.since
  reasoned : Reasoned t
  counted : Counted t

theorem right_of_run {es : List Event} (hrun : Lts.exec (step requests) init es = some t) :
  Right t
  := by
  have hinit : Right init := ⟨Paced.init, Tracked.init, Reasoned.init, Counted.of_none rfl⟩
  apply Lts.invariant' Right _ hinit hrun
  intro t e t' h hstep
  constructor
  · exact h.paced.step hstep
  · exact h.tracked.step hstep
  · exact h.reasoned.step h.tracked hstep
  · exact h.counted.step ⟨h.paced, h.tracked, h.reasoned⟩ hstep

/-- Up to `2 * ε` seconds, the calls are at least a period apart, and less than a period and `δ`. -/
def CallsInTime (δ ε : Nat) (registrations : List Registration) : Prop :=
  registrations.IsChain fun newer older =>
    older.called + g_reregister_period_s ≤ newer.called + 2 * ε
      ∧ newer.called < older.called + g_reregister_period_s + δ + 2 * ε

/-- The calls are as far apart as the times read for them, up to what they are off. -/
theorem callsInTime {δ ε : Nat} {registrations : List Registration} (hspaced : Spaced registrations)
    (hprompt : Prompt δ registrations) (hquick : ∀ r ∈ registrations, r.Quick ε) :
  CallsInTime δ ε registrations
  := by
  induction registrations with
  | nil => exact .nil
  | cons newer earlier ih =>
      cases earlier with
      | nil => exact .singleton _
      | cons older earlier =>
          simp only [Spaced, Prompt, CallsInTime, List.isChain_cons_cons] at hspaced hprompt ih ⊢
          obtain ⟨hnew₁, hnew₂⟩ := hquick newer List.mem_cons_self
          obtain ⟨hold₁, hold₂⟩ := hquick older (List.mem_cons_of_mem _ List.mem_cons_self)
          refine ⟨?_, ih hspaced.2 hprompt.2 fun r hr => hquick r (List.mem_cons_of_mem _ hr)⟩
          omega

/-- In every interleaving of the main thread, the callbacks, the signals and the clock: there are as
many registrations as calls of `register_update`, and the set-up, and the times read for them are at
least a period apart.  If no pass of the loop is later than `δ` seconds after the one before, none of
these times is a period and `δ` seconds after the one before; and the calls themselves are off by no
more than twice what any of them is off the time read for it.  While `run` is in its loop, the last pass
it has acted on was less than a period after the time read for the last registration. -/
theorem registers_in_time {es : List Event} (hrun : Lts.exec (step requests) init es = some t) :
  (∀ i ∈ t.process.object, updates i = t.registrations.length - 1)
    ∧ Spaced t.registrations
    ∧ (∀ δ, Within δ t.passes → Prompt δ t.registrations)
    ∧ (∀ δ ε, Within δ t.passes → (∀ r ∈ t.registrations, r.Quick ε) →
        CallsInTime δ ε t.registrations)
    ∧ (inLoop t.process.pc = true → t.time_s = none →
        ∃ last ∈ t.registrations.head?, ∃ pass ∈ t.passes.head?,
          pass < last.read + g_reregister_period_s)
  := by
  have hright := right_of_run hrun
  have h := hright.paced
  refine ⟨hright.counted, h.spaced, h.prompt, ?_, ?_⟩
  · intro δ ε hwithin hquick
    exact callsInTime h.spaced (h.prompt δ hwithin) hquick
  · intro hloop hnone
    obtain ⟨⟨last, earlier, hregistrations, hnext⟩, pass, before, hpasses, hpass⟩ := h.due hloop
    refine ⟨last, by simp [hregistrations], pass, by simp [hpasses, hnone], ?_⟩
    rw [← hnext]
    exact hpass

/-- A client that is set up, and registers again after five minutes. -/
def fiveMinutes : List Event :=
  List.replicate 5 (.main true) ++ [.wait 2] ++ List.replicate 5 (.main true)
    ++ [.wait 300, .main true, .main true, .main true, .wait 1, .main true]

theorem registers_in_time_fiveMinutes :
  ∃ t, Lts.exec (step ⟨1, 2⟩) init fiveMinutes = some t
    ∧ t.registrations = [⟨302, 303⟩, ⟨2, 0⟩] ∧ CallsInTime 300 2 t.registrations
  := by
  have hend : (Lts.exec (step ⟨1, 2⟩) init fiveMinutes).map (fun t => (t.registrations, t.passes))
      = some ([⟨302, 303⟩, ⟨2, 0⟩], [302, 2, 2]) := by
    decide
  obtain ⟨t, hrun, hend⟩ := Option.map_eq_some_iff.mp hend
  obtain ⟨hregistrations, hpasses⟩ := Prod.mk.inj hend
  refine ⟨t, hrun, hregistrations, (registers_in_time hrun).2.2.2.1 300 2 ?_ ?_⟩
  · simp [Within, hpasses]
  · simp [hregistrations, Registration.Quick]

/-- In every interleaving no assertion of `run` and of the destructor fails, and `run` returns only
for a reason: a signal that came in, `setup` that failed before the first pass, or callbacks that
have left the device unregistered when the state was looked at.  So the client exits with status 0
only after a signal. -/
theorem exits_for_a_reason {es : List Event} (hrun : Lts.exec (step requests) init es = some t) :
  t.process.pc ≠ .aborted ∧ ∀ err, t.process.pc = .returned err →
    Reason t err ∧ (exitStatus err = 0 → t.g_shutdown_signal = true)
  := by
  have hright := right_of_run hrun
  use hright.tracked.not_aborted
  intro err hreturned
  have hreason := hright.reasoned.leaving err (by rw [hreturned]; rfl)
  use hreason
  intro hexit
  cases err with
  | ShutdownRequested => exact hreason
  | DeviceUnregistered | ConnectUnknownError => contradiction

/-- The device is registered and unregistered by the event loop, and the client exits. -/
def unregisteredByServer : List Event :=
  List.replicate 6 (.main true) ++ [.invoke .handle_client_registered, .enter 0,
    .invoke .handle_client_unregistered, .main true, .enter 0] ++ List.replicate 6 (.main true)

theorem exits_for_a_reason_unregistered :
  ∃ t, Lts.exec (step ⟨1, 2⟩) init unregisteredByServer = some t
    ∧ t.process.pc = .returned .DeviceUnregistered ∧ Reason t .DeviceUnregistered
  := by
  have hend : (Lts.exec (step ⟨1, 2⟩) init unregisteredByServer).map (·.process.pc)
      = some (.returned .DeviceUnregistered) := by
    decide
  obtain ⟨t, hrun, hreturned⟩ := Option.map_eq_some_iff.mp hend
  exact ⟨t, hrun, hreturned, ((exits_for_a_reason hrun).2 _ hreturned).1⟩

end Timed

end CloudClient
