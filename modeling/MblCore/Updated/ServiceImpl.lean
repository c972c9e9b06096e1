import MblCore.Updated.Handover

/-!
# The RPC service of UpdateD

`StartUpdate` passes a request on to the coordinator and `GetUpdateHeader` answers with the
header in the manifest of the coordinator.  `start` and `run` hold the mutex of the coordinator, but
`manifest` does not take it, so the header may be read while a thread is in the middle of one of them.

A transaction is finished when the call of `run` that hands its payload over returns.  The manifest
is written when a request comes in, so the answer is the header of the transaction that finished last
as long as no request is being carried out or pending.
-/

open FileTree

namespace Updated

open PayloadHardLink

namespace UpdateCoordinator

/-- `UpdateCoordinator::manifest`, of which the header is the only part. -/
def manifest (c : UpdateCoordinator) : Text :=
  c.header

/-- The header of the request carried out last. -/
def lastHeader (c : UpdateCoordinator) : Text :=
  (c.accepted.getLast?).elim [] Request.header_data

/-- The header of the transaction that finished last, empty while there is none. -/
def finishedHeader (c : UpdateCoordinator) : Text :=
  ((c.finished.getLast?).bind fun k => c.accepted[k]?).elim [] Request.header_data

end UpdateCoordinator

open UpdateCoordinator

/-- An answer to `GetUpdateHeader`. -/
structure GetUpdateHeaderResponse where
  update_header : Text
  /-- The header of the transaction that finished last before the answer. -/
  finished : Text
deriving DecidableEq

/-- The answer carries the header of the transaction that finished last before it. -/
def GetUpdateHeaderResponse.ReportsFinished (r : GetUpdateHeaderResponse) : Prop :=
  r.update_header = r.finished

instance (r : GetUpdateHeaderResponse) : Decidable r.ReportsFinished :=
  inferInstanceAs (Decidable (r.update_header = r.finished))

/-- The call that holds the mutex of the coordinator. -/
inductive Holder
  /-- `start`, which has assigned the header. -/
  | start (payload_path : Route) (header_data : Text)
  /-- `run`, which has handed the payload over. -/
  | run
deriving DecidableEq

/-- The service, with the answers it has given to `GetUpdateHeader` in order. -/
structure ServiceImpl where
  update_coordinator : UpdateCoordinator
  holder : Option Holder
  responses : List GetUpdateHeaderResponse

namespace ServiceImpl

/-- The service when UpdateD comes up. -/
def init (fs : Nodes) : ServiceImpl where
  update_coordinator := UpdateCoordinator.init fs
  holder := none
  responses := []

/-- `ServiceImpl::GetUpdateHeader`.  The answer is given when the header is read. -/
def getUpdateHeader (s : ServiceImpl) : ServiceImpl :=
  { s with
    responses := s.responses ++
      [⟨s.update_coordinator.manifest, s.update_coordinator.finishedHeader⟩] }

/-- What the threads of the RPC server and the main loop of UpdateD do, where a thread may be in the
middle of `start` or of `run`. -/
inductive Event
  /-- `StartUpdate` calls `start`, which assigns the header. -/
  | startUpdate (payload_path : Route) (update_header : Text)
  /-- `start` goes on to its end. -/
  | replaceLink (os os' : Os)
  /-- `run` wakes up and hands over the payload. -/
  | wakeUp
  /-- `run` goes on to its end. -/
  | resetLink (os : Os)
  | getUpdateHeader

/-- One step of UpdateD. -/
def step (s : ServiceImpl) (e : Event) : Option ServiceImpl :=
  if s.update_coordinator.terminated then none
  else
    match e, s.holder with
    | .startUpdate payload_path update_header, holder =>
        match s.update_coordinator.assignHeader payload_path update_header, holder with
        | (.returns, c), none =>
            some { s with
              update_coordinator := c, holder := some (.start payload_path update_header) }
        -- another thread holds the mutex
        | (.returns, _), some _ => none
        -- the assertions come before the mutex
        | ended, _ => some { s with update_coordinator := (noexcept ended).2 }
    | .replaceLink os os', some (.start payload_path header_data) =>
        some { s with
          update_coordinator :=
            (noexcept (s.update_coordinator.replaceLink payload_path header_data os os')).2
          holder := none }
    | .wakeUp, none =>
        if s.update_coordinator.updating then
          some { s with update_coordinator := s.update_coordinator.handOver, holder := some .run }
        else some s
    | .resetLink os, some .run =>
        some { s with update_coordinator := s.update_coordinator.resetLink os, holder := none }
    | .getUpdateHeader, _ => some s.getUpdateHeader
    | _, _ => none

variable {s s' : ServiceImpl} {e : Event}

/-- What a step can do: assert, assign the header, go on to the end of `start`, wake up for nothing or
to hand over the payload, go on to the end of `run`, or answer. -/
theorem step_cases (hstep : step s e = some s') :
  s.update_coordinator.terminated = false
  ∧ ((∃ payload_path update_header, e = .startUpdate payload_path update_header
        ∧ (payload_path.empty = true ∨ update_header.isEmpty = true)
        ∧ s' = { s with update_coordinator := s.update_coordinator.terminate })
    ∨ (∃ payload_path update_header, e = .startUpdate payload_path update_header ∧ s.holder = none
        ∧ ¬ (payload_path.empty = true ∨ update_header.isEmpty = true)
        ∧ s' = { s with
            update_coordinator := { s.update_coordinator with header := update_header }
            holder := some (.start payload_path update_header) })
    ∨ (∃ os os' payload_path header_data, e = .replaceLink os os'
        ∧ s.holder = some (.start payload_path header_data)
        ∧ s' = { s with
            update_coordinator :=
              (noexcept (s.update_coordinator.replaceLink payload_path header_data os os')).2
            holder := none })
    ∨ (e = .wakeUp ∧ s.holder = none ∧ s' = s)
    ∨ (e = .wakeUp ∧ s.holder = none ∧ s.update_coordinator.updating = true
        ∧ s' = { s with
            update_coordinator := s.update_coordinator.handOver, holder := some .run })
    ∨ (∃ os, e = .resetLink os ∧ s.holder = some .run
        ∧ s' = { s with update_coordinator := s.update_coordinator.resetLink os, holder := none })
    ∨ (e = .getUpdateHeader ∧ s' = s.getUpdateHeader))
  := by
  unfold step at hstep
  split at hstep
  · contradiction
  · rename_i halive
    use by simpa using halive
    split at hstep
    · rename_i payload_path update_header
      unfold assignHeader at hstep
      by_cases hgiven : payload_path.empty = true ∨ update_header.isEmpty = true
      · rw [if_pos hgiven] at hstep
        cases hstep
        exact Or.inl ⟨_, _, rfl, hgiven, rfl⟩
      · rw [if_neg hgiven] at hstep
        cases hholder : s.holder with
        | some holder =>
            rw [hholder] at hstep
            contradiction
        | none =>
            rw [hholder] at hstep
            cases hstep
            exact Or.inr (Or.inl ⟨_, _, rfl, rfl, hgiven, rfl⟩)
    · rename_i os os' payload_path header_data hholder
      obtain rfl := Option.some.inj hstep
      exact Or.inr (Or.inr (Or.inl ⟨os, os', _, _, rfl, hholder, rfl⟩))
    · rename_i hholder
      right; right; right
      split at hstep
      · rename_i hup
        obtain rfl := Option.some.inj hstep
        exact Or.inr (Or.inl ⟨rfl, hholder, hup, rfl⟩)
      · obtain rfl := Option.some.inj hstep
        exact Or.inl ⟨rfl, hholder, rfl⟩
    · rename_i os hholder
      obtain rfl := Option.some.inj hstep
      right; right; right; right; right
      exact Or.inl ⟨os, rfl, hholder, rfl⟩
    · obtain rfl := Option.some.inj hstep
      right; right; right; right; right; right
      exact ⟨rfl, rfl⟩
    · contradiction

/-- What is left when `start` has assigned the header of a request that is complete. -/
theorem step_startUpdate {payload_path : Route} {update_header : Text}
    (hpath : payload_path.empty = false) (hheader : update_header ≠ [])
    (hstep : step s (.startUpdate payload_path update_header) = some s') :
  s.update_coordinator.terminated = false ∧ s.holder = none
    ∧ s' = { s with
      update_coordinator := { s.update_coordinator with header := update_header }
      holder := some (.start payload_path update_header) }
  := by
  obtain ⟨halive, hcases⟩ := step_cases hstep
  simp only [Event.startUpdate.injEq, reduceCtorEq, false_and, exists_false, or_false] at hcases
  rcases hcases with ⟨_, _, ⟨rfl, rfl⟩, hbad, -⟩ | ⟨_, _, ⟨rfl, rfl⟩, hfree, -, heq⟩
  · simp [hpath, hheader] at hbad
  · exact ⟨halive, hfree, heq⟩

theorem step_replaceLink {os os' : Os} (hstep : step s (.replaceLink os os') = some s') :
  s.update_coordinator.terminated = false ∧ ∃ payload_path header_data,
    s.holder = some (.start payload_path header_data)
    ∧ s' = { s with
      update_coordinator :=
        (noexcept (s.update_coordinator.replaceLink payload_path header_data os os')).2
      holder := none }
  := by simpa using step_cases hstep

theorem step_wakeUp (hstep : step s .wakeUp = some s') :
  s.update_coordinator.terminated = false ∧ s.holder = none
    ∧ (s' = s ∨ (s.update_coordinator.updating = true
      ∧ s' = { s with
        update_coordinator := s.update_coordinator.handOver, holder := some .run }))
  := by
  obtain ⟨halive, hcases⟩ := step_cases hstep
  use halive
  obtain ⟨hfree, heq⟩ | ⟨hfree, hup, heq⟩ : (s.holder = none ∧ s' = s)
      ∨ (s.holder = none ∧ s.update_coordinator.updating = true
        ∧ s' = { s with
          update_coordinator := s.update_coordinator.handOver, holder := some .run }) := by
    simpa using hcases
  · exact ⟨hfree, Or.inl heq⟩
  · exact ⟨hfree, Or.inr ⟨hup, heq⟩⟩

theorem step_resetLink {os : Os} (hstep : step s (.resetLink os) = some s') :
  s.update_coordinator.terminated = false ∧ s.holder = some .run
    ∧ s' = { s with update_coordinator := s.update_coordinator.resetLink os, holder := none }
  := by simpa using step_cases hstep

theorem step_getUpdateHeader (hstep : step s .getUpdateHeader = some s') :
  s.update_coordinator.terminated = false ∧ s' = s.getUpdateHeader
  := by simpa using step_cases hstep

/-! ### Whole calls -/

/-- The thread that holds the mutex is in the middle of a call on the coordinator `c`, and no thread is
in a call when the mutex is free. -/
def Partway (s : ServiceImpl) (c : UpdateCoordinator) : Prop :=
  match s.holder with
  | none => s.update_coordinator = c
  | some (.start payload_path header_data) =>
      c.assignHeader payload_path header_data = (.returns, s.update_coordinator)
  | some .run => c.updating = true ∧ s.update_coordinator = c.handOver

/-- The coordinator that `start` has assigned the header of is alive only if it was before. -/
theorem terminated_assignHeader {c c' : UpdateCoordinator} {payload_path : Route}
    {header_data : Text} (h : c.assignHeader payload_path header_data = (.returns, c')) :
  c'.terminated = c.terminated
  := by
  unfold assignHeader at h
  split at h
  · cases h
  · cases h
    rfl

/-- So is the one that `run` has handed a payload over for. -/
theorem alive_of_handOver {c : UpdateCoordinator} (h : c.handOver.terminated = false) :
  c.terminated = false
  := by
  unfold handOver at h
  split at h
  · contradiction
  · exact h

/-- The call of the thread that holds the mutex is a call on a coordinator that whole calls have led
to. -/
def InCall (fs : Nodes) (s : ServiceImpl) : Prop :=
  s.update_coordinator.terminated = true
    ∨ ∃ es c, Lts.exec UpdateCoordinator.step (UpdateCoordinator.init fs) es = some c
        ∧ s.Partway c

/-- The end of a call is a step of the coordinator. -/
theorem InCall.of_step {fs : Nodes} {es : List UpdateCoordinator.Event} {c : UpdateCoordinator}
    {f : UpdateCoordinator.Event}
    (hrun : Lts.exec UpdateCoordinator.step (UpdateCoordinator.init fs) es = some c)
    (hstep : c.step f = some s'.update_coordinator) (hfree : s'.holder = none) :
  InCall fs s'
  := by
  right
  refine ⟨es ++ [f], s'.update_coordinator, ?_, ?_⟩
  · exact Lts.exec_concat_eq_some.mpr ⟨c, hrun, hstep⟩
  · rw [Partway, hfree]

/-- Every step of the service leaves it in a call, or after one. -/
theorem InCall.step {fs : Nodes} (h : InCall fs s) (hstep : step s e = some s') :
  InCall fs s'
  := by
  obtain ⟨halive, hcases⟩ := step_cases hstep
  obtain ⟨es, c, hrun, hpartway⟩ := h.resolve_left (by simp [halive])
  unfold Partway at hpartway
  rcases hcases with ⟨payload_path, update_header, -, -, rfl⟩
    | ⟨payload_path, update_header, -, hholder, hgiven, rfl⟩
    | ⟨os, os', payload_path, header_data, -, hholder, rfl⟩ | ⟨-, hholder, rfl⟩
    | ⟨-, hholder, hup, rfl⟩ | ⟨os, -, hholder, rfl⟩ | ⟨-, rfl⟩
  · exact Or.inl rfl
  · right
    rw [hholder] at hpartway
    refine ⟨es, c, hrun, ?_⟩
    rw [Partway, hpartway]
    exact if_neg hgiven
  · rw [hholder] at hpartway
    apply InCall.of_step hrun (f := .start payload_path header_data os os') _ rfl
    rw [UpdateCoordinator.step,
      if_neg (by rw [← terminated_assignHeader hpartway, halive]; decide), start, hpartway]
  · exact h
  · right
    rw [hholder] at hpartway
    refine ⟨es, c, hrun, ?_⟩
    rw [Partway, ← hpartway]
    exact ⟨hup, rfl⟩
  · rw [hholder] at hpartway
    obtain ⟨hup, heq⟩ := hpartway
    have halive' : c.terminated = false := by
      apply alive_of_handOver
      rw [← heq]
      exact halive
    apply InCall.of_step hrun (f := .run os) _ rfl
    rw [UpdateCoordinator.step, if_neg (by rw [halive']; decide), run, if_pos hup, heq]
  · exact Or.inr ⟨es, c, hrun, hpartway⟩

/-- While UpdateD is alive and nobody holds the mutex, the coordinator is in a state that whole calls of
`start` and `run` have led to. -/
theorem exec_whole_calls {fs : Nodes} {es : List Event} {s : ServiceImpl}
    (hrun : Lts.exec step (init fs) es = some s)
    (halive : s.update_coordinator.terminated = false) (hfree : s.holder = none) :
  ∃ calls, Lts.exec UpdateCoordinator.step (UpdateCoordinator.init fs) calls
    = some s.update_coordinator
  := by
  have hinit : InCall fs (init fs) := Or.inr ⟨[], _, rfl, rfl⟩
  obtain hend | ⟨calls, c, hcalls, hpartway⟩ :=
    Lts.invariant' (InCall fs) (fun _ _ _ => InCall.step) hinit hrun
  · simp [halive] at hend
  · rw [Partway, hfree] at hpartway
    exact ⟨calls, by rw [hcalls, hpartway]⟩

/-! ### The header in the manifest -/

/-- The header of the request that came in last: the one that is being carried out, or else the one
that was carried out last. -/
def lastHeader (s : ServiceImpl) : Text :=
  match s.holder with
  | some (.start _ header_data) => header_data
  | some .run => s.update_coordinator.lastHeader
  | none => s.update_coordinator.lastHeader

/-- The manifest holds the header of the request that came in last.  While the mutex is free and no
request is pending this is the header of the transaction that finished last. -/
structure Described (s : ServiceImpl) : Prop where
  manifest : s.update_coordinator.header = s.lastHeader
  slot : ∀ link, s.update_coordinator.payload_link = some link →
    link.request + 1 = s.update_coordinator.accepted.length
  flag : s.holder ≠ some .run → s.update_coordinator.SlotFlagged
  running : s.holder = some .run → s.update_coordinator.updating = false
    ∧ s.update_coordinator.payload_link ≠ none
  finished : s.holder = none → s.update_coordinator.updating = false →
    s.update_coordinator.header = s.update_coordinator.finishedHeader

/-- Nothing is asked of a process that is not alive. -/
def DescribedWhileAlive (s : ServiceImpl) : Prop :=
  s.update_coordinator.terminated = true ∨ s.Described

/-- At the start no transaction has finished. -/
theorem Described.init (fs : Nodes) :
  (init fs).Described
  where
    manifest := rfl
    slot := by simp [ServiceImpl.init, UpdateCoordinator.init]
    flag _ := rfl
    running := by simp [ServiceImpl.init]
    finished _ _ := rfl

/-- The end of `start` keeps the manifest right. -/
theorem Described.replaceLink (h : s.Described) {payload_path : Route} {header_data : Text}
    (hholder : s.holder = some (.start payload_path header_data)) (os os' : Os) :
  ({ s with
    update_coordinator :=
      (noexcept (s.update_coordinator.replaceLink payload_path header_data os os')).2
    holder := none } : ServiceImpl).DescribedWhileAlive
  := by
  obtain ⟨-, hended⟩ | ⟨fs, fs', leaf, -, -, -, heq⟩ :=
    replaceLink_cases s.update_coordinator payload_path header_data os os'
  · exact Or.inl hended.terminated
  · right
    rw [heq]
    have hmanifest := h.manifest
    rw [lastHeader, hholder] at hmanifest
    constructor
    · simp [lastHeader, UpdateCoordinator.lastHeader, acceptRequest, hmanifest]
    · intro link hlink
      obtain rfl := Option.some.inj hlink
      simp [acceptRequest]
    · exact fun _ => rfl
    · simp
    · simp [acceptRequest]

/-- The end of `run` keeps the manifest right. -/
theorem Described.resetLink (h : s.Described) (hholder : s.holder = some .run) (os : Os) :
  ({ s with update_coordinator := s.update_coordinator.resetLink os, holder := none } :
    ServiceImpl).DescribedWhileAlive
  := by
  obtain ⟨hdown, hslot⟩ := h.running hholder
  obtain ⟨link, hlink⟩ := Option.ne_none_iff_exists'.mp hslot
  have hmanifest := h.manifest
  rw [lastHeader, hholder] at hmanifest
  dsimp only at hmanifest
  unfold DescribedWhileAlive UpdateCoordinator.resetLink
  rw [hlink]
  dsimp only
  split
  · exact Or.inl rfl
  · right
    constructor
    · exact hmanifest
    · simp
    · exact fun _ => hdown
    · simp
    · intro _ _
      -- the link was that of the last request
      have hrequest : s.update_coordinator.accepted[link.request]?
          = s.update_coordinator.accepted.getLast? := by
        rw [List.getLast?_eq_getElem?, ← h.slot link hlink, Nat.add_sub_cancel]
      simp [finishedHeader, hrequest, hmanifest, UpdateCoordinator.lastHeader]

/-- Every step keeps the manifest right. -/
theorem DescribedWhileAlive.step (h : s.DescribedWhileAlive) (hstep : step s e = some s') :
  s'.DescribedWhileAlive
  := by
  obtain ⟨halive, hcases⟩ := step_cases hstep
  have h : s.Described := h.resolve_left (by simp [halive])
  rcases hcases with ⟨payload_path, update_header, -, -, rfl⟩
    | ⟨payload_path, update_header, -, hholder, -, rfl⟩
    | ⟨os, os', payload_path, header_data, -, hholder, rfl⟩ | ⟨-, -, rfl⟩
    | ⟨-, hholder, hup, rfl⟩ | ⟨os, -, hholder, rfl⟩ | ⟨-, rfl⟩
  · exact Or.inl rfl
  · right
    constructor
    · rfl
    · exact h.slot
    · exact fun _ => h.flag (by simp [hholder])
    · simp
    · simp
  · exact h.replaceLink hholder os os'
  · exact Or.inr h
  · right
    have hflag := h.flag (by simp [hholder])
    rw [SlotFlagged, hup] at hflag
    obtain ⟨link, hlink⟩ := Option.isSome_iff_exists.mp hflag.symm
    have hmanifest := h.manifest
    rw [lastHeader, hholder] at hmanifest
    simp only [handOver, hlink]
    constructor
    · exact hmanifest
    · rintro _ ⟨⟩
      exact h.slot link hlink
    · simp
    · simp
    · simp
  · exact h.resetLink hholder os
  · exact Or.inr ⟨h.manifest, h.slot, h.flag, h.running, h.finished⟩

/-! ### The answers -/

/-- Nobody holds the mutex and no request is pending, or the request that came in last has the header
of the transaction that finished last. -/
def HeaderSettled (s : ServiceImpl) : Prop :=
  (s.holder = none ∧ s.update_coordinator.updating = false)
    ∨ s.lastHeader = s.update_coordinator.finishedHeader

/-- The header is asked for only when it is settled. -/
def GetsWhenSettled (s : ServiceImpl) : Event → Prop
  | .getUpdateHeader => s.HeaderSettled
  | _ => True

instance (s : ServiceImpl) : ∀ e, Decidable (s.GetsWhenSettled e)
  | .getUpdateHeader => inferInstanceAs (Decidable (_ ∨ _))
  | .startUpdate _ _ => isTrue trivial
  | .replaceLink _ _ => isTrue trivial
  | .wakeUp => isTrue trivial
  | .resetLink _ => isTrue trivial

/-- The answer is right just when the header is settled. -/
theorem reportsFinished_iff (h : s.Described) :
  GetUpdateHeaderResponse.ReportsFinished
      ⟨s.update_coordinator.manifest, s.update_coordinator.finishedHeader⟩ ↔ s.HeaderSettled
  := by
  unfold GetUpdateHeaderResponse.ReportsFinished HeaderSettled
  dsimp only [manifest]
  rw [← h.manifest]
  constructor
  · exact Or.inr
  · rintro (⟨hfree, hidle⟩ | heq)
    · exact h.finished hfree hidle
    · exact heq

/-- A step gives no answer, or the one to `GetUpdateHeader`. -/
theorem responses_step (hstep : step s e = some s') :
  s'.responses = s.responses ∨ (e = .getUpdateHeader ∧ s' = s.getUpdateHeader)
  := by
  obtain ⟨-, hcases⟩ := step_cases hstep
  rcases hcases with ⟨payload_path, update_header, -, -, rfl⟩
    | ⟨payload_path, update_header, -, -, -, rfl⟩
    | ⟨os, os', payload_path, header_data, -, -, rfl⟩ | ⟨-, -, rfl⟩
    | ⟨-, -, -, rfl⟩ | ⟨os, -, -, rfl⟩ | h
  · exact Or.inl rfl
  · exact Or.inl rfl
  · exact Or.inl rfl
  · exact Or.inl rfl
  · exact Or.inl rfl
  · exact Or.inl rfl
  · exact Or.inr h

/-- No answer is ever taken back. -/
theorem mem_responses_step {r : GetUpdateHeaderResponse} (hr : r ∈ s.responses)
    (hstep : step s e = some s') :
  r ∈ s'.responses
  := by
  obtain heq | ⟨-, rfl⟩ := responses_step hstep
  · rw [heq]
    exact hr
  · exact List.mem_append_left _ hr

/-- A step whose header is settled gives only right answers. -/
theorem reportsFinished_step (h : s.DescribedWhileAlive)
    (hall : ∀ r ∈ s.responses, r.ReportsFinished) (hok : s.GetsWhenSettled e)
    (hstep : step s e = some s') :
  ∀ r ∈ s'.responses, r.ReportsFinished
  := by
  have h : s.Described := h.resolve_left (by simp [(step_cases hstep).1])
  obtain heq | ⟨rfl, rfl⟩ := responses_step hstep
  · rw [heq]
    exact hall
  · intro r hr
    rcases List.mem_append.mp hr with hr | hr
    · exact hall r hr
    · rw [List.mem_singleton.mp hr]
      exact (reportsFinished_iff h).mpr hok

/-- Every answer carries the header of the transaction that finished last before it, just when
the header is only asked for while no request with another header is being carried out or pending. -/
theorem reportsFinished_iff_settled {fs : Nodes} {es : List Event} {s : ServiceImpl}
    (hrun : Lts.exec step (init fs) es = some s) :
  (∀ r ∈ s.responses, r.ReportsFinished) ↔ Lts.Meets step GetsWhenSettled (init fs) es
  := by
  have hinit : (init fs).DescribedWhileAlive := Or.inr (Described.init fs)
  constructor
  · intro hall
    by_contra hmeets
    obtain ⟨as, e, bs, s₁, s₂, -, hbefore, -, hpending, hstep, hafter⟩ :=
      Lts.exists_first_not_ok hmeets hrun
    have hdescribed : s₁.Described :=
      (Lts.invariant' _ (fun _ _ _ => DescribedWhileAlive.step) hinit hbefore).resolve_left
        (by simp [(step_cases hstep).1])
    cases e with
    | getUpdateHeader =>
        have hwrong := mt (reportsFinished_iff hdescribed).mp hpending
        obtain ⟨-, rfl⟩ := step_getUpdateHeader hstep
        have hlast := Lts.invariant' _ (fun _ _ _ => mem_responses_step)
          (List.mem_append_right _ (List.mem_singleton_self _)) hafter
        exact hwrong (hall _ hlast)
    | startUpdate | replaceLink | wakeUp | resetLink => exact hpending trivial
  · intro hok
    have hboth := Lts.invariant
      (fun s => s.DescribedWhileAlive ∧ ∀ r ∈ s.responses, r.ReportsFinished)
      (fun _ _ _ h hok hstep =>
        ⟨DescribedWhileAlive.step h.1 hstep, reportsFinished_step h.1 h.2 hok hstep⟩)
      ⟨hinit, by simp [init]⟩ hok hrun
    exact hboth.2

/-- A request for the payload `a` with the header `text` is carried out. -/
def startA (text : String) : List Event :=
  [.startUpdate ⟨true, ["x".toList, "a".toList]⟩ text.toList, .replaceLink willing willing]

/-- The header is asked for before the first update, after it, and after the next one. -/
def betweenUpdates : List Event :=
  [.getUpdateHeader] ++ startA "h1" ++ [.wakeUp, .resetLink willing, .getUpdateHeader]
    ++ startA "h2" ++ [.wakeUp, .resetLink willing, .getUpdateHeader]

theorem reportsFinished_between_updates :
  ∃ s, Lts.exec step (init twoPayloads) betweenUpdates = some s
    ∧ s.responses.map GetUpdateHeaderResponse.update_header = [[], "h1".toList, "h2".toList]
    ∧ ∀ r ∈ s.responses, r.ReportsFinished
  := by
  have hanswers : (Lts.exec step (init twoPayloads) betweenUpdates).map
      (fun s => s.responses.map GetUpdateHeaderResponse.update_header)
      = some [[], "h1".toList, "h2".toList] := by decide
  obtain ⟨s, hrun, hs⟩ := Option.map_eq_some_iff.mp hanswers
  use s, hrun, hs
  apply (reportsFinished_iff_settled hrun).mpr
  decide

/-- The header is asked for while the first update is pending: the answer is the header of an
update that has not finished. -/
theorem not_reportsFinished_while_pending :
  ∃ s, Lts.exec step (init twoPayloads) (startA "h1" ++ [.getUpdateHeader]) = some s
    ∧ ¬ ∀ r ∈ s.responses, r.ReportsFinished
  := by
  have hanswers : (Lts.exec step (init twoPayloads) (startA "h1" ++ [.getUpdateHeader])).map
      ServiceImpl.responses = some [⟨"h1".toList, []⟩] := by decide
  obtain ⟨s, hrun, hs⟩ := Option.map_eq_some_iff.mp hanswers
  use s, hrun
  rw [hs]
  decide

end ServiceImpl

end Updated
