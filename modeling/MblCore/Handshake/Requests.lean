import MblCore.Handshake.Phase

/-!
# Requests one after the other, and requests that overlap

With installers run one after the other and nobody killed, each installer gets one run of
`mbl-app-update-manager`, on its own path, and the result of that run (`sequential_served`).
When installers overlap, or one is killed while its request is outstanding, an installer may
take an answer that is not its own (`overlapping_not_served`).  An installer that exits with
status 0 has been served whenever every installer is started in a quiet state
(`quiet_starts_served`).
-/

open FlatDir

namespace Handshake

open HandshakeFile

/-! ### One step while a single installer is active -/

/-- The last of the installers, `i`, is in a hand-shake with the daemon, and the installers
before it have ended. -/
structure Active (s : State) (old : List Installer) (i : Installer) (served : Bool) : Prop where
  installers : s.installers = old ++ [i]
  ended : ∀ j ∈ old, j.Ended
  phase : Phase s.clock s.dir s.runs i s.daemon served

theorem installerStep_of_ended {clock : Nat} {d : HandshakeDir} {i : Installer}
    (h : i.Ended) :
  installerStep clock d i = none
  := by
  rcases h with h | ⟨status, h⟩
  · simp [installerStep, h]
  · simp [installerStep, h]

/-- An operation of an installer does not kill it, and its argument stays the same. -/
theorem installerStep_frame {clock : Nat} {d d' : HandshakeDir} {i i' : Installer}
    (h : installerStep clock d i = some (d', i')) :
  i'.pc ≠ .killed ∧ i'.uaod_apps_file = i.uaod_apps_file
  := by
  unfold installerStep at h
  cases hpc : i.pc <;> grind

/-- An installer that has a number below that of the last one has ended. -/
theorem Active.getElem? {s : State} {old : List Installer} {i j : Installer} {served : Bool}
    (h : Active s old i served) {k : Nat} (hj : s.installers[k]? = some j) :
  j.Ended ∨ (k = old.length ∧ j = i)
  := by
  rw [h.installers] at hj
  rcases Nat.lt_trichotomy k old.length with hk | rfl | hk
  · left
    rw [List.getElem?_append_left hk] at hj
    apply h.ended
    apply List.mem_of_getElem? hj
  · right
    simp only [List.getElem?_concat_length, Option.some.injEq] at hj
    exact ⟨rfl, hj.symm⟩
  · rw [List.getElem?_eq_none (by simp; omega)] at hj
    contradiction

/-- What an event other than the start of an installer does while a single installer is
active: the installer stays active, is killed only by a `kill`, and the runs of
`mbl-app-update-manager` change only when it returns, which serves the installer. -/
theorem Active.step {s s' : State} {old : List Installer} {i : Installer} {served : Bool}
    (h : Active s old i served) {e : Event} (he : ∀ file, e ≠ .start file)
    (hstep : Handshake.step s e = some s') :
  ∃ i' served', Active s' old i' served'
    ∧ (i'.pc = .killed → i.pc = .killed ∨ ∃ k, e = .kill k)
    ∧ i'.uaod_apps_file = i.uaod_apps_file
    ∧ ((s'.runs = s.runs ∧ served' = served)
      ∨ ∃ r, s'.runs = s.runs ++ [r] ∧ served = false ∧ served' = true)
  := by
  cases e with
  | start file => exact absurd rfl (he file)
  | installer k =>
      simp only [Handshake.step, Option.bind_eq_bind, Option.bind_eq_some_iff] at hstep
      obtain ⟨j, hj, ⟨dir, i'⟩, hmove, hs'⟩ := hstep
      obtain rfl := Option.some.inj hs'
      rcases h.getElem? hj with hend | ⟨rfl, rfl⟩
      · rw [installerStep_of_ended hend] at hmove
        contradiction
      · have hphase := h.phase.installerStep hmove
        use i', served
        constructor
        · constructor
          · simp [h.installers]
          · exact h.ended
          · exact hphase
        · obtain ⟨halive, hfile⟩ := installerStep_frame hmove
          exact ⟨fun hk => absurd hk halive, hfile, Or.inl ⟨rfl, rfl⟩⟩
  | kill k =>
      simp only [Handshake.step, Option.bind_eq_bind, Option.bind_eq_some_iff] at hstep
      obtain ⟨j, hj, hs'⟩ := hstep
      by_cases hend : j.Ended
      · simp [hend] at hs'
      · simp only [hend, if_false, Option.some.injEq] at hs'
        subst hs'
        rcases h.getElem? hj with hend' | ⟨rfl, rfl⟩
        · exact absurd hend' hend
        · use { j with pc := .killed }, served
          refine ⟨⟨?_, h.ended, h.phase.kill hend⟩, ?_, rfl, Or.inl ⟨rfl, rfl⟩⟩
          · simp [h.installers]
          · intro _
            exact Or.inr ⟨_, rfl⟩
  | daemon =>
      simp only [Handshake.step, Option.bind_eq_bind, Option.bind_eq_some_iff] at hstep
      obtain ⟨⟨dir, pc⟩, hmove, hs'⟩ := hstep
      obtain rfl := Option.some.inj hs'
      use i, served
      exact ⟨⟨h.installers, h.ended, h.phase.daemonStep hmove⟩, Or.inl, rfl,
        Or.inl ⟨rfl, rfl⟩⟩
  | managerReturns rc =>
      simp only [Handshake.step] at hstep
      split at hstep
      · rename_i path beganAt hmanager
        obtain rfl := Option.some.inj hstep
        have hphase := h.phase
        rw [hmanager] at hphase
        obtain ⟨hserved, hphase'⟩ := hphase.managerReturns rc
        use i, true
        exact ⟨⟨h.installers, h.ended, hphase'⟩, Or.inl, rfl,
          Or.inr ⟨_, rfl, hserved, rfl⟩⟩
      · contradiction

/-- An installer started in a quiet state in which every other installer has ended is
active. -/
theorem Active.start {s : State} (hquiet : s.Quiet) (hended : ∀ i ∈ s.installers, i.Ended)
    (file : Text) :
  Active { s with installers := s.installers ++ [⟨file, .openPath, none⟩], clock := s.clock + 1 }
    s.installers ⟨file, .openPath, none⟩ false
  := by
  refine ⟨rfl, hended, ?_⟩
  have hdaemon : s.daemon = .waitDo := hquiet.daemon
  simp only [hdaemon]
  exact Phase.opening rfl ⟨hquiet.no_request, hquiet.no_answer⟩

/-! ### Installers that run one after the other -/

/-- Installers are started one after the other, and none is killed. -/
def Sequential (s : State) : Event → Prop
  | .start _ => ∀ i ∈ s.installers, i.Ended
  | .kill _ => False
  | _ => True

instance (s : State) : ∀ e, Decidable (Sequential s e)
  | .start _ => inferInstanceAs (Decidable (∀ i ∈ s.installers, i.Ended))
  | .kill _ => isFalse id
  | .installer _ | .daemon | .managerReturns _ => isTrue trivial

/-- Every installer that has exited has had the run of `mbl-app-update-manager` with its own
number, on the argument `path` reads off its own one, and exited with 0 exactly when that run
returned 0.  There are never more runs than installers, and while no installer is active
there are as many runs as installers and none of the four files exists. -/
structure ServedInOrder (path : Text → Text) (s : State) : Prop where
  each : ∀ (k : Nat) (i : Installer) (status : Nat),
    s.installers[k]? = some i → i.pc = .exited status →
    ∃ r : ManagerRun, s.runs[k]? = some r ∧ r.path = path i.uaod_apps_file ∧ (status = 0 ↔ r.rc = 0)
  once : s.runs.length ≤ s.installers.length
  exits : (∀ i ∈ s.installers, i.Ended) →
    s.daemon = .waitDo ∧ s.runs.length = s.installers.length ∧ ∀ n, s.dir.has n = false

/-- The installers `old` have exited, each with the result of the run with its number. -/
def Settled (runs : List ManagerRun) (old : List Installer) : Prop :=
  ∀ (k : Nat) (i : Installer), old[k]? = some i →
    ∃ (r : ManagerRun) (status : Nat), runs[k]? = some r ∧ i.pc = .exited status
      ∧ r.path = i.uaod_apps_file.chomp ∧ (status = 0 ↔ r.rc = 0)

/-- What holds between the steps of a sequential run. -/
inductive InTurn (s : State) : Prop
  | fresh (installers : s.installers = []) (runs : s.runs = []) (daemon : s.daemon = .waitDo)
      (absent : ∀ n, s.dir.has n = false)
  | busy (old : List Installer) (i : Installer) (served : Bool) (active : Active s old i served)
      (settled : Settled s.runs old) (alive : i.pc ≠ .killed)
      (count : s.runs.length = old.length + served.toNat)

/-- A further run at the end leaves the installers before settled. -/
theorem Settled.append {runs : List ManagerRun} {old : List Installer} (h : Settled runs old)
    (r : ManagerRun) :
  Settled (runs ++ [r]) old
  := by
  intro k i hi
  obtain ⟨r', status, hr', hrest⟩ := h k i hi
  use r', status
  constructor
  · rw [List.getElem?_append_left (List.getElem?_eq_some_iff.mp hr').1]
    exact hr'
  · exact hrest

/-- An active installer that has ended without being killed has exited with the result of the
last run, and the files are gone. -/
theorem Active.over {s : State} {old : List Installer} {i : Installer} {served : Bool}
    (h : Active s old i served) (hend : i.Ended) (halive : i.pc ≠ .killed) :
  ∃ rc status, i.pc = .exited status ∧ (status = 0 ↔ rc = 0) ∧ Served s.runs i rc
    ∧ s.daemon = .waitDo ∧ served = true ∧ ∀ n, s.dir.has n = false
  := by
  obtain ⟨status, hpc⟩ := hend.resolve_left halive
  have hphase := h.phase
  generalize hD : s.daemon = D at hphase
  cases hphase with
  | finished rc status' pc ok served absent => exact ⟨rc, status', pc, ok, served, rfl, rfl, absent⟩
  | answered rc waits => rcases waits with (pc | pc) | pc <;> simp [pc] at hpc
  | requested waits | taking waits | reading waits | calling waits | running _ waits
  | openingRc _ waits | writingRc _ _ waits | removing _ waits | flagging _ waits =>
      rcases waits with pc | pc <;> simp [pc] at hpc
  | opening pc | writing _ pc | touching pc | gone _ pc | collecting _ pc | discarding _ pc
  | testing _ pc => simp [pc] at hpc

/-- When the active installer has exited, all installers are settled. -/
theorem InTurn.settled {s : State} {old : List Installer} {i : Installer} {served : Bool}
    (h : Active s old i served) (hold : Settled s.runs old) (hend : i.Ended)
    (halive : i.pc ≠ .killed) (hcount : s.runs.length = old.length + served.toNat) :
  Settled s.runs s.installers
  := by
  obtain ⟨rc, status, hpc, hok, ⟨r, hr, hpath, hrc, -⟩, -, rfl, -⟩ := h.over hend halive
  intro k j hj
  rw [h.installers] at hj
  by_cases hk : k < old.length
  · rw [List.getElem?_append_left hk] at hj
    exact hold k j hj
  · have hlen := (List.getElem?_eq_some_iff.mp hj).1
    obtain rfl : k = old.length := by simp at hlen; omega
    simp only [List.getElem?_concat_length, Option.some.injEq] at hj
    subst hj
    use r, status
    rw [← hrc] at hok
    refine ⟨?_, hpc, hpath, hok⟩
    rw [List.getLast?_eq_getElem?, hcount] at hr
    simpa using hr

theorem Settled.result {runs : List ManagerRun} {old : List Installer} {k : Nat} {j : Installer}
    {status : Nat} (h : Settled runs old) (hj : old[k]? = some j) (hpc : j.pc = .exited status) :
  ∃ r : ManagerRun, runs[k]? = some r ∧ r.path = j.uaod_apps_file.chomp ∧ (status = 0 ↔ r.rc = 0)
  := by
  obtain ⟨r, status', hr, hpc', hpath, hstatus⟩ := h k j hj
  rw [hpc] at hpc'
  obtain rfl := InstallerPc.exited.inj hpc'
  exact ⟨r, hr, hpath, hstatus⟩

/-- An installer that has exited has its run, whether it is the last one or not. -/
theorem InTurn.served {s : State} {old : List Installer} {i j : Installer} {served : Bool}
    {k status : Nat} (h : Active s old i served) (hold : Settled s.runs old)
    (halive : i.pc ≠ .killed) (hcount : s.runs.length = old.length + served.toNat)
    (hj : s.installers[k]? = some j) (hpc : j.pc = .exited status) :
  ∃ r : ManagerRun, s.runs[k]? = some r ∧ r.path = j.uaod_apps_file.chomp ∧ (status = 0 ↔ r.rc = 0)
  := by
  by_cases hk : k < old.length
  · apply hold.result _ hpc
    rw [h.installers, List.getElem?_append_left hk] at hj
    exact hj
  · have hlast : i = j := by
      rw [h.installers] at hj
      have hlen := (List.getElem?_eq_some_iff.mp hj).1
      obtain rfl : k = old.length := by simp at hlen; omega
      simpa using hj
    subst hlast
    have hall := InTurn.settled h hold (Or.inr ⟨status, hpc⟩) halive hcount
    exact hall.result hj hpc

theorem InTurn.step {s s' : State} {e : Event} (h : InTurn s) (he : Sequential s e)
    (hstep : Handshake.step s e = some s') :
  InTurn s'
  := by
  cases h with
  | fresh installers runs daemon absent =>
      cases e with
      | start file =>
          obtain rfl := Option.some.inj hstep
          refine InTurn.busy s.installers _ false (Active.start ⟨daemon, ?_, ?_⟩ he file) ?_ ?_ ?_
          · apply absent
          · apply absent
          · simp [Settled, installers]
          · simp
          · simp [installers, runs]
      | installer k => simp [Handshake.step, installers] at hstep
      | kill k => exact he.elim
      | daemon =>
          simp only [Handshake.step, daemon, daemonStep, absent] at hstep
          obtain rfl := Option.some.inj hstep
          exact InTurn.fresh installers runs rfl absent
      | managerReturns rc => simp [Handshake.step, daemon] at hstep
  | busy old i served active settled alive count =>
      cases e with
      | start file =>
          have hend : i.Ended := he i (by simp [active.installers])
          have hall := InTurn.settled active settled hend alive count
          obtain ⟨rc, status, hpc, hok, hserved, hdaemon, rfl, habsent⟩ := active.over hend alive
          obtain rfl := Option.some.inj hstep
          refine InTurn.busy s.installers _ false
            (Active.start ⟨hdaemon, habsent _, habsent _⟩ he file) hall ?_ ?_
          · simp
          · simp [active.installers, count]
      | kill k => exact he.elim
      | installer k =>
          obtain ⟨i', served', hactive, halive, -, hruns⟩ := active.step (by simp) hstep
          apply InTurn.busy old i' served' hactive
          all_goals grind [Settled.append]
      | daemon =>
          obtain ⟨i', served', hactive, halive, -, hruns⟩ := active.step (by simp) hstep
          apply InTurn.busy old i' served' hactive
          all_goals grind [Settled.append]
      | managerReturns rc =>
          obtain ⟨i', served', hactive, halive, -, hruns⟩ := active.step (by simp) hstep
          apply InTurn.busy old i' served' hactive
          all_goals grind [Settled.append]

/-- While installers run one after the other, every one of them is in turn. -/
theorem InTurn.of_run {s : State} {es : List Event} (hrun : Lts.exec Handshake.step init es = some s)
    (hok : Lts.Meets Handshake.step Sequential init es) :
  InTurn s
  := by
  apply Lts.invariant InTurn (fun _ _ _ => InTurn.step) _ hok hrun
  exact InTurn.fresh rfl rfl rfl (fun _ => rfl)

/-- Installers that run one after the other are served in order: each gets one run of
`mbl-app-update-manager`, on its argument without the newlines at its end, exits with 0
exactly when that run returned 0, and leaves none of the four files behind. -/
theorem sequential_served {s : State} {es : List Event}
    (hrun : Lts.exec Handshake.step init es = some s)
    (hok : Lts.Meets Handshake.step Sequential init es) :
  ServedInOrder Text.chomp s
  := by
  cases InTurn.of_run hrun hok with
  | fresh installers runs daemon absent =>
      constructor
      · simp [installers]
      · simp [installers, runs]
      · intro _
        exact ⟨daemon, by simp [installers, runs], absent⟩
  | busy old i served active settled alive count =>
      constructor
      · intro k j status hj hpc
        exact InTurn.served active settled alive count hj hpc
      · rw [count, active.installers]
        cases served <;> simp
      · intro hall
        have hend : i.Ended := hall i (by simp [active.installers])
        obtain ⟨rc, status, hpc, hstatus, hserved, hdaemon, rfl, habsent⟩ :=
          active.over hend alive
        exact ⟨hdaemon, by simp [active.installers, count], habsent⟩

/-- The steps of an installer with number `k` for `file` and of the daemon, from the start of
the installer to its exit, when `mbl-app-update-manager` returns `rc`. -/
def exchange (k : Nat) (file : Text) (rc : Nat) : List Event :=
  .start file :: List.replicate 3 (.installer k) ++ List.replicate 4 .daemon
    ++ .managerReturns rc :: List.replicate 4 .daemon ++ List.replicate 5 (.installer k)

/-- Two installers, one after the other: the first is served with 0, the second with 1. -/
theorem sequential_served_two :
  ∃ s, Lts.exec Handshake.step init (exchange 0 ['a'] 0 ++ exchange 1 ['b'] 1) = some s
    ∧ s.installers.map Installer.pc = [.exited 0, .exited 47] ∧ ServedInOrder Text.chomp s
  := by
  have hok : Lts.Meets Handshake.step Sequential init
      (exchange 0 ['a'] 0 ++ exchange 1 ['b'] 1) := by decide
  exact ⟨_, rfl, by decide, sequential_served rfl hok⟩

/-- A path that ends in a newline is not passed on as it is: the installer for it exits, but
`mbl-app-update-manager` has been run on the path without the newline. -/
theorem sequential_not_served_verbatim :
  ¬ ∀ (es : List Event) (s : State), Lts.exec Handshake.step init es = some s →
    Lts.Meets Handshake.step Sequential init es → ServedInOrder id s
  := by
  intro h
  obtain ⟨s, hrun, hi, hr⟩ : ∃ s, Lts.exec Handshake.step init (exchange 0 ['a', '\n'] 0) = some s
      ∧ s.installers = [⟨['a', '\n'], .exited 0, some 2⟩] ∧ s.runs = [⟨['a'], 7, 0⟩] :=
    ⟨_, rfl, by decide, by decide⟩
  obtain ⟨r, hr', hpath, -⟩ := (h _ s hrun (by decide)).each 0 _ 0 (by rw [hi]; rfl) rfl
  obtain rfl : ⟨['a'], 7, 0⟩ = r := by simpa [hr] using hr'
  simp at hpath

/-! ### Installers that overlap or are killed -/

/-- Every installer that has exited with status 0 has been served: `mbl-app-update-manager`
has been run on its path, that run began after the installer had written the path, and it
returned 0. -/
def ZeroMeansServed (s : State) : Prop :=
  ∀ i ∈ s.installers, i.pc = .exited 0 →
    ∃ r ∈ s.runs, r.path = i.uaod_apps_file ∧ r.rc = 0
      ∧ ∃ w, i.wroteAt = some w ∧ w < r.beganAt

/-- An installer is started only in a quiet state, when every installer before it has exited
or was killed, and for a path that does not end in a newline. -/
def QuietStart (s : State) : Event → Prop
  | .start file => s.Quiet ∧ (∀ i ∈ s.installers, i.Ended) ∧ file.chomp = file
  | _ => True

instance (s : State) : Decidable s.Quiet :=
  decidable_of_iff
    (s.daemon = .waitDo ∧ s.dir.has do_app_update = false ∧ s.dir.has done_app_update = false)
    ⟨fun h => ⟨h.1, h.2.1, h.2.2⟩, fun h => ⟨h.daemon, h.no_request, h.no_answer⟩⟩

instance (s : State) : ∀ e, Decidable (QuietStart s e)
  | .start file => inferInstanceAs
      (Decidable (s.Quiet ∧ (∀ i ∈ s.installers, i.Ended) ∧ file.chomp = file))
  | .installer _ | .kill _ | .daemon | .managerReturns _ => isTrue trivial

/-- The installer has been served if it has exited with status 0. -/
def Installer.Honest (runs : List ManagerRun) (i : Installer) : Prop :=
  i.pc = .exited 0 → ∃ r ∈ runs, r.path = i.uaod_apps_file ∧ r.rc = 0
    ∧ ∃ w, i.wroteAt = some w ∧ w < r.beganAt

theorem Installer.Honest.mono {runs runs' : List ManagerRun} {i : Installer}
    (h : i.Honest runs) (hsub : runs ⊆ runs') :
  i.Honest runs'
  := by
  intro hpc
  obtain ⟨r, hr, hrest⟩ := h hpc
  exact ⟨r, hsub hr, hrest⟩

/-- What holds between the steps of a run whose installers are started in quiet states. -/
inductive OneAtATime (s : State) : Prop
  | fresh (installers : s.installers = [])
  | busy (old : List Installer) (i : Installer) (served : Bool) (active : Active s old i served)
      (honest : ∀ j ∈ old, j.Honest s.runs) (plain : i.uaod_apps_file.chomp = i.uaod_apps_file)

/-- An active installer with a path that does not end in a newline is honest. -/
theorem Active.honest {s : State} {old : List Installer} {i : Installer} {served : Bool}
    (h : Active s old i served) (plain : i.uaod_apps_file.chomp = i.uaod_apps_file) :
  i.Honest s.runs
  := by
  intro hpc
  obtain ⟨rc, status, hpc', hok, ⟨r, hr, hpath, hrc, hw⟩, -⟩ :=
    h.over (Or.inr ⟨0, hpc⟩) (by simp [hpc])
  rw [hpc] at hpc'
  obtain rfl := InstallerPc.exited.inj hpc'
  use r, List.mem_of_getLast? hr
  rw [plain] at hpath
  rw [hok.mp rfl] at hrc
  exact ⟨hpath, hrc, hw⟩

theorem OneAtATime.zeroMeansServed {s : State} (h : OneAtATime s) :
  ZeroMeansServed s
  := by
  intro j hj
  cases h with
  | fresh installers => simp [installers] at hj
  | busy old i served active honest plain =>
      rw [active.installers, List.mem_append, List.mem_singleton] at hj
      rcases hj with hj | rfl
      · exact honest j hj
      · exact active.honest plain

theorem OneAtATime.step {s s' : State} {e : Event} (h : OneAtATime s) (he : QuietStart s e)
    (hstep : Handshake.step s e = some s') :
  OneAtATime s'
  := by
  by_cases hstart : ∃ file, e = .start file
  · obtain ⟨file, rfl⟩ := hstart
    obtain ⟨hquiet, hended, hplain⟩ := he
    obtain rfl := Option.some.inj hstep
    exact OneAtATime.busy _ _ false (Active.start hquiet hended file) h.zeroMeansServed hplain
  · cases h with
    | fresh installers =>
        apply OneAtATime.fresh
        cases e with
        | start file => exact absurd ⟨file, rfl⟩ hstart
        | installer k => simp [Handshake.step, installers] at hstep
        | kill k => simp [Handshake.step, installers] at hstep
        | daemon =>
            simp only [Handshake.step, Option.bind_eq_bind, Option.bind_eq_some_iff] at hstep
            obtain ⟨_, -, hs'⟩ := hstep
            obtain rfl := Option.some.inj hs'
            exact installers
        | managerReturns rc =>
            simp only [Handshake.step] at hstep
            split at hstep
            · obtain rfl := Option.some.inj hstep
              exact installers
            · contradiction
    | busy old i served active honest plain =>
        obtain ⟨i', served', hactive, -, hfile, hruns⟩ :=
          active.step (fun file hf => hstart ⟨file, hf⟩) hstep
        apply OneAtATime.busy old i' served' hactive
        · intro j hj
          apply (honest j hj).mono
          rcases hruns with ⟨hruns, -⟩ | ⟨r, hruns, -⟩
          · rw [hruns]
            exact List.Subset.refl _
          · rw [hruns]
            exact List.subset_append_left _ _
        · rw [hfile]
          exact plain

/-- When every installer is started in a quiet state, then in every state an installer that
has exited with status 0 has been served, wherever installers are killed. -/
theorem quiet_starts_served {s : State} {es : List Event}
    (hrun : Lts.exec Handshake.step init es = some s)
    (hok : Lts.Meets Handshake.step QuietStart init es) :
  ZeroMeansServed s
  := by
  apply OneAtATime.zeroMeansServed
  apply Lts.invariant OneAtATime (fun _ _ _ => OneAtATime.step) _ hok hrun
  exact OneAtATime.fresh rfl

/-- The first installer is killed while it opens `firmware_path`, before it has asked for
anything; the second one starts in a quiet state and is served. -/
theorem quiet_starts_served_after_kill :
  ∃ s, Lts.exec Handshake.step init
      ([.start ['a'], .installer 0, .kill 0] ++ exchange 1 ['b'] 0) = some s
    ∧ s.installers.map Installer.pc = [.killed, .exited 0] ∧ ZeroMeansServed s
  := by
  have hok : Lts.Meets Handshake.step QuietStart init
      ([.start ['a'], .installer 0, .kill 0] ++ exchange 1 ['b'] 0) := by decide
  exact ⟨_, rfl, by decide, quiet_starts_served rfl hok⟩

/-- The first installer is killed after it has asked for an update.  The daemon serves the
request, and the answer stays: the second installer takes it and exits with status 0, although
`mbl-app-update-manager` has never been run on its path. -/
theorem overlapping_not_served :
  ¬ ∀ (es : List Event) (s : State), Lts.exec Handshake.step init es = some s →
    ZeroMeansServed s
  := by
  intro h
  obtain ⟨s, hrun, hi, hr⟩ : ∃ s, Lts.exec Handshake.step init
        (.start ['a'] :: List.replicate 3 (.installer 0) ++ .kill 0 :: List.replicate 4 .daemon
          ++ .managerReturns 0 :: List.replicate 4 .daemon
          ++ .start ['b'] :: List.replicate 8 (.installer 1)) = some s
      ∧ s.installers = [⟨['a'], .killed, some 2⟩, ⟨['b'], .exited 0, some 16⟩]
      ∧ s.runs = [⟨['a'], 8, 0⟩] :=
    ⟨_, rfl, by decide, by decide⟩
  obtain ⟨r, hr', hpath, -⟩ := h _ s hrun ⟨['b'], .exited 0, some 16⟩ (by simp [hi]) rfl
  obtain rfl : r = ⟨['a'], 8, 0⟩ := by simpa [hr] using hr'
  simp at hpath

end Handshake
