import MblCore.Lib.Fair
import MblCore.Handshake.Requests

/-!
# Every request is answered

Installers that run one after the other do not wait forever.  In each phase of a hand-shake there is
one party that can take the exchange on: the installer, the daemon, or `mbl-app-update-manager`
that is to return.  The others can only poll.  So every installer exits in a run that is fair to
these parties (`installer_exits`).
-/

open FlatDir

namespace Handshake

open HandshakeFile

/-- Those who take the steps of a hand-shake. -/
inductive Party
  | installer (k : ℕ)
  | daemon
  | manager
deriving DecidableEq

/-- Who takes a step.  Nobody is bound to start an installer or to kill one. -/
def partyOf : Event → Option Party
  | .installer k => some (.installer k)
  | .daemon => some .daemon
  | .managerReturns _ => some .manager
  | .start _ | .kill _ => none

/-- The operations of an exchange that are still to come, polling apart. -/
def remaining (d : HandshakeDir) : InstallerPc → DaemonPc → ℕ
  | _, .rmDo => 13
  | _, .catPath => 12
  | _, .callManager _ => 11
  | _, .manager _ _ => 10
  | _, .openRc _ => 9
  | _, .writeRc _ _ => 8
  | _, .rmPath => 7
  | _, .touchDone => 6
  | .openPath, .waitDo => 17
  | .writePath _, .waitDo => 16
  | .touchDo, .waitDo => 15
  | .waitDone, .waitDo => if d.has done_app_update then 5 else 14
  | .rmDone, .waitDo => 4
  | .catRc, .waitDo => 3
  | .rmRc _, .waitDo => 2
  | .testRc _, .waitDo => 1
  | .exited _, .waitDo | .killed, .waitDo => 0

/-- Who takes the exchange of the installer with the number `k` on. -/
def turn (k : ℕ) (d : HandshakeDir) : InstallerPc → DaemonPc → Party
  | _, .manager _ _ => .manager
  | .waitDone, .waitDo => if d.has done_app_update then .installer k else .daemon
  | _, .waitDo => .installer k
  | _, _ => .daemon

/-! ### What a step does to the exchange -/

section

variable {clock k : ℕ} {d d' : HandshakeDir} {runs : List ManagerRun} {i i' : Installer}
  {D D' : DaemonPc} {served : Bool}

/-- An installer that polls for the answer, and is not killed, waits for it. -/
theorem Installer.Waits.pc (h : i.Waits) (halive : i.pc ≠ .killed) :
  i.pc = .waitDone
  := h.resolve_right halive

/-- An operation of the installer takes the exchange on when it is its turn, and changes nothing
otherwise. -/
theorem Phase.remaining_installerStep (h : Phase clock d runs i D served) (halive : i.pc ≠ .killed)
    (hstep : Handshake.installerStep clock d i = some (d', i')) :
  if turn k d i.pc D = .installer k then remaining d' i'.pc D < remaining d i.pc D
  else d' = d ∧ i' = i
  := by
  cases h with
  | opening pc | writing _ pc =>
      simp only [Handshake.installerStep, pc, Option.some.injEq, Prod.mk.injEq] at hstep
      obtain ⟨rfl, rfl⟩ := hstep
      simp [turn, remaining, pc]
  | touching pc =>
      simp only [Handshake.installerStep, pc, Option.some.injEq, Prod.mk.injEq] at hstep
      obtain ⟨rfl, rfl⟩ := hstep
      simp only [turn, remaining, pc, if_true]
      split <;> decide
  | gone _ pc => exact absurd pc halive
  | requested waits _ _ no_answer =>
      obtain ⟨rfl, rfl⟩ := waits.step no_answer hstep
      simp [turn, waits.pc halive, no_answer]
  | taking waits _ no_answer =>
      obtain ⟨rfl, rfl⟩ := waits.step no_answer hstep
      simp [turn]
  | reading waits quiet | calling waits quiet | running _ waits quiet | openingRc _ waits quiet
  | writingRc _ _ waits quiet | removing _ waits quiet | flagging _ waits quiet =>
      obtain ⟨rfl, rfl⟩ := waits.step quiet.no_answer hstep
      simp [turn]
  | answered rc waits answer no_request flag =>
      rcases waits with waits | pc
      · have pc := waits.pc halive
        simp only [Handshake.installerStep, pc, flag, if_true, Option.some.injEq,
          Prod.mk.injEq] at hstep
        obtain ⟨rfl, rfl⟩ := hstep
        simp [turn, remaining, pc, flag]
      · simp only [Handshake.installerStep, pc, Option.some.injEq, Prod.mk.injEq] at hstep
        obtain ⟨rfl, rfl⟩ := hstep
        simp [turn, remaining, pc]
  | collecting rc pc | discarding rc pc | testing rc pc =>
      simp only [Handshake.installerStep, pc, Option.some.injEq, Prod.mk.injEq] at hstep
      obtain ⟨rfl, rfl⟩ := hstep
      simp [turn, remaining, pc]
  | finished rc status pc => simp [Handshake.installerStep, pc] at hstep

/-- An operation of the daemon takes the exchange on when it is its turn, and changes nothing
otherwise. -/
theorem Phase.remaining_daemonStep (h : Phase clock d runs i D served) (halive : i.pc ≠ .killed)
    (hstep : Handshake.daemonStep clock d D = some (d', D')) :
  if turn k d i.pc D = .daemon then remaining d' i.pc D' < remaining d i.pc D
  else d' = d ∧ D' = D
  := by
  cases h with
  | opening pc quiet | writing _ pc quiet | touching pc quiet | collecting _ pc quiet
  | discarding _ pc quiet =>
      obtain ⟨rfl, rfl⟩ := daemonStep_waitDo quiet.no_request hstep
      simp [turn, pc]
  | gone _ pc => exact absurd pc halive
  | requested waits _ request no_answer =>
      simp only [Handshake.daemonStep, request, if_true, Option.some.injEq,
        Prod.mk.injEq] at hstep
      obtain ⟨rfl, rfl⟩ := hstep
      simp [turn, remaining, waits.pc halive, no_answer]
  | running => simp [Handshake.daemonStep] at hstep
  | taking | reading | calling | openingRc | writingRc | removing =>
      simp only [Handshake.daemonStep, Option.some.injEq, Prod.mk.injEq] at hstep
      obtain ⟨rfl, rfl⟩ := hstep
      simp [turn, remaining]
  | flagging rc waits =>
      simp only [Handshake.daemonStep, Option.some.injEq, Prod.mk.injEq] at hstep
      obtain ⟨rfl, rfl⟩ := hstep
      simp [turn, remaining, waits.pc halive]
  | answered rc waits _ no_request flag =>
      obtain ⟨rfl, rfl⟩ := daemonStep_waitDo no_request hstep
      rcases waits with waits | pc
      · simp [turn, waits.pc halive, flag]
      · simp [turn, pc]
  | testing _ pc _ _ absent | finished _ _ pc _ _ absent =>
      obtain ⟨rfl, rfl⟩ := daemonStep_waitDo (absent _) hstep
      simp [turn, pc]

/-- The party whose turn it is can act until the installer has exited. -/
theorem Phase.turn_cases (h : Phase clock d runs i D served) (halive : i.pc ≠ .killed)
    (hactive : ∀ status, i.pc ≠ .exited status) :
  (turn k d i.pc D = .installer k ∧ (Handshake.installerStep clock d i).isSome)
    ∨ (turn k d i.pc D = .daemon ∧ (Handshake.daemonStep clock d D).isSome)
    ∨ (turn k d i.pc D = .manager ∧ ∃ path beganAt, D = .manager path beganAt)
  := by
  cases h with
  | opening pc | writing _ pc | touching pc | collecting _ pc | discarding _ pc | testing _ pc =>
      left
      simp [turn, pc, Handshake.installerStep]
  | gone _ pc => exact absurd pc halive
  | requested waits _ _ no_answer =>
      right; left
      simp [turn, waits.pc halive, no_answer, Handshake.daemonStep]
  | running beganAt =>
      right; right
      exact ⟨by simp [turn], _, _, rfl⟩
  | taking | reading | calling | openingRc | writingRc | removing | flagging =>
      right; left
      simp [turn, Handshake.daemonStep]
  | answered rc waits _ _ flag =>
      left
      rcases waits with waits | pc
      · simp [turn, waits.pc halive, flag, Handshake.installerStep]
      · simp [turn, pc, Handshake.installerStep]
  | finished rc status pc => exact absurd pc (hactive status)

end

/-! ### The ranking of an exchange -/

variable {k : ℕ} {s s' : State}

/-- The installer with the number `k` has exited. -/
def HasExited (k : ℕ) (s : State) : Prop :=
  ∃ i status, s.installers[k]? = some i ∧ i.pc = .exited status

/-- The installer with the number `k` is the last one, and in a hand-shake with the daemon. -/
def InExchange (k : ℕ) (s : State) : Prop :=
  ∃ old i served, Active s old i served ∧ old.length = k ∧ i.pc ≠ .killed

/-- How far the installer with the number `k` is from its exit. -/
def farFromExit (k : ℕ) (s : State) : ℕ :=
  (s.installers[k]?).elim 0 fun i => remaining s.dir i.pc s.daemon

/-- Who takes the exchange of the installer with the number `k` on. -/
def helper (k : ℕ) (s : State) : Party :=
  (s.installers[k]?).elim .daemon fun i => turn k s.dir i.pc s.daemon

theorem Active.last {old : List Installer} {i : Installer} {served : Bool}
    (h : Active s old i served) :
  s.installers[old.length]? = some i
  := by
  rw [h.installers]
  simp

theorem Active.farFromExit_eq {old : List Installer} {i : Installer} {served : Bool}
    (h : Active s old i served) :
  farFromExit old.length s = remaining s.dir i.pc s.daemon
  := by
  rw [farFromExit, h.last]
  rfl

theorem Active.helper_eq {old : List Installer} {i : Installer} {served : Bool}
    (h : Active s old i served) :
  helper old.length s = turn old.length s.dir i.pc s.daemon
  := by
  rw [helper, h.last]
  rfl

/-- An installer that has not exited has the party whose turn it is to help. -/
theorem InExchange.enabled (h : InExchange k s) (hgoal : ¬ HasExited k s) :
  Lts.Enabled step partyOf (helper k s) s
  := by
  obtain ⟨old, i, served, hactive, rfl, halive⟩ := h
  have hlast := hactive.last
  have hpc : ∀ status, i.pc ≠ .exited status := fun status hpc => hgoal ⟨i, status, hlast, hpc⟩
  rw [helper, hlast, Option.elim_some]
  obtain ⟨hturn, hsome⟩ | ⟨hturn, hsome⟩ | ⟨hturn, path, beganAt, hmanager⟩ :=
    hactive.phase.turn_cases (k := old.length) halive hpc
  · obtain ⟨⟨d, i'⟩, hmove⟩ := Option.isSome_iff_exists.mp hsome
    rw [hturn]
    use .installer old.length, rfl
    simp [step, hlast, hmove]
  · obtain ⟨⟨d, D⟩, hmove⟩ := Option.isSome_iff_exists.mp hsome
    rw [hturn]
    use .daemon, rfl
    simp [step, hmove]
  · rw [hturn]
    use .managerReturns 0, rfl
    simp [step, hmanager]

/-- A step takes the exchange on when it is made by the party whose turn it is, and otherwise it is
still the turn of this party. -/
theorem InExchange.next {e : Event} (h : InExchange k s) (hgoal : ¬ HasExited k s)
    (hok : Sequential s e) (hstep : step s e = some s') :
  HasExited k s' ∨ InExchange k s' ∧ (farFromExit k s' < farFromExit k s ∨
    partyOf e ≠ some (helper k s) ∧ farFromExit k s' = farFromExit k s ∧ helper k s' = helper k s)
  := by
  obtain ⟨old, i, served, hactive, rfl, halive⟩ := h
  right
  cases e with
  | start file =>
      have hended : i.Ended := hok i (by simp [hactive.installers])
      obtain ⟨status, hpc⟩ := hended.resolve_left halive
      exact absurd ⟨i, status, hactive.last, hpc⟩ hgoal
  | kill j => exact hok.elim
  | installer j =>
      simp only [step, Option.bind_eq_bind, Option.bind_eq_some_iff] at hstep
      obtain ⟨i₀, hi₀, ⟨d', i'⟩, hmove, hs'⟩ := hstep
      obtain rfl := Option.some.inj hs'
      obtain hended | ⟨rfl, rfl⟩ := hactive.getElem? hi₀
      · rw [installerStep_of_ended hended] at hmove
        contradiction
      · have hactive' : Active { s with
            dir := d', installers := s.installers.set old.length i', clock := s.clock + 1 }
            old i' served := by
          constructor
          · simp [hactive.installers]
          · exact hactive.ended
          · exact hactive.phase.installerStep hmove
        use ⟨old, i', served, hactive', rfl, (installerStep_frame hmove).1⟩
        rw [hactive.farFromExit_eq, hactive'.farFromExit_eq, hactive.helper_eq,
          hactive'.helper_eq]
        have hremaining := hactive.phase.remaining_installerStep (k := old.length) halive hmove
        split at hremaining
        · exact Or.inl hremaining
        · next hturn =>
            obtain ⟨rfl, rfl⟩ := hremaining
            right
            refine ⟨fun hparty => hturn ?_, rfl, rfl⟩
            exact (Option.some.inj hparty).symm
  | daemon =>
      simp only [step, Option.bind_eq_bind, Option.bind_eq_some_iff] at hstep
      obtain ⟨⟨d', D'⟩, hmove, hs'⟩ := hstep
      obtain rfl := Option.some.inj hs'
      have hactive' : Active { s with dir := d', daemon := D', clock := s.clock + 1 } old i served :=
        ⟨hactive.installers, hactive.ended, hactive.phase.daemonStep hmove⟩
      use ⟨old, i, served, hactive', rfl, halive⟩
      rw [hactive.farFromExit_eq, hactive'.farFromExit_eq, hactive.helper_eq, hactive'.helper_eq]
      have hremaining := hactive.phase.remaining_daemonStep (k := old.length) halive hmove
      split at hremaining
      · exact Or.inl hremaining
      · next hturn =>
          obtain ⟨rfl, rfl⟩ := hremaining
          right
          refine ⟨fun hparty => hturn ?_, rfl, rfl⟩
          exact (Option.some.inj hparty).symm
  | managerReturns rc =>
      simp only [step] at hstep
      split at hstep
      · rename_i path beganAt hmanager
        obtain rfl := Option.some.inj hstep
        have hphase := hactive.phase
        rw [hmanager] at hphase
        obtain ⟨-, hphase'⟩ := hphase.managerReturns rc
        have hactive' : Active { s with
            daemon := .openRc rc, runs := s.runs ++ [⟨path, beganAt, rc⟩], clock := s.clock + 1 }
            old i true :=
          ⟨hactive.installers, hactive.ended, hphase'⟩
        use ⟨old, i, true, hactive', rfl, halive⟩
        left
        rw [hactive.farFromExit_eq, hactive'.farFromExit_eq, hmanager]
        simp [remaining]
      · contradiction

/-- The ranking of the exchange of the installer with the number `k`. -/
def exchangeRanking (k : ℕ) : Lts.Ranking step partyOf Sequential (HasExited k) where
  Inv := InExchange k
  rank := farFromExit k
  helper := helper k
  enabled _ h hgoal := h.enabled hgoal
  next _ _ _ h hgoal hok hstep := h.next hgoal hok hstep

/-! ### Fair runs -/

/-- An installer that has been started is in an exchange, or has exited. -/
theorem InTurn.inExchange_or_hasExited {i : Installer} (h : InTurn s)
    (hi : s.installers[k]? = some i) :
  InExchange k s ∨ HasExited k s
  := by
  cases h with
  | fresh installers => simp [installers] at hi
  | busy old j served active settled alive count =>
      by_cases hk : k < old.length
      · right
        have hold : old[k]? = some i := by
          rw [active.installers, List.getElem?_append_left hk] at hi
          exact hi
        obtain ⟨r, status, -, hpc, -⟩ := settled k i hold
        exact ⟨i, status, hi, hpc⟩
      · left
        have hlen := (List.getElem?_eq_some_iff.mp hi).1
        rw [active.installers, List.length_append, List.length_singleton] at hlen
        obtain rfl : k = old.length := by omega
        exact ⟨old, j, served, active, rfl, alive⟩

/-- An installer that has exited has had its run of `mbl-app-update-manager`. -/
theorem InTurn.served_of_exited {i : Installer} {status : ℕ} (h : InTurn s)
    (hi : s.installers[k]? = some i) (hpc : i.pc = .exited status) :
  ∃ r : ManagerRun, s.runs[k]? = some r ∧ r.path = i.uaod_apps_file.chomp ∧ (status = 0 ↔ r.rc = 0)
  := by
  cases h with
  | fresh installers => simp [installers] at hi
  | busy old j served active settled alive count =>
      exact InTurn.served active settled alive count hi hpc

/-- When installers run one after the other, every one that is started exits, and whenever it has exited
it has had its own run of `mbl-app-update-manager`, provided that no installer, nor the daemon, nor
`mbl-app-update-manager` stops for good while it could go on. -/
theorem installer_exits {r : Lts.Run step} (hinit : r.state 0 = init)
    (hok : ∀ n, Sequential (r.state n) (r.action n)) (hfair : ∀ p, r.Fair partyOf p) {n k : ℕ}
    {i : Installer} (hi : (r.state n).installers[k]? = some i) :
  (∃ m, n ≤ m ∧ ∃ j status, (r.state m).installers[k]? = some j ∧ j.pc = .exited status)
    ∧ ∀ m j status, (r.state m).installers[k]? = some j → j.pc = .exited status →
      ∃ run : ManagerRun, (r.state m).runs[k]? = some run ∧ run.path = j.uaod_apps_file.chomp
        ∧ (status = 0 ↔ run.rc = 0)
  := by
  have hturn (n : ℕ) : InTurn (r.state n) := by
    apply r.invariant InTurn (fun _ _ _ => InTurn.step) hok
    rw [hinit]
    exact InTurn.fresh rfl rfl rfl fun _ => rfl
  have hexits : ∃ m, n ≤ m ∧ HasExited k (r.state m) := by
    obtain hinv | hexited := (hturn n).inExchange_or_hasExited hi
    · exact (exchangeRanking k).eventually hok hfair hinv
    · exact ⟨n, le_rfl, hexited⟩
  constructor
  · obtain ⟨m, hm, j, status, hj, hpc⟩ := hexits
    exact ⟨m, hm, j, status, hj, hpc⟩
  · intro m j status hj hpc
    exact (hturn m).served_of_exited hj hpc

/-- The daemon polls forever when there is no request and no installer is left. -/
def pollForever (s : State) (hdaemon : s.daemon = .waitDo)
    (hrequest : s.dir.has do_app_update = false) : Lts.Run step where
  state n := { s with clock := s.clock + n }
  action _ := .daemon
  step_eq n := by
    simp [step, daemonStep, hdaemon, hrequest, Nat.add_assoc]

theorem fair_pollForever {hdaemon : s.daemon = .waitDo}
    {hrequest : s.dir.has do_app_update = false} (hended : ∀ i ∈ s.installers, i.Ended) (p : Party) :
  (pollForever s hdaemon hrequest).Fair partyOf p
  := by
  intro n
  use n, le_rfl
  cases p with
  | daemon => exact Or.inl rfl
  | manager =>
      right
      rintro ⟨a, ha, s', hs'⟩
      cases a <;> cases ha
      simp [pollForever, step, hdaemon] at hs'
  | installer j =>
      right
      rintro ⟨a, ha, s', hs'⟩
      cases a <;> cases ha
      simp only [pollForever, step, Option.bind_eq_bind, Option.bind_eq_some_iff] at hs'
      obtain ⟨i, hi, moved, hmove, -⟩ := hs'
      rw [installerStep_of_ended (hended i (List.mem_of_getElem? hi))] at hmove
      contradiction

/-- A single installer, for which `mbl-app-update-manager` returns 0, and the daemon afterwards. -/
theorem installer_exits_alone :
  ∃ r : Lts.Run step, r.state 0 = init ∧ ∃ m j status, (r.state m).installers[0]? = some j
    ∧ j.pc = .exited status ∧ ∃ run : ManagerRun, (r.state m).runs[0]? = some run
      ∧ run.path = j.uaod_apps_file.chomp ∧ (status = 0 ↔ run.rc = 0)
  := by
  obtain ⟨s, hexec, hdaemon, hrequest, hended⟩ : ∃ s, Lts.exec step init (exchange 0 ['a'] 0) = some s
      ∧ s.daemon = .waitDo ∧ s.dir.has do_app_update = false ∧ ∀ i ∈ s.installers, i.Ended :=
    ⟨_, rfl, by decide, by decide, by decide⟩
  obtain ⟨r, hinit, hok, hfair, hstates⟩ := Lts.Run.exists_of_exec
    (r := pollForever s hdaemon hrequest) (fair_pollForever hended) (fun _ => trivial)
    (show Lts.Meets step Sequential init (exchange 0 ['a'] 0) by decide) hexec
  have hstart : (r.state 1).installers[0]? = some ⟨['a'], .openPath, none⟩ := by
    obtain hexec' | hlong := hstates 1
    · rw [← Option.some.inj hexec']
      rfl
    · exact absurd hlong (by decide)
  obtain ⟨⟨m, -, j, status, hj, hpc⟩, hserved⟩ := installer_exits hinit hok hfair hstart
  exact ⟨r, hinit, m, j, status, hj, hpc, hserved m j status hj hpc⟩

end Handshake
