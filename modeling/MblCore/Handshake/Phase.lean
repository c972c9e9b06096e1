import MblCore.Handshake.Scripts

/-!
# The phases of one hand-shake

`Phase clock d runs i D served` relates an installer `i` to the hand-shake directory `d` and
the next operation `D` of the daemon while no other installer is active.  It has one
constructor for each point of the exchange, which says what the files hold there.  `served`
tells whether `mbl-app-update-manager` has already been run for `i`.  Every operation of the
installer and of the daemon, the death of the installer and the return of
`mbl-app-update-manager` lead from a phase to a phase.
-/

open FlatDir

namespace Handshake

open HandshakeFile

/-- There is neither a request nor an answer. -/
structure NoSignal (d : HandshakeDir) : Prop where
  no_request : d.has do_app_update = false
  no_answer : d.has done_app_update = false

/-- `firmware_path` holds the path of the installer, written before the time `clock`. -/
structure Asked (clock : Nat) (d : HandshakeDir) (i : Installer) : Prop where
  path : d.cat firmware_path = i.uaod_apps_file ++ ['\n']
  wrote : ∃ w, i.wroteAt = some w ∧ w < clock

/-- The last run of `mbl-app-update-manager` was on the path of the installer, began after
the installer had written the path, and returned `rc`. -/
def Served (runs : List ManagerRun) (i : Installer) (rc : Nat) : Prop :=
  ∃ r, runs.getLast? = some r ∧ r.path = i.uaod_apps_file.chomp ∧ r.rc = rc
    ∧ ∃ w, i.wroteAt = some w ∧ w < r.beganAt

/-- The answer of the daemon to the installer: `app_update_rc` holds what
`mbl-app-update-manager` returned, and the request has been removed. -/
structure Answer (d : HandshakeDir) (runs : List ManagerRun) (i : Installer) (rc : Nat) :
    Prop where
  served : Served runs i rc
  rc_file : d.cat app_update_rc = Text.decimal rc ++ ['\n']
  no_path : d.has firmware_path = false

/-- The installer polls for the answer, or was killed and will not take it. -/
def Installer.Waits (i : Installer) : Prop :=
  i.pc = .waitDone ∨ i.pc = .killed

inductive Phase (clock : Nat) (d : HandshakeDir) (runs : List ManagerRun) (i : Installer) :
    DaemonPc → Bool → Prop
  | opening (pc : i.pc = .openPath) (quiet : NoSignal d) :
      Phase clock d runs i .waitDo false
  | writing (ino : Nat) (pc : i.pc = .writePath ino) (quiet : NoSignal d)
      (opened : d.entry firmware_path = some ⟨ino, []⟩) :
      Phase clock d runs i .waitDo false
  | touching (pc : i.pc = .touchDo) (quiet : NoSignal d) (asked : Asked clock d i) :
      Phase clock d runs i .waitDo false
  | gone (served : Bool) (pc : i.pc = .killed) (quiet : NoSignal d) :
      Phase clock d runs i .waitDo served
  | requested (waits : i.Waits) (asked : Asked clock d i)
      (request : d.has do_app_update = true) (no_answer : d.has done_app_update = false) :
      Phase clock d runs i .waitDo false
  | taking (waits : i.Waits) (asked : Asked clock d i)
      (no_answer : d.has done_app_update = false) :
      Phase clock d runs i .rmDo false
  | reading (waits : i.Waits) (quiet : NoSignal d) (asked : Asked clock d i) :
      Phase clock d runs i .catPath false
  | calling (waits : i.Waits) (quiet : NoSignal d)
      (wrote : ∃ w, i.wroteAt = some w ∧ w < clock) :
      Phase clock d runs i (.callManager i.uaod_apps_file.chomp) false
  | running (beganAt : Nat) (waits : i.Waits) (quiet : NoSignal d)
      (wrote : ∃ w, i.wroteAt = some w ∧ w < beganAt) :
      Phase clock d runs i (.manager i.uaod_apps_file.chomp beganAt) false
  | openingRc (rc : Nat) (waits : i.Waits) (quiet : NoSignal d) (served : Served runs i rc) :
      Phase clock d runs i (.openRc rc) true
  | writingRc (rc ino : Nat) (waits : i.Waits) (quiet : NoSignal d)
      (served : Served runs i rc) (opened : d.entry app_update_rc = some ⟨ino, []⟩) :
      Phase clock d runs i (.writeRc rc ino) true
  | removing (rc : Nat) (waits : i.Waits) (quiet : NoSignal d) (served : Served runs i rc)
      (rc_file : d.cat app_update_rc = Text.decimal rc ++ ['\n']) :
      Phase clock d runs i .rmPath true
  | flagging (rc : Nat) (waits : i.Waits) (quiet : NoSignal d) (answer : Answer d runs i rc) :
      Phase clock d runs i .touchDone true
  | answered (rc : Nat) (waits : i.Waits ∨ i.pc = .rmDone) (answer : Answer d runs i rc)
      (no_request : d.has do_app_update = false) (flag : d.has done_app_update = true) :
      Phase clock d runs i .waitDo true
  | collecting (rc : Nat) (pc : i.pc = .catRc) (quiet : NoSignal d)
      (answer : Answer d runs i rc) :
      Phase clock d runs i .waitDo true
  | discarding (rc : Nat) (pc : i.pc = .rmRc (Text.decimal rc)) (quiet : NoSignal d)
      (answer : Answer d runs i rc) :
      Phase clock d runs i .waitDo true
  | testing (rc : Nat) (pc : i.pc = .testRc (Text.decimal rc)) (quiet : NoSignal d)
      (served : Served runs i rc) (absent : ∀ n, d.has n = false) :
      Phase clock d runs i .waitDo true
  | finished (rc status : Nat) (pc : i.pc = .exited status) (ok : status = 0 ↔ rc = 0)
      (served : Served runs i rc) (absent : ∀ n, d.has n = false) :
      Phase clock d runs i .waitDo true

/-! ### The facts the phases are made of, after each operation -/

variable {clock : Nat} {d d' : HandshakeDir} {runs : List ManagerRun} {i i' : Installer}
  {D D' : DaemonPc} {served : Bool}

theorem NoSignal.congr (h : NoSignal d)
    (hdo : d'.entry do_app_update = d.entry do_app_update)
    (hdone : d'.entry done_app_update = d.entry done_app_update) :
  NoSignal d'
  := by
  constructor
  · rw [Dir.has_congr hdo]
    exact h.no_request
  · rw [Dir.has_congr hdone]
    exact h.no_answer

theorem Asked.congr (h : Asked clock d i)
    (hpath : d'.entry firmware_path = d.entry firmware_path)
    (hfile : i'.uaod_apps_file = i.uaod_apps_file) (hwrote : i'.wroteAt = i.wroteAt) :
  Asked (clock + 1) d' i'
  := by
  obtain ⟨hcat, w, hw, hlt⟩ := h
  constructor
  · rw [Dir.cat_congr hpath, hfile]
    exact hcat
  · use w, hwrote.trans hw
    omega

theorem Served.congr {rc : Nat} (h : Served runs i rc)
    (hfile : i'.uaod_apps_file = i.uaod_apps_file) (hwrote : i'.wroteAt = i.wroteAt) :
  Served runs i' rc
  := by
  unfold Served
  rw [hfile, hwrote]
  exact h

theorem Answer.congr {rc : Nat} (h : Answer d runs i rc)
    (hrc : d'.entry app_update_rc = d.entry app_update_rc)
    (hpath : d'.entry firmware_path = d.entry firmware_path)
    (hfile : i'.uaod_apps_file = i.uaod_apps_file) (hwrote : i'.wroteAt = i.wroteAt) :
  Answer d' runs i' rc
  := by
  constructor
  · exact h.served.congr hfile hwrote
  · rw [Dir.cat_congr hrc]
    exact h.rc_file
  · rw [Dir.has_congr hpath]
    exact h.no_path

/-- The condition of the shell agrees with the number the daemon printed. -/
theorem neZero_decimal (rc : Nat) :
  neZero (Text.decimal rc) = (rc != 0)
  := by
  simp [neZero]

/-- An installer that polls for an answer that is not there stays where it is. -/
theorem Installer.Waits.step (h : i.Waits) (no_answer : d.has done_app_update = false)
    (hstep : Handshake.installerStep clock d i = some (d', i')) :
  d = d' ∧ i = i'
  := by
  unfold Handshake.installerStep at hstep
  rcases h with pc | pc
  · simpa [pc, no_answer] using hstep
  · simp [pc] at hstep

/-- The daemon that polls for a request that is not there stays where it is. -/
theorem daemonStep_waitDo (no_request : d.has do_app_update = false)
    (hstep : Handshake.daemonStep clock d .waitDo = some (d', D')) :
  d = d' ∧ .waitDo = D'
  := by
  simpa [Handshake.daemonStep, no_request] using hstep

/-! ### Every step leads from a phase to a phase -/

/-- An operation of the installer leads to a phase, and neither the daemon nor the runs of
`mbl-app-update-manager` change. -/
theorem Phase.installerStep (h : Phase clock d runs i D served)
    (hstep : Handshake.installerStep clock d i = some (d', i')) :
  Phase (clock + 1) d' runs i' D served
  := by
  cases h with
  | opening pc quiet =>
      simp only [Handshake.installerStep, pc, Option.some.injEq, Prod.mk.injEq] at hstep
      obtain ⟨rfl, rfl⟩ := hstep
      apply Phase.writing _ rfl
      · exact quiet.congr (by simp) (by simp)
      · simp
  | writing ino pc quiet opened =>
      simp only [Handshake.installerStep, pc, Option.some.injEq, Prod.mk.injEq] at hstep
      obtain ⟨rfl, rfl⟩ := hstep
      apply Phase.touching rfl
      · exact quiet.congr (by simp) (by simp)
      · exact ⟨Dir.cat_write opened _, clock, rfl, by omega⟩
  | touching pc quiet asked =>
      simp only [Handshake.installerStep, pc, Option.some.injEq, Prod.mk.injEq] at hstep
      obtain ⟨rfl, rfl⟩ := hstep
      apply Phase.requested (Or.inl rfl)
      · exact asked.congr (by simp) rfl rfl
      · simp
      · rw [d.has_touch_of_ne (by decide)]
        exact quiet.no_answer
  | gone served pc quiet => simp [Handshake.installerStep, pc] at hstep
  | requested waits asked request no_answer =>
      obtain ⟨rfl, rfl⟩ := waits.step no_answer hstep
      exact Phase.requested waits (asked.congr rfl rfl rfl) request no_answer
  | taking waits asked no_answer =>
      obtain ⟨rfl, rfl⟩ := waits.step no_answer hstep
      exact Phase.taking waits (asked.congr rfl rfl rfl) no_answer
  | reading waits quiet asked =>
      obtain ⟨rfl, rfl⟩ := waits.step quiet.no_answer hstep
      exact Phase.reading waits quiet (asked.congr rfl rfl rfl)
  | calling waits quiet wrote =>
      obtain ⟨rfl, rfl⟩ := waits.step quiet.no_answer hstep
      obtain ⟨w, hw, hlt⟩ := wrote
      exact Phase.calling waits quiet ⟨w, hw, by omega⟩
  | running beganAt waits quiet wrote =>
      obtain ⟨rfl, rfl⟩ := waits.step quiet.no_answer hstep
      exact Phase.running beganAt waits quiet wrote
  | openingRc rc waits quiet served =>
      obtain ⟨rfl, rfl⟩ := waits.step quiet.no_answer hstep
      exact Phase.openingRc rc waits quiet served
  | writingRc rc ino waits quiet served opened =>
      obtain ⟨rfl, rfl⟩ := waits.step quiet.no_answer hstep
      exact Phase.writingRc rc ino waits quiet served opened
  | removing rc waits quiet served rc_file =>
      obtain ⟨rfl, rfl⟩ := waits.step quiet.no_answer hstep
      exact Phase.removing rc waits quiet served rc_file
  | flagging rc waits quiet answer =>
      obtain ⟨rfl, rfl⟩ := waits.step quiet.no_answer hstep
      exact Phase.flagging rc waits quiet answer
  | answered rc waits answer no_request flag =>
      rcases waits with (pc | pc) | pc
      · simp only [Handshake.installerStep, pc, flag, if_true, Option.some.injEq,
          Prod.mk.injEq] at hstep
        obtain ⟨rfl, rfl⟩ := hstep
        exact Phase.answered rc (Or.inr rfl) (answer.congr rfl rfl rfl rfl) no_request flag
      · simp [Handshake.installerStep, pc] at hstep
      · simp only [Handshake.installerStep, pc, Option.some.injEq, Prod.mk.injEq] at hstep
        obtain ⟨rfl, rfl⟩ := hstep
        apply Phase.collecting rc rfl
        · constructor
          · rw [d.has_rm_of_ne (by decide)]
            exact no_request
          · simp
        · exact answer.congr (by simp) (by simp) rfl rfl
  | collecting rc pc quiet answer =>
      simp only [Handshake.installerStep, pc, Option.some.injEq, Prod.mk.injEq] at hstep
      obtain ⟨rfl, rfl⟩ := hstep
      apply Phase.discarding rc
      · simp [answer.rc_file]
      · exact quiet
      · exact answer.congr rfl rfl rfl rfl
  | discarding rc pc quiet answer =>
      simp only [Handshake.installerStep, pc, Option.some.injEq, Prod.mk.injEq] at hstep
      obtain ⟨rfl, rfl⟩ := hstep
      apply Phase.testing rc rfl
      · exact quiet.congr (by simp) (by simp)
      · exact answer.served.congr rfl rfl
      · intro n
        cases n with
        | app_update_rc => simp
        | firmware_path =>
            rw [d.has_rm_of_ne (by decide)]
            exact answer.no_path
        | do_app_update =>
            rw [d.has_rm_of_ne (by decide)]
            exact quiet.no_request
        | done_app_update =>
            rw [d.has_rm_of_ne (by decide)]
            exact quiet.no_answer
  | testing rc pc quiet served absent =>
      simp only [Handshake.installerStep, pc, neZero_decimal, Option.some.injEq,
        Prod.mk.injEq] at hstep
      obtain ⟨rfl, rfl⟩ := hstep
      apply Phase.finished rc _ rfl
      · by_cases hrc : rc = 0 <;> simp [hrc]
      · exact served.congr rfl rfl
      · exact absent
  | finished rc status pc ok served absent => simp [Handshake.installerStep, pc] at hstep

/-- An installer that is killed leaves the exchange in a phase. -/
theorem Phase.kill (h : Phase clock d runs i D served) (hends : ¬ i.Ended) :
  Phase (clock + 1) d runs { i with pc := .killed } D served
  := by
  have hkilled : ({ i with pc := .killed } : Installer).Waits := Or.inr rfl
  cases h with
  | opening pc quiet => exact Phase.gone _ rfl quiet
  | writing ino pc quiet opened => exact Phase.gone _ rfl quiet
  | touching pc quiet asked => exact Phase.gone _ rfl quiet
  | gone served pc quiet => exact Phase.gone _ rfl quiet
  | requested waits asked request no_answer =>
      exact Phase.requested hkilled (asked.congr rfl rfl rfl) request no_answer
  | taking waits asked no_answer =>
      exact Phase.taking hkilled (asked.congr rfl rfl rfl) no_answer
  | reading waits quiet asked => exact Phase.reading hkilled quiet (asked.congr rfl rfl rfl)
  | calling waits quiet wrote =>
      obtain ⟨w, hw, hlt⟩ := wrote
      exact Phase.calling (i := { i with pc := .killed }) hkilled quiet ⟨w, hw, by omega⟩
  | running beganAt waits quiet wrote =>
      exact Phase.running (i := { i with pc := .killed }) beganAt hkilled quiet wrote
  | openingRc rc waits quiet served =>
      exact Phase.openingRc rc hkilled quiet (served.congr rfl rfl)
  | writingRc rc ino waits quiet served opened =>
      exact Phase.writingRc rc ino hkilled quiet (served.congr rfl rfl) opened
  | removing rc waits quiet served rc_file =>
      exact Phase.removing rc hkilled quiet (served.congr rfl rfl) rc_file
  | flagging rc waits quiet answer =>
      exact Phase.flagging rc hkilled quiet (answer.congr rfl rfl rfl rfl)
  | answered rc waits answer no_request flag =>
      exact Phase.answered rc (Or.inl hkilled) (answer.congr rfl rfl rfl rfl) no_request flag
  | collecting rc pc quiet answer => exact Phase.gone _ rfl quiet
  | discarding rc pc quiet answer => exact Phase.gone _ rfl quiet
  | testing rc pc quiet served absent => exact Phase.gone _ rfl quiet
  | finished rc status pc ok served absent => exact absurd (Or.inr ⟨status, pc⟩) hends

/-- An operation of the daemon leads to a phase, and neither the installer nor the runs of
`mbl-app-update-manager` change. -/
theorem Phase.daemonStep (h : Phase clock d runs i D served)
    (hstep : Handshake.daemonStep clock d D = some (d', D')) :
  Phase (clock + 1) d' runs i D' served
  := by
  cases h with
  | opening pc quiet =>
      obtain ⟨rfl, rfl⟩ := daemonStep_waitDo quiet.no_request hstep
      exact Phase.opening pc quiet
  | writing ino pc quiet opened =>
      obtain ⟨rfl, rfl⟩ := daemonStep_waitDo quiet.no_request hstep
      exact Phase.writing ino pc quiet opened
  | touching pc quiet asked =>
      obtain ⟨rfl, rfl⟩ := daemonStep_waitDo quiet.no_request hstep
      exact Phase.touching pc quiet (asked.congr rfl rfl rfl)
  | gone served pc quiet =>
      obtain ⟨rfl, rfl⟩ := daemonStep_waitDo quiet.no_request hstep
      exact Phase.gone _ pc quiet
  | requested waits asked request no_answer =>
      simp only [Handshake.daemonStep, request, if_true, Option.some.injEq,
        Prod.mk.injEq] at hstep
      obtain ⟨rfl, rfl⟩ := hstep
      exact Phase.taking waits (asked.congr rfl rfl rfl) no_answer
  | taking waits asked no_answer =>
      simp only [Handshake.daemonStep, Option.some.injEq, Prod.mk.injEq] at hstep
      obtain ⟨rfl, rfl⟩ := hstep
      apply Phase.reading waits
      · constructor
        · simp
        · rw [d.has_rm_of_ne (by decide)]
          exact no_answer
      · exact asked.congr (by simp) rfl rfl
  | reading waits quiet asked =>
      simp only [Handshake.daemonStep, asked.path, Text.chomp_concat_newline,
        Option.some.injEq, Prod.mk.injEq] at hstep
      obtain ⟨rfl, rfl⟩ := hstep
      obtain ⟨w, hw, hlt⟩ := asked.wrote
      exact Phase.calling waits quiet ⟨w, hw, by omega⟩
  | calling waits quiet wrote =>
      simp only [Handshake.daemonStep, Option.some.injEq, Prod.mk.injEq] at hstep
      obtain ⟨rfl, rfl⟩ := hstep
      exact Phase.running clock waits quiet wrote
  | running beganAt waits quiet wrote => simp [Handshake.daemonStep] at hstep
  | openingRc rc waits quiet served =>
      simp only [Handshake.daemonStep, Option.some.injEq, Prod.mk.injEq] at hstep
      obtain ⟨rfl, rfl⟩ := hstep
      apply Phase.writingRc rc _ waits _ served
      · simp
      · exact quiet.congr (by simp) (by simp)
  | writingRc rc ino waits quiet served opened =>
      simp only [Handshake.daemonStep, Option.some.injEq, Prod.mk.injEq] at hstep
      obtain ⟨rfl, rfl⟩ := hstep
      apply Phase.removing rc waits _ served
      · apply Dir.cat_write opened
      · exact quiet.congr (by simp) (by simp)
  | removing rc waits quiet served rc_file =>
      simp only [Handshake.daemonStep, Option.some.injEq, Prod.mk.injEq] at hstep
      obtain ⟨rfl, rfl⟩ := hstep
      apply Phase.flagging rc waits
      · exact quiet.congr (by simp) (by simp)
      · constructor
        · exact served
        · rw [Dir.cat_congr (Dir.entry_rm_of_ne d (by decide))]
          exact rc_file
        · simp
  | flagging rc waits quiet answer =>
      simp only [Handshake.daemonStep, Option.some.injEq, Prod.mk.injEq] at hstep
      obtain ⟨rfl, rfl⟩ := hstep
      apply Phase.answered rc (Or.inl waits)
      · exact answer.congr (by simp) (by simp) rfl rfl
      · rw [d.has_touch_of_ne (by decide)]
        exact quiet.no_request
      · simp
  | answered rc waits answer no_request flag =>
      obtain ⟨rfl, rfl⟩ := daemonStep_waitDo no_request hstep
      exact Phase.answered rc waits answer no_request flag
  | collecting rc pc quiet answer =>
      obtain ⟨rfl, rfl⟩ := daemonStep_waitDo quiet.no_request hstep
      exact Phase.collecting rc pc quiet answer
  | discarding rc pc quiet answer =>
      obtain ⟨rfl, rfl⟩ := daemonStep_waitDo quiet.no_request hstep
      exact Phase.discarding rc pc quiet answer
  | testing rc pc quiet served absent =>
      obtain ⟨rfl, rfl⟩ := daemonStep_waitDo quiet.no_request hstep
      exact Phase.testing rc pc quiet served absent
  | finished rc status pc ok served absent =>
      obtain ⟨rfl, rfl⟩ := daemonStep_waitDo (absent _) hstep
      exact Phase.finished rc status pc ok served absent

/-- When `mbl-app-update-manager` returns, the installer has been served. -/
theorem Phase.managerReturns {path : Text} {beganAt : Nat}
    (h : Phase clock d runs i (.manager path beganAt) served) (rc : Nat) :
  served = false ∧ Phase (clock + 1) d (runs ++ [⟨path, beganAt, rc⟩]) i (.openRc rc) true
  := by
  cases h with
  | running beganAt waits quiet wrote =>
      use rfl
      apply Phase.openingRc rc waits quiet
      exact ⟨⟨i.uaod_apps_file.chomp, beganAt, rc⟩, by simp, rfl, rfl, wrote⟩

end Handshake
