import MblCore.App.Rules

/-!
# Commands that do what they are asked to

What the functions of `mbl-app-lifecycle-manager` and the removal of an application come to in a
phase in which every command does what it is asked to, or says why it cannot.
-/

namespace App

open FileTree
open Prog hiding pure throw bind

/-- In the phase every command does what it is asked to. -/
def Truthful (adm : Call → Choice → Device → Prop) (phase : Phase) : Prop :=
  ∀ c x d, d.phase = phase → adm c x d → x.kind = .truthful

variable {adm : Call → Choice → Device → Prop} {d : Device} {id : Text} {c : Container}

/-! ### Messages -/

theorem occursIn_cmdMessage {s before container_id between error after : Text}
    (h : s <:+: error) :
  occursIn s (cmdMessage before container_id between error after) = true
  := by
  rw [occursIn, decide_eq_true_eq, cmdMessage]
  exact (h.trans (List.infix_append _ _ _))

/-- A command that fails with a message makes an exception with that message. -/
theorem wp_errorText_failure {x : Choice} {text : Text} {Q : Post Device PyException Text}
    (hne : text ≠ []) (h : Q.returned text d) :
  wp machine adm (errorText (failure x text)) Q d
  := by
  cases text with
  | nil => contradiction
  | cons c t => exact h

/-- A command that succeeds, and one that fails. -/
theorem wp_runOrRaise {command : Py CmdResult} {cls : ExceptionClass}
    {before container_id between after : Text} {Q : Post Device PyException Unit}
    (h : wp machine adm command
      { returned := fun result d =>
          if result.ok then Q.returned () d
          else wp machine adm (errorText result)
            { returned := fun error =>
                Q.raised ⟨cls, cmdMessage before container_id between error after⟩
              raised := Q.raised
              cut := Q.cut } d
        raised := Q.raised
        cut := Q.cut } d) :
  wp machine adm (runOrRaise command cls before container_id between after) Q d
  := by
  rw [runOrRaise, wp_bind]
  apply h.of_returned
  intro result d' h'
  split at h'
  · rw [if_pos ‹_›]
    exact h'
  · rw [if_neg ‹_›, wp_bind]
    exact h'

/-! ### The state of a container -/

theorem ofJson_status (status : Status) :
  ContainerState.ofJson (.str status.text) = status.text
  := by
  cases status <;> decide

theorem status_text_eq_STOPPED {status : Status} :
  status.text = ContainerState.STOPPED ↔ status = .stopped
  := by
  cases status <;> decide

/-- The container is as it was, or its process has exited. -/
def Settled (c c' : Container) : Prop :=
  c' = c ∨ c' = { c with status := .stopped }

theorem Settled.stopped {c c' : Container} (h : Settled c c') (hc : c.status = .stopped) :
  c'.status = .stopped
  := by
  rcases h with rfl | rfl
  · exact hc
  · rfl

theorem Device.settle_some (exited : Bool) (hd : d.containers id = some c) :
  ∃ c', Settled c c' ∧ d.settle id exited = d.setContainer id (some c')
  := by
  rw [Device.settle, hd]
  cases exited with
  | true => exact ⟨_, Or.inr rfl, rfl⟩
  | false => exact ⟨c, Or.inl rfl, (Device.setContainer_of_eq hd).symm⟩

theorem Device.settle_none {exited : Bool} (hd : d.containers id = none) :
  d.settle id exited = d
  := by
  rw [Device.settle, hd]

section Commands

variable {phase : Phase} (htruthful : Truthful adm phase)
include htruthful

theorem wp_getState_none {Q : Post Device PyException Text} (hd : d.containers id = none)
    (hphase : d.phase = phase)
    (hcut : Q.cut d) (hreturned : Q.returned ContainerState.DOES_NOT_EXIST d) :
  wp machine adm (getState id) Q d
  := by
  simp only [getState, wp_bind, wp_issue]
  refine ⟨hcut, fun x hx => ?_⟩
  have hperform : perform (.runcState id) x d = (failure x noContainer, d) := by
    simp [perform, runcState, htruthful _ _ _ hphase hx, Device.settle_none hd, hd]
  have hstate : stateOf id (failure x noContainer) = .ok ContainerState.DOES_NOT_EXIST := by
    simp only [stateOf, failure]
    rw [if_pos (by decide)]
  change wp machine adm (ofExcept (stateOf id (perform (.runcState id) x d).1)) Q
    (perform (.runcState id) x d).2
  rw [hperform, hstate]
  exact hreturned

theorem wp_getState_some {Q : Post Device PyException Text} (hd : d.containers id = some c)
    (hphase : d.phase = phase)
    (hcut : Q.cut d)
    (hreturned : ∀ c', Settled c c' →
      Q.returned c'.status.text (d.setContainer id (some c'))) :
  wp machine adm (getState id) Q d
  := by
  simp only [getState, wp_bind, wp_issue]
  refine ⟨hcut, fun x hx => ?_⟩
  obtain ⟨c', hc', hsettle⟩ := Device.settle_some x.exited hd
  have hstate : stateOf id (perform (.runcState id) x d).1 = .ok c'.status.text := by
    simp only [perform, runcState, htruthful _ _ _ hphase hx, hsettle, Device.setContainer_same,
      stateOf, success, Json.contains, Json.getItem]
    simp [ofJson_status, bind, Except.bind, pure, Except.pure]
  have hdevice : (perform (.runcState id) x d).2 = d.setContainer id (some c') := by
    simp [perform, runcState, htruthful _ _ _ hphase hx, hsettle]
  change wp machine adm (ofExcept (stateOf id (perform (.runcState id) x d).1)) Q
    (perform (.runcState id) x d).2
  rw [hstate, hdevice]
  exact hreturned c' hc'

/-- There is no container to kill. -/
theorem wp_kill_none {signal : Text} {Q : Post Device PyException Unit}
    (hd : d.containers id = none) (hphase : d.phase = phase) (hcut : Q.cut d)
    (hraised : ∀ e, e.cls = .ContainerKillError → saysDoesNotExist e = true → Q.raised e d) :
  wp machine adm (kill id signal) Q d
  := by
  apply wp_runOrRaise
  rw [wp_issue]
  refine ⟨hcut, fun x hx => ?_⟩
  have hperform : machine.perform (.runcKill id signal) x d = (failure x noContainer, d) := by
    simp [machine, perform, runcKill, htruthful _ _ _ hphase hx, Device.settle_none hd, hd]
  rw [hperform]
  dsimp only
  rw [if_neg (by simp [failure])]
  apply wp_errorText_failure (by decide)
  apply hraised _ rfl
  exact occursIn_cmdMessage (by decide)

/-- Either the signal is sent, or the process in the container has ended. -/
theorem wp_kill_some {signal : Text} {Q : Post Device PyException Unit}
    (hd : d.containers id = some c) (hphase : d.phase = phase) (hcut : Q.cut d)
    (hreturned : ∀ c', (signal = "SIGKILL".toList → c'.status = .stopped) →
      Q.returned () (d.setContainer id (some c')))
    (hraised : ∀ e c', e.cls = .ContainerKillError → saysStopped e = true →
      c'.status = .stopped → Q.raised e (d.setContainer id (some c'))) :
  wp machine adm (kill id signal) Q d
  := by
  apply wp_runOrRaise
  rw [wp_issue]
  refine ⟨hcut, fun x hx => ?_⟩
  obtain ⟨c', -, hsettle⟩ := Device.settle_some x.exited hd
  obtain ⟨bundle, status⟩ := c'
  have hkind := htruthful _ _ _ hphase hx
  have hsent (hstatus : status ≠ .stopped) :
      (machine.perform (.runcKill id signal) x d).1.ok = true
        ∧ ∃ c', (signal = "SIGKILL".toList → c'.status = .stopped)
          ∧ (machine.perform (.runcKill id signal) x d).2 = d.setContainer id (some c') := by
    simp only [machine, perform, runcKill, hkind, hsettle, Device.setContainer_same]
    cases status with
    | stopped => contradiction
    | created | running =>
        dsimp only
        split
        · exact ⟨rfl, _, fun _ => rfl, Device.setContainer_setContainer _ _ _ _⟩
        · exact ⟨rfl, _, fun h => absurd h ‹_›, rfl⟩
  by_cases hstatus : status = .stopped
  · have hperform : machine.perform (.runcKill id signal) x d
        = (failure x "process already finished".toList,
          d.setContainer id (some ⟨bundle, .stopped⟩)) := by
      simp [machine, perform, runcKill, hkind, hsettle, hstatus]
    rw [hperform]
    dsimp only
    rw [if_neg (by simp [failure])]
    apply wp_errorText_failure (by decide)
    apply hraised _ _ rfl _ rfl
    simp only [saysStopped, List.any_cons, Bool.or_eq_true]
    left
    exact occursIn_cmdMessage (by decide)
  · obtain ⟨hok, c', hc', hdevice⟩ := hsent hstatus
    dsimp only
    rw [if_pos hok, hdevice]
    exact hreturned c' hc'

/-- A container whose process has ended is deleted. -/
theorem wp_delete_stopped {Q : Post Device PyException Unit} (hd : d.containers id = some c)
    (hphase : d.phase = phase)
    (hc : c.status = .stopped) (hcut : Q.cut d)
    (hreturned : Q.returned () (d.setContainer id none)) :
  wp machine adm (delete id) Q d
  := by
  apply wp_runOrRaise
  rw [wp_issue]
  refine ⟨hcut, fun x hx => ?_⟩
  obtain ⟨c', hc', hsettle⟩ := Device.settle_some x.exited hd
  obtain ⟨bundle, status⟩ := c'
  obtain rfl : status = .stopped := hc'.stopped hc
  have hperform : machine.perform (.runcDelete id) x d = (success x.stdout, d.setContainer id none) := by
    simp [machine, perform, runcDelete, htruthful _ _ _ hphase hx, hsettle]
  rw [hperform]
  exact hreturned

/-- There is no container to delete. -/
theorem wp_delete_none {Q : Post Device PyException Unit} (hd : d.containers id = none)
    (hphase : d.phase = phase)
    (hcut : Q.cut d)
    (hraised : ∀ e, e.cls = .ContainerDeleteError → saysDoesNotExist e = true → Q.raised e d) :
  wp machine adm (delete id) Q d
  := by
  apply wp_runOrRaise
  rw [wp_issue]
  refine ⟨hcut, fun x hx => ?_⟩
  have hperform : machine.perform (.runcDelete id) x d = (failure x noContainer, d) := by
    simp [machine, perform, runcDelete, htruthful _ _ _ hphase hx, Device.settle_none hd, hd]
  rw [hperform]
  dsimp only
  rw [if_neg (by simp [failure])]
  apply wp_errorText_failure (by decide)
  apply hraised _ rfl
  exact occursIn_cmdMessage (by decide)

/-! ### Terminating an application -/

/-- The polls leave a container, and when they tell that the application is 'stopped', it is. -/
theorem wp_pollForAppStop (polls : ℕ) (hd : d.containers id = some c) (hphase : d.phase = phase) :
  wp machine adm (pollForAppStop id polls)
    { returned := fun stopped d' => ∃ c', (stopped = true → c'.status = .stopped)
        ∧ (c.status = .stopped → c'.status = .stopped) ∧ d' = d.setContainer id (some c')
      raised := fun _ _ => False
      cut := fun _ => True } d
  := by
  induction polls generalizing c d with
  | zero => exact ⟨c, by simp, fun hc => hc, (Device.setContainer_of_eq hd).symm⟩
  | succ polls ih =>
      rw [pollForAppStop, wp_bind, wp_issue]
      refine ⟨trivial, fun x _ => ?_⟩
      change wp machine adm (if x.endtimeReached then pure false else _) _ d
      split
      · exact ⟨c, by simp, fun hc => hc, (Device.setContainer_of_eq hd).symm⟩
      · rw [wp_bind]
        apply wp_getState_some htruthful hd hphase (by trivial)
        intro c' hc'
        dsimp only
        split
        · rename_i hstopped
          have hc'' := status_text_eq_STOPPED.mp hstopped
          exact ⟨c', fun _ => hc'', fun _ => hc'', rfl⟩
        · apply (ih (d.setContainer_same id (some c')) hphase).of_returned
          rintro stopped d' ⟨c'', htold, hkept, rfl⟩
          exact ⟨c'', htold, fun hc => hkept (hc'.stopped hc), by simp⟩

/-- After the wait the process in the container has ended, unless the time has passed. -/
theorem wp_waitForAppStop (timeout : ℕ) {Q : Post Device PyException Unit}
    (hd : d.containers id = some c) (hphase : d.phase = phase) (hcut : ∀ d, Q.cut d)
    (hreturned : ∀ c', c'.status = .stopped → Q.returned () (d.setContainer id (some c')))
    (hraised : ∀ e c', e.cls = .AppStopTimeoutError → c.status ≠ .stopped →
      Q.raised e (d.setContainer id (some c'))) :
  wp machine adm (waitForAppStop id timeout) Q d
  := by
  rw [waitForAppStop, wp_bind]
  apply (wp_pollForAppStop htruthful _ hd hphase).mono
  · rintro stopped d' ⟨c', htold, hkept, rfl⟩
    dsimp only
    split
    · exact hreturned c' (htold ‹_›)
    · rw [wp_bind]
      apply wp_getState_some htruthful (d.setContainer_same id (some c')) hphase (by exact hcut _)
      intro c'' hc''
      rw [Device.setContainer_setContainer]
      dsimp only
      split
      · rename_i hstopped
        exact hreturned c'' (status_text_eq_STOPPED.mp hstopped)
      · rename_i hnot
        apply hraised _ c'' rfl
        intro hc
        exact hnot (status_text_eq_STOPPED.mpr (hc''.stopped (hkept hc)))
  · exact fun _ _ h => h.elim
  · exact fun _ _ => hcut _

/-- A container that is there is killed and deleted. -/
theorem wp_killApp (timeout : ℕ) {Q : Post Device PyException Unit}
    (hd : d.containers id = some c) (hphase : d.phase = phase) (hcut : ∀ d, Q.cut d)
    (hreturned : Q.returned () (d.setContainer id none)) :
  wp machine adm (killApp id timeout) Q d
  := by
  have hdelete {c' : Container} (hc' : c'.status = .stopped) :
      wp machine adm (delete id) Q (d.setContainer id (some c')) := by
    apply wp_delete_stopped htruthful (d.setContainer_same id _) hphase hc' (by exact hcut _)
    rw [Device.setContainer_setContainer]
    exact hreturned
  rw [killApp, wp_bind, wp_catching]
  apply wp_kill_some htruthful hd hphase (by exact hcut _)
  · intro c' hc'
    dsimp only
    rw [wp_bind]
    apply wp_waitForAppStop htruthful timeout (d.setContainer_same id (some c')) hphase (by exact hcut)
    · intro c'' hc''
      rw [Device.setContainer_setContainer]
      exact hdelete hc''
    · intro e c'' _ hnot
      exact absurd (hc' rfl) hnot
  · intro e c' hcls hsays hc'
    dsimp only
    rw [if_pos (by simp [hcls]), if_pos hsays]
    exact hdelete hc'

/-- Whatever the container of an application, there is none after the application was
terminated.  The name of an application may look like an answer of `runc`; then an exception
may say that the container does not exist. -/
theorem wp_terminateApp (sigterm_timeout sigkill_timeout : ℕ) {Q : Post Device PyException Unit}
    (hphase : d.phase = phase) (hcut : ∀ d, Q.cut d) (hreturned : Q.returned () (d.setContainer id none))
    (hraised : ∀ e, e.cls = .ContainerDeleteError → saysDoesNotExist e = true →
      Q.raised e (d.setContainer id none)) :
  wp machine adm (terminateApp id sigterm_timeout sigkill_timeout) Q d
  := by
  rw [terminateApp, wp_bind, wp_catching]
  cases hd : d.containers id with
  | none =>
      rw [Device.setContainer_of_eq hd] at hreturned hraised
      apply wp_kill_none htruthful hd hphase (by exact hcut _)
      intro e hcls hsays
      dsimp only
      rw [if_pos (by simp [hcls])]
      split
      · exact wp_delete_none htruthful hd hphase (by exact hcut _) hraised
      · exact hreturned
  | some c =>
      have hdelete {c' : Container} (hc' : c'.status = .stopped) :
          wp machine adm (delete id) Q (d.setContainer id (some c')) := by
        apply wp_delete_stopped htruthful (d.setContainer_same id _) hphase hc' (by exact hcut _)
        rw [Device.setContainer_setContainer]
        exact hreturned
      apply wp_kill_some htruthful hd hphase (by exact hcut _)
      · intro c' _
        dsimp only
        rw [wp_bind, wp_catching]
        apply wp_waitForAppStop htruthful sigterm_timeout (d.setContainer_same id (some c')) hphase (by exact hcut)
        · intro c'' hc''
          rw [Device.setContainer_setContainer]
          exact hdelete hc''
        · intro e c'' hcls _
          rw [Device.setContainer_setContainer]
          dsimp only
          rw [if_pos (by simp [hcls])]
          apply wp_killApp htruthful sigkill_timeout (d.setContainer_same id (some c'')) hphase (by exact hcut)
          rw [Device.setContainer_setContainer]
          exact hreturned
      · intro e c' hcls hsays hc'
        dsimp only
        rw [if_pos (by simp [hcls]), if_pos hsays]
        exact hdelete hc'

/-! ### Running an application -/

/-- An application whose bundle is there and that has no container runs. -/
theorem wp_runApp {app_path : FilePath} {Q : Post Device PyException Unit}
    (hd : d.containers id = none) (hphase : d.phase = phase) (hpath : d.fs.isDir app_path = true) (hcut : ∀ d, Q.cut d)
    (hreturned : Q.returned () (d.setContainer id (some ⟨app_path, .running⟩))) :
  wp machine adm (runApp id app_path) Q d
  := by
  rw [runApp, wp_bind, create, wp_bind]
  apply wp_getState_none htruthful hd hphase (by exact hcut _)
  dsimp only
  rw [if_neg (by simp), wp_bind, wp_issue]
  refine ⟨hcut _, fun x _ => ?_⟩
  change wp machine adm (if d.fs.isDir app_path = false then _ else _) _ d
  rw [if_neg (by simp [hpath]), createOrRaise, wp_bind, wp_issue]
  refine ⟨hcut _, fun x hx => ?_⟩
  have hcreate : machine.perform (.runcCreate app_path id) x d
      = (success x.stdout, d.setContainer id (some ⟨app_path, .created⟩)) := by
    simp [machine, perform, runcCreate, htruthful _ _ _ hphase hx, hd]
  rw [hcreate]
  change wp machine adm (start id) Q _
  apply wp_runOrRaise
  rw [wp_issue]
  refine ⟨hcut _, fun x hx => ?_⟩
  have hkind : x.kind = .truthful := htruthful _ _ _ (by exact hphase) hx
  have hstart : machine.perform (.runcStart id) x (d.setContainer id (some ⟨app_path, .created⟩))
      = (success x.stdout, d.setContainer id (some ⟨app_path, .running⟩)) := by
    simp [machine, perform, runcStart, hkind]
  rw [hstart]
  exact hreturned

end Commands

end App
