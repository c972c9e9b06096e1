import MblCore.App.Terminate
import MblCore.Lib.Replies

/-!
# The calls of `terminate_app`

Which calls a caller issues, how many, and what becomes of it without the container.  Where the
container is gone every command of a caller fails, and only where SIGTERM is sent is that taken for
a success: later on it makes the caller raise an exception.
-/

namespace App.Timed

open Prog hiding pure throw bind

variable {id : Text}

/-! ### Kinds of calls -/

/-- The calls by which an application is terminated. -/
def Terminates (id : Text) : TimedCall → Prop
  | .command (.runcState id') | .command (.runcKill id' _) | .command (.runcDelete id') => id' = id
  | .monotonic | .sleep _ => True
  | _ => False

theorem Waits.terminates {c : TimedCall} (hc : Waits id c) :
  Terminates id c
  := by
  cases c with
  | command c =>
      cases c with
      | runcState id' => exact hc
      | _ => exact hc.elim
  | monotonic => trivial
  | sleep duration => trivial

theorem issues_catching {α : Type} {calls : TimedCall → Prop} {p : TimedPy α}
    {classes : List ExceptionClass} (hp : Issues calls p) :
  Issues calls (catching p classes)
  := by
  apply Issues.bind (issues_attempt.mpr hp)
  rintro (e | a)
  · dsimp only
    split <;> trivial
  · trivial

theorem issues_orThrow {calls : TimedCall → Prop} {p : TimedPy CmdResult}
    {error : CmdResult → PyException} (hp : Issues calls p) :
  Issues calls (p >>= fun result => if result.ok then pure () else .throw (error result))
  := by
  apply Issues.bind hp
  intro result
  split <;> trivial

theorem issues_kill (signal : Text) :
  Issues (Terminates id) (kill id signal)
  := by
  rw [kill_eq]
  apply issues_orThrow
  exact issues_issue.mpr rfl

theorem issues_delete :
  Issues (Terminates id) (delete id)
  := by
  rw [delete_eq]
  apply issues_orThrow
  exact issues_issue.mpr rfl

theorem issues_killApp (timeout : ℤ) :
  Issues (Terminates id) (killApp id timeout)
  := by
  rw [killApp]
  apply Issues.bind (issues_catching (issues_kill _))
  rintro (e | _)
  · dsimp only
    split
    · exact issues_delete
    · trivial
  · apply Issues.bind ((issues_waitForAppStop timeout).mono fun _ => Waits.terminates)
    exact fun _ => issues_delete

theorem issues_terminateApp (sigterm_timeout sigkill_timeout : ℤ) :
  Issues (Terminates id) (terminateApp id sigterm_timeout sigkill_timeout)
  := by
  rw [terminateApp]
  apply Issues.bind (issues_catching (issues_kill _))
  rintro (e | _)
  · dsimp only
    split
    · exact issues_delete
    · split <;> trivial
  · apply Issues.bind
      (issues_catching ((issues_waitForAppStop _).mono fun _ => Waits.terminates))
    rintro (e | _)
    · exact issues_killApp _
    · exact issues_delete

/-! ### The number of calls -/

/-- The calls of a wait. -/
def waitCalls (timeout : ℤ) : ℕ :=
  1 + (3 * pollsWithin timeout + 1)

/-- The calls by which an application is terminated. -/
def terminateCalls (sigterm_timeout sigkill_timeout : ℤ) : ℕ :=
  1 + (waitCalls sigterm_timeout + (1 + (waitCalls sigkill_timeout + 1)))

theorem atMost_catching {α : Type} {p : TimedPy α} {classes : List ExceptionClass} {n : ℕ}
    (hp : p.AtMost n) :
  (catching p classes).AtMost n
  := by
  apply AtMost.bind hp.attempt (n := 0)
  rintro (e | a)
  · dsimp only
    split <;> trivial
  · trivial

theorem atMost_orThrow {p : TimedPy CmdResult} {error : CmdResult → PyException}
    (hp : p.AtMost 1) :
  AtMost (p >>= fun result => if result.ok then pure () else .throw (error result)) 1
  := by
  apply AtMost.bind hp (n := 0)
  intro result
  split <;> trivial

theorem atMost_kill (signal : Text) :
  (kill id signal).AtMost 1
  := by
  rw [kill_eq]
  apply atMost_orThrow
  exact atMost_issue _

theorem atMost_delete :
  (delete id).AtMost 1
  := by
  rw [delete_eq]
  apply atMost_orThrow
  exact atMost_issue _

theorem atMost_getState :
  (getState id).AtMost 1
  := by
  rw [getState_eq]
  apply AtMost.bind (atMost_issue _) (n := 0)
  intro result
  cases stateOf id result <;> trivial

theorem atMost_pollForAppStop (endtime : ℤ) (polls : ℕ) :
  (pollForAppStop id endtime polls).AtMost (3 * polls)
  := by
  induction polls with
  | zero => trivial
  | succ polls ih =>
      rw [pollForAppStop, show 3 * (polls + 1) = 1 + (1 + (1 + 3 * polls)) by omega]
      apply AtMost.bind (atMost_issue _)
      intro now
      split
      · apply AtMost.bind atMost_getState
        intro state
        split
        · trivial
        · apply AtMost.bind (atMost_issue _)
          exact fun _ => ih
      · trivial

theorem atMost_waitForAppStop (timeout : ℤ) :
  (waitForAppStop id timeout).AtMost (waitCalls timeout)
  := by
  rw [waitForAppStop]
  apply AtMost.bind (atMost_issue _)
  intro now
  apply AtMost.bind (atMost_pollForAppStop _ _)
  intro stopped
  split
  · trivial
  · apply AtMost.bind atMost_getState (n := 0)
    intro state
    split <;> trivial

theorem atMost_killApp (timeout : ℤ) :
  (killApp id timeout).AtMost (1 + (waitCalls timeout + 1))
  := by
  rw [killApp]
  apply AtMost.bind (atMost_catching (atMost_kill _))
  rintro (e | _)
  · dsimp only
    split
    · exact atMost_delete.mono (by omega)
    · trivial
  · exact AtMost.bind (atMost_waitForAppStop timeout) fun _ => atMost_delete

theorem atMost_terminateApp (sigterm_timeout sigkill_timeout : ℤ) :
  (terminateApp id sigterm_timeout sigkill_timeout).AtMost
    (terminateCalls sigterm_timeout sigkill_timeout)
  := by
  rw [terminateApp]
  apply AtMost.bind (atMost_catching (atMost_kill _))
  rintro (e | _)
  · dsimp only
    split
    · exact atMost_delete.mono (by omega)
    · split <;> trivial
  · apply AtMost.bind (atMost_catching (atMost_waitForAppStop sigterm_timeout))
    rintro (e | _)
    · exact atMost_killApp sigkill_timeout
    · exact atMost_delete.mono (by omega)

/-! ### Without the container -/

/-- Without the container there is none to signal, and none to delete. -/
def Gone : (c : TimedCall) → TimedReply c → Prop
  | .command (.runcKill _ _), result => CmdResult.ok result = false
  | .command (.runcDelete _), result => CmdResult.ok result = false
  | _, _ => True

/-- The caller raises an exception when the container is gone at one of its calls. -/
abbrev RaisesFromCalls {α : Type} : TimedPy α → Prop :=
  FromCalls Gone (fun _ => False) fun _ => True

/-- The caller raises an exception when the container is gone, from the start or from one of its
calls on. -/
structure NeedsContainer {α : Type} (p : TimedPy α) : Prop where
  raises : Comes Gone (fun _ => False) (fun _ => True) p
  fromCalls : RaisesFromCalls p

theorem needsContainer_throw {α : Type} (e : PyException) :
  NeedsContainer (.throw e : TimedPy α)
  := ⟨trivial, trivial⟩

/-- Whatever is done before, the container is needed. -/
theorem needsContainer_bind {α β : Type} {p : TimedPy α} {f : α → TimedPy β}
    (hf : ∀ a, NeedsContainer (f a)) :
  NeedsContainer (p >>= f)
  := by
  constructor
  · rw [comes_bind]
    exact comes_of_forall (fun a => (hf a).raises) fun _ => trivial
  · apply FromCalls.bind _ fun a => (hf a).fromCalls
    exact fromCalls_of_forall (fun a => (hf a).raises) fun _ => trivial

theorem needsContainer_delete :
  NeedsContainer (delete id)
  := by
  have hraises : Comes Gone (fun _ => False) (fun _ => True) (delete id) := by
    rw [delete_eq]
    intro result hgone
    have hfails : CmdResult.ok result = false := hgone
    change Comes Gone _ _ (if CmdResult.ok result then pure () else .throw _)
    rw [if_neg (by rw [hfails]; decide)]
    trivial
  use hraises
  rw [delete_eq] at hraises ⊢
  use hraises
  intro result
  change RaisesFromCalls (if CmdResult.ok result then pure () else .throw _)
  split <;> trivial

theorem needsContainer_killApp (timeout : ℤ) :
  NeedsContainer (killApp id timeout)
  := by
  rw [killApp]
  apply needsContainer_bind
  rintro (e | _)
  · dsimp only
    split
    · exact needsContainer_delete
    · exact needsContainer_throw e
  · exact needsContainer_bind fun _ => needsContainer_delete

/-- Once SIGTERM is answered, a caller does not get over the loss of the container. -/
theorem fromLaterCalls_terminateApp (sigterm_timeout sigkill_timeout : ℤ) :
  FromLaterCalls Gone (fun _ => False) (fun _ => True)
    (terminateApp id sigterm_timeout sigkill_timeout)
  := by
  rw [terminateApp]
  apply fromLaterCalls_bind (atMost_catching (atMost_kill _))
  rintro (e | _)
  · dsimp only
    split
    · exact needsContainer_delete.fromCalls
    · split <;> trivial
  · apply NeedsContainer.fromCalls
    apply needsContainer_bind
    rintro (e | _)
    · exact needsContainer_killApp sigkill_timeout
    · exact needsContainer_delete

/-- What the name of an application says is in the message of an error. -/
theorem occursIn_cmdMessage_name {s before container_id between error after : Text}
    (h : s <:+: container_id) :
  occursIn s (cmdMessage before container_id between error after) = true
  := by
  rw [occursIn, decide_eq_true_eq, cmdMessage, List.append_assoc, List.append_assoc]
  exact h.trans (List.infix_append _ _ _)

theorem saysStopped_killError {result : CmdResult} {phrase : Text}
    (hphrase : phrase ∈ [ContainerState.ALREADY_STOPPED, ContainerState.NOT_RUNNING])
    (hid : occursIn phrase id = true) (hcls : (killError id result).cls = .ContainerKillError) :
  saysStopped (killError id result) = true
  := by
  have hinfix : phrase <:+: id := of_decide_eq_true hid
  apply List.any_eq_true.mpr
  use phrase, hphrase
  rcases htext : result.stdout.text with _ | _ | ⟨c, text⟩ <;>
    simp only [killError, commandError, htext] at hcls ⊢
  · exact absurd hcls (by decide)
  · exact occursIn_cmdMessage_name hinfix
  · exact occursIn_cmdMessage_name hinfix

theorem comes_catching {α : Type} {known : (c : TimedCall) → TimedReply c → Prop}
    {returned : Except PyException α → Prop} {raised : PyException → Prop} {p : TimedPy α}
    {classes : List ExceptionClass} :
  Comes known returned raised (catching p classes)
    ↔ Comes known (fun a => returned (.ok a))
        (fun e => if e.cls ∈ classes then returned (.error e) else raised e) p
  := by
  rw [catching, comes_bind, comes_attempt]
  have hends (e : PyException) :
      Comes known returned raised
        (if e.cls ∈ classes then pure (.error e) else .throw e : TimedPy (Except PyException α))
      ↔ if e.cls ∈ classes then returned (.error e) else raised e := by
    split <;> exact Iff.rfl
  simp only [comes_pure, hends]

/-- An application whose name says that a process has ended is not terminated without a
container. -/
theorem needsContainer_terminateApp {phrase : Text}
    (hphrase : phrase ∈ [ContainerState.ALREADY_STOPPED, ContainerState.NOT_RUNNING])
    (hid : occursIn phrase id = true) (sigterm_timeout sigkill_timeout : ℤ) :
  NeedsContainer (terminateApp id sigterm_timeout sigkill_timeout)
  := by
  have hraises : Comes Gone (fun _ => False) (fun _ => True)
      (terminateApp id sigterm_timeout sigkill_timeout) := by
    rw [terminateApp, comes_bind, comes_catching, kill_eq]
    intro result hgone
    have hfails : CmdResult.ok result = false := hgone
    change Comes Gone _ _ (if CmdResult.ok result then pure () else .throw (killError id result))
    rw [if_neg (by rw [hfails]; decide)]
    dsimp only [Comes]
    split
    · rw [if_pos (saysStopped_killError hphrase hid (List.mem_singleton.mp ‹_ ∈ _›))]
      exact needsContainer_delete.raises
    · trivial
  exact ⟨hraises, (fromLaterCalls_terminateApp _ _).fromCalls hraises⟩

end App.Timed
