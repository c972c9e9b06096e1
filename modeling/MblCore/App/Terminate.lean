import MblCore.App.Clock
import MblCore.App.StartPhase

/-!
# Terminating an application

`terminate_app` deletes a container only when `runc` has said that its process has ended, and
resorts to SIGKILL only after the deadline of SIGTERM.  It looks for phrases of `runc` in the
messages of errors, where the name of the application stands as well.
-/

namespace App.Timed

open Prog hiding pure throw bind

variable {id : Text} {who : Caller} {w : World}

/-! ### What is looked for in a message -/

/-- The phrases of `runc` by which `terminate_app` tells why a command has failed. -/
def PHRASES : List Text :=
  [ContainerState.ALREADY_STOPPED, ContainerState.NOT_RUNNING, ContainerState.DOES_NOT_EXIST]

/-- A phrase in the message of an error was printed by the command, unless it is in the name. -/
theorem printed_of_mem_killError {phrase : Text} {result : CmdResult} (hphrase : phrase ∈ PHRASES)
    (hid : occursIn phrase id = false) (h : occursIn phrase (killError id result).msg = true) :
  ∃ text ∈ result.stdout.text, occursIn phrase text = true
  := by
  have hquote : ∀ phrase ∈ PHRASES, Char.ofNat 39 ∉ phrase := by decide
  have hblank : ∀ phrase ∈ PHRASES, ' ' ∈ phrase := by decide
  have hfixed : ∀ phrase ∈ PHRASES, ¬ phrase <:+: "Killing container ".toList
      ∧ ¬ phrase <:+: " failed, error: ".toList ∧ ¬ phrase <:+: [] := by decide
  simp only [occursIn, decide_eq_true_eq, decide_eq_false_iff_not] at hid h ⊢
  -- the fixed parts of the message are told apart by quotes, which no phrase contains
  have hmessage {text : Text} (h : phrase <:+: cmdMessage "Killing container '".toList id
      "' failed, error: '".toList text "'".toList) : phrase <:+: text := by
    obtain ⟨hbefore, hbetween, hafter⟩ := hfixed phrase hphrase
    have hparts : cmdMessage "Killing container '".toList id "' failed, error: '".toList text
        "'".toList = "Killing container ".toList ++ Char.ofNat 39 :: (id ++ Char.ofNat 39
          :: (" failed, error: ".toList ++ Char.ofNat 39 :: (text ++ Char.ofNat 39 :: []))) := by
      simp [cmdMessage]
    rw [hparts] at h
    simp only [Text.infix_append_cons_iff (hquote phrase hphrase)] at h
    tauto
  unfold killError commandError at h
  split at h
  · exact absurd h (hfixed phrase hphrase).2.2
  · have hdigit := Text.isDigit_of_mem_decimal ((hmessage h).subset (hblank phrase hphrase))
    contradiction
  · rename_i text _ htext
    exact ⟨text, htext, hmessage h⟩

/-! ### What the callers are told -/

/-- The process of a container has ended, by what the command on the container was answered. -/
def Event.ReportsStopped (id : Text) : Event → Prop
  | ⟨_, _, _, .command (.runcState id'), result⟩ =>
      id' = id ∧ stateOf id result = .ok ContainerState.STOPPED
  | ⟨_, _, _, .command (.runcKill id' _), result⟩ =>
      id' = id ∧ result.ok = false ∧ ∃ text ∈ result.stdout.text,
        occursIn ContainerState.ALREADY_STOPPED text = true
          ∨ occursIn ContainerState.NOT_RUNNING text = true
  | _ => False

def ReportedStopped (id : Text) (history : List Event) : Prop :=
  ∃ e ∈ history, e.ReportsStopped id

/-- SIGTERM was sent. -/
def Event.AcceptsSigterm (id : Text) : Event → Prop
  | ⟨_, _, _, .command (.runcKill id' signal), result⟩ =>
      id' = id ∧ signal = "SIGTERM".toList ∧ result.ok = true
  | _ => False

instance decidableAcceptsSigterm (id : Text) : ∀ e, Decidable (Event.AcceptsSigterm id e)
  | ⟨_, _, _, .command (.runcKill _ _), _⟩ => inferInstanceAs (Decidable (_ ∧ _ ∧ _))
  | ⟨_, _, _, .command (.extractall _ _), _⟩ | ⟨_, _, _, .command (.opkgInfo _), _⟩
  | ⟨_, _, _, .command (.opkgInstall _ _ _), _⟩ | ⟨_, _, _, .command (.opkgRemove _ _), _⟩
  | ⟨_, _, _, .command (.runcState _), _⟩ | ⟨_, _, _, .command (.runcDelete _), _⟩
  | ⟨_, _, _, .command (.runcCreate _ _), _⟩ | ⟨_, _, _, .command (.runcStart _), _⟩
  | ⟨_, _, _, .command (.isdir _), _⟩ | ⟨_, _, _, .command (.exists_ _), _⟩
  | ⟨_, _, _, .command (.walk _ _), _⟩ | ⟨_, _, _, .command (.listdir _), _⟩
  | ⟨_, _, _, .command (.rmtree _), _⟩ | ⟨_, _, _, .command .endtimeReached, _⟩
  | ⟨_, _, _, .command (.log _), _⟩ | ⟨_, _, _, .monotonic, _⟩ | ⟨_, _, _, .sleep _, _⟩ =>
      isFalse fun h => h.elim

/-- The clock was read. -/
def Event.Reads (now : ℕ) : Event → Prop
  | ⟨_, _, _, .monotonic, reading⟩ => reading = now
  | _ => False

/-- A query has told a state of a container other than 'stopped'. -/
def Event.ReportsOther (id : Text) : Event → Prop
  | ⟨_, _, _, .command (.runcState id'), result⟩ =>
      id' = id ∧ ∃ state, stateOf id result = .ok state ∧ state ≠ ContainerState.STOPPED
  | _ => False

/-- After SIGTERM was sent the clock was read, and a query that was made when the timeout had
passed since then has told a state other than 'stopped'. -/
def OutlivedSigterm (id : Text) (timeout : ℤ) (history : List Event) : Prop :=
  ∃ accepted reading query now, [accepted, reading, query].Sublist history
    ∧ accepted.AcceptsSigterm id ∧ reading.Reads now ∧ accepted.answeredAt ≤ now
    ∧ now + timeout * SECOND ≤ query.issuedAt ∧ query.ReportsOther id

/-- A container is deleted, and a process is killed, only after the callers were told that it may
be. -/
def Safe (timeout : ℤ) : TimedCall → Answer → World → Prop
  | .command (.runcDelete id), _, w => ReportedStopped id w.history
  | .command (.runcKill id signal), _, w =>
      signal = "SIGKILL".toList → OutlivedSigterm id timeout w.history
  | _, _, _ => True

/-- A command that fails says that a process has ended, or that there is no container, only where
it is so. -/
def SaysTheTruth (result : CmdResult) (container : Option Container) : Prop :=
  result.ok = false → ∀ text ∈ result.stdout.text,
    (occursIn ContainerState.ALREADY_STOPPED text = true
        ∨ occursIn ContainerState.NOT_RUNNING text = true →
      container.map Container.status = some .stopped)
    ∧ (occursIn ContainerState.DOES_NOT_EXIST text = true → container = none)

instance (result : CmdResult) (container : Option Container) :
    Decidable (SaysTheTruth result container) :=
  inferInstanceAs (Decidable (_ → ∀ _ ∈ result.stdout.text, (_ → _) ∧ (_ → _)))

/-- `runc` says the truth about the containers. -/
def RuncSaysTheTruth : TimedCall → Answer → World → Prop
  | .command (.runcState id), x, w | .command (.runcKill id _), x, w
  | .command (.runcDelete id), x, w =>
      SaysTheTruth x.result ((w.device.settle id x.exited).containers id)
  | _, _, _ => True

instance decidableRuncSaysTheTruth : ∀ (c : TimedCall) (x : Answer) (w : World),
    Decidable (RuncSaysTheTruth c x w)
  | .command (.runcState _), _, _ | .command (.runcKill _ _), _, _
  | .command (.runcDelete _), _, _ => inferInstanceAs (Decidable (SaysTheTruth _ _))
  | .command (.extractall _ _), _, _ | .command (.opkgInfo _), _, _
  | .command (.opkgInstall _ _ _), _, _ | .command (.opkgRemove _ _), _, _
  | .command (.runcCreate _ _), _, _ | .command (.runcStart _), _, _ | .command (.isdir _), _, _
  | .command (.exists_ _), _, _ | .command (.walk _ _), _, _ | .command (.listdir _), _, _
  | .command (.rmtree _), _, _ | .command .endtimeReached, _, _ | .command (.log _), _, _
  | .monotonic, _, _ | .sleep _, _, _ => isTrue trivial

/-! ### The commands -/

section Commands

variable {adm : TimedCall → Answer → World → Prop}

/-- A command that may fail. -/
theorem wp_orThrow {p : TimedPy CmdResult} {error : CmdResult → PyException}
    {Q : Post World PyException Unit} :
  wp (machine who) adm (p >>= fun result => if result.ok then pure () else .throw (error result)) Q w
    ↔ wp (machine who) adm p
        { returned := fun result w =>
            if result.ok then Q.returned () w else Q.raised (error result) w
          raised := Q.raised
          cut := Q.cut } w
  := by
  rw [wp_bind]
  have hends : ∀ result : CmdResult, wp (machine who) adm
      (if result.ok then pure () else .throw (error result) : TimedPy Unit) Q
        = fun w' => if result.ok then Q.returned () w' else Q.raised (error result) w' := by
    intro result
    split <;> rfl
  simp only [hends]

theorem wp_kill {signal : Text} {Q : Post World PyException Unit} (hcut : Q.cut w)
    (h : ∀ x w', adm (.command (.runcKill id signal)) x w →
      w' = (perform who (.command (.runcKill id signal)) x w).2 →
      if x.result.ok then Q.returned () w' else Q.raised (killError id x.result) w') :
  wp (machine who) adm (kill id signal) Q w
  := by
  rw [kill_eq, wp_orThrow, wp_issue]
  exact ⟨hcut, fun x hx => h x _ hx rfl⟩

theorem wp_delete {Q : Post World PyException Unit} (hcut : Q.cut w)
    (h : ∀ x w', adm (.command (.runcDelete id)) x w →
      w' = (perform who (.command (.runcDelete id)) x w).2 →
      if x.result.ok then Q.returned () w' else Q.raised (deleteError id x.result) w') :
  wp (machine who) adm (delete id) Q w
  := by
  rw [delete_eq, wp_orThrow, wp_issue]
  exact ⟨hcut, fun x hx => h x _ hx rfl⟩

theorem wp_getState {Q : Post World PyException Text} (hcut : Q.cut w)
    (h : ∀ x w', adm (.command (.runcState id)) x w →
      w' = (perform who (.command (.runcState id)) x w).2 →
      (∀ state, stateOf id x.result = .ok state → Q.returned state w')
      ∧ ∀ e, stateOf id x.result = .error e → Q.raised e w') :
  wp (machine who) adm (getState id) Q w
  := by
  rw [getState_eq, wp_bind, wp_issue]
  use hcut
  intro x hx
  obtain ⟨hreturned, hraised⟩ := h x _ hx rfl
  change wp (machine who) adm (timed (ofExcept (stateOf id x.result))) _ _
  cases hstate : stateOf id x.result with
  | ok state => exact hreturned state hstate
  | error e => exact hraised e hstate

theorem wp_catching {α : Type} {p : TimedPy α} {classes : List ExceptionClass}
    {Q : Post World PyException (Except PyException α)} :
  wp (machine who) adm (catching p classes) Q w
    ↔ wp (machine who) adm p
        { returned := fun a => Q.returned (.ok a)
          raised := fun e w => if e.cls ∈ classes then Q.returned (.error e) w else Q.raised e w
          cut := Q.cut } w
  := by
  simp only [catching, wp_bind, wp_attempt]
  have hcaught : ∀ e, wp (machine who) adm
      (if e.cls ∈ classes then pure (.error e) else .throw e : TimedPy (Except PyException α)) Q
        = fun w' => if e.cls ∈ classes then Q.returned (.error e) w' else Q.raised e w' := by
    intro e
    split <;> rfl
  simp only [hcaught]
  rfl

end Commands

/-! ### Waiting -/

/-- Time passes, and what has happened stays so. -/
structure Follows (w w' : World) : Prop where
  history : w.history <+: w'.history
  now : w.now ≤ w'.now

theorem Follows.refl (w : World) :
  Follows w w
  := ⟨List.prefix_rfl, le_rfl⟩

theorem Follows.trans {w w' w'' : World} (h : Follows w w') (h' : Follows w' w'') :
  Follows w w''
  := ⟨h.history.trans h'.history, h.now.trans h'.now⟩

theorem follows_perform (c : TimedCall) (x : Answer) (w : World) :
  Follows w (perform who c x w).2
  := ⟨List.prefix_append _ _, Nat.le_add_right _ _⟩

/-- A call whose answer reports that the process has ended. -/
theorem reportedStopped_perform {c : TimedCall} {x : Answer}
    (h : Event.ReportsStopped id ⟨who, w.now, w.now + takes c x, c, (answer c x w).1⟩) :
  ReportedStopped id (perform who c x w).2.history
  := ⟨_, List.mem_concat_self, h⟩

variable {adm : TimedCall → Answer → World → Prop} {timeout : ℤ}

/-- The polls tell 'stopped' when a query has told it, and otherwise that the time is over: they
never run out, since each of them takes some time. -/
theorem wp_pollForAppStop {endtime : ℤ} (polls : ℕ)
    (hpolls : endtime ≤ w.now + ((polls : ℤ) - 1) * WAIT_SLEEP_INTERVAL) :
  wp (machine who) adm (pollForAppStop id endtime polls)
    { returned := fun stopped w' => Follows w w'
        ∧ if stopped then ReportedStopped id w'.history else endtime ≤ w'.now
      raised := fun e _ => e.cls ≠ .AppStopTimeoutError
      cut := fun _ => True } w
  := by
  induction polls generalizing w with
  | zero =>
      use Follows.refl w
      rw [if_neg (by decide)]
      simp only [WAIT_SLEEP_INTERVAL] at hpolls
      omega
  | succ polls ih =>
      rw [pollForAppStop, wp_bind, wp_issue]
      refine ⟨trivial, fun x _ => ?_⟩
      change wp (machine who) adm (if endtime > ((w.now + x.elapsed : ℕ) : ℤ) then _ else _) _
        (perform who .monotonic x w).2
      have hreading : (perform who .monotonic x w).2.now = w.now + x.elapsed := rfl
      have hread : Follows w (perform who .monotonic x w).2 := follows_perform .monotonic x w
      generalize (perform who .monotonic x w).2 = w₁ at hreading hread ⊢
      split
      · rw [wp_bind]
        apply wp_getState trivial
        rintro y w₂ - rfl
        have hqueried : Follows w (perform who (.command (.runcState id)) y w₁).2 :=
          hread.trans (follows_perform _ y w₁)
        constructor
        · intro state hstate
          dsimp only
          split
          · rename_i hstopped
            use hqueried
            rw [if_pos rfl]
            apply reportedStopped_perform
            exact ⟨rfl, hstate.trans (by rw [hstopped])⟩
          · rw [wp_bind, wp_issue]
            refine ⟨trivial, fun z _ => ?_⟩
            generalize (perform who (.command (.runcState id)) y w₁).2 = w₂ at hqueried
            have hslept : Follows w (perform who (.sleep WAIT_SLEEP_INTERVAL) z w₂).2 :=
              hqueried.trans (follows_perform _ z w₂)
            have hnow := hqueried.now
            apply (ih (w := (perform who (.sleep WAIT_SLEEP_INTERVAL) z w₂).2) _).of_returned
            · rintro stopped w' ⟨hfollows, hends⟩
              exact ⟨hslept.trans hfollows, hends⟩
            · change endtime ≤ ((w₂.now + (WAIT_SLEEP_INTERVAL + z.elapsed) : ℕ) : ℤ) + _
              push_cast at hpolls
              simp only [WAIT_SLEEP_INTERVAL] at hpolls ⊢
              omega
        · intro e he hcls
          apply stateOf_error he
          rw [hcls]
          decide
      · use hread
        rw [if_neg (by decide)]
        omega

/-- There are polls enough for the whole wait. -/
theorem le_pollsWithin (now : ℕ) (timeout : ℤ) :
  now + timeout * SECOND ≤ now + ((pollsWithin timeout : ℤ) - 1) * WAIT_SLEEP_INTERVAL
  := by
  simp only [pollsWithin, SECOND, WAIT_SLEEP_INTERVAL, WAIT_SLEEPS_PER_SECOND]
  omega

/-- A wait ends when a query has told 'stopped', or when one has told something else after the
deadline. -/
theorem wp_waitForAppStop {before : List Event} (hbefore : before.Sublist w.history) :
  wp (machine who) adm (waitForAppStop id timeout)
    { returned := fun _ w' => Follows w w' ∧ ReportedStopped id w'.history
      raised := fun e w' => e.cls = .AppStopTimeoutError →
        ∃ reading query now, (before ++ [reading, query]).Sublist w'.history
          ∧ Event.Reads now reading ∧ w.now ≤ now ∧ now + timeout * SECOND ≤ query.issuedAt
          ∧ Event.ReportsOther id query
      cut := fun _ => True } w
  := by
  rw [waitForAppStop, wp_bind, wp_issue]
  refine ⟨trivial, fun x _ => ?_⟩
  change wp (machine who) adm (pollForAppStop id ((w.now + x.elapsed : ℕ) + timeout * SECOND)
    (pollsWithin timeout) >>= _) _ (perform who .monotonic x w).2
  have hread : List.Sublist
      (before ++ [⟨who, w.now, w.now + x.elapsed, .monotonic, w.now + x.elapsed⟩])
      (perform who .monotonic x w).2.history := hbefore.append_right _
  have hfollows : Follows w (perform who .monotonic x w).2 := follows_perform .monotonic x w
  have hreading : (perform who .monotonic x w).2.now = w.now + x.elapsed := rfl
  generalize (perform who .monotonic x w).2 = w₁ at hread hfollows hreading ⊢
  rw [wp_bind]
  apply (wp_pollForAppStop (pollsWithin timeout)
    (by rw [← hreading]; exact le_pollsWithin w₁.now timeout)).mono
  · rintro stopped w₂ ⟨hpolled, hends⟩
    dsimp only
    split
    · rw [if_pos ‹_›] at hends
      exact ⟨hfollows.trans hpolled, hends⟩
    · rw [if_neg ‹_›] at hends
      rw [wp_bind]
      apply wp_getState trivial
      rintro y w₃ - rfl
      constructor
      · intro state hstate
        dsimp only
        split
        · rename_i hstopped
          refine ⟨(hfollows.trans hpolled).trans (follows_perform _ y w₂), ?_⟩
          apply reportedStopped_perform
          exact ⟨rfl, hstate.trans (by rw [hstopped])⟩
        · intro _
          use ⟨who, w.now, w.now + x.elapsed, .monotonic, w.now + x.elapsed⟩
          use ⟨who, w₂.now, w₂.now + y.elapsed, .command (.runcState id), y.result⟩
          use w.now + x.elapsed
          refine ⟨?_, rfl, by omega, hends, rfl, state, hstate, ‹_›⟩
          rw [← List.singleton_append, ← List.append_assoc]
          exact (hread.trans hpolled.history.sublist).append_right _
      · intro e he hcls
        refine absurd ?_ (stateOf_error he)
        rw [hcls]
        decide
  · intro e w' hne hcls
    exact absurd hcls hne
  · exact fun _ h => h

/-! ### Which calls are made -/

/-- The calls by which a container is waited for. -/
def Waits (id : Text) : TimedCall → Prop
  | .command (.runcState id') => id' = id
  | .monotonic | .sleep _ => True
  | _ => False

theorem issues_getState :
  Issues (Waits id) (getState id)
  := by
  rw [getState_eq]
  apply Issues.bind
  · exact issues_issue.mpr rfl
  · intro result
    cases stateOf id result <;> trivial

theorem issues_pollForAppStop (endtime : ℤ) (polls : ℕ) :
  Issues (Waits id) (pollForAppStop id endtime polls)
  := by
  induction polls with
  | zero => trivial
  | succ polls ih =>
      rw [pollForAppStop]
      apply Issues.bind (issues_issue.mpr trivial)
      intro now
      split
      · apply Issues.bind issues_getState
        intro state
        split
        · trivial
        · apply Issues.bind (issues_issue.mpr trivial)
          intro _
          exact ih
      · trivial

theorem issues_waitForAppStop (timeout : ℤ) :
  Issues (Waits id) (waitForAppStop id timeout)
  := by
  rw [waitForAppStop]
  apply Issues.bind (issues_issue.mpr trivial)
  intro now
  apply Issues.bind (issues_pollForAppStop _ _)
  intro stopped
  split
  · trivial
  · apply Issues.bind issues_getState
    intro state
    split <;> trivial

/-! ### The guard is kept -/

theorem keeps_waitForAppStop {sigterm_timeout : ℤ} :
  Keeps (machine who) adm (Safe sigterm_timeout) (waitForAppStop id timeout) w
  := by
  apply keeps_of_issues (issues_waitForAppStop timeout)
  rintro c x w' hc -
  cases c with
  | command c =>
      cases c with
      | runcState id => trivial
      | _ => exact hc.elim
  | monotonic => trivial
  | sleep duration => trivial

theorem keeps_catching {α : Type} {ok : TimedCall → Answer → World → Prop} {p : TimedPy α}
    {classes : List ExceptionClass} (h : Keeps (machine who) adm ok p w) :
  Keeps (machine who) adm ok (catching p classes) w
  := by
  apply keeps_bind_of_ifReturned (keeps_attempt.mpr h)
    (wp_ifReturned_of_forall (Q := fun _ _ => True) fun _ _ => trivial)
  rintro (e | a) w' -
  · dsimp only
    split <;> trivial
  · trivial

/-- A command that may fail. -/
theorem keeps_orThrow {ok : TimedCall → Answer → World → Prop} {p : TimedPy CmdResult}
    {error : CmdResult → PyException} (h : Keeps (machine who) adm ok p w) :
  Keeps (machine who) adm ok
    (p >>= fun result => if result.ok then pure () else .throw (error result)) w
  := by
  apply keeps_bind_of_ifReturned h
    (wp_ifReturned_of_forall (Q := fun _ _ => True) fun _ _ => trivial)
  rintro result w' -
  split <;> trivial

theorem keeps_kill {signal : Text}
    (h : signal = "SIGKILL".toList → OutlivedSigterm id timeout w.history) :
  Keeps (machine who) adm (Safe timeout) (kill id signal) w
  := by
  rw [kill_eq]
  apply keeps_orThrow
  rw [keeps_issue]
  exact fun _ _ => h

theorem keeps_delete (h : ReportedStopped id w.history) :
  Keeps (machine who) adm (Safe timeout) (delete id) w
  := by
  rw [delete_eq]
  apply keeps_orThrow
  rw [keeps_issue]
  exact fun _ _ => h

/-- A message that says that the process has ended has it from the command. -/
theorem reportedStopped_kill {signal : Text} {x : Answer}
    (hid : ∀ phrase ∈ PHRASES, occursIn phrase id = false) (hfails : ¬ x.result.ok = true)
    (htold : saysStopped (killError id x.result) = true) :
  ReportedStopped id (perform who (.command (.runcKill id signal)) x w).2.history
  := by
  apply reportedStopped_perform
  refine ⟨rfl, Bool.eq_false_iff.mpr hfails, ?_⟩
  simp only [saysStopped, List.any_cons, List.any_nil, Bool.or_false, Bool.or_eq_true] at htold
  rcases htold with h | h
  · obtain ⟨text, htext, hoccurs⟩ :=
      printed_of_mem_killError (by decide) (hid ContainerState.ALREADY_STOPPED (by decide)) h
    exact ⟨text, htext, Or.inl hoccurs⟩
  · obtain ⟨text, htext, hoccurs⟩ :=
      printed_of_mem_killError (by decide) (hid ContainerState.NOT_RUNNING (by decide)) h
    exact ⟨text, htext, Or.inr hoccurs⟩

section Name

variable (hid : ∀ phrase ∈ PHRASES, occursIn phrase id = false)
include hid

theorem keeps_killApp {sigterm_timeout : ℤ}
    (h : OutlivedSigterm id sigterm_timeout w.history) :
  Keeps (machine who) adm (Safe sigterm_timeout) (killApp id timeout) w
  := by
  rw [killApp]
  apply keeps_bind (keeps_catching (keeps_kill fun _ => h))
  rw [wp_catching]
  apply wp_kill trivial
  rintro x w' - rfl
  split
  · apply keeps_bind keeps_waitForAppStop
    apply (wp_waitForAppStop (List.nil_sublist _)).mono
    · rintro _ w' ⟨-, hstopped⟩
      exact keeps_delete hstopped
    · exact fun _ _ _ => trivial
    · exact fun _ h => h
  · dsimp only
    split
    · split
      · exact keeps_delete (reportedStopped_kill hid ‹_› ‹_›)
      · trivial
    · trivial

theorem keeps_terminateApp (sigterm_timeout sigkill_timeout : ℤ) :
  Keeps (machine who) adm (Safe sigterm_timeout) (terminateApp id sigterm_timeout sigkill_timeout) w
  := by
  rw [terminateApp]
  apply keeps_bind (keeps_catching (keeps_kill fun h => absurd h (by decide)))
  rw [wp_catching]
  apply wp_kill trivial
  rintro x w' - hw'
  split
  · -- SIGTERM was sent
    have haccepted : [⟨who, w.now, w.now + x.elapsed,
        .command (.runcKill id "SIGTERM".toList), x.result⟩].Sublist w'.history := by
      rw [hw']
      exact List.sublist_append_right _ _
    apply keeps_bind (keeps_catching keeps_waitForAppStop)
    rw [wp_catching]
    apply (wp_waitForAppStop haccepted).mono
    · rintro _ w'' ⟨-, hstopped⟩
      exact keeps_delete hstopped
    · intro e w'' hraised
      dsimp only
      split
      · rename_i hcls
        obtain ⟨reading, query, now, hhistory, hreads, hnow, hdeadline, hquery⟩ :=
          hraised (List.mem_singleton.mp hcls)
        apply keeps_killApp hid
        refine ⟨_, reading, query, now, hhistory, ⟨rfl, rfl, ‹_›⟩, hreads, ?_, hdeadline, hquery⟩
        rw [hw'] at hnow
        exact hnow
      · trivial
    · exact fun _ h => h
  · subst hw'
    dsimp only
    split
    · split
      · exact keeps_delete (reportedStopped_kill hid ‹_› ‹_›)
      · split <;> trivial
    · trivial

/-! ### There is no container when the application is terminated -/

omit hid in
theorem wp_delete_none :
  wp (machine who) adm (delete id)
    (Post.ifReturned fun _ w' => w'.device.containers id = none) w
  := by
  apply wp_delete trivial
  rintro x w' - rfl
  split
  · change (if x.result.ok then w.device.setContainer id none else _).containers id = none
    rw [if_pos ‹_›, Device.setContainer_same]
  · trivial

omit hid in
theorem wp_killApp_none :
  wp (machine who) adm (killApp id timeout)
    (Post.ifReturned fun _ w' => w'.device.containers id = none) w
  := by
  rw [killApp]
  apply wp_ifReturned_bind_of_forall
  rintro (e | _) w'
  · dsimp only
    split
    · exact wp_delete_none
    · trivial
  · apply wp_ifReturned_bind_of_forall
    exact fun _ _ => wp_delete_none

theorem wp_terminateApp_none (htruth : ∀ c x w, adm c x w → RuncSaysTheTruth c x w)
    (sigterm_timeout sigkill_timeout : ℤ) :
  wp (machine who) adm (terminateApp id sigterm_timeout sigkill_timeout)
    (Post.ifReturned fun _ w' => w'.device.containers id = none) w
  := by
  rw [terminateApp, wp_bind, wp_catching]
  apply wp_kill trivial
  rintro x w' hx rfl
  split
  · apply wp_ifReturned_bind_of_forall
    rintro (e | _) w''
    · exact wp_killApp_none
    · exact wp_delete_none
  · rename_i hfails
    dsimp only
    split
    · split
      · exact wp_delete_none
      · split
        · -- SIGTERM could not be sent, as there is no container
          obtain ⟨text, htext, hoccurs⟩ := printed_of_mem_killError (by decide)
            (hid ContainerState.DOES_NOT_EXIST (by decide)) ‹_›
          exact (htruth _ _ _ hx (Bool.eq_false_iff.mpr hfails) text htext).2 hoccurs
        · trivial
    · trivial

end Name

/-! ### The result -/

/-- The world when nothing has happened yet. -/
def start (now : ℕ) (device : Device) : World :=
  ⟨now, device, []⟩

/-- Whatever the container does and however long it takes, a container is deleted only after the
process in it was reported to have ended, SIGKILL is sent only after the deadline of SIGTERM, and
there is no container when the application was terminated. -/
theorem terminateApp_safe {sigterm_timeout sigkill_timeout : ℤ} {now : ℕ} {device : Device}
    {xs : List Answer} (hid : ∀ phrase ∈ PHRASES, occursIn phrase id = false)
    (htruth : Obeys (machine who) RuncSaysTheTruth
      (terminateApp id sigterm_timeout sigkill_timeout) xs (start now device)) :
  Obeys (machine who) (Safe sigterm_timeout) (terminateApp id sigterm_timeout sigkill_timeout) xs
      (start now device)
    ∧ ∀ rest w', run (machine who) (terminateApp id sigterm_timeout sigkill_timeout) xs
          (start now device) = (.returned (), rest, w') →
        w'.device.containers id = none
  := by
  constructor
  · exact (keeps_terminateApp hid sigterm_timeout sigkill_timeout).obeys htruth
  · intro rest w' hrun
    have hends := holds_of_wp
      (wp_terminateApp_none hid (fun _ _ _ h => h) sigterm_timeout sigkill_timeout) htruth
    rw [hrun] at hends
    exact hends

/-- A device on which an application runs, and nothing else is of interest. -/
def runningDevice (id : Text) : Device where
  fs := FileTree.root
  containers := Function.update (fun _ => none) id (some ⟨[], .running⟩)
  phase := .install
  completed := []

/-- What `runc state` prints of a container. -/
def stateResult (status : Status) : CmdResult :=
  success { json := some (.obj [("status".toList, .str status.text)]) }

/-- An application that does not mind SIGTERM is killed after three seconds. -/
def stubbornAnswers : List Answer :=
  [{ elapsed := 20 }, {}, { elapsed := 4 }, { result := stateResult .running },
    { elapsed := 3 * SECOND }, {}, { result := stateResult .running }, { exited := true }, {}, {},
    { result := stateResult .stopped }, {}]

theorem terminateApp_safe_stubborn :
  Obeys (machine .commandLine) (Safe 3) (terminateApp "app1".toList 3 1) stubbornAnswers
      (start 0 (runningDevice "app1".toList))
    ∧ ∀ rest w', run (machine .commandLine) (terminateApp "app1".toList 3 1) stubbornAnswers
          (start 0 (runningDevice "app1".toList)) = (.returned (), rest, w') →
        w'.device.containers "app1".toList = none
  := terminateApp_safe (by decide) (by decide)

/-- Such an application is terminated. -/
example :
  (run (machine .commandLine) (terminateApp "app1".toList 3 1) stubbornAnswers
    (start 0 (runningDevice "app1".toList))).1 = .returned ()
  := by decide

end App.Timed
