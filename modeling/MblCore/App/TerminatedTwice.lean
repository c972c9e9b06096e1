import MblCore.App.Interference
import MblCore.App.TerminateCalls

/-!
# Terminating an application twice at once

The update manager and the command line tool may terminate the same application at once.  The
container that one of them deletes is missing for the other: `terminate_app` takes a missing
container for a success when it sends SIGTERM, and nowhere else.
-/

namespace App.Timed

open Prog hiding pure throw bind

variable {id : Text} {who : Caller} {w : World}

/-! ### Two callers -/

instance : Fintype Caller where
  elems := {.updateManager, .commandLine}
  complete who := by cases who <;> decide

/-- Two calls of `terminate_app` at once. -/
abbrev System := Tasks Caller TimedCall TimedReply PyException Unit World

def terminateTwice (id : Text) (sigterm_timeout sigkill_timeout : Caller → ℤ) (now : ℕ)
    (device : Device) : System where
  world := start now device
  task who := terminateApp id (sigterm_timeout who) (sigkill_timeout who)

/-- The next call is answered. -/
def step : System → Caller × Answer → Option System :=
  Tasks.step machine

def isCall : TimedPy Unit → Bool
  | .call _ _ => true
  | _ => false

def issuesDelete : TimedPy Unit → Bool
  | .call (.command (.runcDelete _)) _ => true
  | _ => false

/-- The caller has begun to terminate the application and has not ended. -/
def InProgress (who : Caller) (s : System) : Prop :=
  Started who s.world.history ∧ isCall (s.task who) = true

instance (who : Caller) (s : System) : Decidable (InProgress who s) :=
  inferInstanceAs (Decidable (_ ∧ _))

/-- `runc delete` removes the container only when no other caller is in progress. -/
def DeletesAlone (s : System) (a : Caller × Answer) : Prop :=
  issuesDelete (s.task a.1) = true → a.2.result.ok = true →
    ∀ who, who ≠ a.1 → ¬ InProgress who s

instance (s : System) (a : Caller × Answer) : Decidable (DeletesAlone s a) :=
  inferInstanceAs (Decidable (_ → _ → _))

/-- A step that harms no other caller, and not the one that takes it. -/
structure Careful (s : System) (a : Caller × Answer) : Prop where
  alone : DeletesAlone s a
  finds : Tasks.Admits (fun _ => FindsContainer) s a

instance (s : System) (a : Caller × Answer) : Decidable (Careful s a) :=
  decidable_of_iff (DeletesAlone s a ∧ Tasks.Admits (fun _ => FindsContainer) s a)
    ⟨fun h => ⟨h.1, h.2⟩, fun h => ⟨h.alone, h.finds⟩⟩

/-- No caller has failed, and when one has ended there is no container. -/
def Harmless (id : Text) (s : System) : Prop :=
  ∀ who, (∀ e, s.task who ≠ .throw e)
    ∧ (s.task who = .pure () → s.world.device.containers id = none)

/-! ### What the others may rely on -/

/-- A call leaves a container, unless `runc delete` removes it. -/
theorem aged_perform {c : TimedCall} {x : Answer} (hc : Terminates id c)
    (hdelete : ∀ id', c = .command (.runcDelete id') → x.result.ok = false) :
  Aged (w.device.containers id) ((perform who c x w).2.device.containers id)
  := by
  cases c with
  | command c =>
      cases c with
      | runcState id' | runcKill id' signal =>
          obtain rfl : id' = id := hc
          exact aged_settle w.device id' x.exited
      | runcDelete id' =>
          obtain rfl : id' = id := hc
          change Aged _ ((if x.result.ok then _ else w.device.settle id' x.exited : Device).containers
            id')
          rw [if_neg (by rw [hdelete id' rfl]; decide)]
          exact aged_settle w.device id' x.exited
      | _ => exact hc.elim
  | monotonic | sleep duration => exact Aged.refl _

/-- Where there is no container, none comes to be. -/
theorem absent_perform {c : TimedCall} {x : Answer} (hc : Terminates id c)
    (habsent : w.device.containers id = none) :
  (perform who c x w).2.device.containers id = none
  := by
  have hsettled : (w.device.settle id x.exited).containers id = none :=
    (aged_settle w.device id x.exited).absent.mp habsent
  cases c with
  | command c =>
      cases c with
      | runcState id' | runcKill id' signal =>
          obtain rfl : id' = id := hc
          exact hsettled
      | runcDelete id' =>
          obtain rfl : id' = id := hc
          change (if x.result.ok then _ else _ : Device).containers id' = none
          split
          · exact Device.setContainer_same _ _ _
          · exact hsettled
      | _ => exact hc.elim
  | monotonic | sleep duration => exact habsent

/-! ### The result -/

/-- What holds of the callers in every state. -/
structure Sound (id : Text) (sigterm_timeout : Caller → ℤ) (s : System) : Prop where
  /-- Each of them goes on to its end, if the others leave the container alone. -/
  ends : ∀ who, wpUnder (machine who) (Both (Admitted id sigterm_timeout) FindsContainer)
    (Rely id who) (s.task who)
    { returned := fun _ w => w.device.containers id = none
      raised := fun _ _ => False
      cut := fun _ => True } s.world
  issues : ∀ who, Issues (Terminates id) (s.task who)

theorem Sound.harmless {sigterm_timeout : Caller → ℤ} {s : System}
    (hs : Sound id sigterm_timeout s) :
  Harmless id s
  := by
  intro who
  have hends := hs.ends who
  constructor
  · intro e htask
    rw [htask] at hends
    exact hends s.world (Std.Refl.refl s.world)
  · intro htask
    rw [htask] at hends
    exact hends s.world (Std.Refl.refl s.world)

/-- A step with which a caller deletes only on its own is one that the others rely on. -/
theorem Sound.rely {sigterm_timeout : Caller → ℤ} {s s' : System} {i : Caller} {x : Answer}
    (hs : Sound id sigterm_timeout s) (halone : DeletesAlone s (i, x))
    (hstep : step s (i, x) = some s') {who : Caller} (hwho : who ≠ i) :
  Rely id who s.world s'.world
  := by
  obtain ⟨c, k, htask, rfl⟩ := Tasks.exists_of_step hstep
  have hc : Terminates id c := by
    have hissues := hs.issues i
    rw [htask] at hissues
    exact hissues.1
  refine ⟨follows_perform c x s.world, absent_perform hc, fun hstarted => ?_⟩
  by_cases hdelete : (∃ id', c = .command (.runcDelete id')) ∧ x.result.ok = true
  · -- the other one has ended, so there is no container to delete
    obtain ⟨⟨id', rfl⟩, hok⟩ := hdelete
    have hended : ¬ isCall (s.task who) = true := by
      intro hcall
      exact halone (by rw [htask]; rfl) hok who hwho ⟨hstarted, hcall⟩
    have habsent : s.world.device.containers id = none := by
      obtain ⟨hraises, hreturns⟩ := hs.harmless who
      cases hother : s.task who with
      | pure a => exact hreturns hother
      | throw e => exact absurd hother (hraises e)
      | call c' k' => exact absurd (by rw [hother]; rfl) hended
    change Aged _ ((perform i _ x s.world).2.device.containers id)
    rw [habsent, absent_perform hc habsent]
    exact Aged.refl none
  · apply aged_perform hc
    intro id' hid'
    rw [Bool.eq_false_iff]
    exact fun hok => hdelete ⟨⟨id', hid'⟩, hok⟩

theorem Sound.step {sigterm_timeout : Caller → ℤ} {s s' : System} {a : Caller × Answer}
    (hs : Sound id sigterm_timeout s)
    (hadm : Tasks.Admits (fun _ => Admitted id sigterm_timeout) s a) (hcareful : Careful s a)
    (hstep : step s a = some s') :
  Sound id sigterm_timeout s'
  := by
  obtain ⟨i, x⟩ := a
  constructor
  · apply Tasks.wpUnder_step hs.ends _ (fun _ hj => hs.rely hcareful.alone hstep hj) hstep
    exact Tasks.admits_both.mpr ⟨hadm, hcareful.finds⟩
  · exact Tasks.issues_step hs.issues hstep

theorem sound_terminateTwice (sigterm_timeout sigkill_timeout : Caller → ℤ) (now : ℕ)
    (device : Device) :
  Sound id sigterm_timeout (terminateTwice id sigterm_timeout sigkill_timeout now device)
  := by
  constructor
  · exact fun who => wpUnder_terminateApp (sigkill_timeout who)
  · exact fun who => issues_terminateApp _ _

/-! ### When a container is deleted meanwhile -/

/-- What holds of the callers in every state, whoever deletes the container. -/
structure Exposed (id : Text) (s : System) : Prop where
  issues : ∀ who, Issues (Terminates id) (s.task who)
  later : ∀ who, FromLaterCalls Gone (fun _ => False) (fun _ => True) (s.task who)
  /-- A caller needs the container from the beginning on if its name is not clear, and otherwise
  once it has begun. -/
  fromCalls : ∀ who, Started who s.world.history ∨ ¬ ClearName id → RaisesFromCalls (s.task who)

theorem exposed_terminateTwice (sigterm_timeout sigkill_timeout : Caller → ℤ) (now : ℕ)
    (device : Device) :
  Exposed id (terminateTwice id sigterm_timeout sigkill_timeout now device)
  := by
  constructor
  · exact fun who => issues_terminateApp _ _
  · exact fun who => fromLaterCalls_terminateApp _ _
  · rintro who (⟨e, he, -⟩ | hname)
    · exact absurd he List.not_mem_nil
    · simp only [ClearName, not_forall, Bool.not_eq_false] at hname
      obtain ⟨phrase, hphrase, hid⟩ := hname
      exact (needsContainer_terminateApp hphrase hid _ _).fromCalls

theorem exposed_step {s s' : System} {a : Caller × Answer} (hs : Exposed id s)
    (hstep : step s a = some s') :
  Exposed id s'
  := by
  obtain ⟨i, x⟩ := a
  constructor
  · exact Tasks.issues_step hs.issues hstep
  · exact fun who => Tasks.fromLaterCalls_step (hs.later who) hstep
  · intro who hneeds
    by_cases hwho : who = i
    · subst hwho
      exact Tasks.fromCalls_of_step (hs.later who) hstep
    · have hneeded : Started who s.world.history ∨ ¬ ClearName id := by
        -- what the others do is not a beginning of its own
        apply hneeds.imp_left
        rintro ⟨e, he, rfl⟩
        obtain ⟨c, k, -, rfl⟩ := Tasks.exists_of_step hstep
        rcases List.mem_append.mp he with he | he
        · exact ⟨e, he, rfl⟩
        · obtain rfl := List.mem_singleton.mp he
          exact absurd rfl hwho
      exact Tasks.fromCalls_step (hs.fromCalls who hneeded) hstep

/-- The container is gone, and the caller raises an exception for it. -/
structure Doomed (id : Text) (who : Caller) (s : System) : Prop where
  issues : ∀ who, Issues (Terminates id) (s.task who)
  gone : s.world.device.containers id = none
  raises : Comes Gone (fun _ => False) (fun _ => True) (s.task who)

/-- Without the container no `runc delete` succeeds. -/
theorem gone_perform {sigterm_timeout : Caller → ℤ} {c : TimedCall} {x : Answer}
    (hc : Terminates id c) (hadm : Admitted id sigterm_timeout c x w)
    (habsent : w.device.containers id = none) :
  Gone c (perform who c x w).1
  := by
  cases c with
  | command c =>
      cases c with
      | runcKill id' signal =>
          obtain rfl : id' = id := hc
          have hanswer : KillAnswer x.result ((w.device.settle id' x.exited).containers id') :=
            hadm.1
          rw [(aged_settle w.device id' x.exited).absent.mp habsent] at hanswer
          exact hanswer.1
      | runcDelete id' =>
          obtain rfl : id' = id := hc
          have hanswer : DeleteAnswer x.result ((w.device.settle id' x.exited).containers id') :=
            hadm.1
          rw [(aged_settle w.device id' x.exited).absent.mp habsent] at hanswer
          exact hanswer.1
      | _ => trivial
  | monotonic | sleep duration => trivial

theorem doomed_step {sigterm_timeout : Caller → ℤ} {s s' : System} {a : Caller × Answer}
    (hs : Doomed id who s) (hadm : Tasks.Admits (fun _ => Admitted id sigterm_timeout) s a)
    (hstep : step s a = some s') :
  Doomed id who s'
  := by
  obtain ⟨i, x⟩ := a
  have hterminates {c : TimedCall} {k} (htask : s.task i = .call c k) : Terminates id c := by
    have hissues := hs.issues i
    rw [htask] at hissues
    exact hissues.1
  constructor
  · exact Tasks.issues_step hs.issues hstep
  · obtain ⟨c, k, htask, rfl⟩ := Tasks.exists_of_step hstep
    exact absent_perform (hterminates htask) hs.gone
  · apply Tasks.comes_step hs.raises _ hstep
    rintro c k rfl htask
    simp only [Tasks.Admits, htask] at hadm
    exact gone_perform (hterminates htask) hadm hs.gone

/-- A caller that needs the container at its next call raises an exception without it. -/
theorem Exposed.raises {s : System} (hs : Exposed id s) (hcall : isCall (s.task who) = true)
    (hneeds : Started who s.world.history ∨ ¬ ClearName id) :
  Comes Gone (fun _ => False) (fun _ => True) (s.task who)
  := by
  have hfrom := hs.fromCalls who hneeds
  cases htask : s.task who with
  | call c k =>
      rw [htask] at hfrom
      exact hfrom.1
  | pure a =>
      rw [htask] at hcall
      contradiction
  | throw e => trivial

/-- A caller whose container is deleted while it is in progress is doomed. -/
theorem exists_doomed_of_deleted {s s' : System} {a : Caller × Answer} (hs : Exposed id s)
    (hdeletes : ¬ DeletesAlone s a) (hstep : step s a = some s') :
  ∃ who, Doomed id who s'
  := by
  obtain ⟨i, x⟩ := a
  simp only [DeletesAlone, not_forall, not_not] at hdeletes
  obtain ⟨hdelete, hok, who, hwho, hstarted, hcall⟩ := hdeletes
  use who
  constructor
  · exact Tasks.issues_step hs.issues hstep
  · obtain ⟨c, k, htask, rfl⟩ := Tasks.exists_of_step hstep
    have hissues := hs.issues i
    rw [htask] at hissues hdelete
    cases c with
    | command c =>
        cases c with
        | runcDelete id' =>
            obtain rfl : id' = id := hissues.1
            change (if x.result.ok then _ else _ : Device).containers id' = none
            rw [if_pos hok]
            exact Device.setContainer_same _ _ _
        | _ => contradiction
    | monotonic | sleep duration => contradiction
  · apply Tasks.comes_step (hs.raises hcall (Or.inl hstarted)) _ hstep
    exact fun c k hi _ => absurd hi.symm hwho

/-- A caller that finds no container is doomed if the name of the application is not clear. -/
theorem exists_doomed_of_missing {sigterm_timeout : Caller → ℤ} {s s' : System}
    {a : Caller × Answer} (hs : Exposed id s)
    (hadm : Tasks.Admits (fun _ => Admitted id sigterm_timeout) s a)
    (hmissing : ¬ Tasks.Admits (fun _ => FindsContainer) s a) (hstep : step s a = some s') :
  ∃ who, Doomed id who s'
  := by
  obtain ⟨i, x⟩ := a
  obtain ⟨c, k, htask, -⟩ := Tasks.exists_of_step hstep
  have hissues := hs.issues i
  rw [htask] at hissues
  have hc : Terminates id c := hissues.1
  simp only [Tasks.Admits, htask] at hmissing
  obtain ⟨habsent, hname⟩ : s.world.device.containers id = none ∧ ¬ ClearName id := by
    cases c with
    | command c =>
        cases c with
        | runcKill id' signal =>
            obtain rfl : id' = id := hc
            exact Classical.not_imp.mp hmissing
        | _ => exact absurd trivial hmissing
    | monotonic | sleep duration => exact absurd trivial hmissing
  have hdoomed : Doomed id i s :=
    { issues := hs.issues
      gone := habsent
      raises := hs.raises (by rw [htask]; rfl) (Or.inr hname) }
  exact ⟨i, doomed_step hdoomed hadm hstep⟩

theorem Doomed.not_harmless {s : System} (hs : Doomed id who s)
    (hended : isCall (s.task who) = false) :
  ¬ Harmless id s
  := by
  intro hharmless
  have hraises := hs.raises
  cases htask : s.task who with
  | call c k =>
      rw [htask] at hended
      contradiction
  | pure a =>
      rw [htask] at hraises
      exact hraises
  | throw e => exact (hharmless who).1 e htask

/-- In a run that has ended without harm every step was a careful one. -/
theorem careful_of_harmless {sigterm_timeout : Caller → ℤ} {s t : System}
    {as : List (Caller × Answer)} (hs : Exposed id s)
    (hadm : Lts.Meets step (Tasks.Admits fun _ => Admitted id sigterm_timeout) s as)
    (hrun : Lts.exec step s as = some t) (hended : ∀ who, isCall (t.task who) = false)
    (hharmless : Harmless id t) :
  Lts.Meets step Careful s as
  := by
  by_contra hcareless
  obtain ⟨bs, a, cs, s₁, s₂, rfl, hbs, -, ha, hstep, hcs⟩ := Lts.exists_first_not_ok hcareless hrun
  have hexposed : Exposed id s₁ :=
    Lts.invariant' (Exposed id) (fun _ _ _ => exposed_step) hs hbs
  have hrest := (Lts.meets_append.mp hadm).2 s₁ hbs
  obtain ⟨who, hdoomed⟩ : ∃ who, Doomed id who s₂ := by
    by_cases halone : DeletesAlone s₁ a
    · apply exists_doomed_of_missing hexposed hrest.1 _ hstep
      exact fun hfinds => ha ⟨halone, hfinds⟩
    · exact exists_doomed_of_deleted hexposed halone hstep
  have hend : Doomed id who t :=
    Lts.invariant (Doomed id who) (fun _ _ _ => doomed_step) hdoomed (hrest.2 s₂ hstep) hcs
  exact hend.not_harmless (hended who) hharmless

/-- In a run whose steps are careful no caller fails, and there is no container when one of them
has ended.  Of the runs that have come to their end these are the only ones, and every run comes to
its end. -/
theorem terminateTwice_harmless {sigterm_timeout sigkill_timeout : Caller → ℤ} {now : ℕ}
    {device : Device} {as : List (Caller × Answer)} {s : System}
    (hadm : Lts.Meets step (Tasks.Admits fun _ => Admitted id sigterm_timeout)
      (terminateTwice id sigterm_timeout sigkill_timeout now device) as)
    (hrun : Lts.exec step (terminateTwice id sigterm_timeout sigkill_timeout now device) as
      = some s) :
  (Lts.Meets step Careful
      (terminateTwice id sigterm_timeout sigkill_timeout now device) as → Harmless id s)
    ∧ ((∀ who, isCall (s.task who) = false) →
      (Harmless id s ↔ Lts.Meets step Careful
        (terminateTwice id sigterm_timeout sigkill_timeout now device) as))
    ∧ as.length ≤ ∑ who, terminateCalls (sigterm_timeout who) (sigkill_timeout who)
  := by
  have hharmless (hcareful : Lts.Meets step Careful
      (terminateTwice id sigterm_timeout sigkill_timeout now device) as) : Harmless id s := by
    have hsound : Sound id sigterm_timeout s := by
      apply Lts.invariant (Sound id sigterm_timeout) _ (sound_terminateTwice _ _ _ _)
        (hadm.and hcareful) hrun
      intro s a s' hs hok hstep
      exact hs.step hok.1 hok.2 hstep
    exact hsound.harmless
  refine ⟨hharmless, fun hended => ⟨?_, hharmless⟩, ?_⟩
  · exact careful_of_harmless (exposed_terminateTwice _ _ _ _) hadm hrun hended
  · exact Tasks.length_le (fun who => atMost_terminateApp _ _) hrun

/-- The container of an application is gone. -/
def goneResult : CmdResult :=
  failure {} noContainer

/-- The update manager terminates an application, and the command line tool comes too late. -/
def answersInTurn : List (Caller × Answer) :=
  [(.updateManager, {}), (.updateManager, {}), (.updateManager, {}),
    (.updateManager, { exited := true, result := stateResult .stopped }), (.updateManager, {}),
    (.commandLine, { result := goneResult })]

/-- Both see that the application has stopped, and the update manager deletes the container
first. -/
def answersAtOnce : List (Caller × Answer) :=
  [(.updateManager, {}), (.commandLine, {}), (.updateManager, {}), (.updateManager, {}),
    (.updateManager, { exited := true, result := stateResult .stopped }), (.commandLine, {}),
    (.commandLine, {}), (.commandLine, { result := stateResult .stopped }), (.updateManager, {}),
    (.commandLine, { result := goneResult })]

/-- Two calls of `terminate_app` with the usual timeouts. -/
def usualCallers : System :=
  terminateTwice "app1".toList (fun _ => 3) (fun _ => 1) 0 (runningDevice "app1".toList)

theorem terminateTwice_harmless_inTurn :
  ∃ s, Lts.exec step usualCallers answersInTurn = some s
    ∧ Harmless "app1".toList s
    ∧ answersInTurn.length ≤ ∑ _who : Caller, terminateCalls 3 1
  := by
  obtain ⟨s, hs⟩ : ∃ s, Lts.exec step usualCallers answersInTurn = some s :=
    Option.isSome_iff_exists.mp (by decide)
  obtain ⟨hharmless, -, hlength⟩ := terminateTwice_harmless (by decide) hs
  exact ⟨s, hs, hharmless (by decide), hlength⟩

/-- The class of the exception that a caller has raised. -/
def raised? : TimedPy Unit → Option ExceptionClass
  | .throw e => some e.cls
  | _ => none

theorem not_harmless_deletedByOther :
  ∃ s, Lts.Meets step (Tasks.Admits fun _ => Admitted "app1".toList fun _ => 3) usualCallers
      answersAtOnce
    ∧ Lts.exec step usualCallers answersAtOnce = some s
    ∧ (∀ who, isCall (s.task who) = false)
    ∧ raised? (s.task .commandLine) = some .ContainerDeleteError
    ∧ ¬ Harmless "app1".toList s
  := by
  have hends : (Lts.exec step usualCallers answersAtOnce).any (fun s =>
      decide (∀ who, isCall (s.task who) = false)
        && raised? (s.task .commandLine) == some .ContainerDeleteError) = true := by decide
  obtain ⟨s, hrun, hends⟩ := (Option.any_eq_true _ _).mp hends
  rw [Bool.and_eq_true, decide_eq_true_eq, beq_iff_eq] at hends
  refine ⟨s, by decide, hrun, hends.1, hends.2, ?_⟩
  intro hharmless
  have hraised := hends.2
  cases htask : s.task .commandLine with
  | throw e => exact (hharmless .commandLine).1 e htask
  | pure a => simp [htask, raised?] at hraised
  | call c k => simp [htask, raised?] at hraised

end App.Timed
