import MblCore.Updated.Handover

/-!
# SIGINT and the main loop of UpdateD

The handler of SIGINT writes to the variable `sigint` of `signal/handlers.h`, and `main` calls
`UpdateCoordinator::run` while the variable is 0.  A name with external linkage denotes one object of
the program.  The variable is `static`, so it has internal linkage, and its name denotes another
object in each translation unit that includes the header: the handler writes to one, and `main` reads
another.
-/

open FileTree

namespace Updated

open PayloadHardLink

/-! ### Variables and translation units -/

/-- The translation units that include `signal/handlers.h`. -/
inductive TranslationUnit
  | handlers
  | init
  | updated
deriving DecidableEq

/-- The variables `signal/handlers.h` declares. -/
inductive SignalVariable
  | sighup
  | sigint
deriving DecidableEq

/-- The linkage of a name declared at namespace scope. -/
inductive Linkage
  | internal
  | external
deriving DecidableEq

/-- An object; that of a name with internal linkage belongs to a translation unit. -/
structure Object where
  name : SignalVariable
  unit : Option TranslationUnit
deriving DecidableEq

/-- The object a name denotes in a translation unit. -/
def Linkage.object (linkage : Linkage) (name : SignalVariable) (unit : TranslationUnit) : Object :=
  match linkage with
  | .internal => ⟨name, some unit⟩
  | .external => ⟨name, none⟩

/-- The linkage of `static volatile std::sig_atomic_t sigint{0}`. -/
def handlersLinkage : Linkage :=
  .internal

def SIGINT : Int := 2

/-! ### The daemon -/

/-- Where `main` is. -/
inductive MainPhase
  /-- The handlers are not registered yet, and the server does not run. -/
  | starting
  /-- `main` is about to test the condition of its loop. -/
  | testing
  /-- `main` is in a call of `UpdateCoordinator::run`. -/
  | running
  | exited
deriving DecidableEq

/-- What matters of what has happened. -/
inductive Moment
  | sigintHandled
  | runStarted
deriving DecidableEq

structure Daemon where
  memory : Object → Int
  main : MainPhase
  update_coordinator : UpdateCoordinator
  /-- What has happened, in order. -/
  history : List Moment

namespace Daemon

/-- The daemon before `main` has done anything. -/
def init (fs : Nodes) : Daemon where
  memory _ := 0
  main := .starting
  update_coordinator := UpdateCoordinator.init fs
  history := []

/-- `sigint_handler`. -/
def sigintHandler (linkage : Linkage) (d : Daemon) : Daemon :=
  { d with
    memory := Function.update d.memory (linkage.object .sigint .handlers) SIGINT
    history := d.history ++ [.sigintHandled] }

/-- `main` tests the condition of its loop. -/
def testLoop (linkage : Linkage) (d : Daemon) : Daemon :=
  if d.memory (linkage.object .sigint .updated) = 0 then
    { d with main := .running, history := d.history ++ [.runStarted] }
  else { d with main := .exited }

inductive Event
  | sigint
  | startUpdate (payload_path : Route) (update_header : Text) (os os' : Os)
  | main (os : Os)

/-- `main` goes on. -/
def Event.IsMain : Event → Prop
  | .main _ => True
  | .sigint => False
  | .startUpdate _ _ _ _ => False

instance : DecidablePred Event.IsMain
  | .main _ => isTrue trivial
  | .sigint => isFalse id
  | .startUpdate _ _ _ _ => isFalse id

/-- One step: a signal is delivered, a request is carried out, or `main` goes on.  A signal that comes
before the handlers are registered ends the process, and a call of `run` returns only when a request has
set the flag. -/
def step (linkage : Linkage) (d : Daemon) (e : Event) : Option Daemon :=
  if d.update_coordinator.terminated ∨ d.main = .exited then none
  else
    match e, d.main with
    | .sigint, .starting => some { d with main := .exited }
    | .sigint, _ => some (d.sigintHandler linkage)
    | .startUpdate _ _ _ _, .starting => none
    | .startUpdate payload_path update_header os os', _ =>
        some { d with
          update_coordinator :=
            (d.update_coordinator.start payload_path update_header os os').2 }
    | .main _, .starting => some { d with main := .testing }
    | .main _, .testing => some (d.testLoop linkage)
    | .main os, .running =>
        if d.update_coordinator.updating then
          some { d with main := .testing, update_coordinator := d.update_coordinator.run os }
        else none
    | .main _, .exited => none

variable {linkage : Linkage} {d d' : Daemon} {e : Event}

/-- What a step can do to the variable and to the history: run the handler, test the condition of the
loop, or neither. -/
theorem step_cases (hstep : step linkage d e = some d') :
  (e = .sigint ∧ d' = d.sigintHandler linkage)
    ∨ (∃ os, e = .main os ∧ d.main = .testing ∧ d' = d.testLoop linkage)
    ∨ ((e.IsMain → d.main ≠ .testing) ∧ d'.memory = d.memory ∧ d'.history = d.history)
  := by
  unfold step at hstep
  split at hstep
  · contradiction
  · split at hstep
    · obtain rfl := Option.some.inj hstep
      exact Or.inr (Or.inr ⟨by simp [Event.IsMain], rfl, rfl⟩)
    · exact Or.inl ⟨rfl, (Option.some.inj hstep).symm⟩
    · contradiction
    · obtain rfl := Option.some.inj hstep
      exact Or.inr (Or.inr ⟨by simp [Event.IsMain], rfl, rfl⟩)
    · rename_i hstarting
      obtain rfl := Option.some.inj hstep
      exact Or.inr (Or.inr ⟨by simp [hstarting], rfl, rfl⟩)
    · exact Or.inr (Or.inl ⟨_, rfl, ‹_›, (Option.some.inj hstep).symm⟩)
    · rename_i hrunning
      split at hstep
      · obtain rfl := Option.some.inj hstep
        exact Or.inr (Or.inr ⟨by simp [hrunning], rfl, rfl⟩)
      · contradiction
    · contradiction

/-! ### No call after the handler -/

/-- No call of `run` was started after the handler had run. -/
def NeverRunsAfterSigint (history : List Moment) : Prop :=
  ∀ before after, history = before ++ .runStarted :: after → .sigintHandled ∉ before

theorem neverRunsAfterSigint_concat {history : List Moment} {m : Moment} :
  NeverRunsAfterSigint (history ++ [m])
    ↔ NeverRunsAfterSigint history ∧ (m = .runStarted → .sigintHandled ∉ history)
  := by
  constructor
  · intro h
    constructor
    · rintro before after rfl
      apply h before (after ++ [m])
      simp
    · rintro rfl
      exact h history [] rfl
  · rintro ⟨hhistory, hlast⟩ before after heq
    rcases List.eq_nil_or_concat' after with rfl | ⟨after, n, rfl⟩
    · obtain ⟨rfl, hm⟩ := List.append_inj' heq rfl
      exact hlast (List.cons.inj hm).1
    · rw [← List.cons_append, ← List.append_assoc] at heq
      obtain ⟨rfl, -⟩ := List.append_inj' heq rfl
      exact hhistory before after rfl

/-- `main` does not come to the test of its loop after the handler has run. -/
def LeavesLoop (d : Daemon) (e : Event) : Prop :=
  e.IsMain → d.main = .testing → .sigintHandled ∉ d.history

instance (d : Daemon) (e : Event) : Decidable (d.LeavesLoop e) :=
  inferInstanceAs (Decidable (_ → _ → _))

/-- The object `main` reads is not the one the handler writes to. -/
theorem memory_main_step (hstep : step handlersLinkage d e = some d')
    (hzero : d.memory (handlersLinkage.object .sigint .updated) = 0) :
  d'.memory (handlersLinkage.object .sigint .updated) = 0
  := by
  have hother : handlersLinkage.object .sigint .updated
      ≠ handlersLinkage.object .sigint .handlers := by
    decide
  rcases step_cases hstep with ⟨-, rfl⟩ | ⟨os, -, -, rfl⟩ | ⟨-, hmemory, -⟩
  · rw [← hzero]
    exact Function.update_of_ne hother SIGINT d.memory
  · rw [testLoop, if_pos hzero]
    exact hzero
  · rw [hmemory]
    exact hzero

/-- With the object `main` reads at 0, every test of the loop starts a call. -/
theorem history_testLoop (hzero : d.memory (linkage.object .sigint .updated) = 0) :
  (d.testLoop linkage).history = d.history ++ [.runStarted]
  := by
  rw [testLoop, if_pos hzero]

/-- What has happened is not undone. -/
theorem not_neverRunsAfterSigint_step (hstep : step linkage d e = some d')
    (h : ¬ NeverRunsAfterSigint d.history) :
  ¬ NeverRunsAfterSigint d'.history
  := by
  rcases step_cases hstep with ⟨-, rfl⟩ | ⟨os, -, -, rfl⟩ | ⟨-, -, hhistory⟩
  · exact fun hall => h (neverRunsAfterSigint_concat.mp hall).1
  · unfold testLoop
    split
    · exact fun hall => h (neverRunsAfterSigint_concat.mp hall).1
    · exact h
  · rw [hhistory]
    exact h

/-- No call of `run` is started after the handler of SIGINT has run, just when `main` does not come
back to the test of its loop. -/
theorem neverRunsAfterSigint_iff {fs : Nodes} {es : List Event} {d : Daemon}
    (hrun : Lts.exec (step handlersLinkage) (init fs) es = some d) :
  NeverRunsAfterSigint d.history ↔ Lts.Meets (step handlersLinkage) LeavesLoop (init fs) es
  := by
  have hinit : (init fs).memory (handlersLinkage.object .sigint .updated) = 0 := rfl
  constructor
  · intro hall
    by_contra hmeets
    obtain ⟨as, e, bs, d₁, d₂, -, hbefore, -, hback, hstep, hafter⟩ :=
      Lts.exists_first_not_ok hmeets hrun
    have hzero := Lts.invariant' _ (fun _ _ _ h hstep => memory_main_step hstep h) hinit hbefore
    have hlate : ¬ NeverRunsAfterSigint d₂.history := by
      simp only [LeavesLoop, Classical.not_imp, not_not] at hback
      obtain ⟨hmain, htesting, hhandled⟩ := hback
      rcases step_cases hstep with ⟨rfl, -⟩ | ⟨os, -, -, rfl⟩ | ⟨hnot, -⟩
      · exact hmain.elim
      · rw [history_testLoop hzero, neverRunsAfterSigint_concat]
        exact fun h => h.2 rfl hhandled
      · exact absurd htesting (hnot hmain)
    exact Lts.invariant' _ (fun _ _ _ h hstep => not_neverRunsAfterSigint_step hstep h) hlate
      hafter hall
  · intro hok
    apply Lts.invariant (fun d => NeverRunsAfterSigint d.history) _ (by simp [init,
      NeverRunsAfterSigint]) hok hrun
    intro d e d' hnever hleaves hstep
    rcases step_cases hstep with ⟨-, rfl⟩ | ⟨os, rfl, htesting, rfl⟩ | ⟨-, -, hhistory⟩
    · rw [sigintHandler, neverRunsAfterSigint_concat]
      exact ⟨hnever, fun h => by contradiction⟩
    · unfold testLoop
      split
      · exact neverRunsAfterSigint_concat.mpr ⟨hnever, fun _ => hleaves trivial htesting⟩
      · exact hnever
    · rw [hhistory]
      exact hnever

/-- SIGINT comes while `main` waits for a request, and no request follows. -/
theorem neverRunsAfterSigint_idle :
  ∃ d, Lts.exec (step handlersLinkage) (init root) [.main willing, .main willing, .sigint] = some d
    ∧ d.history = [.runStarted, .sigintHandled] ∧ NeverRunsAfterSigint d.history
  := by
  obtain ⟨d, hrun⟩ := Option.isSome_iff_exists.mp
    (by decide : (Lts.exec (step handlersLinkage) (init root)
      [.main willing, .main willing, .sigint]).isSome = true)
  have hhistory : (Lts.exec (step handlersLinkage) (init root)
      [.main willing, .main willing, .sigint]).map history = some [.runStarted, .sigintHandled] := by
    decide
  rw [hrun] at hhistory
  use d, hrun, Option.some.inj hhistory
  exact (neverRunsAfterSigint_iff hrun).mpr (by decide)

/-- SIGINT comes before `main` tests its loop. -/
theorem not_neverRunsAfterSigint_early :
  ∃ d, Lts.exec (step handlersLinkage) (init root) [.main willing, .sigint, .main willing] = some d
    ∧ ¬ NeverRunsAfterSigint d.history
  := by
  have hhistory : (Lts.exec (step handlersLinkage) (init root)
      [.main willing, .sigint, .main willing]).map history = some [.sigintHandled, .runStarted] := by
    decide
  obtain ⟨d, hrun, hd⟩ := Option.map_eq_some_iff.mp hhistory
  use d, hrun
  rw [hd]
  intro h
  exact h [.sigintHandled] [] rfl (by simp)

/-! ### One object for the program -/

/-- With external linkage, the handler writes to the object `main` reads. -/
theorem neverRunsAfterSigint_of_external {fs : Nodes} {es : List Event} {d : Daemon}
    (hrun : Lts.exec (step .external) (init fs) es = some d) :
  NeverRunsAfterSigint d.history
  := by
  suffices h : NeverRunsAfterSigint d.history ∧ (.sigintHandled ∈ d.history →
      d.memory (Linkage.external.object .sigint .updated) ≠ 0) from h.1
  apply Lts.invariant' (fun d => NeverRunsAfterSigint d.history ∧ (.sigintHandled ∈ d.history →
    d.memory (Linkage.external.object .sigint .updated) ≠ 0)) _ _ hrun
  · rintro d e d' ⟨hnever, hwritten⟩ hstep
    rcases step_cases hstep with ⟨-, rfl⟩ | ⟨os, -, -, rfl⟩ | ⟨-, hmemory, hhistory⟩
    · constructor
      · rw [sigintHandler, neverRunsAfterSigint_concat]
        exact ⟨hnever, fun h => by contradiction⟩
      · intro _
        simp [sigintHandler, Linkage.object, SIGINT]
    · unfold testLoop
      split
      · rename_i hzero
        have hnot : .sigintHandled ∉ d.history := fun hhandled => hwritten hhandled hzero
        constructor
        · exact neverRunsAfterSigint_concat.mpr ⟨hnever, fun _ => hnot⟩
        · intro hhandled
          simp [hnot] at hhandled
      · exact ⟨hnever, hwritten⟩
    · rw [hmemory, hhistory]
      exact ⟨hnever, hwritten⟩
  · constructor
    · simp [init, NeverRunsAfterSigint]
    · simp [init]

end Daemon

end Updated
