import MblCore.App.Rollback
import MblCore.Lib.Keeps

/-!
# When an update that fails is rolled back

`start_installed_apps` rolls back after the exceptions of the classes it names.  The functions
it calls raise others as well: for the output of a command that cannot be decoded, for a state
that cannot be read, and for a container that is there already.
-/

namespace App

open FileTree
open Loops (bind_eq_error)
open Prog hiding pure throw bind

/-! ### What the programs expect of the commands -/

/-- What a command that fails prints can be decoded. -/
def Legible (result : CmdResult) : Prop :=
  result.ok = true ∨ result.stdout.text ≠ none

instance : DecidablePred Legible :=
  fun _ => inferInstanceAs (Decidable (_ ∨ _))

/-- While running versions are stopped, the output of a command that fails can be decoded and
every state can be read.  While new versions are run, no container is found, and the output of a
start that fails can be decoded. -/
def Expected : Call → Choice → Device → Prop
  | .runcKill id signal, x, d => d.phase = .stopRunning → Legible (runcKill x d id signal).1
  | .runcDelete id, x, d => d.phase = .stopRunning → Legible (runcDelete x d id).1
  | .runcState id, x, d =>
      (d.phase = .stopRunning → (stateOf id (runcState x d id).1).toOption ≠ none)
        ∧ (d.phase = .runNew →
          (stateOf id (runcState x d id).1).toOption = some ContainerState.DOES_NOT_EXIST)
  | .runcStart id, x, d => d.phase = .runNew → Legible (runcStart x d id).1
  | _, _, _ => True

instance decidableExpected : ∀ (c : Call) (x : Choice) (d : Device), Decidable (Expected c x d)
  | .runcKill _ _, _, _ | .runcDelete _, _, _ | .runcStart _, _, _ =>
      inferInstanceAs (Decidable (_ → Legible _))
  | .runcState _, _, _ => inferInstanceAs (Decidable ((_ → _ ≠ none) ∧ (_ → _ = some _)))
  | .extractall _ _, _, _ | .opkgInfo _, _, _ | .opkgInstall _ _ _, _, _ | .opkgRemove _ _, _, _
  | .runcCreate _ _, _, _ | .isdir _, _, _ | .exists_ _, _, _ | .walk _ _, _, _ | .listdir _, _, _
  | .rmtree _, _, _ | .endtimeReached, _, _ | .log _, _, _ => isTrue trivial

/-- The classes of exceptions that are caught while applications are stopped and run. -/
def CAUGHT : List ExceptionClass :=
  TERMINATE_EXCEPTIONS ++ RUN_EXCEPTIONS

/-- The phase of the update, and what is on the disk. -/
def At (phase : Phase) (fs : Files) (d : Device) : Prop :=
  d.phase = phase ∧ d.fs = fs

/-- Exceptions are of the given classes; the phase and the disk stay. -/
def Raises {α : Type} (classes : List ExceptionClass) (phase : Phase) (fs : Files) :
    Post Device PyException α where
  returned _ := At phase fs
  raised e d := e.cls ∈ classes ∧ At phase fs d
  cut _ := True

/-- An exception is raised that is not caught; the disk stays. -/
def Escapes {α : Type} (fs : Files) : Post Device PyException α where
  returned _ _ := False
  raised e d := e.cls ∉ CAUGHT ∧ d.fs = fs
  cut _ := False

variable {adm : Call → Choice → Device → Prop} {phase : Phase} {fs : Files} {d : Device}
  {id : Text} {α β : Type}

theorem At.perform {c : Call} {x : Choice} (hd : At phase fs d) (hc : ContainerCall id c) :
  At phase fs (machine.perform c x d).2
  := by
  obtain ⟨k, hk⟩ := perform_containerCall (d := d) (x := x) hc
  change At phase fs (App.perform c x d).2
  rw [hk]
  exact hd

theorem containerStateError_not_caught : ExceptionClass.ContainerStateError ∉ CAUGHT
  := by decide

/-- The state of a container cannot be read only with an exception that is not caught. -/
theorem stateOf_error {result : CmdResult} {e : PyException}
    (h : stateOf id result = .error e) :
  e.cls ∉ CAUGHT
  := by
  unfold stateOf at h
  split at h
  · obtain rfl := Except.error.inj h
    decide
  · split at h
    · contradiction
    · obtain rfl := Except.error.inj h
      exact containerStateError_not_caught
  · split at h
    · obtain rfl := Except.error.inj h
      exact containerStateError_not_caught
    · rcases bind_eq_error.mp h with h | ⟨found, -, h⟩
      · rw [Json.contains_error h]
        decide
      · split at h
        · obtain rfl := Except.error.inj h
          exact containerStateError_not_caught
        · rcases bind_eq_error.mp h with h | ⟨item, -, h⟩
          · rcases Json.getItem_error h with hcls | hcls
            · rw [hcls]
              decide
            · rw [hcls]
              decide
          · contradiction

/-! ### Commands that are as expected -/

theorem raises_bind {classes : List ExceptionClass} {p : Py α} {f : α → Py β}
    (hp : wp machine adm p (Raises classes phase fs) d)
    (hf : ∀ a d', At phase fs d' → wp machine adm (f a) (Raises classes phase fs) d') :
  wp machine adm (p >>= f) (Raises classes phase fs) d
  := by
  rw [wp_bind]
  exact hp.mono hf (fun _ _ h => h) (fun _ h => h)

/-- Exceptions of some classes are handled, others go on. -/
theorem wp_catching_bind {classes caught : List ExceptionClass} {p : Py α}
    {f : Except PyException α → Py β} {Q : Post Device PyException β}
    (hp : wp machine adm p (Raises classes phase fs) d) (hcaught : classes ⊆ caught)
    (hcut : ∀ d, Q.cut d) (hf : ∀ r d', At phase fs d' → wp machine adm (f r) Q d') :
  wp machine adm (catching p caught >>= f) Q d
  := by
  rw [wp_bind, wp_catching]
  apply hp.mono
  · intro a d' hd'
    exact hf (.ok a) d' hd'
  · rintro e d' ⟨hcls, hd'⟩
    dsimp only
    rw [if_pos (hcaught hcls)]
    exact hf (.error e) d' hd'
  · exact fun _ _ => hcut _

theorem Raises.subset {classes classes' : List ExceptionClass} {p : Py α}
    (h : wp machine adm p (Raises classes phase fs) d) (hsub : classes ⊆ classes') :
  wp machine adm p (Raises classes' phase fs) d
  := h.mono (fun _ _ h => h) (fun _ _ h => ⟨hsub h.1, h.2⟩) (fun _ h => h)

theorem raises_runOrRaise {command : Py CmdResult} {cls : ExceptionClass}
    {before container_id between after : Text}
    (hcommand : wp machine adm command
      { returned := fun result d => Legible result ∧ At phase fs d
        raised := fun _ _ => False
        cut := fun _ => True } d) :
  wp machine adm (runOrRaise command cls before container_id between after)
    (Raises [cls] phase fs) d
  := by
  apply wp_runOrRaise
  apply hcommand.mono
  · rintro result d' ⟨hlegible, hd'⟩
    dsimp only
    split
    · exact hd'
    · rename_i hfailed
      unfold errorText
      split
      · exact ⟨List.mem_singleton_self cls, hd'⟩
      · exact ⟨List.mem_singleton_self cls, hd'⟩
      · rename_i htext
        exact absurd hlegible (not_or.mpr ⟨hfailed, not_not.mpr htext⟩)
  · exact fun _ _ h => h.elim
  · exact fun _ h => h

section Good

variable (hexpected : ∀ c x d, adm c x d → Expected c x d)
include hexpected

theorem raises_kill (signal : Text) (hd : At .stopRunning fs d) :
  wp machine adm (kill id signal) (Raises [.ContainerKillError] .stopRunning fs) d
  := by
  apply raises_runOrRaise
  rw [wp_issue]
  refine ⟨trivial, fun x hx => ⟨hexpected _ _ _ hx hd.1, ?_⟩⟩
  exact hd.perform (by trivial)

theorem raises_delete (hd : At .stopRunning fs d) :
  wp machine adm (delete id) (Raises [.ContainerDeleteError] .stopRunning fs) d
  := by
  apply raises_runOrRaise
  rw [wp_issue]
  refine ⟨trivial, fun x hx => ⟨hexpected _ _ _ hx hd.1, ?_⟩⟩
  exact hd.perform (by trivial)

theorem raises_getState (hd : At .stopRunning fs d) :
  wp machine adm (getState id) (Raises [] .stopRunning fs) d
  := by
  rw [getState, wp_bind, wp_issue]
  refine ⟨trivial, fun x hx => ?_⟩
  have hstate := (hexpected _ _ _ hx).1 hd.1
  have hd' : At .stopRunning fs (machine.perform (.runcState id) x d).2 :=
    hd.perform rfl
  change wp machine adm (ofExcept (stateOf id (runcState x d id).1)) _
    (machine.perform (.runcState id) x d).2
  rw [wp_ofExcept]
  split
  · exact hd'
  · rename_i e he
    rw [he] at hstate
    exact absurd rfl hstate

theorem raises_pollForAppStop (polls : ℕ) (hd : At .stopRunning fs d) :
  wp machine adm (pollForAppStop id polls) (Raises [] .stopRunning fs) d
  := by
  induction polls generalizing d with
  | zero => exact hd
  | succ polls ih =>
      rw [pollForAppStop]
      apply raises_bind (p := issue .endtimeReached)
      · exact ⟨trivial, fun x _ => hd⟩
      · intro reached d' hd'
        split
        · exact hd'
        · apply raises_bind (raises_getState hexpected hd')
          intro app_state d'' hd''
          split
          · exact hd''
          · exact ih hd''

theorem raises_waitForAppStop (timeout : ℕ) (hd : At .stopRunning fs d) :
  wp machine adm (waitForAppStop id timeout) (Raises [.AppStopTimeoutError] .stopRunning fs) d
  := by
  apply raises_bind
  · exact Raises.subset (raises_pollForAppStop hexpected _ hd) (List.nil_subset _)
  · intro stopped d' hd'
    split
    · exact hd'
    · apply raises_bind
      · exact Raises.subset (raises_getState hexpected hd') (List.nil_subset _)
      · intro app_state d'' hd''
        split
        · exact hd''
        · exact ⟨List.mem_singleton_self _, hd''⟩

theorem raises_killApp (timeout : ℕ) (hd : At .stopRunning fs d) :
  wp machine adm (killApp id timeout) (Raises TERMINATE_EXCEPTIONS .stopRunning fs) d
  := by
  have hdelete {d : Device} (hd : At .stopRunning fs d) :
      wp machine adm (delete id) (Raises TERMINATE_EXCEPTIONS .stopRunning fs) d :=
    Raises.subset (raises_delete hexpected hd) (by simp [TERMINATE_EXCEPTIONS])
  rw [killApp, wp_bind, wp_catching]
  apply (raises_kill hexpected _ hd).mono
  · intro _ d' hd'
    apply raises_bind
    · exact Raises.subset (raises_waitForAppStop hexpected timeout hd')
        (by simp [TERMINATE_EXCEPTIONS])
    · intro _ d'' hd''
      exact hdelete hd''
  · rintro e d' ⟨hcls, hd'⟩
    dsimp only
    rw [if_pos hcls]
    split
    · exact hdelete hd'
    · refine ⟨?_, hd'⟩
      rw [List.mem_singleton.mp hcls]
      decide
  · exact fun _ h => h

theorem raises_terminate (hd : At .stopRunning fs d) :
  wp machine adm (terminate id) (Raises TERMINATE_EXCEPTIONS .stopRunning fs) d
  := by
  have hdelete {d : Device} (hd : At .stopRunning fs d) :
      wp machine adm (delete id) (Raises TERMINATE_EXCEPTIONS .stopRunning fs) d :=
    Raises.subset (raises_delete hexpected hd) (by simp [TERMINATE_EXCEPTIONS])
  rw [terminate, terminateApp, wp_bind, wp_catching]
  apply (raises_kill hexpected _ hd).mono
  · intro _ d' hd'
    apply wp_catching_bind (raises_waitForAppStop hexpected _ hd') (List.Subset.refl _)
    · exact fun _ => trivial
    · rintro (_ | _) d'' hd''
      · exact raises_killApp hexpected _ hd''
      · exact hdelete hd''
  · rintro e d' ⟨hcls, hd'⟩
    dsimp only
    rw [if_pos hcls]
    split
    · exact hdelete hd'
    · split
      · exact hd'
      · refine ⟨?_, hd'⟩
        rw [List.mem_singleton.mp hcls]
        decide
  · exact fun _ h => h

theorem raises_runApp (app_path : FilePath) (hd : At .runNew fs d) :
  wp machine adm (runApp id app_path) (Raises RUN_EXCEPTIONS .runNew fs) d
  := by
  have hcreation : ExceptionClass.ContainerCreationError ∈ RUN_EXCEPTIONS := by decide
  apply raises_bind
  · rw [create, wp_bind, getState, wp_bind, wp_issue]
    refine ⟨trivial, fun x hx => ?_⟩
    have hstate := (hexpected _ _ _ hx).2 hd.1
    have hd' : At .runNew fs (machine.perform (.runcState id) x d).2 :=
      hd.perform rfl
    change wp machine adm (ofExcept (stateOf id (runcState x d id).1)) _
      (machine.perform (.runcState id) x d).2
    rw [wp_ofExcept]
    split
    · rename_i state hok
      rw [hok] at hstate
      obtain rfl := Option.some.inj hstate
      dsimp only
      rw [if_neg (by simp)]
      apply raises_bind (p := issue (.isdir app_path))
      · exact ⟨trivial, fun x _ => hd'⟩
      · intro found d'' hd''
        split
        · exact ⟨hcreation, hd''⟩
        · apply raises_bind (p := issue (.runcCreate app_path id))
          · exact ⟨trivial, fun x _ => hd''.perform rfl⟩
          · intro result d₃ hd₃
            split
            · exact hd₃
            · exact ⟨hcreation, hd₃⟩
    · rename_i e he
      rw [he] at hstate
      simp [Except.toOption] at hstate
  · intro _ d' hd'
    have hstart : wp machine adm (start id) (Raises [.ContainerStartError] .runNew fs) d' := by
      apply raises_runOrRaise
      rw [wp_issue]
      refine ⟨trivial, fun x hx => ⟨hexpected _ _ _ hx hd'.1, ?_⟩⟩
      exact hd'.perform (by trivial)
    exact Raises.subset hstart (by simp [RUN_EXCEPTIONS])

end Good

/-! ### A command that is not as expected -/

theorem escapes_bind {p : Py α} {f : α → Py β} (hp : Issues (ContainerCall id) p)
    (hd : At phase fs d) (hbreach : wpBreach machine adm Expected p (Escapes fs) d)
    (hrest : ∀ a d', At phase fs d' → wpBreach machine adm Expected (f a) (Escapes fs) d') :
  wpBreach machine adm Expected (p >>= f) (Escapes fs) d
  := by
  apply wpBreach_bind
  · apply hbreach.of_returned
    exact fun _ _ h => h.elim
  · apply wp_ifReturned_of_wp (wp_of_containerCalls (At phase fs) hp (fun _ _ h => h) hd)
    exact hrest

/-- An exception that is caught nowhere is not caught here. -/
theorem escapes_catching {p : Py α} {classes : List ExceptionClass} (hclasses : classes ⊆ CAUGHT)
    (hbreach : wpBreach machine adm Expected p (Escapes fs) d) :
  wpBreach machine adm Expected (catching p classes) (Escapes fs) d
  := by
  apply wpBreach_catching
  apply hbreach.mono
  · exact fun _ _ h => h.elim
  · rintro e d' ⟨hcls, hfs⟩
    dsimp only
    rw [if_neg (fun h => hcls (hclasses h))]
    exact ⟨hcls, hfs⟩
  · exact fun _ h => h

theorem escapes_runOrRaise {command : Py CmdResult} {cls : ExceptionClass}
    {before container_id between after : Text}
    (hcommand : wpBreach machine adm Expected command
      { returned := fun result d => ¬ Legible result ∧ d.fs = fs
        raised := fun _ _ => False
        cut := fun _ => False } d) :
  wpBreach machine adm Expected (runOrRaise command cls before container_id between after)
    (Escapes fs) d
  := by
  apply wpBreach_bind_of_no_calls
  · intro result
    split
    · trivial
    · apply Issues.bind (issues_errorText result)
      exact fun _ => trivial
  · apply hcommand.mono
    · rintro ⟨ok, returncode, text, json⟩ d' ⟨hlegible, hfs⟩
      obtain ⟨hfailed, htext⟩ := not_or.mp hlegible
      simp only [not_not] at htext
      dsimp only at hfailed htext ⊢
      rw [if_neg hfailed, htext]
      exact ⟨by decide, hfs⟩
    · exact fun _ _ h => h.elim
    · exact fun _ h => h.elim

theorem escapes_kill (signal : Text) (hd : At .stopRunning fs d) :
  wpBreach machine adm Expected (kill id signal) (Escapes fs) d
  := by
  apply escapes_runOrRaise
  rw [wpBreach_issue]
  intro x _ hno
  constructor
  · exact fun h => hno (fun _ => h)
  · exact (hd.perform (by trivial)).2

theorem escapes_delete (hd : At .stopRunning fs d) :
  wpBreach machine adm Expected (delete id) (Escapes fs) d
  := by
  apply escapes_runOrRaise
  rw [wpBreach_issue]
  intro x _ hno
  constructor
  · exact fun h => hno (fun _ => h)
  · exact (hd.perform (by trivial)).2

/-- A state that is not as expected cannot be read, or is not the state that is expected. -/
theorem wpBreach_getState {Q : Post Device PyException Text} (hd : At phase fs d)
    (hraised : ∀ e d', e.cls ∉ CAUGHT → d'.fs = fs → Q.raised e d')
    (hreturned : ∀ x state d', stateOf id (runcState x d id).1 = .ok state →
      ¬ Expected (.runcState id) x d → d'.fs = fs → Q.returned state d') :
  wpBreach machine adm Expected (getState id) Q d
  := by
  apply wpBreach_bind_of_no_calls
  · exact fun result => issues_ofExcept _
  · rw [wpBreach_issue]
    intro x _ hno
    have hfs := (hd.perform (c := .runcState id) (x := x) (by trivial)).2
    change wp machine adm (ofExcept (stateOf id (runcState x d id).1)) _ _
    rw [wp_ofExcept]
    cases hstate : stateOf id (runcState x d id).1 with
    | error e => exact hraised e _ (stateOf_error hstate) hfs
    | ok state => exact hreturned x state _ hstate hno hfs

theorem escapes_getState (hd : At .stopRunning fs d) :
  wpBreach machine adm Expected (getState id) (Escapes fs) d
  := by
  apply wpBreach_getState hd
  · exact fun e d' hcls hfs => ⟨hcls, hfs⟩
  · intro x state d' hstate hno _
    apply hno
    constructor
    · intro _
      rw [hstate]
      exact Option.some_ne_none state
    · intro hphase
      rw [hd.1] at hphase
      contradiction

theorem escapes_pollForAppStop (polls : ℕ) (hd : At .stopRunning fs d) :
  wpBreach machine adm Expected (pollForAppStop id polls) (Escapes fs) d
  := by
  induction polls generalizing d with
  | zero => trivial
  | succ polls ih =>
      have hissues : Issues (ContainerCall id) (issue .endtimeReached) :=
        issues_issue.mpr (by trivial)
      apply escapes_bind hissues hd
      · exact wpBreach_issue.mpr fun x _ hno => absurd trivial hno
      · intro reached d' hd'
        split
        · trivial
        · apply escapes_bind issues_getState hd' (escapes_getState hd')
          intro app_state d'' hd''
          split
          · trivial
          · exact ih hd''

theorem escapes_waitForAppStop (timeout : ℕ) (hd : At .stopRunning fs d) :
  wpBreach machine adm Expected (waitForAppStop id timeout) (Escapes fs) d
  := by
  apply escapes_bind (issues_pollForAppStop _) hd (escapes_pollForAppStop _ hd)
  intro stopped d' hd'
  split
  · trivial
  · apply escapes_bind issues_getState hd' (escapes_getState hd')
    intro app_state d'' hd''
    split <;> trivial

theorem escapes_killApp (timeout : ℕ) (hd : At .stopRunning fs d) :
  wpBreach machine adm Expected (killApp id timeout) (Escapes fs) d
  := by
  apply escapes_bind (issues_catching (issues_kill _)) hd
  · exact escapes_catching (by decide) (escapes_kill _ hd)
  · rintro (error | _) d' hd'
    · dsimp only
      split
      · exact escapes_delete hd'
      · trivial
    · apply escapes_bind (issues_waitForAppStop timeout) hd' (escapes_waitForAppStop timeout hd')
      intro _ d'' hd''
      exact escapes_delete hd''

theorem escapes_terminate (hd : At .stopRunning fs d) :
  wpBreach machine adm Expected (terminate id) (Escapes fs) d
  := by
  apply escapes_bind (issues_catching (issues_kill _)) hd
  · exact escapes_catching (by decide) (escapes_kill _ hd)
  · rintro (error | _) d' hd'
    · dsimp only
      split
      · exact escapes_delete hd'
      · split <;> trivial
    · apply escapes_bind (issues_catching (issues_waitForAppStop _)) hd'
      · exact escapes_catching (by decide) (escapes_waitForAppStop _ hd')
      · rintro (_ | _) d'' hd''
        · exact escapes_killApp _ hd''
        · exact escapes_delete hd''

/-- A container that is there already, too, makes an exception that is not caught. -/
theorem escapes_runApp (app_path : FilePath) (hd : At .runNew fs d) :
  wpBreach machine adm Expected (runApp id app_path) (Escapes fs) d
  := by
  have hexists : ExceptionClass.ContainerAlreadyExistError ∉ CAUGHT := by decide
  apply escapes_bind (issues_create app_path) hd
  · apply wpBreach_bind
    · apply wpBreach_getState hd
      · exact fun e d' hcls hfs => ⟨hcls, hfs⟩
      · intro x state d' hstate hno hfs
        dsimp only
        rw [if_pos]
        · exact ⟨hexists, hfs⟩
        · rintro rfl
          apply hno
          constructor
          · intro hphase
            rw [hd.1] at hphase
            contradiction
          · intro _
            rw [hstate]
            rfl
    · apply wp_ifReturned_of_wp
        (wp_of_containerCalls (At .runNew fs) issues_getState (fun _ _ h => h) hd)
      intro state d' hd'
      split
      · trivial
      · have hissues : Issues (ContainerCall id) (issue (.isdir app_path)) :=
          issues_issue.mpr (by trivial)
        apply escapes_bind hissues hd'
        · exact wpBreach_issue.mpr fun x _ hno => absurd trivial hno
        · intro found d'' hd''
          split
          · trivial
          · apply wpBreach_bind_of_no_calls
            · intro result
              split <;> trivial
            · exact wpBreach_issue.mpr fun x _ hno => absurd trivial hno
  · intro _ d' hd'
    apply escapes_runOrRaise
    rw [wpBreach_issue]
    intro x _ hno
    constructor
    · exact fun h => hno (fun _ => h)
    · exact (hd'.perform (by trivial)).2

/-! ### The start phase -/

variable {apps : List AppRecord}

/-- What is asked of the start phase: when it ends with an exception, the update is rolled
back. -/
def RollsBack (apps : List AppRecord) (fs : Files) : Post Device PyException Unit where
  returned _ d := d.fs = fs
  raised _ := RolledBack apps
  cut _ := True

section Good

variable (hexpected : ∀ c x d, adm c x d → Expected c x d) (htruthful : Truthful adm .rollBack)
  (hinstalled : Installed apps fs)
include htruthful hinstalled

theorem wp_rollbackAfter (error : PyException) (hfs : d.fs = fs) :
  wp machine adm (rollbackAfter apps error) (RollsBack apps fs) d
  := by
  rw [rollbackAfter, wp_bind, wp_catching]
  apply (wp_rollbackApps htruthful (hfs ▸ hinstalled)).mono
  · exact fun _ _ h => h
  · exact fun _ _ h => h.elim
  · exact fun _ h => h

theorem wp_orRollBack {p : Py Unit} {classes : List ExceptionClass}
    (hp : wp machine adm p (Raises classes phase fs) d) :
  wp machine adm (orRollBack apps p classes) (RollsBack apps fs) d
  := by
  apply wp_catching_bind hp (List.Subset.refl _)
  · exact fun _ => trivial
  · rintro (error | _) d' hd'
    · exact wp_rollbackAfter htruthful hinstalled error hd'.2
    · exact hd'.2

include hexpected

theorem wp_stopRunningVersion (app : AppRecord) (hfs : d.fs = fs) :
  wp machine adm
    (issue (.log (.stopRunning app.name)) >>= fun _ =>
      orRollBack apps (terminate app.name) TERMINATE_EXCEPTIONS)
    (RollsBack apps fs) d
  := by
  rw [wp_bind, wp_issue]
  refine ⟨trivial, fun x _ => ?_⟩
  apply wp_orRollBack htruthful hinstalled
  exact raises_terminate hexpected ⟨rfl, hfs⟩

theorem wp_runNewInstalledVersion (app : AppRecord) (hfs : d.fs = fs) :
  wp machine adm
    (issue (.log (.runNew app.name app.new_bundle_path)) >>= fun _ =>
      orRollBack apps (runApp app.name app.new_bundle_path) RUN_EXCEPTIONS)
    (RollsBack apps fs) d
  := by
  rw [wp_bind, wp_issue]
  refine ⟨trivial, fun x _ => ?_⟩
  apply wp_orRollBack htruthful hinstalled
  exact raises_runApp hexpected _ ⟨rfl, hfs⟩

theorem wp_stopRunningVersions (hfs : d.fs = fs) :
  wp machine adm (stopRunningVersions apps) (RollsBack apps fs) d
  := by
  apply wp_forEach fun _ _ d' => d'.fs = fs
  · intro _ app _ d' _ hfs'
    exact wp_stopRunningVersion hexpected htruthful hinstalled app hfs'
  · exact fun _ h => h
  · exact hfs

theorem wp_runNewInstalledVersions (hfs : d.fs = fs) :
  wp machine adm (runNewInstalledVersions apps) (RollsBack apps fs) d
  := by
  apply wp_forEach fun _ _ d' => d'.fs = fs
  · intro _ app _ d' _ hfs'
    exact wp_runNewInstalledVersion hexpected htruthful hinstalled app hfs'
  · exact fun _ h => h
  · exact hfs

/-- When every command is as expected, an exception comes after a rollback. -/
theorem wp_switchVersions (hfs : d.fs = fs) :
  wp machine adm (switchVersions apps) (RollsBack apps fs) d
  := by
  rw [switchVersions, wp_bind]
  apply (wp_stopRunningVersions hexpected htruthful hinstalled hfs).of_returned
  intro _ d' hfs'
  exact wp_runNewInstalledVersions hexpected htruthful hinstalled hfs'

end Good

/-- The rollback after an error breaches no guard that its first call keeps, and that all calls keep
once it has begun. -/
theorem wpBreach_rollbackAfter {ok : Call → Choice → Device → Prop} (error : PyException)
    {Q : Post Device PyException Unit}
    (hlog : ∀ x, ok (.log (.rollBack (apps.map AppRecord.name))) x d)
    (hok : ∀ c x d, NoLog c → d.phase = .rollBack → ok c x d) :
  wpBreach machine adm ok (rollbackAfter apps error) Q d
  := by
  apply wpBreach_bind_of_no_calls
  · rintro (_ | _) <;> trivial
  · apply wpBreach_catching
    rw [rollbackApps, wpBreach_issue_bind]
    intro x _
    refine ⟨fun _ => ?_, fun hno => absurd (hlog x) hno⟩
    refine wpBreach_of_issues (fun d => d.phase = .rollBack) (?_ : Issues NoLog _) ?_ ?_ ?_
    · apply Issues.bind (issues_stopAllNewlyInstalledApps (fun _ _ => ContainerCall.noLog) apps)
      intro _
      apply Issues.bind
      · apply issues_removeNewBundles
        · intro c hc
          cases c <;> trivial
        · exact fun app _ => ⟨trivial, trivial, fun _ => trivial⟩
      · intro _
        exact issues_runPreviousAppVersions (fun _ _ => ContainerCall.noLog) apps
    · exact fun c x d hc _ hphase => hok c x d hc hphase
    · exact fun c x d hc _ hphase => (phase_perform hc).trans hphase
    · rfl

/-- No command of a rollback is held to what is expected. -/
theorem expected_of_rollBack {c : Call} {x : Choice} (hphase : d.phase = .rollBack) :
  Expected c x d
  := by
  cases c <;> simp [Expected, hphase]

/-- What is asked of a start phase with a command that is not as expected: the new bundles are
left on the disk. -/
def NotRolledBack (fs : Files) : Post Device PyException Unit where
  returned _ _ := False
  raised _ d := d.fs = fs
  cut _ := False

theorem wpBreach_orRollBack {p : Py Unit} {classes : List ExceptionClass}
    (hp : wpBreach machine adm Expected p (Escapes fs) d) (hclasses : classes ⊆ CAUGHT) :
  wpBreach machine adm Expected (orRollBack apps p classes) (NotRolledBack fs) d
  := by
  apply wpBreach_bind_left
  · rintro (error | _) d'
    · apply wpBreach_rollbackAfter error
      · exact fun _ => trivial
      · exact fun c x d _ hphase => expected_of_rollBack hphase
    · trivial
  · apply (escapes_catching hclasses hp).mono
    · exact fun _ _ h => h.elim
    · exact fun _ _ h => h.2
    · exact fun _ h => h

/-- After a command that is not as expected the disk is as it was. -/
theorem wpBreach_switchVersions (htruthful : Truthful adm .rollBack)
    (hinstalled : Installed apps fs) (hfs : d.fs = fs) :
  wpBreach machine adm Expected (switchVersions apps) (NotRolledBack fs) d
  := by
  have hexpected : ∀ c x d, Both adm Expected c x d → Expected c x d := fun _ _ _ h => h.2
  have htruthful' : Truthful (Both adm Expected) .rollBack :=
    fun c x d hphase hx => htruthful c x d hphase hx.1
  apply wpBreach_bind
  · apply wpBreach_forEach (fun d : Device => d.fs = fs) _ _ hfs
    · intro app d' _ hfs'
      apply wpBreach_bind
      · exact wpBreach_issue.mpr fun x _ hno => absurd trivial hno
      · refine ⟨trivial, fun x _ => ?_⟩
        apply wpBreach_orRollBack _ (by decide)
        exact escapes_terminate ⟨rfl, hfs'⟩
    · intro app d' _ hfs'
      apply wp_ifReturned_of_wp (wp_stopRunningVersion hexpected htruthful' hinstalled app hfs')
      exact fun _ _ h => h
  · apply wp_ifReturned_of_wp (wp_stopRunningVersions hexpected htruthful' hinstalled hfs)
    intro _ d' hfs'
    apply wpBreach_forEach (fun d : Device => d.fs = fs) _ _ hfs'
    · intro app d'' _ hfs''
      apply wpBreach_bind
      · exact wpBreach_issue.mpr fun x _ hno => absurd trivial hno
      · refine ⟨trivial, fun x _ => ?_⟩
        apply wpBreach_orRollBack _ (by decide)
        exact escapes_runApp _ ⟨rfl, hfs''⟩
    · intro app d'' _ hfs''
      apply wp_ifReturned_of_wp (wp_runNewInstalledVersion hexpected htruthful' hinstalled app hfs'')
      exact fun _ _ h => h

/-- Every command of a rollback does what it is asked to. -/
def RollbackSucceeds : Call → Choice → Device → Prop :=
  fun _ x d => d.phase = .rollBack → x.kind = .truthful

instance (c : Call) (x : Choice) (d : Device) : Decidable (RollbackSucceeds c x d) :=
  inferInstanceAs (Decidable (_ → _ = _))

/-- When the start phase ends with an exception, and every command of the rollback succeeds, the
update is rolled back just if every command of the start phase was as expected. -/
theorem rolledBack_iff {xs : List Choice} {e : PyException} (hinstalled : Installed apps d.fs)
    (hrollback : Obeys machine RollbackSucceeds (switchVersions apps) xs d)
    (hraised : (run machine (switchVersions apps) xs d).1 = .raised e) :
  RolledBack apps (run machine (switchVersions apps) xs d).2.2
    ↔ Obeys machine Expected (switchVersions apps) xs d
  := by
  have htruthful : Truthful RollbackSucceeds .rollBack := fun _ _ _ hphase hx => hx hphase
  constructor
  · intro hback
    by_contra hexpected
    have hends := holds_of_wpBreach (wpBreach_switchVersions htruthful hinstalled rfl) hrollback
      hexpected
    rw [hraised] at hends
    cases apps with
    | nil => exact hexpected trivial
    | cons app apps =>
        have hnone := (hback app List.mem_cons_self).1
        rw [show (run machine _ xs d).2.2.fs = d.fs from hends, has,
          hinstalled.new_dir app List.mem_cons_self] at hnone
        contradiction
  · intro hexpected
    have hends := holds_of_wp
      (wp_switchVersions (fun _ _ _ h => h.2) (fun c x d hphase hx => htruthful c x d hphase hx.1)
        hinstalled rfl)
      (hrollback.and hexpected)
    rw [hraised] at hends
    exact hends

/-! ### An application that is updated from version 0 to version 1 -/

def updatedApp : AppRecord where
  name := ['a']
  cur_bundle_path := some (bundlePath ['a'] 0)
  new_bundle_path := bundlePath ['a'] 1
  ipk_path := "a.ipk".toList

/-- Version 1 has been installed and version 0 runs. -/
def updatedDevice : Device where
  fs := diskWith [bundlePath ['a'] 0, bundlePath ['a'] 1]
  containers id := if id = ['a'] then some ⟨bundlePath ['a'] 0, .running⟩ else none
  phase := .install
  completed := [bundlePath ['a'] 1]

theorem updatedApp_installed :
  Installed [updatedApp] updatedDevice.fs
  where
  names := by decide
  new_dir := by
    intro app happ
    rw [List.mem_singleton.mp happ]
    rfl
  new_ne_nil := by decide
  new_apart := List.pairwise_singleton _ _
  cur_bundle := by
    intro app happ cur hcur
    rw [List.mem_singleton.mp happ] at hcur
    obtain rfl := Option.some.inj hcur
    exact ⟨_, rfl⟩
  cur_apart := by
    intro app happ app' happ' cur hcur
    rw [List.mem_singleton.mp happ'] at hcur
    obtain rfl := Option.some.inj hcur
    rw [List.mem_singleton.mp happ]
    decide

/-- Version 0 is stopped and its container is deleted. -/
def stopChoices : List Choice :=
  [truthfully, truthfully, truthfully, { exited := true }, truthfully]

set_option maxRecDepth 2000 in
/-- Version 1 cannot be created, and version 0 runs again. -/
theorem rolledBack_after_create_fails :
  RolledBack [updatedApp]
    (run machine (switchVersions [updatedApp])
      (stopChoices ++ [truthfully, truthfully, truthfully, { kind := .fails }]
        ++ List.replicate 10 truthfully) updatedDevice).2.2
  := by
  apply (rolledBack_iff updatedApp_installed (by decide) rfl).mpr
  decide

/-- The state of the container cannot be read before version 1 is created: version 0 is stopped,
and nothing is rolled back. -/
theorem not_rolledBack_after_state_fails :
  ¬ ∀ (apps : List AppRecord) (d : Device) (xs : List Choice) (e : PyException),
    Installed apps d.fs → (∀ app ∈ apps, d.containers app.name = previousContainer app) →
    Obeys machine RollbackSucceeds (switchVersions apps) xs d →
    (run machine (switchVersions apps) xs d).1 = .raised e →
    RolledBack apps (run machine (switchVersions apps) xs d).2.2
  := by
  intro h
  have hback := h [updatedApp] updatedDevice
    (stopChoices ++ [truthfully, { kind := .fails, stdout := { text := some "busy".toList } }]) _
    updatedApp_installed (by decide) (by decide) rfl
  revert hback
  decide

end App
