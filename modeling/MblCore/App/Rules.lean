import MblCore.Lib.Breach
import MblCore.App.Update

/-!
# Rules for the programs

How to reason about exceptions that are caught, and about calls that concern one container.
-/

namespace App

open FileTree
open Prog hiding pure throw bind

variable {adm : Call → Choice → Device → Prop} {d : Device} {id : Text}

/-! ### Exceptions -/

@[simp]
theorem wp_ofExcept {α : Type} {r : Except PyException α} {Q : Post Device PyException α} :
  wp machine adm (ofExcept r) Q d
    ↔ match r with
      | .ok a => Q.returned a d
      | .error e => Q.raised e d
  := by
  cases r with
  | ok a => rfl
  | error e => rfl

@[simp]
theorem run_ofExcept_returned {α : Type} {r : Except PyException α} {a : α} {xs : List Choice}
    {d : Device} :
  (run machine (ofExcept r) xs d).1 = .returned a ↔ r = .ok a
  := by
  cases r <;> simp [ofExcept, run, Pure.pure]

@[simp]
theorem run_ofExcept_raised {α : Type} {r : Except PyException α} {e : PyException}
    {xs : List Choice} {d : Device} :
  (run machine (ofExcept r) xs d).1 = .raised e ↔ r = .error e
  := by
  cases r <;> simp [ofExcept, run, Pure.pure]

@[simp]
theorem wp_catching {α : Type} {p : Py α} {classes : List ExceptionClass}
    {Q : Post Device PyException (Except PyException α)} :
  wp machine adm (catching p classes) Q d
    ↔ wp machine adm p
        { returned := fun a => Q.returned (.ok a)
          raised := fun e d => if e.cls ∈ classes then Q.returned (.error e) d else Q.raised e d
          cut := Q.cut } d
  := by
  simp only [catching, wp_bind, wp_attempt]
  have hcaught : ∀ e, wp machine adm
      (if e.cls ∈ classes then pure (.error e) else .throw e : Py (Except PyException α)) Q
        = fun d' => if e.cls ∈ classes then Q.returned (.error e) d' else Q.raised e d' := by
    intro e
    split <;> rfl
  simp only [hcaught]
  rfl

theorem wp_always_catching {α : Type} {p : Py α} {classes : List ExceptionClass}
    {Inv : Device → Prop} (hp : wp machine adm p (Post.always Inv) d) :
  wp machine adm (catching p classes) (Post.always Inv) d
  := by
  rw [wp_catching]
  apply hp.mono
  · exact fun _ _ h => h
  · intro e d' h
    dsimp only
    split <;> exact h
  · exact fun _ h => h

/-- The breach is in what is tried. -/
theorem wpBreach_catching {α : Type} {ok : Call → Choice → Device → Prop} {p : Py α}
    {classes : List ExceptionClass} {Q : Post Device PyException (Except PyException α)}
    (h : wpBreach machine adm ok p
      { returned := fun a => Q.returned (.ok a)
        raised := fun e d => if e.cls ∈ classes then Q.returned (.error e) d else Q.raised e d
        cut := Q.cut } d) :
  wpBreach machine adm ok (catching p classes) Q d
  := by
  apply wpBreach_bind_of_no_calls
  · rintro (e | a)
    · dsimp only
      split <;> trivial
    · trivial
  · apply wpBreach_attempt.mpr
    apply h.mono
    · exact fun _ _ h => h
    · intro e d' h
      dsimp only at h ⊢
      split
      · rwa [if_pos ‹_›] at h
      · rwa [if_neg ‹_›] at h
    · exact fun _ h => h

theorem wpVerdict_catching {α : Type} {ok : Call → Choice → Device → Prop} {p : Py α}
    {classes : List ExceptionClass} {Q : Prop → Post Device PyException (Except PyException α)}
    (h : wpVerdict machine adm ok p
      (fun v =>
        { returned := fun a => (Q v).returned (.ok a)
          raised := fun e d =>
            if e.cls ∈ classes then (Q v).returned (.error e) d else (Q v).raised e d
          cut := (Q v).cut }) d) :
  wpVerdict machine adm ok (catching p classes) Q d
  := ⟨wp_catching.mpr h.1, wpBreach_catching h.2⟩

/-- The output of a command that can be decoded, or else its return code. -/
theorem wp_errorText_of_text {result : CmdResult} {text : Text}
    {Q : Post Device PyException Text} (htext : result.stdout.text = some text)
    (h : ∀ error, Q.returned error d) :
  wp machine adm (errorText result) Q d
  := by
  unfold errorText
  rw [htext]
  split
  · exact h _
  · exact h _
  · contradiction

theorem wp_errorText_of_none {result : CmdResult} {Q : Post Device PyException Text}
    (htext : result.stdout.text = none) (h : Q.raised ⟨.UnicodeDecodeError, []⟩ d) :
  wp machine adm (errorText result) Q d
  := by
  unfold errorText
  rw [htext]
  exact h

theorem issues_ofExcept {α : Type} {calls : Call → Prop} (r : Except PyException α) :
  Issues calls (ofExcept r)
  := by
  cases r with
  | ok a => trivial
  | error e => trivial

theorem issues_catching {α : Type} {calls : Call → Prop} {p : Py α}
    {classes : List ExceptionClass} (hp : Issues calls p) :
  Issues calls (catching p classes)
  := by
  apply Issues.bind (issues_attempt.mpr hp)
  rintro (e | a)
  · dsimp only
    split <;> trivial
  · trivial

/-- The loop issues the calls of its body. -/
theorem issues_forEach {A : Type} {calls : Call → Prop} {f : A → Py Unit} {as : List A}
    (h : ∀ a ∈ as, Issues calls (f a)) :
  Issues calls (forEach as f)
  := by
  induction as with
  | nil => trivial
  | cons a as ih =>
      apply Issues.bind (h a List.mem_cons_self)
      intro _
      apply ih
      intro b hb
      exact h b (List.mem_cons_of_mem a hb)

/-! ### Calls that concern one container -/

namespace Device

@[simp]
theorem setContainer_same (d : Device) (id : Text) (c : Option Container) :
  (d.setContainer id c).containers id = c
  := by simp [setContainer]

theorem setContainer_of_ne (d : Device) {id id' : Text} (c : Option Container) (h : id' ≠ id) :
  (d.setContainer id c).containers id' = d.containers id'
  := by simp [setContainer, h]

@[simp]
theorem setContainer_fs (d : Device) (id : Text) (c : Option Container) :
  (d.setContainer id c).fs = d.fs
  := rfl

@[simp]
theorem setContainer_phase (d : Device) (id : Text) (c : Option Container) :
  (d.setContainer id c).phase = d.phase
  := rfl

@[simp]
theorem setContainer_setContainer (d : Device) (id : Text) (c c' : Option Container) :
  (d.setContainer id c).setContainer id c' = d.setContainer id c'
  := by
  simp [setContainer]

@[simp]
theorem setContainer_eq_self (d : Device) (id : Text) :
  d.setContainer id (d.containers id) = d
  := by
  simp [setContainer]

theorem setContainer_of_eq {d : Device} {id : Text} {k : Option Container}
    (hd : d.containers id = k) :
  d.setContainer id k = d
  := by
  rw [← hd]
  exact d.setContainer_eq_self id

theorem settle_eq (d : Device) (id : Text) (exited : Bool) :
  ∃ c, d.settle id exited = d.setContainer id c
  := by
  unfold settle
  split
  · split
    · exact ⟨_, rfl⟩
    · exact ⟨_, (d.setContainer_eq_self id).symm⟩
  · exact ⟨_, (d.setContainer_eq_self id).symm⟩

end Device

/-- The calls of `runc` that concern one container, and those that only ask. -/
def ContainerCall (id : Text) : Call → Prop
  | .runcState id' | .runcKill id' _ | .runcDelete id' | .runcCreate _ id' | .runcStart id' =>
      id' = id
  | .isdir _ | .endtimeReached => True
  | _ => False

/-- All that such a call can do to the device. -/
theorem perform_containerCall {c : Call} {x : Choice} (hc : ContainerCall id c) :
  ∃ k, (perform c x d).2 = d.setContainer id k
  := by
  have hself : d = d.setContainer id (d.containers id) := (d.setContainer_eq_self id).symm
  cases c with
  | isdir path => exact ⟨_, hself⟩
  | endtimeReached => exact ⟨_, hself⟩
  | runcState id' =>
      obtain rfl : id' = id := hc
      obtain ⟨k, hk⟩ := d.settle_eq id' x.exited
      use k
      rw [← hk]
      simp only [perform, runcState]
      split
      · rfl
      · rfl
      · split <;> rfl
  | runcKill id' signal =>
      obtain rfl : id' = id := hc
      obtain ⟨k, hk⟩ := d.settle_eq id' x.exited
      simp only [perform, runcKill, hk]
      repeat' split
      all_goals simp only [Device.setContainer_setContainer]; exact ⟨_, rfl⟩
  | runcDelete id' =>
      obtain rfl : id' = id := hc
      obtain ⟨k, hk⟩ := d.settle_eq id' x.exited
      simp only [perform, runcDelete, hk]
      repeat' split
      all_goals simp only [Device.setContainer_setContainer]; exact ⟨_, rfl⟩
  | runcCreate bundle_path id' =>
      obtain rfl : id' = id := hc
      simp only [perform, runcCreate]
      repeat' split
      · exact ⟨_, hself⟩
      · exact ⟨_, hself⟩
      · exact ⟨_, rfl⟩
      · exact ⟨_, hself⟩
      · exact ⟨_, rfl⟩
  | runcStart id' =>
      obtain rfl : id' = id := hc
      simp only [perform, runcStart]
      repeat' split
      all_goals first | exact ⟨_, rfl⟩ | exact ⟨_, hself⟩
  | _ => exact hc.elim

/-- What does not depend on a container is kept by the calls that concern that container. -/
theorem wp_of_containerCalls {α : Type} {p : Py α} (Inv : Device → Prop)
    (hp : Issues (ContainerCall id) p) (hkeep : ∀ d k, Inv d → Inv (d.setContainer id k))
    (hd : Inv d) :
  wp machine adm p (Post.always Inv) d
  := by
  apply wp_of_issues Inv hp _ hd
  intro c x d' hc _ hd'
  obtain ⟨k, hk⟩ := perform_containerCall (d := d') (x := x) hc
  change Inv (perform c x d').2
  rw [hk]
  exact hkeep d' k hd'

/-! ### The calls of the life cycle of an application -/

theorem issues_errorText {calls : Call → Prop} (result : CmdResult) :
  Issues calls (errorText result)
  := by
  unfold errorText
  split <;> trivial

theorem issues_runOrRaise {calls : Call → Prop} {command : Py CmdResult} {cls : ExceptionClass}
    {before container_id between after : Text} (hcommand : Issues calls command) :
  Issues calls (runOrRaise command cls before container_id between after)
  := by
  apply Issues.bind hcommand
  intro result
  split
  · trivial
  · apply Issues.bind (issues_errorText result)
    intro _
    trivial

theorem issues_getState :
  Issues (ContainerCall id) (getState id)
  := by
  apply Issues.bind (issues_issue.mpr (by trivial))
  intro result
  exact issues_ofExcept _

theorem issues_kill (signal : Text) :
  Issues (ContainerCall id) (kill id signal)
  := issues_runOrRaise (issues_issue.mpr rfl)

theorem issues_delete :
  Issues (ContainerCall id) (delete id)
  := issues_runOrRaise (issues_issue.mpr rfl)

theorem issues_start :
  Issues (ContainerCall id) (start id)
  := issues_runOrRaise (issues_issue.mpr rfl)

theorem issues_createOrRaise (bundle_path : FilePath) :
  Issues (ContainerCall id) (createOrRaise id bundle_path)
  := by
  apply Issues.bind (issues_issue.mpr (by trivial))
  intro result
  split <;> trivial

theorem issues_create (bundle_path : FilePath) :
  Issues (ContainerCall id) (create id bundle_path)
  := by
  apply Issues.bind issues_getState
  intro container_state
  split
  · trivial
  · apply Issues.bind (issues_issue.mpr (by trivial))
    intro found
    split
    · trivial
    · exact issues_createOrRaise bundle_path

theorem issues_runApp (app_path : FilePath) :
  Issues (ContainerCall id) (runApp id app_path)
  := by
  apply Issues.bind (issues_create app_path)
  intro _
  exact issues_start

theorem issues_pollForAppStop (polls : ℕ) :
  Issues (ContainerCall id) (pollForAppStop id polls)
  := by
  induction polls with
  | zero => trivial
  | succ polls ih =>
      apply Issues.bind (issues_issue.mpr (by trivial))
      intro reached
      split
      · trivial
      · apply Issues.bind issues_getState
        intro app_state
        split
        · trivial
        · exact ih

theorem issues_waitForAppStop (timeout : ℕ) :
  Issues (ContainerCall id) (waitForAppStop id timeout)
  := by
  apply Issues.bind (issues_pollForAppStop _)
  intro stopped
  split
  · trivial
  · apply Issues.bind issues_getState
    intro app_state
    split <;> trivial

theorem issues_killApp (timeout : ℕ) :
  Issues (ContainerCall id) (killApp id timeout)
  := by
  apply Issues.bind (issues_catching (issues_kill _))
  rintro (error | _)
  · dsimp only
    split
    · exact issues_delete
    · trivial
  · apply Issues.bind (issues_waitForAppStop timeout)
    intro _
    exact issues_delete

theorem issues_terminateApp (sigterm_timeout sigkill_timeout : ℕ) :
  Issues (ContainerCall id) (terminateApp id sigterm_timeout sigkill_timeout)
  := by
  apply Issues.bind (issues_catching (issues_kill _))
  rintro (error | _)
  · dsimp only
    split
    · exact issues_delete
    · split <;> trivial
  · apply Issues.bind (issues_catching (issues_waitForAppStop sigterm_timeout))
    rintro (_ | _)
    · exact issues_killApp sigkill_timeout
    · exact issues_delete

/-! ### Calls that leave the phase -/

/-- Every call but that of the log. -/
def NoLog : Call → Prop
  | .log _ => False
  | _ => True

/-- The phase changes with what is logged only. -/
theorem phase_perform {c : Call} {x : Choice} (hc : NoLog c) :
  (perform c x d).2.phase = d.phase
  := by
  have hcontainer {id' : Text} (hid : ContainerCall id' c) : (perform c x d).2.phase = d.phase := by
    obtain ⟨k, hk⟩ := perform_containerCall (d := d) (x := x) hid
    rw [hk]
    rfl
  cases c with
  | log line => exact hc.elim
  | runcState id' | runcKill id' signal | runcDelete id' | runcCreate bundle_path id'
  | runcStart id' => exact hcontainer (show ContainerCall id' _ from rfl)
  | opkgInstall app_name path app_pkg =>
      simp only [perform, opkgInstall]
      split
      · rfl
      · split <;> rfl
  | opkgRemove app_name path =>
      simp only [perform, opkgRemove]
      split <;> rfl
  | _ => rfl

theorem ContainerCall.noLog {c : Call} (hc : ContainerCall id c) :
  NoLog c
  := by
  cases c with
  | log line => exact hc.elim
  | _ => trivial

/-- The calls that ask about the disk. -/
def Asks : Call → Prop
  | .isdir _ | .exists_ _ | .listdir _ => True
  | _ => False

/-- The calls by which an application is removed from a path are among some calls. -/
structure Removes (calls : Call → Prop) (app_name : Text) (path : FilePath) : Prop where
  opkgRemove : calls (.opkgRemove app_name path)
  rmtree : calls (.rmtree path)
  parent : path.dropLast ≠ APPS_PATH → calls (.rmtree path.dropLast)

section Removals

variable {calls : Call → Prop} (hasks : ∀ c, Asks c → calls c)

theorem issues_rmtree {path : FilePath} (h : calls (.rmtree path)) :
  Issues calls (rmtree path)
  := by
  apply Issues.bind (issues_issue.mpr h)
  intro removed
  split <;> trivial

include hasks

theorem issues_removeDirectories {path : FilePath} (hpath : calls (.rmtree path))
    (hparent : path.dropLast ≠ APPS_PATH → calls (.rmtree path.dropLast)) :
  Issues calls (rmtree path >>= fun _ => removeEmptyParent path.dropLast)
  := by
  apply Issues.bind (issues_rmtree hpath)
  intro _
  apply Issues.bind (issues_issue.mpr (hasks _ (by trivial)))
  intro names
  split
  · rename_i hempty
    exact issues_rmtree (hparent hempty.2)
  · trivial

theorem issues_removeApp {app_name : Text} {app_path : FilePath}
    (h : Removes calls app_name app_path) :
  Issues calls (removeApp app_name app_path)
  := by
  apply Issues.bind (issues_issue.mpr (hasks _ (by trivial)))
  intro found
  split
  · apply Issues.bind (issues_issue.mpr h.opkgRemove)
    intro result
    split
    · exact issues_removeDirectories hasks h.rmtree h.parent
    · apply Issues.bind (issues_errorText result)
      intro _
      trivial
  · trivial

theorem issues_cleanUp {app_name : Text} {app_path : FilePath} (h : Removes calls app_name app_path) :
  Issues calls (cleanUp app_name app_path)
  := by
  apply Issues.bind (issues_issue.mpr (hasks _ (by trivial)))
  intro found
  split
  · exact issues_removeApp hasks h
  · trivial

theorem issues_removeAppsBundles {path_attr : PathAttr} {installed_apps : List AppRecord}
    (h : ∀ app ∈ installed_apps, ∀ path ∈ path_attr app, Removes calls app.name path) :
  Issues calls (removeAppsBundles path_attr installed_apps)
  := by
  apply issues_forEach
  intro app happ
  cases hpath : path_attr app with
  | none => trivial
  | some path => exact issues_removeApp hasks (h app happ path hpath)

/-- The new bundles are removed. -/
theorem issues_removeNewBundles {installed_apps : List AppRecord}
    (h : ∀ app ∈ installed_apps, Removes calls app.name app.new_bundle_path) :
  Issues calls (removeAppsBundles NEW_BUNDLE_PATH installed_apps)
  := by
  apply issues_removeAppsBundles hasks
  intro app happ path hpath
  obtain rfl := Option.some.inj hpath
  exact h app happ

end Removals

section

variable {calls : Call → Prop} (hcontainers : ∀ id c, ContainerCall id c → calls c)
  (installed_apps : List AppRecord)
include hcontainers

theorem issues_stopAllNewlyInstalledApps :
  Issues calls (stopAllNewlyInstalledApps installed_apps)
  := by
  apply issues_forEach
  intro app _
  apply Issues.bind
  · apply issues_catching
    exact (issues_terminateApp _ _).mono (hcontainers app.name)
  · rintro (error | _)
    · dsimp only
      split <;> trivial
    · trivial

theorem issues_runPreviousAppVersions :
  Issues calls (runPreviousAppVersions installed_apps)
  := by
  apply issues_forEach
  intro app _
  cases app.cur_bundle_path with
  | none => trivial
  | some cur => exact (issues_runApp cur).mono (hcontainers app.name)

end

end App
