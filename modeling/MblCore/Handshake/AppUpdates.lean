import MblCore.App.KeptAfterReboot
import MblCore.App.SuccessfulUpdate
import MblCore.Handshake.Progress

/-!
# Application updates through the hand-shake

What the hand-shake is for: the daemon calls `mbl-app-update-manager` on the update package of an
installer, and the installer learns whether the applications were updated.  Here the program that
the daemon calls is the update manager itself, on a device.  Of installers that run one after the
other those that exit with 0 are the ones whose applications run in their new versions
(`exit_zero_iff_updated`).
-/

namespace Handshake

open Prog hiding pure throw bind

/-! ### The update manager as the daemon calls it -/

/-- An execution of `mbl-app-update-manager` by the daemon. -/
structure Execution where
  update_pkg : App.UpdatePkg
  outcome : Outcome App.PyException (List App.AppRecord)
  before : App.Device
  after : App.Device

/-- `"$?"` after `_main` of `cli.py`; a manager that is killed leaves 128 and the number of
the signal. -/
def exitStatus : Outcome App.PyException (List App.AppRecord) → ℕ
  | .returned _ => 0
  | .raised _ => 1
  | .cut => 137

/-- Execute `mbl-app-update-manager` with the given outcomes of its calls. -/
def execute (update_pkg : App.UpdatePkg) (xs : List App.Choice) (device : App.Device) : Execution :=
  let (outcome, _, after) := run App.machine (App.runMblAppUpdateManager update_pkg) xs device
  ⟨update_pkg, outcome, device, after⟩

/-- The processes of the hand-shake, and the device that the manager works on. -/
structure System where
  handshake : State
  device : App.Device
  /-- The executions of the manager that have come to their end, in order. -/
  executions : List Execution

namespace System

def init (device : App.Device) : System where
  handshake := Handshake.init
  device := device
  executions := []

inductive Event
  /-- A step of an installer or of the daemon. -/
  | handshake (e : Handshake.Event)
  /-- The manager is executed on the package that is at the path. -/
  | manager (update_pkg : App.UpdatePkg) (xs : List App.Choice)
  /-- The argument of the manager is not a path but an option. -/
  | parseArgsExits (status : ℕ)

/-- The state after an event, if the event can happen. -/
def step (s : System) : Event → Option System
  | .handshake (.managerReturns _) => none
  | .handshake e => (Handshake.step s.handshake e).map fun handshake => { s with handshake }
  | .manager update_pkg xs =>
      match s.handshake.daemon with
      | .manager path _ =>
          if update_pkg.path = path then
            let x := execute update_pkg xs s.device
            (Handshake.step s.handshake (.managerReturns (exitStatus x.outcome))).map fun handshake =>
              { handshake, device := x.after, executions := s.executions ++ [x] }
          else none
      | _ => none
  | .parseArgsExits status =>
      match s.handshake.daemon with
      | .manager path _ =>
          if path.head? = some '-' then
            (Handshake.step s.handshake (.managerReturns status)).map fun handshake =>
              { s with handshake }
          else none
      | _ => none

/-- An installer is started with an absolute path. -/
def StartsAbsolute : Handshake.Event → Prop
  | .start file => file.head? = some '/'
  | _ => True

instance : DecidablePred StartsAbsolute
  | .start file => inferInstanceAs (Decidable (file.head? = some '/'))
  | .installer _ | .kill _ | .daemon | .managerReturns _ => isTrue trivial

/-- Installers are started one after the other, with absolute paths, nobody is killed but perhaps
the manager, and the packages are plain. -/
def Guarded (s : System) : Event → Prop
  | .handshake e => Sequential s.handshake e ∧ StartsAbsolute e
  | .manager update_pkg xs =>
      Obeys App.machine App.PlainPackages (App.runMblAppUpdateManager update_pkg) xs s.device
  | .parseArgsExits _ => True

instance (s : System) : ∀ e, Decidable (Guarded s e)
  | .handshake _ => inferInstanceAs (Decidable (_ ∧ _))
  | .manager _ _ => inferInstanceAs (Decidable (Obeys _ _ _ _ _))
  | .parseArgsExits _ => isTrue trivial

/-! ### One step -/

variable {s s' : System} {e : Event}

/-- What a step can do: it is one of the hand-shake in which the manager does not return, or the
manager returns from an execution, or from an argument that is no path. -/
theorem step_cases (hstep : step s e = some s') :
  (∃ e', e = .handshake e' ∧ (∀ rc, e' ≠ .managerReturns rc)
      ∧ Handshake.step s.handshake e' = some s'.handshake
      ∧ s'.device = s.device ∧ s'.executions = s.executions)
    ∨ (∃ update_pkg xs beganAt, e = .manager update_pkg xs
      ∧ s.handshake.daemon = .manager update_pkg.path beganAt
      ∧ Handshake.step s.handshake
          (.managerReturns (exitStatus (execute update_pkg xs s.device).outcome))
        = some s'.handshake
      ∧ s'.device = (execute update_pkg xs s.device).after
      ∧ s'.executions = s.executions ++ [execute update_pkg xs s.device])
    ∨ (∃ status path beganAt, e = .parseArgsExits status
      ∧ s.handshake.daemon = .manager path beganAt ∧ path.head? = some '-'
      ∧ Handshake.step s.handshake (.managerReturns status) = some s'.handshake)
  := by
  cases e with
  | handshake e' =>
      left
      have hreturns : ∀ rc, e' ≠ .managerReturns rc := by
        rintro rc rfl
        contradiction
      have hmap : (Handshake.step s.handshake e').map (fun handshake => { s with handshake })
          = some s' := by
        cases e' with
        | managerReturns rc => exact absurd rfl (hreturns rc)
        | start _ | installer _ | kill _ | daemon => exact hstep
      obtain ⟨handshake, hhandshake, rfl⟩ := Option.map_eq_some_iff.mp hmap
      exact ⟨e', rfl, hreturns, hhandshake, rfl, rfl⟩
  | manager update_pkg xs =>
      right; left
      simp only [step] at hstep
      split at hstep
      · next path beganAt hdaemon =>
          split at hstep
          · next hpath =>
              obtain ⟨handshake, hhandshake, rfl⟩ := Option.map_eq_some_iff.mp hstep
              exact ⟨update_pkg, xs, beganAt, rfl, hpath ▸ hdaemon, hhandshake, rfl, rfl⟩
          · contradiction
      · contradiction
  | parseArgsExits status =>
      right; right
      simp only [step] at hstep
      split at hstep
      · next path beganAt hdaemon =>
          split at hstep
          · next hpath =>
              obtain ⟨handshake, hhandshake, rfl⟩ := Option.map_eq_some_iff.mp hstep
              exact ⟨status, path, beganAt, rfl, hdaemon, hpath, hhandshake⟩
          · contradiction
      · contradiction

/-- Every step is one of the hand-shake. -/
theorem step_handshake (hok : Guarded s e) (hstep : step s e = some s') :
  ∃ e', Sequential s.handshake e' ∧ Handshake.step s.handshake e' = some s'.handshake
  := by
  obtain ⟨e', rfl, -, hhandshake, -⟩ | ⟨_, _, _, rfl, -, hhandshake, -⟩
    | ⟨_, _, _, rfl, -, -, hhandshake⟩ := step_cases hstep
  · exact ⟨e', hok.1, hhandshake⟩
  · exact ⟨.managerReturns _, trivial, hhandshake⟩
  · exact ⟨.managerReturns _, trivial, hhandshake⟩

end System

/-! ### The arguments of the installers -/

/-- Only the return of the manager adds to its runs. -/
theorem runs_of_step {s s' : State} {e : Event} (he : ∀ rc, e ≠ .managerReturns rc)
    (hstep : step s e = some s') :
  s'.runs = s.runs
  := by
  cases e with
  | managerReturns rc => exact absurd rfl (he rc)
  | start file =>
      obtain rfl := Option.some.inj hstep
      rfl
  | installer k =>
      simp only [step, Option.bind_eq_bind, Option.bind_eq_some_iff] at hstep
      obtain ⟨i, -, moved, -, hs'⟩ := hstep
      obtain rfl := Option.some.inj hs'
      rfl
  | kill k =>
      simp only [step, Option.bind_eq_bind, Option.bind_eq_some_iff] at hstep
      obtain ⟨i, -, hs'⟩ := hstep
      split at hs'
      · contradiction
      · obtain rfl := Option.some.inj hs'
        rfl
  | daemon =>
      simp only [step, Option.bind_eq_bind, Option.bind_eq_some_iff] at hstep
      obtain ⟨moved, -, hs'⟩ := hstep
      obtain rfl := Option.some.inj hs'
      rfl

/-- The return of the manager adds a run with its path and its status. -/
theorem managerReturns_eq {s s' : State} {path : Text} {beganAt rc : ℕ}
    (hdaemon : s.daemon = .manager path beganAt) (hstep : step s (.managerReturns rc) = some s') :
  s'.runs = s.runs ++ [⟨path, beganAt, rc⟩] ∧ s'.installers = s.installers
  := by
  simp only [step, hdaemon] at hstep
  obtain rfl := Option.some.inj hstep
  exact ⟨rfl, rfl⟩

/-- The arguments of all installers are absolute paths. -/
def Absolute (s : State) : Prop :=
  ∀ i ∈ s.installers, i.uaod_apps_file.head? = some '/'

theorem Absolute.set {s : State} {k : ℕ} {i i' : Installer} (h : Absolute s)
    (hi : s.installers[k]? = some i) (hfile : i'.uaod_apps_file = i.uaod_apps_file) :
  ∀ j ∈ s.installers.set k i', j.uaod_apps_file.head? = some '/'
  := by
  intro j hj
  rcases List.mem_or_eq_of_mem_set hj with hj | rfl
  · exact h j hj
  · rw [hfile]
    exact h i (List.mem_of_getElem? hi)

/-- No step changes the argument of an installer. -/
theorem Absolute.step {s s' : State} {e : Event} (h : Absolute s)
    (he : System.StartsAbsolute e) (hstep : step s e = some s') :
  Absolute s'
  := by
  cases e with
  | start file =>
      obtain rfl := Option.some.inj hstep
      intro i hi
      rcases List.mem_append.mp hi with hi | hi
      · exact h i hi
      · rw [List.mem_singleton.mp hi]
        exact he
  | installer k =>
      simp only [Handshake.step, Option.bind_eq_bind, Option.bind_eq_some_iff] at hstep
      obtain ⟨i, hi, ⟨dir, i'⟩, hmove, hs'⟩ := hstep
      obtain rfl := Option.some.inj hs'
      exact h.set hi (installerStep_frame hmove).2
  | kill k =>
      simp only [Handshake.step, Option.bind_eq_bind, Option.bind_eq_some_iff] at hstep
      obtain ⟨i, hi, hs'⟩ := hstep
      split at hs'
      · contradiction
      · obtain rfl := Option.some.inj hs'
        exact h.set hi rfl
  | daemon =>
      simp only [Handshake.step, Option.bind_eq_bind, Option.bind_eq_some_iff] at hstep
      obtain ⟨moved, -, hs'⟩ := hstep
      obtain rfl := Option.some.inj hs'
      exact h
  | managerReturns rc =>
      simp only [Handshake.step] at hstep
      split at hstep
      · obtain rfl := Option.some.inj hstep
        exact h
      · contradiction

/-- A path without the newlines at its end begins as the path does. -/
theorem head?_chomp_ne {path : Text} (h : path.head? = some '/') :
  path.chomp.head? ≠ some '-'
  := by
  have hprefix : path.chomp <+: path := List.rdropWhile_prefix _ path
  intro hhead
  obtain ⟨rest, hrest⟩ := hprefix
  rw [← hrest, List.head?_append, hhead] at h
  simp at h

/-- The manager is called with the path of an installer. -/
theorem InTurn.path_of_manager {s : State} {path : Text} {beganAt : ℕ} (h : InTurn s)
    (hdaemon : s.daemon = .manager path beganAt) :
  ∃ i ∈ s.installers, path = i.uaod_apps_file.chomp
  := by
  cases h with
  | fresh _ _ hwaits =>
      rw [hwaits] at hdaemon
      contradiction
  | busy old i served active =>
      have hphase := active.phase
      rw [hdaemon] at hphase
      cases hphase with
      | running => exact ⟨i, by simp [active.installers], rfl⟩

/-! ### Whole runs -/

/-- The executions were made one after the other, and took the device `before` to `after`. -/
def Chained : App.Device → List Execution → App.Device → Prop
  | before, [], after => before = after
  | before, x :: executions, after => x.before = before ∧ Chained x.after executions after

theorem Chained.concat {before : App.Device} {executions : List Execution} {x : Execution}
    (h : Chained before executions x.before) :
  Chained before (executions ++ [x]) x.after
  := by
  induction executions generalizing before with
  | nil => exact ⟨h.symm, rfl⟩
  | cons y executions ih => exact ⟨h.1, ih h.2⟩

/-- The manager has updated one application for each package, and returned normally. -/
def Execution.Updates (x : Execution) : Prop :=
  ∃ apps, x.outcome = .returned apps ∧ App.Updated apps x.before x.after
    ∧ apps.map App.AppRecord.ipk_path
      = (App.ipksOf x.update_pkg).map (App.joinText App.IPKS_EXTRACTION_PATH)

/-- An execution on a tidy device leaves it tidy, and exits with 0 just when it has updated the
applications. -/
theorem execute_tidy {update_pkg : App.UpdatePkg} {xs : List App.Choice} {device : App.Device}
    (htidy : App.Tidy device.fs)
    (hobeys : Obeys App.machine App.PlainPackages (App.runMblAppUpdateManager update_pkg) xs device) :
  App.Tidy (execute update_pkg xs device).after.fs
    ∧ (exitStatus (execute update_pkg xs device).outcome = 0 → (execute update_pkg xs device).Updates)
  := by
  constructor
  · exact of_wp_always
      (App.wp_runMblAppUpdateManager_tidy (fun _ _ _ h => h) update_pkg htidy) hobeys
  · have hplaces : App.Places App.PlainPackages fun _ => True := fun _ _ _ _ _ _ _ => trivial
    have hends := holds_of_wp (App.wp_runMblAppUpdateManager_switched (fun _ _ _ h => h.1) hplaces
      htidy.plainVersions) hobeys
    have houtcome : (execute update_pkg xs device).outcome
        = (run App.machine (App.runMblAppUpdateManager update_pkg) xs device).1 := rfl
    intro hstatus
    rw [houtcome] at hstatus
    cases hrun : (run App.machine (App.runMblAppUpdateManager update_pkg) xs device).1 with
    | returned apps =>
        rw [hrun] at hends
        exact ⟨apps, houtcome.trans hrun, hends.1.updated, hends.2⟩
    | raised error =>
        rw [hrun] at hstatus
        contradiction
    | cut =>
        rw [hrun] at hstatus
        contradiction

/-- What holds between the steps: the runs of the hand-shake are the executions, and only these
have changed the device. -/
structure Kept (start : App.Device) (s : System) : Prop where
  turn : InTurn s.handshake
  absolute : Absolute s.handshake
  runs : s.handshake.runs.map (fun r => (r.path, r.rc))
    = s.executions.map fun x => (x.update_pkg.path, exitStatus x.outcome)
  chained : Chained start s.executions s.device
  tidy : App.Tidy s.device.fs
  updates : ∀ x ∈ s.executions, exitStatus x.outcome = 0 → x.Updates

theorem Kept.init {start : App.Device} (htidy : App.Tidy start.fs) :
  Kept start (System.init start)
  where
    turn := InTurn.fresh rfl rfl rfl fun _ => rfl
    absolute := List.forall_mem_nil _
    runs := rfl
    chained := rfl
    tidy := htidy
    updates := List.forall_mem_nil _

theorem Kept.step {start : App.Device} {s s' : System} {e : System.Event} (h : Kept start s)
    (hok : System.Guarded s e) (hstep : System.step s e = some s') :
  Kept start s'
  := by
  have hturn : InTurn s'.handshake := by
    obtain ⟨e', hsequential, hhandshake⟩ := System.step_handshake hok hstep
    exact h.turn.step hsequential hhandshake
  obtain ⟨e', rfl, hreturns, hhandshake, hdevice, hexecutions⟩
    | ⟨update_pkg, xs, beganAt, rfl, hdaemon, hhandshake, hdevice, hexecutions⟩
    | ⟨status, path, beganAt, rfl, hdaemon, hoption, -⟩ := System.step_cases hstep
  · use hturn, h.absolute.step hok.2 hhandshake
    · rw [runs_of_step hreturns hhandshake, hexecutions]
      exact h.runs
    · rw [hdevice, hexecutions]
      exact h.chained
    · rw [hdevice]
      exact h.tidy
    · rw [hexecutions]
      exact h.updates
  · obtain ⟨hruns, hinstallers⟩ := managerReturns_eq hdaemon hhandshake
    obtain ⟨htidy, hupdates⟩ := execute_tidy h.tidy hok
    use hturn
    · unfold Absolute
      rw [hinstallers]
      exact h.absolute
    · rw [hruns, hexecutions, List.map_append, List.map_append, h.runs]
      rfl
    · rw [hdevice, hexecutions]
      exact Chained.concat h.chained
    · rw [hdevice]
      exact htidy
    · intro x hx hstatus
      rw [hexecutions] at hx
      rcases List.mem_append.mp hx with hx | hx
      · exact h.updates x hx hstatus
      · obtain rfl := List.mem_singleton.mp hx
        exact hupdates hstatus
  · obtain ⟨i, hi, rfl⟩ := h.turn.path_of_manager hdaemon
    exact absurd hoption (head?_chomp_ne (h.absolute i hi))

/-- Of installers that run one after the other, the one with the number `k` has had the execution of
the manager with this number, on the package at its path, and has exited with 0 just when this
execution has updated the applications.  The executions were made one after the other, and nothing
else has changed the device. -/
theorem exit_zero_iff_updated {start : App.Device} {es : List System.Event} {s : System}
    (htidy : App.Tidy start.fs) (hrun : Lts.exec System.step (System.init start) es = some s)
    (hok : Lts.Meets System.step System.Guarded (System.init start) es) :
  Chained start s.executions s.device
    ∧ ∀ (k : ℕ) (i : Installer) (status : ℕ),
      s.handshake.installers[k]? = some i → i.pc = .exited status →
      ∃ x : Execution, s.executions[k]? = some x ∧ x.update_pkg.path = i.uaod_apps_file.chomp
        ∧ (status = 0 ↔ x.Updates)
  := by
  have hkept : Kept start s :=
    Lts.invariant (Kept start) (fun _ _ _ => Kept.step) (Kept.init htidy) hok hrun
  use hkept.chained
  intro k i status hi hpc
  obtain ⟨r, hr, hpath, hstatus⟩ := hkept.turn.served_of_exited hi hpc
  have hpair : (s.executions.map fun x => (x.update_pkg.path, exitStatus x.outcome))[k]?
      = some (r.path, r.rc) := by
    rw [← hkept.runs, List.getElem?_map, hr]
    rfl
  rw [List.getElem?_map, Option.map_eq_some_iff] at hpair
  obtain ⟨x, hx, heq⟩ := hpair
  obtain ⟨hpath', hrc⟩ := Prod.mk.inj heq
  use x, hx, hpath'.trans hpath
  rw [hstatus, ← hrc]
  constructor
  · exact hkept.updates x (List.mem_of_getElem? hx)
  · rintro ⟨apps, houtcome, -⟩
    rw [houtcome]
    rfl

/-- The first installer, for a package with the given members, up to its exit. -/
def updating (file : Text) (members : List App.TarInfo) (xs : List App.Choice) : List System.Event :=
  .handshake (.start file) :: List.replicate 3 (.handshake (.installer 0))
    ++ List.replicate 4 (.handshake .daemon) ++ .manager ⟨file, some members⟩ xs
    :: List.replicate 4 (.handshake .daemon) ++ List.replicate 5 (.handshake (.installer 0))

set_option maxRecDepth 4000 in
/-- An application is installed on a device without applications, by way of the hand-shake. -/
theorem exit_zero_updated_first :
  ∃ (s : System) (x : Execution), Lts.exec System.step (System.init App.bareDevice)
      (updating "/a".toList [⟨"a.ipk".toList, true⟩] (App.goodUpdate false)) = some s
    ∧ s.executions[0]? = some x ∧ x.Updates
  := by
  have htidy : App.Tidy App.bareDevice.fs := (by decide : App.WithoutApps App.bareDevice).tidy
  obtain ⟨s, hrun, hi⟩ : ∃ s, Lts.exec System.step (System.init App.bareDevice)
      (updating "/a".toList [⟨"a.ipk".toList, true⟩] (App.goodUpdate false)) = some s
        ∧ s.handshake.installers[0]? = some ⟨"/a".toList, .exited 0, some 2⟩ :=
    ⟨_, rfl, by decide⟩
  obtain ⟨x, hx, -, hupdates⟩ := (exit_zero_iff_updated htidy hrun (by decide)).2 0 _ 0 hi rfl
  exact ⟨s, x, hrun, hx, hupdates.mp rfl⟩

end Handshake
