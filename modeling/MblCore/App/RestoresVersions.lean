import MblCore.Lib.Bounded
import MblCore.App.FailedInstall
import MblCore.App.StartPhase
import MblCore.App.SuccessfulUpdate

/-!
# What a rollback restores

`_rollback_apps` is called while containers are stopped and run, so nothing is known of the containers
of the applications.  When its commands do what they are asked to it returns, the new bundles are
gone, and the previous ones run.  The directory of an application is removed with its new bundle when
nothing else is in it; all the rest of the device is as it was.
-/

namespace App

open FileTree
open Prog hiding pure throw bind

variable {fs : Files} {path : FilePath} {adm : Call → Choice → Device → Prop} {before d : Device}
  {apps : List AppRecord}

/-! ### Before and after -/

/-- What is known before the installed applications are started: each one runs from its previous
bundle, or has no container, and its new bundle is in its directory. -/
structure ReadyToStart (apps : List AppRecord) (before : Device) : Prop where
  names : (apps.map AppRecord.name).Nodup
  new_bundle : ∀ app ∈ apps, IsBundle before.fs app.new_bundle_path ∧
    ∃ version, app.new_bundle_path = versionPath app.name version
  cur_bundle : ∀ app ∈ apps, ∀ cur ∈ app.cur_bundle_path, IsBundle before.fs cur ∧
    APPS_PATH ++ [app.name] <+: cur ∧ cur ≠ app.new_bundle_path
  containers : ∀ app ∈ apps, before.containers app.name = previousContainer app

/-- No previous bundle is inside of the new bundle of its application. -/
def CurOutsideNew (apps : List AppRecord) : Prop :=
  ∀ app ∈ apps, ∀ cur ∈ app.cur_bundle_path, ¬ app.new_bundle_path <+: cur

/-- Something besides a bundle is in the directory the bundle is in. -/
def Beside (fs : Files) (path : FilePath) : Prop :=
  ∃ name, fs.node (path.dropLast ++ [name]) ≠ none ∧ path.dropLast ++ [name] ≠ path

/-- The applications are as they were before their new bundles were installed. -/
structure PreviousRestored (apps : List AppRecord) (before d : Device) : Prop where
  /-- Nothing is left of the new bundles. -/
  removed : ∀ app ∈ apps, ∀ p, app.new_bundle_path <+: p → d.fs.node p = none
  /-- Each application runs from its previous bundle, or has no container. -/
  runs : ∀ app ∈ apps, d.containers app.name = previousContainer app
  /-- The directory of an application is gone when nothing but the new bundle was in it. -/
  gone : ∀ app ∈ apps, ¬ Beside before.fs app.new_bundle_path →
    ∀ p, APPS_PATH ++ [app.name] <+: p → d.fs.node p = none
  /-- It stays when something else was in it. -/
  stays : ∀ app ∈ apps, Beside before.fs app.new_bundle_path →
    d.fs.node (APPS_PATH ++ [app.name]) = some .dir
  /-- The rest of the disk is unchanged. -/
  disk : ∀ p, (∀ app ∈ apps, ¬ app.new_bundle_path <+: p ∧ p ≠ APPS_PATH ++ [app.name]) →
    d.fs.node p = before.fs.node p
  /-- The containers of all others are unchanged. -/
  others : ∀ id, id ∉ apps.map AppRecord.name → d.containers id = before.containers id

/-! ### The disk after a removal -/

/-- Beside a bundle that was removed there is what was beside it before. -/
theorem children_removed_eq_nil_iff (hpath : path ≠ []) (hdir : fs.node path = some .dir) :
  ((fs.graft path root).remove path).children path.dropLast = [] ↔ ¬ Beside fs path
  := by
  have hlength (name : Text) : (path.dropLast ++ [name]).length = path.length := by
    have hpos := List.length_pos_iff.mpr hpath
    simp
    omega
  have hbelow (name : Text) : path <+: path.dropLast ++ [name] ↔ path.dropLast ++ [name] = path := by
    constructor
    · intro h
      exact (h.eq_of_length (hlength name).symm).symm
    · intro h
      rw [h]
  rw [children_eq_nil]
  simp only [node_remove_graft hdir, hbelow, Beside, not_exists, not_and_or, not_not]
  apply forall_congr'
  intro name
  split
  · simp [*]
  · simp [*]

/-- What is gone after the new bundles of applications have been removed. -/
def Cleared (apps : List AppRecord) (fs : Files) (q : FilePath) : Prop :=
  ∃ app ∈ apps, app.new_bundle_path <+: q ∨
    q = APPS_PATH ++ [app.name] ∧ ¬ Beside fs app.new_bundle_path

/-- The new bundles of the applications have been removed. -/
structure ClearedFrom (apps : List AppRecord) (before after : Files) : Prop where
  gone : ∀ q, Cleared apps before q → after.node q = none
  kept : ∀ q, ¬ Cleared apps before q → after.node q = before.node q

theorem dropLast_versionPath (app_name version : Text) :
  (versionPath app_name version).dropLast = APPS_PATH ++ [app_name]
  := rfl

theorem directory_ne_APPS_PATH (app_name : Text) :
  APPS_PATH ++ [app_name] ≠ APPS_PATH
  := by simp

/-- A bundle of an application of another name clears nothing in the directory of an application. -/
theorem not_cleared_entry {done : List AppRecord} {app_name name : Text}
    (hnew : ∀ app ∈ done, ∃ version, app.new_bundle_path = versionPath app.name version)
    (hname : ∀ app ∈ done, app.name ≠ app_name) :
  ¬ Cleared done fs (APPS_PATH ++ [app_name] ++ [name])
  := by
  rintro ⟨app, happ, hbelow | ⟨heq, -⟩⟩
  · obtain ⟨version, hversion⟩ := hnew app happ
    rw [hversion] at hbelow
    have heq := hbelow.eq_of_length rfl
    apply hname app happ
    exact (versionPath_injective.mp (show versionPath app.name version = versionPath app_name name
      from heq)).1
  · have hlength := congrArg List.length heq
    simp at hlength

theorem ClearedFrom.nil (fs : Files) :
  ClearedFrom [] fs fs
  where
  gone := by
    rintro q ⟨app, happ, -⟩
    contradiction
  kept _ _ := rfl

/-- One more new bundle is removed. -/
theorem ClearedFrom.concat {done : List AppRecord} {app : AppRecord} {before after : Files}
    {version : Text} (h : ClearedFrom done before after)
    (hnew : ∀ app ∈ done, ∃ version, app.new_bundle_path = versionPath app.name version)
    (hname : ∀ app' ∈ done, app'.name ≠ app.name)
    (hversion : app.new_bundle_path = versionPath app.name version)
    (hdir : after.node app.new_bundle_path = some .dir) :
  ClearedFrom (done ++ [app]) before (removeBundle after app.new_bundle_path)
  := by
  have hpath : app.new_bundle_path ≠ [] := by
    rw [hversion]
    exact versionPath_ne_nil _ _
  have hparent : app.new_bundle_path.dropLast = APPS_PATH ++ [app.name] := by
    rw [hversion, dropLast_versionPath]
  -- the directory has not been touched so far
  have hbeside : Beside after app.new_bundle_path ↔ Beside before app.new_bundle_path := by
    simp only [Beside, hparent, h.kept _ (not_cleared_entry hnew hname)]
  have hcleared (q : FilePath) : Cleared (done ++ [app]) before q ↔ Cleared done before q ∨
      (app.new_bundle_path <+: q ∨ q = app.new_bundle_path.dropLast ∧
        ¬ Beside after app.new_bundle_path) := by
    simp only [Cleared, List.mem_append, List.mem_singleton, or_and_right, exists_or, exists_eq_left,
      hbeside, hparent]
  have happs : app.new_bundle_path.dropLast ≠ APPS_PATH := by
    rw [hparent]
    exact directory_ne_APPS_PATH _
  constructor
  · intro q hq
    rcases (hcleared q).mp hq with hdone | hbelow | ⟨rfl, hnot⟩
    · exact node_removeBundle_eq_none hdir (h.gone q hdone)
    · exact node_removeBundle_below hdir hbelow
    · rw [node_removeBundle_dropLast hpath hdir,
        if_pos ⟨(children_removed_eq_nil_iff hpath hdir).mpr hnot, happs⟩]
  · intro q hq
    rw [hcleared, not_or, not_or, not_and, not_not] at hq
    obtain ⟨hdone, hbelow, hstays⟩ := hq
    rw [← h.kept q hdone]
    by_cases heq : q = app.new_bundle_path.dropLast
    · have hempty : ¬ ((after.graft app.new_bundle_path root).remove app.new_bundle_path).children
          app.new_bundle_path.dropLast = [] := by
        rw [children_removed_eq_nil_iff hpath hdir, not_not]
        exact hstays heq
      rw [heq, node_removeBundle_dropLast hpath hdir, if_neg fun h => hempty h.1]
      symm
      exact dir_above (q := app.new_bundle_path) (by simp [hdir]) ( List.dropLast_prefix _)
        (dropLast_ne_self hpath)
    · exact node_removeBundle hdir hbelow heq

/-- When the removal of the new bundles returns, the disk is cleared of them. -/
theorem wp_removeNewBundles_cleared (hnames : (apps.map AppRecord.name).Nodup)
    (hnew : ∀ app ∈ apps, ∃ version, app.new_bundle_path = versionPath app.name version) :
  wp machine adm (removeAppsBundles NEW_BUNDLE_PATH apps)
    (Post.ifReturned fun _ d' => d'.containers = d.containers ∧ ClearedFrom apps d.fs d'.fs) d
  := by
  apply wp_forEach fun done _ d' => d'.containers = d.containers ∧ ClearedFrom done d.fs d'.fs
  · rintro done app todo d' rfl ⟨hcontainers, hcleared⟩
    obtain ⟨version, hversion⟩ := hnew app (by simp)
    have hname : ∀ app' ∈ done, app'.name ≠ app.name := by
      rw [List.map_append, List.nodup_append] at hnames
      intro app' happ'
      exact hnames.2.2 _ (List.mem_map_of_mem happ') _ (by simp)
    apply wp_removeApp
    · rw [hversion]
      exact versionPath_ne_nil _ _
    · exact fun _ _ => trivial
    · exact fun _ _ _ _ _ => trivial
    · exact fun _ _ _ _ _ _ => trivial
    · intro x _ hdir _
      use hcontainers
      apply hcleared.concat _ hname hversion (isDir_eq_true.mp hdir)
      exact fun app' happ' => hnew app' (List.mem_append_left _ happ')
  · exact fun _ h => h
  · exact ⟨rfl, ClearedFrom.nil _⟩

/-! ### Everything else -/

theorem wp_stopAllNewlyInstalledApps_only
    (hd : OnlyContainersOf (apps.map AppRecord.name) before d) :
  wp machine adm (stopAllNewlyInstalledApps apps)
    (Post.always (OnlyContainersOf (apps.map AppRecord.name) before)) d
  := by
  apply wp_always_forEach _ hd
  intro app happ d' hd'
  apply wp_always_bind (wp_always_catching (wp_onlyContainersOf happ (issues_terminateApp _ _) hd'))
  rintro (error | _) d'' hd''
  · dsimp only
    split <;> exact hd''
  · exact hd''

theorem wp_runPreviousAppVersions_only
    (hd : OnlyContainersOf (apps.map AppRecord.name) before d) :
  wp machine adm (runPreviousAppVersions apps)
    (Post.always (OnlyContainersOf (apps.map AppRecord.name) before)) d
  := by
  apply wp_always_forEach _ hd
  intro app happ d' hd'
  cases app.cur_bundle_path with
  | none => exact hd'
  | some cur => exact wp_onlyContainersOf happ (issues_runApp _) hd'

/-- What a rollback that returns has changed beside the containers of the applications. -/
theorem wp_rollbackApps_cleared (hnames : (apps.map AppRecord.name).Nodup)
    (hnew : ∀ app ∈ apps, ∃ version, app.new_bundle_path = versionPath app.name version)
    (hd : OnlyContainersOf (apps.map AppRecord.name) before d) :
  wp machine adm (rollbackApps apps)
    (Post.ifReturned fun _ d' => ClearedFrom apps before.fs d'.fs ∧
      ∀ id, id ∉ apps.map AppRecord.name → d'.containers id = before.containers id) d
  := by
  rw [rollbackApps, wp_bind, wp_issue]
  refine ⟨trivial, fun x _ => ?_⟩
  have hlog : OnlyContainersOf (apps.map AppRecord.name) before { d with phase := .rollBack } :=
    ⟨hd.fs, hd.containers⟩
  apply wp_ifReturned_bind (wp_ifReturned_of_wp (wp_stopAllNewlyInstalledApps_only hlog)
    fun _ _ h => h)
  intro _ d₁ hd₁
  apply wp_ifReturned_bind (wp_removeNewBundles_cleared hnames hnew)
  rintro _ d₂ ⟨hcontainers, hcleared⟩
  apply wp_ifReturned_of_wp (wp_runPreviousAppVersions_only (OnlyContainersOf.refl _ d₂))
  intro _ d₃ hd₃
  rw [hd₃.fs, ← hd₁.fs]
  use hcleared
  intro id hid
  rw [hd₃.containers id hid, hcontainers, hd₁.containers id hid]

/-! ### When a rollback is called -/

/-- A rollback begins when nothing but containers of the applications has changed. -/
def RollsBackFrom (apps : List AppRecord) (before : Device) : Call → Choice → Device → Prop
  | .log (.rollBack _), _, d => OnlyContainersOf (apps.map AppRecord.name) before d
  | _, _, _ => True

theorem NoLog.rollsBackFrom {c : Call} (hc : NoLog c) (x : Choice) (d : Device) :
  RollsBackFrom apps before c x d
  := by
  cases c with
  | log line => exact hc.elim
  | _ => trivial

/-- The rollback after what concerns the container of one of the applications begins as it should. -/
theorem wpBreach_orRollBack_called {p : Py Unit} {classes : List ExceptionClass} {app : AppRecord}
    {Q : Post Device PyException Unit} (happ : app ∈ apps) (hp : Issues (ContainerCall app.name) p)
    (hd : OnlyContainersOf (apps.map AppRecord.name) before d) :
  wpBreach machine adm (RollsBackFrom apps before) (orRollBack apps p classes) Q d
  := by
  apply wpBreach_bind
  · apply wpBreach_of_issues (fun _ => True) (issues_catching hp)
    · exact fun c x d hc _ _ => hc.noLog.rollsBackFrom x d
    · exact fun _ _ _ _ _ _ => trivial
    · trivial
  · apply wp_ifReturned_of_wp (wp_always_catching (wp_onlyContainersOf happ hp hd))
    rintro (error | _) d' hd'
    · apply wpBreach_rollbackAfter error
      · exact fun _ => hd'
      · exact fun c x d hc _ => hc.rollsBackFrom x d
    · trivial

section

variable {line : AppRecord → LogLine} {p : AppRecord → Py Unit} {classes : List ExceptionClass}
  (hline : ∀ app names, line app ≠ .rollBack names)
  (hp : ∀ app, Issues (ContainerCall app.name) (p app))

include hp

/-- What a loop that rolls back after errors leaves when it returns. -/
theorem wp_orRollBack_only {app : AppRecord} (happ : app ∈ apps)
    (hd : OnlyContainersOf (apps.map AppRecord.name) before d) :
  wp machine adm (issue (.log (line app)) >>= fun _ => orRollBack apps (p app) classes)
    (Post.ifReturned fun _ => OnlyContainersOf (apps.map AppRecord.name) before) d
  := by
  rw [wp_bind, wp_issue]
  refine ⟨trivial, fun x _ => ?_⟩
  apply wp_orRollBack_ifReturned
  apply wp_ifReturned_of_wp (wp_onlyContainersOf happ (hp app) (hd.logged (line app)))
  exact fun _ _ h => h

include hline

/-- A loop that rolls back after errors rolls back when nothing but containers has changed. -/
theorem wpBreach_forEach_called {Q : Post Device PyException Unit}
    (hd : OnlyContainersOf (apps.map AppRecord.name) before d) :
  wpBreach machine adm (RollsBackFrom apps before)
    (forEach apps fun app =>
      issue (.log (line app)) >>= fun _ => orRollBack apps (p app) classes) Q d
  := by
  apply wpBreach_forEach (OnlyContainersOf (apps.map AppRecord.name) before) _ _ hd
  · intro app d' happ hd'
    rw [wpBreach_issue_bind]
    intro x _
    constructor
    · intro _
      exact wpBreach_orRollBack_called happ (hp app) (hd'.logged (line app))
    · intro hno
      apply absurd _ hno
      cases hcase : line app with
      | stopRunning name => trivial
      | runNew name bundle => trivial
      | rollBack names => exact absurd hcase (hline app names)
  · intro app d' happ hd'
    exact wp_orRollBack_only hp happ hd'

end

/-- Every rollback of a start phase begins when nothing but containers of its applications has
changed. -/
theorem obeys_rollsBackFrom (apps : List AppRecord) (before : Device) (xs : List Choice) :
  Obeys machine (RollsBackFrom apps before) (switchVersions apps) xs before
  := by
  have hstart := OnlyContainersOf.refl (apps.map AppRecord.name) before
  have hstop (app : AppRecord) (names : List Text) :
      LogLine.stopRunning app.name ≠ .rollBack names := by
    simp
  have hrun (app : AppRecord) (names : List Text) :
      LogLine.runNew app.name app.new_bundle_path ≠ .rollBack names := by
    simp
  have hnever : wpBreach machine (fun _ _ _ => True) (RollsBackFrom apps before)
      (switchVersions apps) (Post.always fun _ => False) before := by
    apply wpBreach_bind
    · exact wpBreach_forEach_called hstop (fun app => issues_terminateApp _ _) hstart
    · apply wp_ifReturned_of_wp wp_stopRunningVersions_ifReturned
      intro _ d' hd'
      exact wpBreach_forEach_called hrun (fun app => issues_runApp _) hd'
  by_contra hno
  exact of_wpBreach_always hnever obeys_true hno

/-! ### The number of calls -/

theorem atMost_ofExcept {α : Type} (r : Except PyException α) (n : ℕ) :
  (ofExcept r).AtMost n
  := by
  cases r with
  | ok a => trivial
  | error e => trivial

theorem atMost_catching {α : Type} {p : Py α} {classes : List ExceptionClass} {n : ℕ}
    (hp : p.AtMost n) :
  (catching p classes).AtMost n
  := by
  apply AtMost.bind (n := 0) hp.attempt
  rintro (error | _)
  · dsimp only
    split <;> trivial
  · trivial

theorem atMost_runOrRaise {command : Py CmdResult} {cls : ExceptionClass}
    {before container_id between after : Text} {n : ℕ} (hcommand : command.AtMost n) :
  (runOrRaise command cls before container_id between after).AtMost n
  := by
  apply AtMost.bind (n := 0) hcommand
  intro result
  split
  · trivial
  · apply AtMost.bind (m := 0) (n := 0)
    · unfold errorText
      split <;> trivial
    · exact fun _ => trivial

theorem atMost_getState (id : Text) :
  (getState id).AtMost 1
  := AtMost.bind (n := 0) (atMost_issue _) fun _ => atMost_ofExcept _ _

theorem atMost_kill (id signal : Text) :
  (kill id signal).AtMost 1
  := atMost_runOrRaise (atMost_issue _)

theorem atMost_delete (id : Text) :
  (delete id).AtMost 1
  := atMost_runOrRaise (atMost_issue _)

/-- There is only time for so many polls. -/
theorem atMost_pollForAppStop (id : Text) (polls : ℕ) :
  (pollForAppStop id polls).AtMost (polls * 2)
  := by
  induction polls with
  | zero => trivial
  | succ polls ih =>
      have hsum : (polls + 1) * 2 = 1 + (1 + polls * 2) := by omega
      rw [pollForAppStop, hsum]
      apply AtMost.bind (atMost_issue _)
      intro reached
      split
      · trivial
      · apply AtMost.bind (atMost_getState id)
        intro app_state
        split
        · trivial
        · exact ih

theorem atMost_waitForAppStop (id : Text) (timeout : ℕ) :
  (waitForAppStop id timeout).AtMost (timeout * WAIT_SLEEPS_PER_SECOND * 2 + 1)
  := by
  apply AtMost.bind (atMost_pollForAppStop id _)
  intro stopped
  split
  · trivial
  · apply AtMost.bind (n := 0) (atMost_getState id)
    intro app_state
    split <;> trivial

theorem atMost_killApp (id : Text) (timeout : ℕ) :
  (killApp id timeout).AtMost (timeout * WAIT_SLEEPS_PER_SECOND * 2 + 3)
  := by
  have hsum : timeout * WAIT_SLEEPS_PER_SECOND * 2 + 3
      = 1 + (timeout * WAIT_SLEEPS_PER_SECOND * 2 + 1 + 1) := by omega
  rw [hsum]
  apply AtMost.bind (atMost_catching (atMost_kill id _))
  rintro (error | _)
  · dsimp only
    split
    · exact (atMost_delete id).mono (by omega)
    · trivial
  · exact AtMost.bind (atMost_waitForAppStop id timeout) fun _ => atMost_delete id

/-- A second is waited for after SIGKILL, and three after SIGTERM. -/
theorem atMost_terminate (id : Text) :
  (terminate id).AtMost 85
  := by
  apply AtMost.bind (m := 1) (n := 84) (atMost_catching (atMost_kill id _))
  rintro (error | _)
  · dsimp only
    split
    · exact (atMost_delete id).mono (by decide)
    · split <;> trivial
  · apply AtMost.bind (m := 61) (n := 23) (atMost_catching (atMost_waitForAppStop id _))
    rintro (error | _)
    · exact atMost_killApp id _
    · exact (atMost_delete id).mono (by decide)

theorem atMost_runApp (id : Text) (app_path : FilePath) :
  (runApp id app_path).AtMost 4
  := by
  apply AtMost.bind (m := 3) (n := 1)
  · apply AtMost.bind (m := 1) (n := 2) (atMost_getState id)
    intro container_state
    split
    · trivial
    · apply AtMost.bind (m := 1) (n := 1) (atMost_issue _)
      intro found
      split
      · trivial
      · apply AtMost.bind (m := 1) (n := 0) (atMost_issue _)
        intro result
        split <;> trivial
  · exact fun _ => atMost_runOrRaise (atMost_issue _)

theorem atMost_rmtree (path : FilePath) :
  (rmtree path).AtMost 1
  := by
  apply AtMost.bind (m := 1) (n := 0) (atMost_issue _)
  intro removed
  split <;> trivial

theorem atMost_removeApp (app_name : Text) (app_path : FilePath) :
  (removeApp app_name app_path).AtMost 5
  := by
  apply AtMost.bind (m := 1) (n := 4) (atMost_issue _)
  intro found
  split
  · apply AtMost.bind (m := 1) (n := 3) (atMost_issue _)
    intro result
    split
    · apply AtMost.bind (m := 1) (n := 2) (atMost_rmtree _)
      intro _
      apply AtMost.bind (m := 1) (n := 1) (atMost_issue _)
      intro names
      split
      · exact atMost_rmtree _
      · trivial
    · apply AtMost.bind (m := 0) (n := 3)
      · unfold errorText
        split <;> trivial
      · exact fun _ => trivial
  · trivial

/-- A rollback issues at most so many calls. -/
def rollbackCalls (apps : List AppRecord) : ℕ :=
  1 + (apps.length * 85 + (apps.length * 5 + apps.length * 4))

theorem atMost_rollbackApps (apps : List AppRecord) :
  (rollbackApps apps).AtMost (rollbackCalls apps)
  := by
  apply AtMost.bind (atMost_issue _)
  intro _
  apply AtMost.bind
  · apply atMost_forEach
    intro app _
    apply AtMost.bind (m := 85) (n := 0) (atMost_catching (atMost_terminate _))
    rintro (error | _)
    · dsimp only
      split <;> trivial
    · trivial
  · intro _
    apply AtMost.bind
    · apply atMost_forEach
      intro app _
      exact atMost_removeApp _ _
    · intro _
      apply atMost_forEach
      intro app _
      cases app.cur_bundle_path with
      | none => trivial
      | some cur => exact atMost_runApp _ _

/-! ### A rollback that succeeds -/

/-- The `config.json` of a bundle is a file. -/
theorem IsBundle.config (h : IsBundle fs path) :
  ∃ content, fs.node (configPath path) = some (.file content)
  := by
  cases hconfig : (walkEntry fs path).config with
  | none =>
      have htop := h.2
      rw [isOciBundle, hconfig] at htop
      cases htop
  | some content =>
      use content
      unfold walkEntry at hconfig
      dsimp only at hconfig
      split at hconfig
      · rename_i hnode
        obtain rfl := Option.some.inj hconfig
        exact hnode
      · contradiction

theorem ReadyToStart.new_version (h : ReadyToStart apps before) :
  ∀ app ∈ apps, ∃ version, app.new_bundle_path = versionPath app.name version
  := fun app happ => (h.new_bundle app happ).2

theorem ReadyToStart.new_below {app : AppRecord} (h : ReadyToStart apps before) (happ : app ∈ apps) :
  APPS_PATH ++ [app.name] <+: app.new_bundle_path
  := by
  obtain ⟨version, hversion⟩ := h.new_version app happ
  rw [hversion]
  exact ⟨[version], rfl⟩

theorem ReadyToStart.eq_of_name {app app' : AppRecord} (h : ReadyToStart apps before)
    (happ : app ∈ apps) (happ' : app' ∈ apps) (hname : app.name = app'.name) :
  app = app'
  := List.inj_on_of_nodup_map h.names happ happ' hname

/-- The new bundle of one application is not at or above what is in the directory of another one. -/
theorem ReadyToStart.not_below {app app' : AppRecord} {p : FilePath} (h : ReadyToStart apps before)
    (happ : app ∈ apps) (happ' : app' ∈ apps) (hbelow : APPS_PATH ++ [app'.name] <+: p)
    (hp : app.new_bundle_path <+: p) :
  app = app'
  := by
  apply h.eq_of_name happ happ'
  by_contra hne
  exact (apart_of_names_ne hne (h.new_below happ) hbelow).1 hp

theorem ReadyToStart.installed (h : ReadyToStart apps before) (houtside : CurOutsideNew apps) :
  Installed apps before.fs
  where
  names := h.names
  new_dir app happ := isDir_eq_true.mp (h.new_bundle app happ).1.1
  new_ne_nil := by
    intro app happ
    obtain ⟨version, hversion⟩ := h.new_version app happ
    rw [hversion]
    exact versionPath_ne_nil _ _
  new_apart := by
    apply List.Nodup.pairwise_of_forall_ne (List.Nodup.of_map _ h.names)
    intro app happ app' happ' hne
    constructor
    · intro hp
      exact hne (h.not_below happ happ' (h.new_below happ') hp)
    · intro hp
      exact hne (h.not_below happ' happ (h.new_below happ) hp).symm
  cur_bundle app happ cur hcur := (h.cur_bundle app happ cur hcur).1.config
  cur_apart := by
    intro app happ app' happ' cur hcur hbelow
    obtain rfl := h.not_below happ happ' (h.cur_bundle app' happ' cur hcur).2.1 hbelow
    exact houtside app happ cur hcur hbelow

/-- The directory of an application is gone just when nothing but its new bundle was in it. -/
theorem ReadyToStart.cleared_directory_iff {app : AppRecord} (h : ReadyToStart apps before)
    (happ : app ∈ apps) :
  Cleared apps before.fs (APPS_PATH ++ [app.name]) ↔ ¬ Beside before.fs app.new_bundle_path
  := by
  constructor
  · rintro ⟨app', happ', hbelow | ⟨heq, halone⟩⟩
    · obtain ⟨version, hversion⟩ := h.new_version app' happ'
      have hlength := hbelow.length_le
      rw [hversion] at hlength
      simp [versionPath] at hlength
    · simp only [List.append_cancel_left_eq, List.cons.injEq, and_true] at heq
      rwa [h.eq_of_name happ happ' heq]
  · intro halone
    exact ⟨app, happ, Or.inr ⟨rfl, halone⟩⟩

/-- After a rollback the containers are as they were, and the disk is without the new bundles. -/
theorem ReadyToStart.restored (h : ReadyToStart apps before) (hback : RolledBack apps d)
    (hcleared : ClearedFrom apps before.fs d.fs)
    (hothers : ∀ id, id ∉ apps.map AppRecord.name → d.containers id = before.containers id) :
  PreviousRestored apps before d
  where
  removed app happ p hp := hcleared.gone p ⟨app, happ, Or.inl hp⟩
  runs app happ := (hback app happ).2
  gone := by
    intro app happ halone p hp
    have hdir := hcleared.gone _ ((h.cleared_directory_iff happ).mpr halone)
    by_cases heq : APPS_PATH ++ [app.name] = p
    · rw [← heq, hdir]
    · exact node_eq_none_below (by simp [hdir]) hp heq
  stays := by
    intro app happ hbeside
    rw [hcleared.kept _ fun hgone => (h.cleared_directory_iff happ).mp hgone hbeside]
    have hnew := isDir_eq_true.mp (h.new_bundle app happ).1.1
    apply dir_above (q := app.new_bundle_path) (by simp [hnew]) (h.new_below happ)
    intro heq
    obtain ⟨version, hversion⟩ := h.new_version app happ
    have hlength := congrArg List.length (heq.trans hversion)
    simp [versionPath] at hlength
  disk := by
    intro p hp
    apply hcleared.kept
    rintro ⟨app, happ, hbelow | ⟨heq, -⟩⟩
    · exact (hp app happ).1 hbelow
    · exact (hp app happ).2 heq
  others := hothers

/-- A rollback whose commands do what they are asked to returns and restores the previous versions,
whatever the containers of the applications are when it is called. -/
theorem rollbackApps_restores {xs : List Choice} (hready : ReadyToStart apps before)
    (houtside : CurOutsideNew apps)
    (hcalled : OnlyContainersOf (apps.map AppRecord.name) before d)
    (hsucceeds : Obeys machine RollbackSucceeds (rollbackApps apps) xs d)
    (hlength : rollbackCalls apps ≤ xs.length) :
  ∃ rest d', run machine (rollbackApps apps) xs d = (.returned (), rest, d') ∧
    PreviousRestored apps before d'
  := by
  have htruthful : Truthful RollbackSucceeds .rollBack := fun _ _ _ hphase hx => hx hphase
  have hinstalled : Installed apps d.fs := by
    rw [hcalled.fs]
    exact hready.installed houtside
  have hends := holds_of_wp (wp_and (wp_rollbackApps htruthful hinstalled)
    (wp_rollbackApps_cleared hready.names hready.new_version hcalled)) hsucceeds
  have hnot := (atMost_rollbackApps apps).run_ne_cut (m := machine) (w := d) hlength
  revert hends hnot
  generalize run machine (rollbackApps apps) xs d = result
  obtain ⟨outcome, rest, d'⟩ := result
  intro hends hnot
  cases outcome with
  | returned a =>
      obtain ⟨hback, hcleared, hothers⟩ := hends
      use rest, d', rfl
      exact hready.restored hback hcleared hothers
  | raised e => exact hends.1.elim
  | cut => exact absurd rfl hnot

/-! ### An application that is updated, and one that is new -/

def freshApp : AppRecord where
  name := ['b']
  cur_bundle_path := none
  new_bundle_path := bundlePath ['b'] 0
  ipk_path := "b.ipk".toList

/-- Both new bundles are installed, and version 0 of the first application runs. -/
def readyDevice : Device where
  fs := diskWith [bundlePath ['a'] 0, bundlePath ['a'] 1, bundlePath ['b'] 0]
  containers id := if id = ['a'] then some ⟨bundlePath ['a'] 0, .running⟩ else none
  phase := .install
  completed := [bundlePath ['a'] 1, bundlePath ['b'] 0]

/-- The new version of the first application runs, that of the other is not started. -/
def halfStartedDevice : Device :=
  (readyDevice.setContainer ['a'] (some ⟨bundlePath ['a'] 1, .running⟩)).setContainer ['b']
    (some ⟨bundlePath ['b'] 0, .created⟩)

/-- Commands that do what they are asked to. -/
theorem obeys_truthfully {p : Py Unit} (n : ℕ) :
  Obeys machine RollbackSucceeds p (List.replicate n truthfully) d
  := by
  apply obeys_of_forall
  intro x hx c d' _
  rw [List.eq_of_mem_replicate hx]
  rfl

/-- The previous version runs again, and nothing is left of the application that is new. -/
theorem rollbackApps_restores_two :
  ∃ rest d', run machine (rollbackApps [updatedApp, freshApp]) (List.replicate 189 truthfully)
      halfStartedDevice = (.returned (), rest, d') ∧
    PreviousRestored [updatedApp, freshApp] readyDevice d'
  := by
  have hready : ReadyToStart [updatedApp, freshApp] readyDevice := by
    constructor
    · decide
    · simp only [List.forall_mem_cons]
      exact ⟨⟨⟨rfl, rfl⟩, _, rfl⟩, ⟨⟨rfl, rfl⟩, _, rfl⟩, List.forall_mem_nil _⟩
    · simp only [List.forall_mem_cons]
      refine ⟨?_, fun _ h => absurd h (by simp [freshApp]), List.forall_mem_nil _⟩
      rintro cur ⟨⟩
      exact ⟨⟨rfl, rfl⟩, by decide, by decide⟩
    · decide
  have houtside : CurOutsideNew [updatedApp, freshApp] := by
    unfold CurOutsideNew
    decide
  have hcalled : OnlyContainersOf ([updatedApp, freshApp].map AppRecord.name) readyDevice
      halfStartedDevice := by
    apply OnlyContainersOf.setContainer _ (by decide)
    apply OnlyContainersOf.setContainer _ (by decide)
    apply OnlyContainersOf.refl
  apply rollbackApps_restores hready houtside hcalled (obeys_truthfully 189)
  rw [List.length_replicate]
  decide

/-- The directories of the applications hold no bundles but theirs. -/
def NoOtherBundle (apps : List AppRecord) (fs : Files) : Prop :=
  ∀ app ∈ apps, ∀ p, APPS_PATH ++ [app.name] <+: p → IsBundle fs p →
    p = app.new_bundle_path ∨ app.cur_bundle_path = some p

theorem noOtherBundle_of_scan {app : AppRecord} {bundles : List FilePath}
    (hbundles : ociBundles (walk fs (APPS_PATH ++ [app.name])) = .ok bundles)
    (h : ∀ p ∈ bundles, p = app.new_bundle_path ∨ app.cur_bundle_path = some p) :
  NoOtherBundle [app] fs
  := by
  intro app' happ' p hbelow hp
  rw [List.mem_singleton.mp happ'] at hbelow ⊢
  exact h p ((mem_ociBundles_walk hbundles).mpr ⟨hbelow, hp⟩)

/-- A directory that is no bundle is beside the only version of an application. -/
def notesDevice : Device where
  fs := (diskWith [bundlePath ['b'] 0]).mkdirs (APPS_PATH ++ [['b'], "notes".toList])
  containers _ := none
  phase := .install
  completed := [bundlePath ['b'] 0]

/-- An application whose previous bundle is inside of the new one. -/
def nestedApp : AppRecord where
  name := ['a']
  cur_bundle_path := some (bundlePath ['a'] 1 ++ ["0".toList])
  new_bundle_path := bundlePath ['a'] 1
  ipk_path := "a.ipk".toList

def nestedDevice : Device where
  fs := diskWith [bundlePath ['a'] 1, bundlePath ['a'] 1 ++ ["0".toList]]
  containers id :=
    if id = ['a'] then some ⟨bundlePath ['a'] 1 ++ ["0".toList], .running⟩ else none
  phase := .install
  completed := [bundlePath ['a'] 1]

theorem notesDevice_ready :
  ReadyToStart [freshApp] notesDevice ∧ NoOtherBundle [freshApp] notesDevice.fs
  := by
  constructor
  · constructor
    · decide
    · rw [List.forall_mem_singleton]
      exact ⟨⟨rfl, rfl⟩, _, rfl⟩
    · rw [List.forall_mem_singleton]
      exact fun _ h => absurd h (by simp [freshApp])
    · decide
  · have hbundles : ociBundles (walk notesDevice.fs (APPS_PATH ++ [freshApp.name]))
        = .ok [bundlePath ['b'] 0] := rfl
    exact noOtherBundle_of_scan hbundles (by decide)

theorem nestedDevice_ready :
  ReadyToStart [nestedApp] nestedDevice ∧ NoOtherBundle [nestedApp] nestedDevice.fs
  := by
  constructor
  · constructor
    · decide
    · rw [List.forall_mem_singleton]
      exact ⟨⟨rfl, rfl⟩, _, rfl⟩
    · rw [List.forall_mem_singleton]
      rintro cur ⟨⟩
      exact ⟨⟨rfl, rfl⟩, by decide, by decide⟩
    · decide
  · have hbundles : ociBundles (walk nestedDevice.fs (APPS_PATH ++ [nestedApp.name]))
        = .ok [bundlePath ['a'] 1 ++ ["0".toList], bundlePath ['a'] 1] := rfl
    exact noOtherBundle_of_scan hbundles (by decide)

set_option maxRecDepth 4000 in
/-- What is no bundle keeps the directory of a new application; and a previous bundle inside of the
new one is removed with it, and cannot be run. -/
theorem not_rollbackApps_restores :
  (ReadyToStart [freshApp] notesDevice ∧ NoOtherBundle [freshApp] notesDevice.fs ∧
    Obeys machine RollbackSucceeds (rollbackApps [freshApp]) (List.replicate 6 truthfully)
      notesDevice ∧
    ∃ rest d', run machine (rollbackApps [freshApp]) (List.replicate 6 truthfully) notesDevice
        = (.returned (), rest, d') ∧
      d'.fs.isDir (APPS_PATH ++ [freshApp.name]) = true) ∧
  (ReadyToStart [nestedApp] nestedDevice ∧ NoOtherBundle [nestedApp] nestedDevice.fs ∧
    Obeys machine RollbackSucceeds (rollbackApps [nestedApp]) (List.replicate 9 truthfully)
      (nestedDevice.setContainer nestedApp.name none) ∧
    ∃ e rest d', run machine (rollbackApps [nestedApp]) (List.replicate 9 truthfully)
      (nestedDevice.setContainer nestedApp.name none) = (.raised e, rest, d'))
  := by
  constructor
  · exact ⟨notesDevice_ready.1, notesDevice_ready.2, obeys_truthfully 6, _, _, rfl, rfl⟩
  · exact ⟨nestedDevice_ready.1, nestedDevice_ready.2, obeys_truthfully 9, _, _, _, rfl⟩

end App
