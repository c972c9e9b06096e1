import MblCore.App.Versions

/-!
# The calls of an update

Which calls the parts of an update issue.  Among the calls are all that neither install nor
remove anything; what else is among them is told by the paths of the applications.
-/

namespace App

open FileTree
open Prog hiding pure throw bind

/-- The calls that neither install nor remove anything. -/
def Quiet : Call → Prop
  | .opkgInstall _ _ _ | .opkgRemove _ _ | .rmtree _ => False
  | _ => True

theorem Asks.quiet {c : Call} (hc : Asks c) :
  Quiet c
  := by
  cases c with
  | opkgInstall _ _ _ | opkgRemove _ _ | rmtree _ => exact hc.elim
  | _ => trivial

theorem ContainerCall.quiet {id : Text} {c : Call} (hc : ContainerCall id c) :
  Quiet c
  := by
  cases c with
  | opkgInstall _ _ _ | opkgRemove _ _ | rmtree _ => exact hc.elim
  | _ => trivial

/-- What neither installs nor removes anything leaves the disk. -/
theorem perform_quiet {c : Call} {x : Choice} {d : Device} (hc : Quiet c) :
  (perform c x d).2.fs = d.fs
  := by
  have hcontainer {id : Text} (hid : ContainerCall id c) : (perform c x d).2.fs = d.fs := by
    obtain ⟨k, hk⟩ := perform_containerCall (d := d) (x := x) hid
    rw [hk]
    rfl
  cases c with
  | runcState id | runcKill id signal | runcDelete id | runcCreate bundle_path id
  | runcStart id => exact hcontainer (show ContainerCall id _ from rfl)
  | opkgInstall _ _ _ | opkgRemove _ _ | rmtree _ => exact hc.elim
  | log line => cases line <;> rfl
  | _ => rfl

/-- What is known of the disk stays known where nothing is installed or removed. -/
theorem wp_of_quiet {α : Type} {adm : Call → Choice → Device → Prop} {p : Py α} {d : Device}
    (Inv : Files → Prop) (hp : Issues Quiet p) (hd : Inv d.fs) :
  wp machine adm p (Post.always fun d' => Inv d'.fs) d
  := by
  apply wp_of_issues (fun d' : Device => Inv d'.fs) hp _ hd
  intro c x d' hc _ hd'
  have hfs := perform_quiet (x := x) (d := d') hc
  change Inv (perform c x d').2.fs
  rwa [hfs]

variable {calls : Call → Prop} (hquiet : ∀ c, Quiet c → calls c)
include hquiet

/-! ### Naming and scanning -/

theorem issues_unpack (update_pkg : UpdatePkg) :
  Issues calls (unpack update_pkg)
  := by
  obtain ⟨path, _ | tar_file⟩ := update_pkg
  · trivial
  · apply Issues.bind (issues_ofExcept _)
    intro members
    split
    · trivial
    · apply Issues.bind (issues_issue.mpr (hquiet _ (by trivial)))
      intro result
      split <;> trivial

theorem issues_getAppName (app_pkg : Text) :
  Issues calls (getAppName app_pkg)
  := by
  rw [getAppName_eq]
  apply Issues.bind (issues_issue.mpr (hquiet _ (by trivial)))
  intro result
  apply issues_ofExcept

theorem issues_getAppBundlePaths (app_name : Text) :
  Issues calls (getAppBundlePaths app_name)
  := by
  rw [getAppBundlePaths_eq]
  apply Issues.bind (issues_issue.mpr (hquiet _ (by trivial)))
  intro found
  split
  · apply Issues.bind (issues_issue.mpr (hquiet _ (by trivial)))
    intro entries
    apply issues_ofExcept
  · trivial

/-! ### Installing -/

/-- What is left of an installation that fails is removed. -/
theorem issues_afterInstallFails {app_name : Text} {path : FilePath} {result : CmdResult}
    {error : Text → PyException} (h : Removes calls app_name path) :
  Issues calls (errorText result >>= fun text =>
    cleanUp app_name path >>= fun _ => (.throw (error text) : Py Unit))
  := by
  apply Issues.bind (issues_errorText _)
  intro text
  apply Issues.bind (issues_cleanUp (fun c hc => hquiet c hc.quiet) h)
  intro _
  trivial

theorem issues_installApp {app_pkg : Text} {path : FilePath}
    (hinstall : ∀ app_name, calls (.opkgInstall app_name path app_pkg))
    (hremoves : ∀ app_name, Removes calls app_name path) :
  Issues calls (installApp app_pkg path)
  := by
  apply Issues.bind (issues_getAppName hquiet app_pkg)
  intro app_name
  apply Issues.bind (issues_issue.mpr (hinstall app_name))
  intro result
  split
  · trivial
  · exact issues_afterInstallFails hquiet (hremoves app_name)

section Installed

variable {apps : List AppRecord}
  (hnew : ∀ app ∈ apps, Removes calls app.name app.new_bundle_path)
include hnew

theorem issues_removeAfterInstallError {α : Type} (install_error : PyException) :
  Issues calls (removeAfterInstallError apps install_error : Py α)
  := by
  apply Issues.bind
  · apply issues_catching
    exact issues_removeNewBundles (fun c hc => hquiet c hc.quiet) hnew
  · rintro (uninstall_error | _) <;> trivial

/-! ### Running -/

theorem issues_rollbackApps :
  Issues calls (rollbackApps apps)
  := by
  have hcontainers : ∀ id c, ContainerCall id c → calls c := fun id c hc => hquiet c hc.quiet
  apply Issues.bind (issues_issue.mpr (hquiet _ (by trivial)))
  intro _
  apply Issues.bind (issues_stopAllNewlyInstalledApps hcontainers apps)
  intro _
  apply Issues.bind (issues_removeNewBundles (fun c hc => hquiet c hc.quiet) hnew)
  intro _
  exact issues_runPreviousAppVersions hcontainers apps

theorem issues_orRollBack {p : Py Unit} {classes : List ExceptionClass} (hp : Issues calls p) :
  Issues calls (orRollBack apps p classes)
  := by
  apply Issues.bind (issues_catching hp)
  rintro (error | _)
  · apply Issues.bind (issues_catching (issues_rollbackApps hquiet hnew))
    rintro (rollback_error | _) <;> trivial
  · trivial

theorem issues_switchVersions :
  Issues calls (switchVersions apps)
  := by
  apply Issues.bind
  · apply issues_forEach
    intro app _
    apply Issues.bind (issues_issue.mpr (hquiet _ (by trivial)))
    intro _
    apply issues_orRollBack hquiet hnew
    exact (issues_terminateApp _ _).mono fun c hc => hquiet c hc.quiet
  · intro _
    apply issues_forEach
    intro app _
    apply Issues.bind (issues_issue.mpr (hquiet _ (by trivial)))
    intro _
    apply issues_orRollBack hquiet hnew
    exact (issues_runApp _).mono fun c hc => hquiet c hc.quiet

theorem issues_startInstalledApps
    (hcur : ∀ app ∈ apps, ∀ path ∈ app.cur_bundle_path, Removes calls app.name path) :
  Issues calls (startInstalledApps apps)
  := by
  apply Issues.bind (issues_switchVersions hquiet hnew)
  intro _
  exact issues_removeAppsBundles (fun c hc => hquiet c hc.quiet) hcur

end Installed

end App
