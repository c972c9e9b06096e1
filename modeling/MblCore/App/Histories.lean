import MblCore.Lib.Lts
import MblCore.App.InstallPhase
import MblCore.App.Tidy

/-!
# Histories of a device

The history of a device is a sequence of updates and reboots.  A reboot ends all containers and
executes `run-all`.  On a device that had no applications in the beginning the disk is tidy after
every history, whatever the commands of it do.
-/

namespace App

open FileTree
open Prog hiding pure throw bind

/-! ### Events -/

/-- What happens to a device, with the outcomes of the calls that are issued. -/
inductive Event
  | update (update_pkg : UpdatePkg) (xs : List Choice)
  | reboot (xs : List Choice)

/-- No container is there after the power was off. -/
def restart (d : Device) : Device :=
  { d with containers := fun _ => none }

/-- The device after an event. -/
def happen (d : Device) : Event → Device
  | .update update_pkg xs => (run machine (runMblAppUpdateManager update_pkg) xs d).2.2
  | .reboot xs => (run machine runAllAction xs (restart d)).2.2

/-- A device takes part in every event. -/
def stepDevice (d : Device) (event : Event) : Option Device :=
  some (happen d event)

/-- The applications have names of directories, and `opkg` leaves nothing but plain bundles. -/
def PlainPackages (c : Call) (x : Choice) (d : Device) : Prop :=
  PlainNames c x d ∧ PlainBundles c x d

instance (c : Call) (x : Choice) (d : Device) : Decidable (PlainPackages c x d) :=
  inferInstanceAs (Decidable (_ ∧ _))

/-- The packages that come in an event are plain. -/
def PlainEvent (d : Device) : Event → Prop
  | .update update_pkg xs => Obeys machine PlainPackages (runMblAppUpdateManager update_pkg) xs d
  | .reboot xs => Obeys machine PlainPackages runAllAction xs (restart d)

instance (d : Device) : ∀ event : Event, Decidable (PlainEvent d event)
  | .update _ _ => inferInstanceAs (Decidable (Obeys _ _ _ _ _))
  | .reboot _ => inferInstanceAs (Decidable (Obeys _ _ _ _ _))

/-- There are no applications on a device. -/
def WithoutApps (d : Device) : Prop :=
  d.fs.isDir APPS_PATH = true ∧ d.fs.children APPS_PATH = []

instance (d : Device) : Decidable (WithoutApps d) :=
  inferInstanceAs (Decidable (_ ∧ _))

/-! ### An update -/

variable {adm : Call → Choice → Device → Prop} {d : Device} {apps : List AppRecord}
  (hplain : ∀ c x d, adm c x d → PlainPackages c x d)

/-- The bundles of an application are versions of it. -/
structure Versioned (app : AppRecord) : Prop where
  name : PlainName app.name
  new : ∃ m, app.new_bundle_path = bundlePath app.name m
  cur : ∀ cur, app.cur_bundle_path = some cur → ∃ m, cur = bundlePath app.name m

theorem removes_bundlePath {app_name n : Text} {m : ℕ} (hname : PlainName n) :
  Removes VersionCall app_name (bundlePath n m)
  := by
  constructor
  · exact ⟨n, m, hname, rfl⟩
  · use n
    rw [bundlePath_eq_concat]
    apply List.prefix_append
  · intro _
    use n
    rw [bundlePath_eq_concat, List.dropLast_concat]

theorem Versioned.removesNew {app : AppRecord} (h : Versioned app) :
  Removes VersionCall app.name app.new_bundle_path
  := by
  obtain ⟨m, hm⟩ := h.new
  rw [hm]
  exact removes_bundlePath h.name

theorem Versioned.removesCur {app : AppRecord} (h : Versioned app) {path : FilePath}
    (hpath : path ∈ app.cur_bundle_path) :
  Removes VersionCall app.name path
  := by
  obtain ⟨m, rfl⟩ := h.cur path hpath
  exact removes_bundlePath h.name

include hplain

/-- A tidy disk stays tidy when only versions are installed and removed. -/
theorem wp_tidy_of_issues {α : Type} {p : Py α} (hp : Issues VersionCall p) (hd : Tidy d.fs) :
  wp machine adm p (Post.always fun d' => Tidy d'.fs) d
  := by
  apply wp_of_issues (fun d' : Device => Tidy d'.fs) hp _ hd
  intro c x d' hc hx hd'
  exact hd'.perform hc (hplain c x d' hx).2

theorem wp_getAppName_tidy {app_pkg : Text} (hd : Tidy d.fs) :
  wp machine adm (getAppName app_pkg)
    { returned := fun app_name d' => PlainName app_name ∧ Tidy d'.fs
      raised := fun _ d' => Tidy d'.fs
      cut := fun d' => Tidy d'.fs } d
  := by
  apply wp_getAppName
  · exact hd
  · intro x app_name hx hname
    exact ⟨(hplain _ _ _ hx).1 app_name hname, hd⟩
  · exact fun _ _ _ _ => hd

omit hplain in
/-- The next path of an application is that of a version, and so is the current one. -/
theorem wp_getAppBundlePaths_tidy {app_name : Text} (hname : PlainName app_name) (ipk_path : Text)
    (hd : Tidy d.fs) :
  wp machine adm (getAppBundlePaths app_name)
    { returned := fun paths d' => Tidy d'.fs ∧ ∀ cur new, paths = some (cur, new) →
        Versioned ⟨app_name, cur, new, ipk_path⟩
      raised := fun _ d' => Tidy d'.fs
      cut := fun d' => Tidy d'.fs } d
  := by
  apply wp_getAppBundlePaths hname
  · exact hd
  · intro _
    use hd
    rintro cur new heq
    cases heq
    exact ⟨hname, ⟨0, rfl⟩, fun _ h => by contradiction⟩
  · intro x paths _ hdir hpaths
    use hd
    rintro cur new rfl
    obtain ⟨lowest, highest, -, -, hcur, hnew⟩ :=
      bundlePathsOf_of_plainVersions (hd.plainVersions app_name) hpaths
    refine ⟨hname, ⟨highest + 1, hnew⟩, ?_⟩
    rintro p hp
    use lowest
    exact Option.some.inj (hp.symm.trans hcur)
  · exact fun _ _ _ _ => hd

theorem wp_manageAppInstallation_tidy {ipk_path : Text} (hd : Tidy d.fs) :
  wp machine adm (manageAppInstallation ipk_path)
    { returned := fun app d' => Versioned app ∧ Tidy d'.fs
      raised := fun _ d' => Tidy d'.fs
      cut := fun d' => Tidy d'.fs } d
  := by
  rw [manageAppInstallation, wp_bind]
  apply (wp_getAppName_tidy hplain hd).of_returned
  rintro app_name d' ⟨hname, hd'⟩
  rw [wp_bind]
  apply (wp_getAppBundlePaths_tidy hname ipk_path hd').of_returned
  rintro (_ | ⟨cur, new⟩) d'' ⟨hd'', hpaths⟩
  · exact hd''
  · have happ := hpaths cur new rfl
    obtain ⟨m, hm⟩ := happ.new
    obtain rfl : new = bundlePath app_name m := hm
    dsimp only
    rw [wp_bind]
    have hissues : Issues VersionCall (installApp ipk_path (bundlePath app_name m)) := by
      apply issues_installApp Quiet.versionCall
      · exact fun _ => ⟨app_name, m, hname, rfl⟩
      · exact fun _ => removes_bundlePath hname
    apply (wp_tidy_of_issues hplain hissues hd'').of_returned
    exact fun _ _ h => ⟨happ, h⟩

theorem wp_installAppsFrom_tidy (ipks : List Text) (happs : ∀ app ∈ apps, Versioned app)
    (hd : Tidy d.fs) :
  wp machine adm (installAppsFrom apps ipks)
    { returned := fun apps' d' => (∀ app ∈ apps', Versioned app) ∧ Tidy d'.fs
      raised := fun _ d' => Tidy d'.fs
      cut := fun d' => Tidy d'.fs } d
  := by
  induction ipks generalizing apps d with
  | nil => exact ⟨happs, hd⟩
  | cons ipk ipks ih =>
      rw [installAppsFrom, wp_bind, wp_catching]
      apply (wp_manageAppInstallation_tidy hplain hd).mono
      · rintro app d' ⟨happ, hd'⟩
        apply ih _ hd'
        simpa [or_imp, forall_and, happ] using happs
      · intro e d' hd'
        dsimp only
        split
        · rw [removeAfterInstallError, wp_bind, wp_catching]
          have hissues : Issues VersionCall (removeAppsBundles NEW_BUNDLE_PATH apps) :=
            issues_removeNewBundles (fun c hc => Quiet.versionCall c hc.quiet)
              fun app happ => (happs app happ).removesNew
          apply (wp_tidy_of_issues hplain hissues hd').mono
          · exact fun _ _ h => h
          · intro e' d'' hd''
            dsimp only
            split <;> exact hd''
          · exact fun _ h => h
        · exact hd'
      · exact fun _ h => h

/-- A tidy disk is tidy after an update, and at every point of it. -/
theorem wp_runMblAppUpdateManager_tidy (update_pkg : UpdatePkg) (hd : Tidy d.fs) :
  wp machine adm (runMblAppUpdateManager update_pkg) (Post.always fun d' => Tidy d'.fs) d
  := by
  apply wp_always_bind
  · exact wp_tidy_of_issues hplain (issues_unpack Quiet.versionCall update_pkg) hd
  · intro ipks d' hd'
    rw [wp_bind]
    apply (wp_installAppsFrom_tidy hplain ipks (List.forall_mem_nil _) hd').of_returned
    rintro apps d'' ⟨happs, hd''⟩
    apply wp_always_bind
    · apply wp_tidy_of_issues hplain _ hd''
      apply issues_startInstalledApps Quiet.versionCall
      · exact fun app happ => (happs app happ).removesNew
      · exact fun app happ path hpath => (happs app happ).removesCur hpath
    · exact fun _ _ h => h

/-! ### A reboot -/

/-- What `run-all` removes for an application is in the directory of the application. -/
theorem wp_runAppFromParentDir_tidy {name : Text} (hname : PlainName name) (hd : Tidy d.fs) :
  wp machine adm (runAppFromParentDir name) (Post.always fun d' => Tidy d'.fs) d
  := by
  rw [runAppFromParentDir_eq, joinPath_of_plain _ hname, wp_bind, wp_issue]
  refine ⟨hd, fun x _ => ?_⟩
  dsimp only
  split
  · rw [wp_bind, wp_issue]
    refine ⟨hd, fun x _ => ?_⟩
    change wp machine adm (ofExcept (sortedBundles (walk d.fs (APPS_PATH ++ [name]))) >>= _) _ d
    rw [wp_bind, wp_ofExcept]
    split
    · rename_i sorted hsorted
      cases sorted with
      | nil => exact hd
      | cons valid_version invalid_versions =>
          apply wp_tidy_of_issues hplain _ hd
          apply Issues.bind
          · exact (issues_runApp valid_version).mono fun c hc => Quiet.versionCall c hc.quiet
          · intro _
            apply issues_forEach
            intro p hp
            apply issues_rmtree
            exact ⟨name, ((mem_sortedBundles hsorted).mp (List.mem_cons_of_mem _ hp)).1⟩
    · exact hd
  · exact hd

omit hplain in
/-- `run-all` goes through the directories in `/home/app`. -/
theorem wp_runAllAction {Q : Post Device PyException Unit} (happs : d.fs.isDir APPS_PATH = true)
    (hcut : Q.cut d)
    (h : wp machine adm (forEach (subdirs d.fs APPS_PATH) runAppFromParentDir) Q d) :
  wp machine adm runAllAction Q d
  := by
  rw [runAllAction, wp_bind, wp_issue]
  refine ⟨hcut, fun x _ => ?_⟩
  have hwalk : (machine.perform (.walk APPS_PATH "app".toList) x d).1 = walk d.fs APPS_PATH := rfl
  rw [hwalk, walk, if_pos happs]
  exact h

/-- A tidy disk is tidy after a reboot, and at every point of it. -/
theorem wp_runAllAction_tidy (hd : Tidy d.fs) :
  wp machine adm runAllAction (Post.always fun d' => Tidy d'.fs) d
  := by
  apply wp_runAllAction hd.apps_dir hd
  apply wp_forEach fun _ _ d' => Tidy d'.fs
  · intro done name todo d' hsplit hd'
    have hname : PlainName name := by
      apply hd.names
      rw [isDir_eq_true, ← mem_subdirs, hsplit]
      simp
    exact wp_runAppFromParentDir_tidy hplain hname hd'
  · exact fun _ h => h
  · exact hd

omit hplain

/-! ### Histories -/

/-- The disk of a device without applications is tidy. -/
theorem WithoutApps.tidy (h : WithoutApps d) :
  Tidy d.fs
  := by
  have hchild (n : Text) : d.fs.node (APPS_PATH ++ [n]) = none := by
    by_contra hnode
    have hmem := mem_children.mpr hnode
    rw [h.2] at hmem
    contradiction
  have hnone {n : Text} {p : FilePath} (hp : APPS_PATH ++ [n] <+: p) : d.fs.node p = none := by
    by_cases heq : APPS_PATH ++ [n] = p
    · rw [← heq, hchild]
    · exact node_eq_none_below (by simp [hchild]) hp heq
  constructor
  · exact h.1
  · intro n hdir
    simp [isDir_eq_true, hchild] at hdir
  · intro p content hp hfile
    obtain ⟨q, rfl⟩ := hp
    cases q with
    | nil =>
        rw [List.append_nil, isDir_eq_true.mp h.1] at hfile
        cases hfile
    | cons n q =>
        have hbelow : APPS_PATH ++ [n] <+: APPS_PATH ++ n :: q := ⟨q, by simp⟩
        rw [hnone hbelow] at hfile
        cases hfile
  · intro n m q hdir
    rw [isDir_eq_true, hnone (n := n)] at hdir
    · contradiction
    · rw [bundlePath_eq_concat, List.append_assoc]
      apply List.prefix_append

/-- Whatever the commands of a history do, the disk is tidy after it. -/
theorem tidy_of_history {start : Device} {events : List Event} (hstart : WithoutApps start)
    (hevents : Lts.Meets stepDevice PlainEvent start events)
    (hrun : Lts.exec stepDevice start events = some d) :
  Tidy d.fs
  := by
  apply Lts.invariant (fun d : Device => Tidy d.fs) _ hstart.tidy hevents hrun
  rintro d event _ hd hevent ⟨rfl⟩
  cases event with
  | update update_pkg xs =>
      exact of_wp_always (wp_runMblAppUpdateManager_tidy (fun _ _ _ h => h) update_pkg hd) hevent
  | reboot xs =>
      have hrestart : Tidy (restart d).fs := hd
      exact of_wp_always (wp_runAllAction_tidy (fun _ _ _ h => h) hrestart) hevent

end App
