import MblCore.App.BrokenApp
import MblCore.App.OwnApps

/-!
# Applications that cannot be updated any more

The next path of an application is found by its bundles.  When the directory of an application is
there without a bundle in it, there is no next path: each update with the application ends with an
exception, which nothing catches, and `run-all` finds nothing to run or to remove.  So the directory
stays as it is for ever.  It is left behind when `opkg` fails to install the first version and
fails to remove what it has left.
-/

namespace App

open FileTree
open Prog hiding pure throw bind

/-- The directory of an application is there without a bundle in it. -/
structure Stuck (app_name : Text) (fs : Files) : Prop where
  dir : fs.isDir (APPS_PATH ++ [app_name]) = true
  bundles : ∀ p, APPS_PATH ++ [app_name] <+: p → ¬ IsBundle fs p
  names : ∀ n, fs.isDir (APPS_PATH ++ [n]) = true → PlainName n

/-- An application is stuck, and nothing in its directory has changed. -/
structure StuckSince (app_name : Text) (before fs : Files) : Prop where
  stuck : Stuck app_name fs
  disk : ∀ p, APPS_PATH ++ [app_name] <+: p → fs.node p = before.node p

/-- What is installed or removed is in the directory of another application. -/
def Elsewhere (app_name : Text) : Call → Prop
  | .opkgInstall _ path _ | .opkgRemove _ path | .rmtree path =>
      ∃ other, other ≠ app_name ∧ Inside other path
  | _ => True

variable {app_name : Text} {before : Files} {d : Device} {c : Call} {x : Choice} {p : FilePath}
  {adm : Call → Choice → Device → Prop}

/-! ### What others do -/

theorem Quiet.elsewhere (c : Call) (hc : Quiet c) :
  Elsewhere app_name c
  := by
  cases c with
  | opkgInstall _ _ _ | opkgRemove _ _ | rmtree _ => exact hc.elim
  | _ => trivial

/-- What is in the directory of an application is removed. -/
theorem Inside.removesElsewhere {other : Text} {path : FilePath} (h : Inside other path)
    (hne : other ≠ app_name) (name : Text) :
  Removes (Elsewhere app_name) name path
  where
  opkgRemove := ⟨other, hne, h⟩
  rmtree := ⟨other, hne, h⟩
  parent := fun hparent => ⟨other, hne, h.dropLast hparent⟩

/-- What is in the directory of an application stays when something is installed or removed
elsewhere. -/
theorem node_perform_elsewhere (hc : Elsewhere app_name c) (hp : APPS_PATH ++ [app_name] <+: p) :
  (perform c x d).2.fs.node p = d.fs.node p
  := by
  cases c with
  | opkgInstall name path app_pkg =>
      obtain ⟨other, hne, hinside⟩ := hc
      exact node_opkgInstall (apart_of_names_ne hne hinside.2 hp)
  | opkgRemove name path =>
      obtain ⟨other, hne, hinside⟩ := hc
      exact node_opkgRemove (apart_of_names_ne hne hinside.2 hp)
  | rmtree path =>
      obtain ⟨other, hne, hinside⟩ := hc
      simp only [perform]
      split
      · exact node_remove_elsewhere _ (apart_of_names_ne hne hinside.2 hp).1
      · rfl
  | _ => rw [perform_quiet (by trivial)]

/-- A name that is not plain is not that of an application something is done to. -/
theorem Elsewhere.of_not_plain {n : Text} (hc : Elsewhere app_name c) (hn : ¬ PlainName n) :
  Elsewhere n c
  := by
  cases c with
  | opkgInstall _ _ _ | opkgRemove _ _ | rmtree _ =>
      obtain ⟨other, -, hplain, hbelow⟩ := hc
      refine ⟨other, ?_, hplain, hbelow⟩
      rintro rfl
      exact hn hplain
  | _ => trivial

theorem Stuck.perform (h : Stuck app_name d.fs) (hc : Elsewhere app_name c) :
  Stuck app_name (perform c x d).2.fs
  := by
  have hsame : ∀ q, APPS_PATH ++ [app_name] <+: q → (App.perform c x d).2.fs.node q = d.fs.node q :=
    fun q hq => node_perform_elsewhere hc hq
  constructor
  · rw [isDir_eq_true, hsame _ List.prefix_rfl]
    exact isDir_eq_true.mp h.dir
  · intro q hq
    rw [isBundle_congr fun r hr => hsame r (hq.trans hr)]
    exact h.bundles q hq
  · intro n hdir
    by_contra hn
    have hsame := node_perform_elsewhere (d := d) (x := x) (hc.of_not_plain hn) List.prefix_rfl
    rw [isDir_eq_true, hsame, ← isDir_eq_true] at hdir
    exact hn (h.names n hdir)

theorem StuckSince.perform (h : StuckSince app_name before d.fs) (hc : Elsewhere app_name c) :
  StuckSince app_name before (perform c x d).2.fs
  := by
  constructor
  · exact h.stuck.perform hc
  · intro q hq
    rw [node_perform_elsewhere hc hq]
    exact h.disk q hq

theorem wp_stuckSince {α : Type} {q : Py α} (hq : Issues (Elsewhere app_name) q)
    (h : StuckSince app_name before d.fs) :
  wp machine adm q (Post.always fun d' => StuckSince app_name before d'.fs) d
  := by
  apply wp_of_issues (fun d' : Device => StuckSince app_name before d'.fs) hq _ h
  exact fun _ _ _ hc _ hd => hd.perform hc

/-! ### What finds no bundle -/

/-- A scan of the directory finds nothing, unless it fails. -/
theorem Stuck.sortedBundles {fs : Files} {sorted : List FilePath} (h : Stuck app_name fs)
    (hsorted : sortedBundles (walk fs (APPS_PATH ++ [app_name])) = .ok sorted) :
  sorted = []
  := by
  apply List.eq_nil_iff_forall_not_mem.mpr
  intro q hq
  obtain ⟨hbelow, hbundle⟩ := (mem_sortedBundles hsorted).mp hq
  exact h.bundles q hbelow hbundle

/-- There is no next path for the application. -/
theorem Stuck.bundlePathsOf {fs : Files} {paths : Option (Option FilePath × FilePath)}
    (h : Stuck app_name fs)
    (hpaths : bundlePathsOf app_name (APPS_PATH ++ [app_name])
      (walk fs (APPS_PATH ++ [app_name])) = .ok paths) :
  paths = none
  := by
  cases paths with
  | none => rfl
  | some paths =>
      obtain ⟨sorted, current_path, last, version, hsorted, hhead, -, -, -, -⟩ :=
        bundlePathsOf_eq_some hpaths
      rw [h.sortedBundles hsorted] at hhead
      contradiction

/-- What `get_app_bundle_paths` tells of other applications is in their directories. -/
theorem wp_getAppBundlePaths_stuck {name : Text} (hname : PlainName name)
    (h : StuckSince app_name before d.fs) :
  wp machine adm (getAppBundlePaths name)
    { returned := fun paths d' => StuckSince app_name before d'.fs ∧
        ∀ cur new, paths = some (cur, new) → name ≠ app_name ∧ Inside name new ∧
          ∀ path, cur = some path → Inside name path
      raised := fun _ d' => StuckSince app_name before d'.fs
      cut := fun d' => StuckSince app_name before d'.fs } d
  := by
  apply wp_getAppBundlePaths hname
  · exact h
  · intro habsent
    use h
    rintro cur new heq
    obtain ⟨rfl, rfl⟩ := Prod.mk.inj (Option.some.inj heq)
    refine ⟨?_, ⟨hname, ["0".toList], by simp⟩, fun _ hnone => by contradiction⟩
    rintro rfl
    rw [h.stuck.dir] at habsent
    contradiction
  · intro y paths _ _ hpaths
    use h
    rintro cur new rfl
    obtain ⟨hnew, hcur⟩ := prefix_of_bundlePathsOf hpaths
    refine ⟨?_, ⟨hname, hnew⟩, fun path hpath => ⟨hname, hcur path hpath⟩⟩
    rintro rfl
    have hnone := h.stuck.bundlePathsOf hpaths
    contradiction
  · exact fun _ _ _ _ => h

/-! ### Updates -/

variable {apps : List AppRecord} (hplain : ∀ c x d, adm c x d → PlainNames c x d)
include hplain

/-- An application that was installed is not the one that is stuck. -/
theorem wp_manageAppInstallation_stuck (ipk_path : Text) (h : StuckSince app_name before d.fs) :
  wp machine adm (manageAppInstallation ipk_path)
    { returned := fun app d' => Own (· ≠ app_name) app ∧ StuckSince app_name before d'.fs
      raised := fun _ d' => StuckSince app_name before d'.fs
      cut := fun d' => StuckSince app_name before d'.fs } d
  := by
  rw [manageAppInstallation, wp_bind]
  apply wp_getAppName
  · exact h
  · intro x name hx hnameOf
    have hname : PlainName name := hplain _ _ _ hx name hnameOf
    dsimp only
    rw [wp_bind]
    apply (wp_getAppBundlePaths_stuck hname h).of_returned
    rintro (_ | ⟨cur, new⟩) d' ⟨hd', hpaths⟩
    · exact hd'
    · obtain ⟨hne, hnew, hcur⟩ := hpaths cur new rfl
      dsimp only
      rw [wp_bind]
      have hissues : Issues (Elsewhere app_name) (installApp ipk_path new) := by
        apply issues_installApp Quiet.elsewhere
        · exact fun _ => ⟨name, hne, hnew⟩
        · exact fun _ => hnew.removesElsewhere hne _
      apply (wp_stuckSince hissues hd').of_returned
      exact fun _ _ hd'' => ⟨⟨hne, hnew, hcur⟩, hd''⟩
  · exact fun _ _ _ _ => h

omit hplain in
/-- What is removed of an application that is not stuck is in its directory. -/
theorem Own.removesElsewhere {app : AppRecord} (h : Own (· ≠ app_name) app) :
  Removes (Elsewhere app_name) app.name app.new_bundle_path
  := h.new.removesElsewhere h.name _

theorem wp_installAppsFrom_stuck (ipks : List Text) (happs : ∀ app ∈ apps, Own (· ≠ app_name) app)
    (h : StuckSince app_name before d.fs) :
  wp machine adm (installAppsFrom apps ipks)
    { returned := fun apps' d' =>
        (∀ app ∈ apps', Own (· ≠ app_name) app) ∧ StuckSince app_name before d'.fs
      raised := fun _ d' => StuckSince app_name before d'.fs
      cut := fun d' => StuckSince app_name before d'.fs } d
  := by
  induction ipks generalizing apps d with
  | nil => exact ⟨happs, h⟩
  | cons ipk ipks ih =>
      rw [installAppsFrom, wp_bind, wp_catching]
      apply (wp_manageAppInstallation_stuck hplain _ h).mono
      · rintro app d' ⟨happ, hd'⟩
        apply ih _ hd'
        simpa [or_imp, forall_and, happ] using happs
      · intro e d' hd'
        dsimp only
        split
        · have hissues : Issues (Elsewhere app_name)
              (removeAfterInstallError apps e : Py (List AppRecord)) :=
            issues_removeAfterInstallError Quiet.elsewhere
              (fun app happ => (happs app happ).removesElsewhere) e
          apply (wp_and (wp_stuckSince hissues hd')
            (wp_removeAfterInstallError_ifReturned apps e (Q := fun _ _ => False))).mono
          · exact fun _ _ hnever => hnever.2.elim
          · exact fun _ _ hd'' => hd''.1
          · exact fun _ hd'' => hd''.1
        · exact hd'
      · exact fun _ hd' => hd'

/-- An update leaves the directory, and when it returns it has not updated the application. -/
theorem wp_runMblAppUpdateManager_stuck (update_pkg : UpdatePkg)
    (h : StuckSince app_name before d.fs) :
  wp machine adm (runMblAppUpdateManager update_pkg)
    { returned := fun apps d' =>
        (∀ app ∈ apps, app.name ≠ app_name) ∧ StuckSince app_name before d'.fs
      raised := fun _ d' => StuckSince app_name before d'.fs
      cut := fun d' => StuckSince app_name before d'.fs } d
  := by
  rw [runMblAppUpdateManager, wp_bind]
  apply (wp_stuckSince (issues_unpack Quiet.elsewhere update_pkg) h).of_returned
  intro ipks d' hd'
  rw [wp_bind]
  apply (wp_installAppsFrom_stuck hplain ipks (List.forall_mem_nil _) hd').of_returned
  rintro apps d'' ⟨happs, hd''⟩
  have hissues : Issues (Elsewhere app_name) (startInstalledApps apps) := by
    apply issues_startInstalledApps Quiet.elsewhere
    · exact fun app happ => (happs app happ).removesElsewhere
    · intro app happ path hpath
      exact ((happs app happ).cur path hpath).removesElsewhere (happs app happ).name _
  rw [wp_bind]
  apply (wp_stuckSince hissues hd'').of_returned
  exact fun _ _ hd''' => ⟨fun app happ => (happs app happ).name, hd'''⟩

omit hplain

/-! ### Reboots -/

/-- What `run-all` does with one application leaves the others. -/
theorem wp_runAppFromParentDir_othersKept {name : Text} (hname : PlainName name) :
  wp machine adm (runAppFromParentDir name) (Post.always (OthersKept name d)) d
  := by
  rw [runAppFromParentDir_eq, joinPath_of_plain _ hname, wp_bind, wp_issue]
  refine ⟨OthersKept.refl name d, fun x _ => ?_⟩
  dsimp only
  split
  · rw [wp_bind, wp_issue]
    refine ⟨OthersKept.refl name d, fun x _ => ?_⟩
    change wp machine adm (ofExcept (foundBundles d.fs name) >>= _) _ d
    rw [wp_bind, wp_ofExcept]
    split
    · rename_i sorted hfound
      cases sorted with
      | nil => exact OthersKept.refl name d
      | cons first rest =>
          change wp machine adm (runFirstOf name (first :: rest)) _ d
          rw [runFirstOf]
          apply wp_always_bind (wp_othersKept (issues_runApp first))
          intro _ d' hd'
          have hrest : ∀ path ∈ rest, APPS_PATH ++ [name] <+: path := fun path hpath =>
            ((mem_foundBundles hfound).mp (List.mem_cons_of_mem first hpath)).1
          apply (wp_rmtree_othersKept hrest hd' rfl).mono
          · exact fun _ _ h => h.1
          · exact fun _ _ h => h.1
          · exact fun _ h => h.1
    · exact OthersKept.refl name d
  · exact OthersKept.refl name d

theorem StuckSince.othersKept {name : Text} {d' : Device} (h : StuckSince app_name before d.fs)
    (hkept : OthersKept name d d') (hname : PlainName name) (hne : app_name ≠ name) :
  StuckSince app_name before d'.fs
  := by
  have hsame := (hkept.sameApp hne).disk
  constructor
  · constructor
    · rw [isDir_eq_true, hsame _ List.prefix_rfl]
      exact isDir_eq_true.mp h.stuck.dir
    · intro q hq
      rw [isBundle_congr fun r hr => hsame r (hq.trans hr)]
      exact h.stuck.bundles q hq
    · intro n hdir
      by_cases hn : n = name
      · rwa [hn]
      · rw [isDir_eq_true, (hkept.sameApp hn).disk _ List.prefix_rfl, ← isDir_eq_true] at hdir
        exact h.stuck.names n hdir
  · intro q hq
    rw [hsame q hq]
    exact h.disk q hq

/-- `run-all` comes by the application and does nothing. -/
theorem wp_runAppFromParentDir_stuck (h : Stuck app_name d.fs)
    (hname : PlainName app_name) :
  wp machine adm (runAppFromParentDir app_name) (Post.always fun d' => d' = d) d
  := by
  rw [runAppFromParentDir_eq, joinPath_of_plain _ hname, wp_bind, wp_issue]
  refine ⟨rfl, fun x _ => ?_⟩
  dsimp only
  split
  · rw [wp_bind, wp_issue]
    refine ⟨rfl, fun x _ => ?_⟩
    change wp machine adm (ofExcept (foundBundles d.fs app_name) >>= _) _ d
    rw [wp_bind, wp_ofExcept]
    split
    · rename_i sorted hfound
      rw [h.sortedBundles hfound]
      rfl
    · rfl
  · rfl

/-- A reboot leaves the directory, and does not start the application. -/
theorem wp_runAllAction_stuck (h : StuckSince app_name before d.fs)
    (hnone : d.containers app_name = none) :
  wp machine adm runAllAction
    (Post.always fun d' => StuckSince app_name before d'.fs ∧ d'.containers app_name = none) d
  := by
  have happs : d.fs.isDir APPS_PATH = true := by
    have hdir := isDir_eq_true.mp h.stuck.dir
    apply isDir_eq_true.mpr
    apply d.fs.parent_dir (n := app_name)
    simp [hdir]
  apply wp_runAllAction happs (show StuckSince app_name before d.fs ∧ _ from ⟨h, hnone⟩)
  apply wp_always_forEach _ ⟨h, hnone⟩
  intro name hname d' ⟨hd', hnone'⟩
  have hplain : PlainName name := by
    apply h.stuck.names
    rw [isDir_eq_true, ← mem_subdirs]
    exact hname
  by_cases heq : name = app_name
  · subst heq
    apply (wp_runAppFromParentDir_stuck hd'.stuck hplain).mono
    · rintro _ _ rfl
      exact ⟨hd', hnone'⟩
    · rintro _ _ rfl
      exact ⟨hd', hnone'⟩
    · rintro _ rfl
      exact ⟨hd', hnone'⟩
  · have hkept {d'' : Device} (hkept : OthersKept name d' d'') :
        StuckSince app_name before d''.fs ∧ d''.containers app_name = none := by
      constructor
      · exact hd'.othersKept hkept hplain (Ne.symm heq)
      · rw [hkept.containers _ (Ne.symm heq), hnone']
    apply (wp_runAppFromParentDir_othersKept hplain).mono
    · exact fun _ _ => hkept
    · exact fun _ _ => hkept
    · exact fun _ => hkept

/-! ### Histories -/

/-- The applications in the packages have names of directories. -/
def PlainlyNamed (d : Device) : Event → Prop
  | .update update_pkg xs => Obeys machine PlainNames (runMblAppUpdateManager update_pkg) xs d
  | .reboot _ => True

instance (d : Device) : ∀ event : Event, Decidable (PlainlyNamed d event)
  | .update _ _ => inferInstanceAs (Decidable (Obeys _ _ _ _ _))
  | .reboot _ => isTrue trivial

/-- An application is not among those that are updated, and does not run after a reboot. -/
def LeavesOut (app_name : Text) (d : Device) : Event → Prop
  | .update update_pkg xs => ∀ apps,
      (run machine (runMblAppUpdateManager update_pkg) xs d).1 = .returned apps →
        ∀ app ∈ apps, app.name ≠ app_name
  | .reboot xs => (happen d (.reboot xs)).containers app_name = none

/-- An application whose directory has no bundle in it is never updated or started again, whatever
the commands do, and its directory stays as it is. -/
theorem stuck_forever {start : Device} {events : List Event} (hstuck : Stuck app_name start.fs)
    (hevents : Lts.Meets stepDevice PlainlyNamed start events)
    (hrun : Lts.exec stepDevice start events = some d) :
  Lts.Meets stepDevice (LeavesOut app_name) start events ∧
    ∀ p, APPS_PATH ++ [app_name] <+: p → d.fs.node p = start.fs.node p
  := by
  let Inv (d : Device) : Prop := StuckSince app_name start.fs d.fs
  have hstart : Inv start := ⟨hstuck, fun _ _ => rfl⟩
  have hstep : ∀ d event d', Inv d → PlainlyNamed d event → stepDevice d event = some d' →
      Inv d' := by
    rintro d event _ hd hevent ⟨rfl⟩
    cases event with
    | update update_pkg xs =>
        have hwp := wp_runMblAppUpdateManager_stuck (fun _ _ _ h => h) update_pkg hd
        apply of_wp_always _ hevent
        apply hwp.mono
        · exact fun _ _ h => h.2
        · exact fun _ _ h => h
        · exact fun _ h => h
    | reboot xs =>
        have hrestart : StuckSince app_name start.fs (restart d).fs := hd
        exact (of_wp_always (wp_runAllAction_stuck hrestart rfl) obeys_true).1
  have hleaves : ∀ d event, Inv d → PlainlyNamed d event → LeavesOut app_name d event := by
    intro d event hd hevent
    cases event with
    | update update_pkg xs =>
        intro apps hreturned
        have hwp := wp_runMblAppUpdateManager_stuck (fun _ _ _ h => h) update_pkg hd
        have hholds := holds_of_wp hwp hevent
        rw [hreturned] at hholds
        exact hholds.1
    | reboot xs =>
        have hrestart : StuckSince app_name start.fs (restart d).fs := hd
        exact (of_wp_always (wp_runAllAction_stuck hrestart rfl) obeys_true).2
  constructor
  · exact hevents.of_invariant Inv hstep hleaves hstart
  · exact (Lts.invariant Inv hstep hstart hevents hrun).disk

/-! ### An application that was not removed completely -/

/-- The package of an application called `a` is not installed, and the directory that `opkg` has made
is not removed. -/
def leavesDirectory : Event :=
  .update onePackage
    ([truthfully, { stdout := infoOf ['a'] }, truthfully, { stdout := infoOf ['a'] },
      { kind := .fails, tree := some root }] ++ [truthfully, truthfully, { kind := .fails }])

/-- After one update that has failed, the application is stuck. -/
theorem stuck_after_failure :
  Stuck ['a'] (happen bareDevice leavesDirectory).fs
  := by
  constructor
  · decide
  · intro p hp hbundle
    have hmem : p ∈ (happen bareDevice leavesDirectory).fs.names :=
      ( FileTree.mem_names _ (by simp [isDir_eq_true.mp hbundle.1]))
    have hnone : ∀ p ∈ (happen bareDevice leavesDirectory).fs.names,
        ¬ IsBundle (happen bareDevice leavesDirectory).fs p := by decide
    exact hnone p hmem hbundle
  · intro n hdir
    rw [isDir_eq_true, ← mem_subdirs] at hdir
    revert n
    decide

/-- The next update of the application fails although every command does what it is asked to. -/
theorem stuck_forever_after_failure :
  Lts.Meets stepDevice (LeavesOut ['a']) (happen bareDevice leavesDirectory)
      [.update onePackage (List.replicate 3 { stdout := infoOf ['a'] } ++ List.replicate 20 truthfully),
        .reboot (List.replicate 10 truthfully)]
  := by
  apply (stuck_forever stuck_after_failure _ rfl).1
  decide

end App
