import MblCore.App.Versions

/-!
# The install phase

When `install_apps` ends with an exception, the disk is as it was before just if no exception
that it does not expect is raised while a bundle it has installed is on the disk, and nothing is
installed or removed where a directory was before.
-/

namespace App

open FileTree
open Prog hiding pure throw bind

/-! ### What the phase restores -/

/-- Where a version of an application is: a name in the directory of the application. -/
def versionPath (app_name version : Text) : FilePath :=
  APPS_PATH ++ [app_name, version]

/-- No bundle that was installed is on the disk. -/
def NothingLeft (d : Device) : Prop :=
  ∀ path ∈ d.completed, d.fs.isDir path = false

instance (d : Device) : Decidable (NothingLeft d) :=
  inferInstanceAs (Decidable (∀ _ ∈ _, _))

/-- No bundle that was installed is left, and the version directories of all applications are
those that were there before. -/
def Restored (before d : Device) : Prop :=
  NothingLeft d ∧ ∀ app_name version,
    d.fs.isDir (versionPath app_name version) = before.fs.isDir (versionPath app_name version)

/-! ### What the phase does not expect -/

/-- The guard of the phase, on a device that was as `before` when it began. -/
def Careful (before : Device) : Call → Choice → Device → Prop
  | .opkgInfo _, x, d => infoFails (opkgInfo x) = true → NothingLeft d
  | .walk path name, _, d => scanFails name path (walk d.fs path) = true → NothingLeft d
  | .opkgInstall _ path _, x, d =>
      let (result, d') := opkgInstall x d path
      if result.ok then before.fs.isDir path = false
      else if result.stdout.text = none then
        NothingLeft d' ∧ d'.fs.isDir path = before.fs.isDir path
      else if d'.fs.isDir path then True
      else before.fs.isDir path = false ∧ (d'.fs.has path = true → NothingLeft d')
  | .opkgRemove _ path, x, d =>
      let (result, d') := opkgRemove x d path
      if result.ok then before.fs.isDir path = false
      else NothingLeft d' ∧ d'.fs.isDir path = before.fs.isDir path
  | _, _, _ => True

/-- The names of applications are names of directories. -/
def PlainNames : Call → Choice → Device → Prop
  | .opkgInfo app_pkg, x, _ =>
      ∀ app_name, appNameOf app_pkg (opkgInfo x) = .ok app_name → PlainName app_name
  | _, _, _ => True

instance decidablePlainNames : ∀ (c : Call) (x : Choice) (d : Device),
    Decidable (PlainNames c x d)
  | .opkgInfo app_pkg, x, _ =>
      match h : appNameOf app_pkg (opkgInfo x) with
      | .ok app_name => decidable_of_iff (PlainName app_name) (by simp [PlainNames, h])
      | .error _ => isTrue (by simp [PlainNames, h])
  | .extractall _ _, _, _ | .opkgInstall _ _ _, _, _ | .opkgRemove _ _, _, _ | .runcState _, _, _
  | .runcKill _ _, _, _ | .runcDelete _, _, _ | .runcCreate _ _, _, _ | .runcStart _, _, _
  | .isdir _, _, _ | .exists_ _, _, _ | .walk _ _, _, _ | .listdir _, _, _ | .rmtree _, _, _
  | .endtimeReached, _, _ | .log _, _, _ => isTrue trivial

/-- Every removal of a bundle that was installed completely succeeds. -/
def RemovalsSucceed : Call → Choice → Device → Prop
  | .isdir path, _, d => path ∈ d.completed → d.fs.isDir path = true
  | .opkgRemove _ path, x, d => path ∈ d.completed → x.kind ≠ .fails
  | _, _, _ => True

/-! ### Version directories -/

theorem versionPath_injective {n v n' v' : Text} :
  versionPath n v = versionPath n' v' ↔ n = n' ∧ v = v'
  := by
  simp [versionPath]

theorem versionPath_ne_nil (app_name version : Text) :
  versionPath app_name version ≠ []
  := List.cons_ne_nil _ _

/-- Version directories are not below one another. -/
theorem not_prefix_versionPath {n v n' v' : Text} (h : versionPath n v ≠ versionPath n' v') :
  ¬ versionPath n v <+: versionPath n' v'
  := fun hp => h (hp.eq_of_length rfl)

/-- A graft leaves the other version directories. -/
theorem isDir_graft_versionPath {n v n' v' : Text} (fs tree : Files)
    (h : versionPath n' v' ≠ versionPath n v) :
  (fs.graft (versionPath n v) tree).isDir (versionPath n' v') = fs.isDir (versionPath n' v')
  := by
  simp only [isDir, node_graft_elsewhere fs tree (not_prefix_versionPath h.symm)
    (not_prefix_versionPath h)]

theorem isDir_graft_self (fs tree : Files) (p : FilePath) :
  (fs.graft p tree).isDir p = tree.isDir []
  := by
  simp only [isDir]
  rw [show (fs.graft p tree).node p = tree.node [] by
    simpa using node_graft_append fs p tree []]

/-- The removal of a bundle leaves the other version directories. -/
theorem isDir_removeBundle_versionPath {n v n' v' : Text} {fs : Files}
    (hdir : fs.isDir (versionPath n v) = true) (h : versionPath n' v' ≠ versionPath n v) :
  (removeBundle fs (versionPath n v)).isDir (versionPath n' v') = fs.isDir (versionPath n' v')
  := by
  simp only [isDir]
  rw [dir_removeBundle (isDir_eq_true.mp hdir) (not_prefix_versionPath h.symm)
    (not_prefix_versionPath h)]

theorem isDir_removeBundle_self {fs : Files} {p : FilePath} (hdir : fs.isDir p = true) :
  (removeBundle fs p).isDir p = false
  := by
  simp only [isDir]
  rw [node_removeBundle_below (isDir_eq_true.mp hdir) List.prefix_rfl]

/-! ### A phase that is careful -/

variable {before : Device} {adm : Call → Choice → Device → Prop} {d : Device}
  {installed_apps : List AppRecord}

/-- The bundles installed so far are at version directories where nothing was before; the other
version directories are as before. -/
structure InstalledSoFar (before : Device) (installed_apps : List AppRecord) (d : Device) :
    Prop where
  completed : d.completed = installed_apps.map AppRecord.new_bundle_path
  paths : ∀ app ∈ installed_apps, ∃ n v, app.new_bundle_path = versionPath n v
  fresh : ∀ path ∈ d.completed, before.fs.isDir path = false
  kept : ∀ n v, versionPath n v ∉ d.completed →
    d.fs.isDir (versionPath n v) = before.fs.isDir (versionPath n v)

/-- The bundles installed so far are on the disk. -/
structure Installing (before : Device) (installed_apps : List AppRecord) (d : Device) : Prop
    extends InstalledSoFar before installed_apps d where
  there : ∀ path ∈ d.completed, d.fs.isDir path = true

theorem InstalledSoFar.restored (h : InstalledSoFar before installed_apps d)
    (hleft : NothingLeft d) :
  Restored before d
  := by
  refine ⟨hleft, fun n v => ?_⟩
  by_cases hmem : versionPath n v ∈ d.completed
  · rw [hleft _ hmem, h.fresh _ hmem]
  · exact h.kept n v hmem

/-- A change at one version directory, where it is as before afterwards. -/
theorem InstalledSoFar.touch {d' : Device} {n v : Text}
    (h : InstalledSoFar before installed_apps d) (hcompleted : d'.completed = d.completed)
    (hother : ∀ n' v', versionPath n' v' ≠ versionPath n v →
      d'.fs.isDir (versionPath n' v') = d.fs.isDir (versionPath n' v'))
    (hself : d'.fs.isDir (versionPath n v) = before.fs.isDir (versionPath n v)) :
  InstalledSoFar before installed_apps d'
  := by
  constructor
  · rw [hcompleted, h.completed]
  · exact h.paths
  · rw [hcompleted]
    exact h.fresh
  · intro n' v' hmem
    rw [hcompleted] at hmem
    by_cases heq : versionPath n' v' = versionPath n v
    · rw [heq, hself]
    · rw [hother n' v' heq, h.kept n' v' hmem]

/-- A bundle was installed where nothing was before. -/
theorem Installing.concat {tree : Files} {n v : Text} {app : AppRecord}
    (h : Installing before installed_apps d) (htree : tree.node [] = some .dir)
    (hfresh : before.fs.isDir (versionPath n v) = false)
    (happ : app.new_bundle_path = versionPath n v) :
  Installing before (installed_apps ++ [app])
    { d with
      fs := d.fs.graft (versionPath n v) tree
      completed := d.completed ++ [versionPath n v] }
  := by
  have hself : (d.fs.graft (versionPath n v) tree).isDir (versionPath n v) = true := by
    rw [isDir_graft_self]
    exact isDir_eq_true.mpr htree
  have hother {path : FilePath} (hpath : path ∈ d.completed) :
      (d.fs.graft (versionPath n v) tree).isDir path = true := by
    rw [h.completed] at hpath
    obtain ⟨app', happ', rfl⟩ := List.mem_map.mp hpath
    obtain ⟨n', v', heq⟩ := h.paths app' happ'
    by_cases hsame : versionPath n' v' = versionPath n v
    · rw [heq, hsame, hself]
    · rw [heq, isDir_graft_versionPath _ _ hsame, ← heq]
      apply h.there
      rw [h.completed]
      exact List.mem_map_of_mem happ'
  constructor
  · constructor
    · simp [h.completed, happ]
    · intro app' happ'
      rcases List.mem_append.mp happ' with hmem | hmem
      · exact h.paths app' hmem
      · rw [List.mem_singleton.mp hmem]
        exact ⟨n, v, happ⟩
    · intro path hpath
      rcases List.mem_append.mp hpath with hmem | hmem
      · exact h.fresh path hmem
      · rw [List.mem_singleton.mp hmem, hfresh]
    · intro n' v' hmem
      simp only [List.mem_append, List.mem_singleton, not_or] at hmem
      rw [isDir_graft_versionPath _ _ hmem.2]
      exact h.kept n' v' hmem.1
  · intro path hpath
    rcases List.mem_append.mp hpath with hmem | hmem
    · exact hother hmem
    · rw [List.mem_singleton.mp hmem, hself]

/-- An exception that is caught comes with the bundles installed before, and any other when
everything is restored. -/
structure FailsCarefully (before : Device) (installed_apps : List AppRecord) (e : PyException)
    (d : Device) : Prop where
  caught : e.cls ∈ [.AppIdError, .AppInstallError] → InstalledSoFar before installed_apps d
  uncaught : e.cls ∉ [.AppIdError, .AppInstallError] → Restored before d

/-- What is asked of the installation of an application. -/
def InstallsOrFails (before : Device) (installed_apps : List AppRecord) {α : Type}
    (returned : α → Device → Prop) : Post Device PyException α where
  returned := returned
  raised := FailsCarefully before installed_apps
  cut _ := True

section Good

variable (hplain : ∀ c x d, adm c x d → PlainNames c x d)
  (hremovals : ∀ c x d, adm c x d → RemovalsSucceed c x d)
  (hcareful : ∀ c x d, adm c x d → Careful before c x d)

/-- When nothing is left, it does not matter whether an exception is caught. -/
theorem failsCarefully_of_nothingLeft (h : InstalledSoFar before installed_apps d)
    (hleft : NothingLeft d) (e : PyException) :
  FailsCarefully before installed_apps e d
  := ⟨fun _ => h, fun _ => h.restored hleft⟩

theorem failsCarefully_of_caught {e : PyException} (h : InstalledSoFar before installed_apps d)
    (hcls : e.cls ∈ [.AppIdError, .AppInstallError]) :
  FailsCarefully before installed_apps e d
  := ⟨fun _ => h, fun hnot => absurd hcls hnot⟩

include hplain hcareful in
theorem wp_getAppName_careful {app_pkg : Text} {returned : Text → Device → Prop}
    (h : InstalledSoFar before installed_apps d)
    (hreturned : ∀ app_name, PlainName app_name → returned app_name d) :
  wp machine adm (getAppName app_pkg) (InstallsOrFails before installed_apps returned) d
  := by
  apply wp_getAppName
  · trivial
  · intro x app_name hx hname
    exact hreturned app_name (hplain _ _ _ hx app_name hname)
  · intro x e hx he
    rcases appNameOf_cases app_pkg (opkgInfo x) with ⟨hfails, -⟩ | ⟨-, hcls⟩
    · exact failsCarefully_of_nothingLeft h (hcareful _ _ _ hx hfails) e
    · exact failsCarefully_of_caught h (by simp [hcls e he])

include hcareful in
theorem wp_getAppBundlePaths_careful {app_name : Text} (hname : PlainName app_name)
    {returned : Option (Option FilePath × FilePath) → Device → Prop}
    (h : InstalledSoFar before installed_apps d)
    (hnone : NothingLeft d → returned none d)
    (hsome : ∀ cur version, returned (some (cur, versionPath app_name version)) d) :
  wp machine adm (getAppBundlePaths app_name) (InstallsOrFails before installed_apps returned) d
  := by
  apply wp_getAppBundlePaths hname
  · trivial
  · intro _
    exact hsome none "0".toList
  · intro x paths hx _ hpaths
    have hscan := hcareful _ _ _ hx
    simp only [Careful] at hscan
    rcases bundlePathsOf_cases app_name (APPS_PATH ++ [app_name])
      (walk d.fs (APPS_PATH ++ [app_name])) with ⟨hfails, hnone' | ⟨e, he, -⟩⟩ | ⟨-, cur, v, hsome'⟩
    · rw [hnone', Except.ok.injEq] at hpaths
      rw [← hpaths]
      exact hnone (hscan hfails)
    · rw [he] at hpaths
      contradiction
    · rw [hsome', Except.ok.injEq, joinPath_of_plain _ (plainName_intText v),
        List.append_assoc] at hpaths
      rw [← hpaths]
      exact hsome (some cur) (intText v)
  · intro x e hx he
    have hscan := hcareful _ _ _ hx
    simp only [Careful] at hscan
    rcases bundlePathsOf_cases app_name (APPS_PATH ++ [app_name])
      (walk d.fs (APPS_PATH ++ [app_name])) with ⟨hfails, -⟩ | ⟨-, cur, v, hsome'⟩
    · exact failsCarefully_of_nothingLeft h (hscan hfails) e
    · rw [hsome'] at he
      contradiction

include hcareful in
/-- What a failed installation has left is removed, if the phase is careful. -/
theorem wp_cleanUp_careful {app_name n v : Text} {d' : Device}
    (h : InstalledSoFar before installed_apps d) (hcompleted : d'.completed = d.completed)
    (hother : ∀ n' v', versionPath n' v' ≠ versionPath n v →
      d'.fs.isDir (versionPath n' v') = d.fs.isDir (versionPath n' v'))
    (hleft : d'.fs.isDir (versionPath n v) = false →
      before.fs.isDir (versionPath n v) = false
        ∧ (d'.fs.has (versionPath n v) = true → NothingLeft d')) :
  wp machine adm (cleanUp app_name (versionPath n v))
    (InstallsOrFails before installed_apps fun _ => InstalledSoFar before installed_apps) d'
  := by
  apply wp_cleanUp trivial
  · intro hhas
    apply wp_removeApp (versionPath_ne_nil n v)
    · exact fun _ _ => trivial
    · intro x e _ hnot _
      obtain ⟨hbefore, hnothing⟩ := hleft hnot
      apply failsCarefully_of_nothingLeft _ (hnothing hhas)
      exact h.touch hcompleted hother (hnot.trans hbefore.symm)
    · intro x e hx _ hkind _
      obtain ⟨fs, hfs, hremove⟩ := opkgRemove_fails hkind d' (versionPath n v)
      have hrestored := hcareful _ _ _ hx
      simp only [Careful, hremove, Bool.false_eq_true, if_false] at hrestored
      rw [hremove]
      apply failsCarefully_of_nothingLeft _ hrestored.1
      apply h.touch (n := n) (v := v) (by exact hcompleted) _ (by exact hrestored.2)
      intro n' v' hne
      rw [← hother n' v' hne]
      rcases hfs with rfl | ⟨tree, -, rfl⟩
      · rfl
      · exact isDir_graft_versionPath _ _ hne
    · intro x hx hdir hkind
      have hbefore := hcareful _ _ _ hx
      simp only [Careful, opkgRemove, hkind, if_false, success, if_true] at hbefore
      apply h.touch (n := n) (v := v) (by exact hcompleted)
      · intro n' v' hne
        rw [← hother n' v' hne]
        exact isDir_removeBundle_versionPath hdir hne
      · rw [isDir_removeBundle_self hdir, hbefore]
  · intro hhas
    have hnot : d'.fs.isDir (versionPath n v) = false := isDir_of_has_eq_false hhas
    exact h.touch hcompleted hother (hnot.trans (hleft hnot).1.symm)

include hplain hcareful in
theorem wp_installApp_careful {app_pkg n v : Text} (h : Installing before installed_apps d) :
  wp machine adm (installApp app_pkg (versionPath n v))
    (InstallsOrFails before installed_apps fun _ d' => ∀ app : AppRecord,
      app.new_bundle_path = versionPath n v → Installing before (installed_apps ++ [app]) d') d
  := by
  rw [installApp, wp_bind]
  apply wp_getAppName_careful hplain hcareful h.toInstalledSoFar
  intro app_name _
  rw [wp_bind, wp_issue]
  refine ⟨trivial, fun x hx => ?_⟩
  have hinstall := hcareful _ _ _ hx
  rcases opkgInstall_cases x d (versionPath n v) with
    ⟨tree, htree, -, heq⟩ | ⟨fs, hfs, heq⟩
  · simp only [Careful, heq, success, if_true] at hinstall
    have hperform : machine.perform (.opkgInstall app_name (versionPath n v) app_pkg) x d = _ :=
      heq
    rw [hperform]
    intro app happ
    exact h.concat htree hinstall happ
  · simp only [Careful, heq, Bool.false_eq_true, if_false] at hinstall
    have hperform : machine.perform (.opkgInstall app_name (versionPath n v) app_pkg) x d = _ :=
      heq
    have hother : ∀ n' v', versionPath n' v' ≠ versionPath n v →
        fs.isDir (versionPath n' v') = d.fs.isDir (versionPath n' v') := by
      intro n' v' hne
      rcases hfs with rfl | ⟨tree, -, rfl⟩
      · rfl
      · exact isDir_graft_versionPath _ _ hne
    rw [hperform]
    dsimp only
    rw [if_neg Bool.false_ne_true, wp_bind]
    cases htext : x.stdout.text with
    | none =>
        rw [htext, if_pos rfl] at hinstall
        apply wp_errorText_of_none htext
        exact failsCarefully_of_nothingLeft (h.touch (by rfl) (by exact hother) hinstall.2)
          hinstall.1 _
    | some text =>
        rw [htext, if_neg (Option.some_ne_none text)] at hinstall
        apply wp_errorText_of_text htext
        intro error
        dsimp only
        rw [wp_bind]
        apply (wp_cleanUp_careful hcareful h.toInstalledSoFar (by rfl) (by exact hother) _).mono
        · intro _ d' h'
          exact failsCarefully_of_caught h' (by simp)
        · exact fun _ _ h => h
        · exact fun _ h => h
        · intro hnot
          rw [if_neg (by simp [hnot])] at hinstall
          exact hinstall

include hplain hcareful in
theorem wp_manageAppInstallation_careful {ipk_path : Text}
    (h : Installing before installed_apps d) :
  wp machine adm (manageAppInstallation ipk_path)
    (InstallsOrFails before installed_apps fun app =>
      Installing before (installed_apps ++ [app])) d
  := by
  rw [manageAppInstallation, wp_bind]
  apply wp_getAppName_careful hplain hcareful h.toInstalledSoFar
  intro app_name hname
  rw [wp_bind]
  apply wp_getAppBundlePaths_careful hcareful hname h.toInstalledSoFar
  · intro hleft
    exact failsCarefully_of_nothingLeft h.toInstalledSoFar hleft _
  · intro cur version
    dsimp only
    rw [wp_bind]
    apply (wp_installApp_careful hplain hcareful h).of_returned
    intro _ d' h'
    exact h' _ rfl

include hremovals in
/-- The bundles that were installed are removed one after the other. -/
theorem wp_removeNewBundles_succeeds (h : InstalledSoFar before installed_apps d) :
  wp machine adm (removeAppsBundles NEW_BUNDLE_PATH installed_apps)
    { returned := fun _ => Restored before, raised := fun _ _ => False, cut := fun _ => True } d
  := by
  apply wp_forEach fun done _ d' => InstalledSoFar before installed_apps d'
    ∧ ∀ app ∈ done, d'.fs.isDir app.new_bundle_path = false
  · rintro done app todo d' hsplit ⟨h', hdone⟩
    have happ : app ∈ installed_apps := by simp [hsplit]
    obtain ⟨n, v, hpath⟩ := h'.paths app happ
    have hmem : versionPath n v ∈ d'.completed := by
      rw [h'.completed, ← hpath]
      exact List.mem_map_of_mem happ
    change wp machine adm (removeApp app.name app.new_bundle_path) _ d'
    rw [hpath]
    apply wp_removeApp (versionPath_ne_nil n v)
    · exact fun _ _ => trivial
    · intro x e hx hnot
      rw [hremovals _ _ _ hx hmem] at hnot
      contradiction
    · intro x e hx _ hkind
      exact absurd hkind (hremovals _ _ _ hx hmem)
    · intro x _ hdir _
      have hself := isDir_removeBundle_self hdir
      constructor
      · apply h'.touch (n := n) (v := v) (by rfl)
        · exact fun n' v' hne => isDir_removeBundle_versionPath hdir hne
        · rw [hself, h'.fresh _ hmem]
      · intro app' happ'
        have hpaths' : ∃ n' v', app'.new_bundle_path = versionPath n' v' := by
          apply h'.paths
          rw [hsplit]
          rcases List.mem_append.mp happ' with h | h
          · exact List.mem_append_left _ h
          · rw [List.mem_singleton.mp h]
            simp
        obtain ⟨n', v', hpath'⟩ := hpaths'
        rw [hpath']
        by_cases hsame : versionPath n' v' = versionPath n v
        · rw [hsame]
          exact hself
        · rw [isDir_removeBundle_versionPath hdir hsame, ← hpath']
          rcases List.mem_append.mp happ' with h | h
          · exact hdone app' h
          · rw [List.mem_singleton.mp h, hpath] at hpath'
            exact absurd hpath'.symm hsame
  · rintro d' ⟨h', hdone⟩
    apply h'.restored
    intro path hpath
    rw [h'.completed] at hpath
    obtain ⟨app, happ, rfl⟩ := List.mem_map.mp hpath
    exact hdone app happ
  · exact ⟨h, by simp⟩

include hplain hremovals hcareful in
/-- A careful phase that ends with an exception has restored what was there before. -/
theorem wp_installAppsFrom_careful (ipks : List Text) (h : Installing before installed_apps d) :
  wp machine adm (installAppsFrom installed_apps ipks)
    { returned := fun _ _ => True, raised := fun _ => Restored before, cut := fun _ => True } d
  := by
  induction ipks generalizing installed_apps d with
  | nil => trivial
  | cons ipk ipks ih =>
      rw [installAppsFrom, wp_bind, wp_catching]
      apply (wp_manageAppInstallation_careful hplain hcareful h).mono
      · intro app d' h'
        exact ih h'
      · intro e d' h'
        dsimp only
        split
        · rename_i hcls
          rw [removeAfterInstallError, wp_bind, wp_catching]
          apply (wp_removeNewBundles_succeeds hremovals (h'.caught hcls)).mono
          · exact fun _ _ h => h
          · exact fun _ _ h => h.elim
          · exact fun _ h => h
        · exact h'.uncaught ‹_›
      · exact fun _ h => h

end Good

end App
