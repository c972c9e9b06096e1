import MblCore.App.InstallPhase

/-!
# The install phase that is not careful

When something happens that the install phase does not expect while a bundle it has installed is
on the disk, or where a directory was before, the disk is not as it was when the phase ends with
an exception.  With the careful phases this tells exactly when the phase is atomic.
-/

namespace App

open FileTree
open Prog hiding pure throw bind

variable {before : Device} {adm : Call → Choice → Device → Prop} {d : Device}
  {installed_apps : List AppRecord}

/-! ### What cannot be restored -/

/-- An application was installed where a directory was before. -/
def Spoiled (before d : Device) : Prop :=
  ∃ n v, versionPath n v ∈ d.completed ∧ before.fs.isDir (versionPath n v) = true

/-- A version directory that was there before is not there. -/
def Lost (before d : Device) : Prop :=
  ∃ n v, before.fs.isDir (versionPath n v) = true ∧ d.fs.isDir (versionPath n v) = false

theorem Spoiled.not_restored (h : Spoiled before d) :
  ¬ Restored before d
  := by
  rintro ⟨hleft, hkept⟩
  obtain ⟨n, v, hmem, hbefore⟩ := h
  rw [← hkept, hleft _ hmem] at hbefore
  contradiction

theorem Lost.not_restored (h : Lost before d) :
  ¬ Restored before d
  := by
  rintro ⟨-, hkept⟩
  obtain ⟨n, v, hbefore, hgone⟩ := h
  rw [← hkept, hgone] at hbefore
  contradiction

/-- What is reported to be installed is not forgotten. -/
theorem completed_subset_perform (c : Call) (x : Choice) (d : Device) :
  d.completed ⊆ (perform c x d).2.completed
  := by
  have hcontainer {id : Text} (hid : ContainerCall id c) :
      d.completed ⊆ (perform c x d).2.completed := by
    obtain ⟨k, hk⟩ := perform_containerCall (d := d) (x := x) hid
    rw [hk]
    exact List.Subset.refl _
  cases c with
  | runcState id | runcKill id signal | runcDelete id | runcCreate bundle_path id
  | runcStart id => exact hcontainer (show ContainerCall id _ from rfl)
  | opkgInstall app_name path app_pkg =>
      simp only [perform]
      rcases opkgInstall_cases x d path with ⟨tree, -, -, heq⟩ | ⟨fs, -, heq⟩
      · rw [heq]
        exact List.subset_append_left _ _
      · rw [heq]
        exact List.Subset.refl _
  | opkgRemove app_name path =>
      simp only [perform, opkgRemove]
      split <;> exact List.Subset.refl _
  | log line => cases line <;> exact List.Subset.refl _
  | _ => exact List.Subset.refl _

/-- What was installed where a directory was before stays so. -/
theorem wp_spoiled {α : Type} (p : Py α) (h : Spoiled before d) :
  wp machine adm p (Post.always (Spoiled before)) d
  := by
  have hp : Issues (fun _ => True) p := by
    induction p with
    | pure a => trivial
    | throw e => trivial
    | call c k ih => exact ⟨trivial, ih⟩
  apply wp_of_issues (Spoiled before) hp _ h
  rintro c x d' - - ⟨n, v, hmem, hbefore⟩
  exact ⟨n, v, completed_subset_perform c x d' hmem, hbefore⟩

/-! ### One application -/

/-- A version directory is lost, and the update manager knows all bundles it has installed. -/
def Losing (before : Device) (installed_apps : List AppRecord) (d : Device) : Prop :=
  d.completed = installed_apps.map AppRecord.new_bundle_path ∧ Lost before d

/-- An exception that is not caught is raised while a bundle is on the disk. -/
def Unexpected (e : PyException) (d : Device) : Prop :=
  ¬ NothingLeft d ∧ e.cls ∉ [.AppIdError, .AppInstallError]

/-- An exception is raised, and the bundles installed before are not all there is to undo. -/
def Broken (before : Device) (installed_apps : List AppRecord) (e : PyException) (d : Device) :
    Prop :=
  ¬ Restored before d ∧ (e.cls ∈ [.AppIdError, .AppInstallError] → Losing before installed_apps d)

/-- What is asked of an installation that is not careful. -/
def Breaks (before : Device) (installed_apps : List AppRecord) {α : Type} :
    Post Device PyException α where
  returned _ := Spoiled before
  raised := Broken before installed_apps
  cut _ := True

theorem Losing.broken (h : Losing before installed_apps d) (e : PyException) :
  Broken before installed_apps e d
  := ⟨h.2.not_restored, fun _ => h⟩

theorem broken_of_uncaught {e : PyException} (h : ¬ Restored before d)
    (hcls : e.cls ∉ [.AppIdError, .AppInstallError]) :
  Broken before installed_apps e d
  := ⟨h, fun hin => absurd hin hcls⟩

/-- An exception that comes unexpected is not caught. -/
theorem Unexpected.broken {e : PyException} (h : Unexpected e d) :
  Broken before installed_apps e d
  := broken_of_uncaught (fun hrestored => h.1 hrestored.1) h.2

/-- The calls by which bundles at some paths are removed. -/
def RemovalCall (paths : List FilePath) : Call → Prop
  | .isdir _ | .exists_ _ | .listdir _ | .rmtree _ => True
  | .opkgRemove _ path => path ∈ paths
  | _ => False

theorem Asks.removalCall {paths : List FilePath} (c : Call) (hc : Asks c) :
  RemovalCall paths c
  := by
  cases c <;> trivial

theorem issues_removalCall (installed_apps : List AppRecord) :
  Issues (RemovalCall (installed_apps.map AppRecord.new_bundle_path))
    (removeAppsBundles NEW_BUNDLE_PATH installed_apps)
  := by
  apply issues_removeNewBundles Asks.removalCall
  intro app happ
  exact ⟨List.mem_map_of_mem happ, trivial, fun _ => trivial⟩

/-- The removal of bundles where nothing was before is careful when it succeeds. -/
theorem RemovalCall.careful {paths : List FilePath} {c : Call} {x : Choice}
    (hc : RemovalCall paths c)
    (hremove : ∀ app_name path, c = .opkgRemove app_name path → path ∈ paths →
      x.kind ≠ .fails ∧ before.fs.isDir path = false) :
  Careful before c x d
  := by
  cases c with
  | isdir path | exists_ path | listdir path | rmtree path => trivial
  | opkgRemove app_name path =>
      obtain ⟨hkind, hbefore⟩ := hremove app_name path rfl hc
      simpa [Careful, opkgRemove, hkind, success] using hbefore
  | _ => exact hc.elim

theorem wpBreach_getAppName (app_pkg : Text) :
  wpBreach machine adm (Careful before) (getAppName app_pkg)
    { returned := fun _ _ => False, raised := Unexpected, cut := fun _ => True } d
  := by
  rw [getAppName_eq]
  apply wpBreach_bind_of_no_calls
  · exact fun result => issues_ofExcept _
  · rw [wpBreach_issue]
    intro x _ hno
    obtain ⟨hfails, hleft⟩ := Classical.not_imp.mp hno
    change wp machine adm (ofExcept (appNameOf app_pkg (opkgInfo x))) _ d
    rcases appNameOf_cases app_pkg (opkgInfo x) with ⟨-, e, he, hcls⟩ | ⟨hnot, -⟩
    · rw [he]
      refine ⟨hleft, ?_⟩
      rcases hcls with hcls | hcls <;> simp [hcls]
    · rw [hfails] at hnot
      contradiction

/-- The scan for versions finds none or raises an exception while a bundle is on the disk. -/
theorem wpBreach_getAppBundlePaths {app_name : Text} (hname : PlainName app_name) :
  wpBreach machine adm (Careful before) (getAppBundlePaths app_name)
    { returned := fun paths d' => paths = none ∧ ¬ NothingLeft d'
      raised := Unexpected
      cut := fun _ => True } d
  := by
  rw [getAppBundlePaths_eq, show joinPath APPS_INSTALLATION_PATH app_name = APPS_PATH ++ [app_name]
    from joinPath_of_plain _ hname, wpBreach_issue_bind]
  intro x _
  refine ⟨fun _ => ?_, fun hno => absurd trivial hno⟩
  split
  · apply wpBreach_bind_of_no_calls
    · exact fun entries => issues_ofExcept _
    · rw [wpBreach_issue]
      intro x _ hno
      change ¬ Careful before (.walk (APPS_PATH ++ [app_name]) app_name) x d at hno
      simp only [Careful] at hno
      obtain ⟨hfails, hleft⟩ := Classical.not_imp.mp hno
      change wp machine adm (ofExcept (bundlePathsOf app_name (APPS_PATH ++ [app_name])
        (walk d.fs (APPS_PATH ++ [app_name])))) _ d
      rcases bundlePathsOf_cases app_name (APPS_PATH ++ [app_name])
        (walk d.fs (APPS_PATH ++ [app_name])) with ⟨-, hnone | ⟨e, he, hcls⟩⟩ | ⟨hnot, -⟩
      · rw [hnone]
        exact ⟨rfl, hleft⟩
      · rw [he]
        exact ⟨hleft, hcls⟩
      · rw [hfails] at hnot
        contradiction
  · trivial

/-- What was there before is removed, or the removal fails and is not caught. -/
theorem wpBreach_cleanUp {app_name n v : Text}
    (hcompleted : d.completed = installed_apps.map AppRecord.new_bundle_path) :
  wpBreach machine adm (Careful before) (cleanUp app_name (versionPath n v))
    { returned := fun _ => Losing before installed_apps
      raised := fun e d' => ¬ Restored before d' ∧ e.cls ∉ [.AppIdError, .AppInstallError]
      cut := fun _ => True } d
  := by
  rw [cleanUp, wpBreach_issue_bind]
  intro x _
  refine ⟨fun _ => ?_, fun hno => absurd trivial hno⟩
  split
  · rw [removeApp, wpBreach_issue_bind]
    intro x _
    refine ⟨fun _ => ?_, fun hno => absurd trivial hno⟩
    change wpBreach machine adm (Careful before) (if d.fs.isDir (versionPath n v) then _ else _) _ d
    cases hdir : d.fs.isDir (versionPath n v) with
    | false => trivial
    | true =>
        rw [if_pos rfl, wpBreach_issue_bind]
        intro x _
        constructor
        · intro _
          split
          · have hissues : Issues (RemovalCall []) (rmtree (versionPath n v) >>= fun _ =>
                removeEmptyParent (versionPath n v).dropLast) :=
              issues_removeDirectories Asks.removalCall trivial fun _ => trivial
            apply wpBreach_of_issues (fun _ => True) hissues
            · intro c x d' hc _ _
              exact hc.careful fun _ _ _ hmem => absurd hmem List.not_mem_nil
            · exact fun _ _ _ _ _ _ => trivial
            · trivial
          · apply wpBreach_of_no_calls
            apply Issues.bind (issues_errorText _)
            exact fun _ => trivial
        · intro hno
          by_cases hkind : x.kind = .fails
          · obtain ⟨fs, -, hremove⟩ := opkgRemove_fails hkind d (versionPath n v)
            have hperform : machine.perform (.opkgRemove app_name (versionPath n v)) x d = _ :=
              hremove
            simp only [Careful, hremove, Bool.false_eq_true, if_false] at hno
            rw [hperform]
            have hbroken : ¬ Restored before { d with fs := fs } :=
              fun hrestored => hno ⟨hrestored.1, hrestored.2 n v⟩
            dsimp only
            rw [if_neg Bool.false_ne_true, wp_bind]
            unfold errorText
            split
            · exact ⟨hbroken, by simp⟩
            · exact ⟨hbroken, by simp⟩
            · exact ⟨hbroken, by simp⟩
          · have hperform : machine.perform (.opkgRemove app_name (versionPath n v)) x d
                = (success x.stdout, { d with fs := d.fs.graft (versionPath n v) root }) := by
              simp only [machine, perform, opkgRemove, hdir]
              rw [if_neg hkind, if_pos trivial]
            simp only [Careful, opkgRemove, hkind, if_false, success, if_true,
              Bool.not_eq_false] at hno
            rw [hperform]
            apply wp_removeDirectories (isDir_eq_true.mp hdir) (versionPath_ne_nil n v)
            · exact fun _ _ => trivial
            · exact ⟨hcompleted, n, v, hno, isDir_removeBundle_self hdir⟩
  · trivial

/-- The installation fails, and what is at the path is not what was there before: the failure is
not caught, or what was there is lost. -/
theorem wp_afterInstallFails {app_name n v : Text} {result : CmdResult}
    (hcompleted : d.completed = installed_apps.map AppRecord.new_bundle_path)
    (hno : ¬ if result.stdout.text = none then
        NothingLeft d ∧ d.fs.isDir (versionPath n v) = before.fs.isDir (versionPath n v)
      else if d.fs.isDir (versionPath n v) then True
      else before.fs.isDir (versionPath n v) = false
        ∧ (d.fs.has (versionPath n v) = true → NothingLeft d)) (error : Text → PyException) :
  wp machine adm (errorText result >>= fun text =>
      cleanUp app_name (versionPath n v) >>= fun _ => (.throw (error text) : Py Unit))
    (Breaks before installed_apps) d
  := by
  rw [wp_bind]
  cases htext : result.stdout.text with
  | none =>
      rw [htext, if_pos rfl] at hno
      apply wp_errorText_of_none htext
      apply broken_of_uncaught
      · exact fun hrestored => hno ⟨hrestored.1, hrestored.2 n v⟩
      · simp
  | some text =>
      rw [htext, if_neg (Option.some_ne_none text)] at hno
      cases hdir : d.fs.isDir (versionPath n v) with
      | true => simp [hdir] at hno
      | false =>
          simp only [hdir, Bool.false_eq_true, if_false] at hno
          apply wp_errorText_of_text htext
          intro text
          dsimp only
          rw [wp_bind]
          apply wp_cleanUp trivial
          · intro hhas
            apply wp_removeApp (versionPath_ne_nil n v)
            · exact fun _ _ => trivial
            · intro x e _ _ hcls
              apply broken_of_uncaught
              · intro hrestored
                apply hno
                rw [← hrestored.2, hdir]
                exact ⟨rfl, fun _ => hrestored.1⟩
              · simp [hcls]
            · intro x e _ hthere
              rw [hdir] at hthere
              contradiction
            · intro x _ hthere
              rw [hdir] at hthere
              contradiction
          · intro hhas
            have hbefore : before.fs.isDir (versionPath n v) = true := by
              simpa [hhas] using hno
            have hlosing : Losing before installed_apps d := ⟨hcompleted, n, v, hbefore, hdir⟩
            exact hlosing.broken _

theorem wpBreach_installApp {app_pkg n v : Text}
    (hcompleted : d.completed = installed_apps.map AppRecord.new_bundle_path) :
  wpBreach machine adm (Careful before) (installApp app_pkg (versionPath n v))
    (Breaks before installed_apps) d
  := by
  rw [installApp]
  apply wpBreach_bind
  · apply (wpBreach_getAppName app_pkg).mono
    · exact fun _ _ h => h.elim
    · exact fun _ _ h => h.broken
    · exact fun _ h => h
  · apply wp_getAppName
    · trivial
    · intro x app_name _ _
      dsimp only
      rw [wpBreach_issue_bind]
      intro x _
      rcases opkgInstall_cases x d (versionPath n v) with
        ⟨tree, htree, -, heq⟩ | ⟨fs, -, heq⟩
      · have hperform : machine.perform (.opkgInstall app_name (versionPath n v) app_pkg) x d = _ :=
          heq
        rw [hperform]
        refine ⟨fun _ => trivial, fun hno => ?_⟩
        simp only [Careful, heq, success, if_true, Bool.not_eq_false] at hno
        exact ⟨n, v, by simp, hno⟩
      · have hperform : machine.perform (.opkgInstall app_name (versionPath n v) app_pkg) x d = _ :=
          heq
        rw [hperform]
        dsimp only
        rw [if_neg Bool.false_ne_true]
        constructor
        · intro _
          -- the failure itself is as expected
          apply wpBreach_bind
          · exact wpBreach_of_no_calls (issues_errorText _)
          · cases htext : x.stdout.text with
            | none => exact wp_errorText_of_none htext trivial
            | some text =>
                apply wp_errorText_of_text htext
                intro error
                apply wpBreach_bind_of_no_calls
                · exact fun _ => trivial
                · apply (wpBreach_cleanUp (by exact hcompleted)).mono
                  · exact fun _ _ h => Losing.broken h _
                  · exact fun _ _ h => broken_of_uncaught h.1 h.2
                  · exact fun _ h => h
        · intro hno
          simp only [Careful, heq, Bool.false_eq_true, if_false] at hno
          exact wp_afterInstallFails (by exact hcompleted) hno _
    · exact fun _ _ _ _ => trivial

section Careless

variable (hplain : ∀ c x d, adm c x d → PlainNames c x d)

include hplain in
theorem wpBreach_manageAppInstallation {ipk_path : Text}
    (h : Installing before installed_apps d) :
  wpBreach machine adm (Careful before) (manageAppInstallation ipk_path)
    (Breaks before installed_apps) d
  := by
  have hplain' : ∀ c x d, Both adm (Careful before) c x d → PlainNames c x d :=
    fun c x d hx => hplain c x d hx.1
  have hcareful : ∀ c x d, Both adm (Careful before) c x d → Careful before c x d :=
    fun _ _ _ hx => hx.2
  rw [manageAppInstallation]
  apply wpBreach_bind
  · apply (wpBreach_getAppName ipk_path).mono
    · exact fun _ _ h => h.elim
    · exact fun _ _ h => h.broken
    · exact fun _ h => h
  · apply wp_getAppName
    · trivial
    · intro x app_name hx hname
      have hname' := hplain' _ _ _ hx app_name hname
      apply wpBreach_bind
      · apply (wpBreach_getAppBundlePaths hname').mono
        · rintro _ d' ⟨rfl, hleft⟩
          exact broken_of_uncaught (fun hrestored => hleft hrestored.1) (by simp)
        · exact fun _ _ h => h.broken
        · exact fun _ h => h
      · apply (wp_getAppBundlePaths_careful hcareful hname' h.toInstalledSoFar _ _).mono
        · exact fun _ _ h => h
        · exact fun _ _ _ => trivial
        · exact fun _ _ => trivial
        · exact fun _ => trivial
        · intro cur version
          apply wpBreach_bind_of_no_calls
          · exact fun _ => trivial
          · exact wpBreach_installApp h.completed
    · exact fun _ _ _ _ => trivial

/-! ### All applications -/

/-- No directory appears where the content of one is removed. -/
theorem isDir_graft_root {fs : Files} {path q : FilePath} (hdir : fs.isDir path = true)
    (hq : fs.isDir q = false) :
  (fs.graft path root).isDir q = false
  := by
  have hnode := isDir_eq_true.mp hdir
  rw [Bool.eq_false_iff, Ne, isDir_eq_true] at hq ⊢
  rw [node_graft]
  split
  · rename_i hbelow
    obtain ⟨r, rfl⟩ := hbelow
    cases r with
    | nil =>
        rw [List.append_nil] at hq
        exact absurd hnode hq
    | cons name r => simp [node_root]
  · split
    · rename_i hnot habove
      intro _
      apply hq
      apply dir_above (q := path) (by simp [hnode]) habove
      rintro rfl
      exact hq hnode
    · exact hq

theorem isDir_remove {fs : Files} {path q : FilePath} (hq : fs.isDir q = false) :
  (fs.remove path).isDir q = false
  := by
  rw [Bool.eq_false_iff, Ne, isDir_eq_true] at hq ⊢
  rw [node_remove]
  split
  · simp
  · exact hq

/-- A version directory that is lost does not come back where bundles are removed. -/
theorem Lost.perform {paths : List FilePath} {c : Call} {x : Choice} (hc : RemovalCall paths c)
    (hremove : ∀ app_name path, c = .opkgRemove app_name path → path ∈ paths → x.kind ≠ .fails)
    (h : Lost before d) :
  Lost before (perform c x d).2
  := by
  obtain ⟨n, v, hbefore, hgone⟩ := h
  refine ⟨n, v, hbefore, ?_⟩
  cases c with
  | isdir path | exists_ path | listdir path => exact hgone
  | rmtree path =>
      simp only [App.perform]
      split
      · exact isDir_remove hgone
      · exact hgone
  | opkgRemove app_name path =>
      simp only [App.perform, opkgRemove]
      rw [if_neg (hremove app_name path rfl hc)]
      dsimp only
      split
      · exact isDir_graft_root ‹_› hgone
      · exact hgone
  | _ => exact hc.elim

/-- What is reported to be installed stays so where bundles are removed. -/
theorem RemovalCall.completed {paths : List FilePath} {c : Call} {x : Choice}
    (hc : RemovalCall paths c) :
  (perform c x d).2.completed = d.completed
  := by
  cases c with
  | isdir path | exists_ path | listdir path | rmtree path => rfl
  | opkgRemove app_name path =>
      simp only [App.perform, opkgRemove]
      split <;> rfl
  | _ => exact hc.elim

section Removals

variable (hremovals : ∀ c x d, adm c x d → RemovalsSucceed c x d)
include hremovals

/-- The removal of the bundles that were installed does not bring back what is lost. -/
theorem wp_removeAfterInstallError_losing {α : Type} {install_error : PyException}
    (h : Losing before installed_apps d) :
  wp machine adm (removeAfterInstallError installed_apps install_error : Py α)
    { returned := fun _ _ => True, raised := fun _ d' => ¬ Restored before d', cut := fun _ => True }
    d
  := by
  rw [removeAfterInstallError, wp_bind, wp_catching]
  apply (wp_of_issues (Losing before installed_apps) (issues_removalCall installed_apps) _
    h).mono
  · exact fun _ _ h => h.2.not_restored
  · intro e d' h
    dsimp only
    split <;> exact h.2.not_restored
  · exact fun _ _ => trivial
  · rintro c x d' hc hx ⟨hcompleted, hlost⟩
    refine ⟨hc.completed.trans hcompleted, hlost.perform hc ?_⟩
    rintro app_name path rfl hmem
    apply hremovals _ _ _ hx
    rw [hcompleted]
    exact hmem

/-- Nothing unexpected comes of the removal of the bundles that were installed. -/
theorem wpBreach_removeAfterInstallError {α : Type} {install_error : PyException}
    {Q : Post Device PyException α} (h : InstalledSoFar before installed_apps d) :
  wpBreach machine adm (Careful before) (removeAfterInstallError installed_apps install_error) Q d
  := by
  apply wpBreach_bind_of_no_calls
  · rintro (e | _) <;> trivial
  · apply wpBreach_catching
    apply wpBreach_of_issues
      (fun d' => d'.completed = installed_apps.map AppRecord.new_bundle_path)
      (issues_removalCall installed_apps)
    · intro c x d' hc hx hcompleted
      apply hc.careful
      rintro app_name path rfl hmem
      constructor
      · apply hremovals _ _ _ hx
        rw [hcompleted]
        exact hmem
      · apply h.fresh
        rw [h.completed]
        exact hmem
    · intro c x d' hc _ hcompleted
      exact hc.completed.trans hcompleted
    · exact h.completed

end Removals

include hplain in
/-- A phase that is not careful and ends with an exception has not restored what was there
before. -/
theorem wpBreach_installAppsFrom (hremovals : ∀ c x d, adm c x d → RemovalsSucceed c x d)
    (ipks : List Text) (h : Installing before installed_apps d) :
  wpBreach machine adm (Careful before) (installAppsFrom installed_apps ipks)
    { returned := fun _ _ => True, raised := fun _ d' => ¬ Restored before d', cut := fun _ => True }
    d
  := by
  have hplain' : ∀ c x d, Both adm (Careful before) c x d → PlainNames c x d :=
    fun c x d hx => hplain c x d hx.1
  have hcareful : ∀ c x d, Both adm (Careful before) c x d → Careful before c x d :=
    fun _ _ _ hx => hx.2
  induction ipks generalizing installed_apps d with
  | nil => trivial
  | cons ipk ipks ih =>
      rw [installAppsFrom]
      apply wpBreach_bind
      · apply wpBreach_catching
        apply (wpBreach_manageAppInstallation hplain h).mono
        · intro app d' hspoiled
          apply (wp_spoiled _ hspoiled).mono
          · exact fun _ _ _ => trivial
          · exact fun _ _ h => h.not_restored
          · exact fun _ _ => trivial
        · rintro e d' ⟨hbroken, hcaught⟩
          dsimp only
          split
          · exact wp_removeAfterInstallError_losing hremovals (hcaught ‹_›)
          · exact hbroken
        · exact fun _ h => h
      · rw [wp_catching]
        apply (wp_manageAppInstallation_careful hplain' hcareful h).mono
        · intro app d' h'
          exact ih h'
        · intro e d' h'
          dsimp only
          split
          · exact wpBreach_removeAfterInstallError hremovals (h'.caught ‹_›)
          · trivial
        · exact fun _ _ => trivial

end Careless

/-! ### When the phase is atomic -/

/-- When the install phase of packages with plain names ends with an exception, and every removal of a
bundle that was installed completely succeeds, the disk is as it was before just if the phase was
careful. -/
theorem restored_iff_careful {ipks : List Text} {xs : List Choice} {e : PyException}
    (hstart : d.completed = []) (hplain : Obeys machine PlainNames (installApps ipks) xs d)
    (hremovals : Obeys machine RemovalsSucceed (installApps ipks) xs d)
    (hraised : (run machine (installApps ipks) xs d).1 = .raised e) :
  Restored d (run machine (installApps ipks) xs d).2.2
    ↔ Obeys machine (Careful d) (installApps ipks) xs d
  := by
  have hinstalling : Installing d [] d := by
    constructor
    · constructor
      · exact hstart
      · simp
      · simp [hstart]
      · exact fun _ _ _ => rfl
    · simp [hstart]
  have hadm := hplain.and hremovals
  constructor
  · intro hrestored
    by_contra hcareful
    have hends := holds_of_wpBreach
      (wpBreach_installAppsFrom (fun _ _ _ h => h.1) (fun _ _ _ h => h.2) ipks hinstalling)
      hadm hcareful
    rw [← installApps, hraised] at hends
    exact hends hrestored
  · intro hcareful
    have hends := holds_of_wp
      (wp_installAppsFrom_careful (fun _ _ _ h => h.1.1) (fun _ _ _ h => h.1.2)
        (fun _ _ _ h => h.2) ipks hinstalling)
      (hadm.and hcareful)
    rw [← installApps, hraised] at hends
    exact hends

instance decidableCareful (before : Device) : ∀ (c : Call) (x : Choice) (d : Device),
    Decidable (Careful before c x d)
  | .opkgInfo _, x, d => inferInstanceAs (Decidable (infoFails (opkgInfo x) = true → NothingLeft d))
  | .walk path name, _, d =>
      inferInstanceAs (Decidable (scanFails name path (walk d.fs path) = true → NothingLeft d))
  | .opkgInstall _ path _, x, d =>
      inferInstanceAs (Decidable
        (if (opkgInstall x d path).1.ok then before.fs.isDir path = false
        else if (opkgInstall x d path).1.stdout.text = none then
          NothingLeft (opkgInstall x d path).2
            ∧ (opkgInstall x d path).2.fs.isDir path = before.fs.isDir path
        else if (opkgInstall x d path).2.fs.isDir path then True
        else before.fs.isDir path = false
          ∧ ((opkgInstall x d path).2.fs.has path = true → NothingLeft (opkgInstall x d path).2)))
  | .opkgRemove _ path, x, d =>
      inferInstanceAs (Decidable
        (if (opkgRemove x d path).1.ok then before.fs.isDir path = false
        else NothingLeft (opkgRemove x d path).2
          ∧ (opkgRemove x d path).2.fs.isDir path = before.fs.isDir path))
  | .extractall _ _, _, _ | .runcState _, _, _ | .runcKill _ _, _, _ | .runcDelete _, _, _
  | .runcCreate _ _, _, _ | .runcStart _, _, _ | .isdir _, _, _ | .exists_ _, _, _
  | .listdir _, _, _ | .rmtree _, _, _ | .endtimeReached, _, _ | .log _, _, _ => isTrue trivial

instance decidableRemovalsSucceed : ∀ (c : Call) (x : Choice) (d : Device),
    Decidable (RemovalsSucceed c x d)
  | .isdir path, _, d => inferInstanceAs (Decidable (path ∈ d.completed → d.fs.isDir path = true))
  | .opkgRemove _ path, x, d => inferInstanceAs (Decidable (path ∈ d.completed → x.kind ≠ .fails))
  | .extractall _ _, _, _ | .opkgInfo _, _, _ | .opkgInstall _ _ _, _, _ | .runcState _, _, _
  | .runcKill _ _, _, _ | .runcDelete _, _, _ | .runcCreate _ _, _, _ | .runcStart _, _, _
  | .exists_ _, _, _ | .walk _ _, _, _ | .listdir _, _, _ | .rmtree _, _, _
  | .endtimeReached, _, _ | .log _, _, _ => isTrue trivial

end App
