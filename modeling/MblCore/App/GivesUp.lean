import MblCore.App.CarelessInstall

/-!
# Where the install phase gives up

When the install phase cannot go on, it takes the bundles that it has installed away from the disk if
the exception is one that it expects, and otherwise it leaves everything as it is.  What it comes to is
decided at the call at which it gives up, whatever the packages are called and wherever their bundles
are: when the exception is expected, the disk without the bundles has to be as before, and otherwise
the disk itself.
-/

namespace App

open FileTree
open Prog hiding pure throw bind

/-! ### Giving up -/

/-- The disk without the bundles at some paths, where they are removed one after the other. -/
def takeAway : List FilePath → Files → Files
  | [], fs => fs
  | path :: paths, fs => takeAway paths (if fs.isDir path then removeBundle fs path else fs)

/-- What was installed can be taken away: without it the disk is as before. -/
def Revocable (before d : Device) : Prop :=
  Restored before { d with fs := takeAway d.completed d.fs }

/-- What a failed installation has left is such that the phase gives up as it should, or goes on with
the removal of a directory. -/
def FailsClean (before : Device) (path : FilePath) (result : CmdResult) (d : Device) : Prop :=
  if result.stdout.text = none then Restored before d
  else if d.fs.has path = false then Revocable before d
  else if d.fs.isDir path then True
  else Restored before d

/-- The guard at the calls at which the phase can give up, on a device that was as `before` when it
began.  What it does not expect has to come when everything is as before, and what it expects when what
was installed can be taken away. -/
def GivesUpClean (before : Device) : Call → Choice → Device → Prop
  | .opkgInfo app_pkg, x, d =>
      match appNameOf app_pkg (opkgInfo x) with
      | .ok _ => True
      | .error _ => if infoFails (opkgInfo x) then Restored before d else Revocable before d
  | .walk path name, _, d => scanFails name path (walk d.fs path) = true → Restored before d
  | .opkgInstall _ path _, x, d =>
      let (result, d') := opkgInstall x d path
      if result.ok then True else FailsClean before path result d'
  | .opkgRemove _ path, x, d =>
      let (result, d') := opkgRemove x d path
      if result.ok then Revocable before { d with fs := removeBundle d.fs path }
      else Restored before d'
  | _, _, _ => True

/-- The calls at which the phase does not give up. -/
def Unguarded : Call → Prop
  | .exists_ _ | .isdir _ | .listdir _ | .rmtree _ => True
  | _ => False

variable {before : Device} {adm : Call → Choice → Device → Prop} {d : Device}
  {installed_apps : List AppRecord} {path : FilePath}

theorem Unguarded.givesUpClean (c : Call) (x : Choice) (d : Device) (hc : Unguarded c) :
  GivesUpClean before c x d
  := by
  cases c <;> trivial

/-! ### Taking bundles away -/

/-- No directory appears where a bundle is removed. -/
theorem isDir_removeBundle {fs : Files} {q : FilePath} (hdir : fs.isDir path = true)
    (hq : fs.isDir q = false) :
  (removeBundle fs path).isDir q = false
  := by
  have hrest : ((fs.graft path root).remove path).isDir q = false :=
    isDir_remove (isDir_graft_root hdir hq)
  unfold removeBundle
  dsimp only
  split
  · exact isDir_remove hrest
  · exact hrest

theorem takeAway_append (paths paths' : List FilePath) (fs : Files) :
  takeAway (paths ++ paths') fs = takeAway paths' (takeAway paths fs)
  := by
  induction paths generalizing fs with
  | nil => rfl
  | cons path paths ih => exact ih _

/-- Only the disk and what was reported to be installed tell whether everything is as before. -/
theorem restored_congr {d' : Device} (hfs : d'.fs = d.fs) (hcompleted : d'.completed = d.completed) :
  Restored before d' ↔ Restored before d
  := by
  simp only [Restored, NothingLeft, hfs, hcompleted]

theorem revocable_congr {d' : Device}
    (hfs : takeAway d'.completed d'.fs = takeAway d.completed d.fs)
    (hcompleted : d'.completed = d.completed) :
  Revocable before d' ↔ Revocable before d
  := restored_congr hfs hcompleted

/-- Nothing is taken away where no directories are. -/
theorem takeAway_of_not_isDir {paths : List FilePath} {fs : Files}
    (h : ∀ path ∈ paths, fs.isDir path = false) :
  takeAway paths fs = fs
  := by
  induction paths with
  | nil => rfl
  | cons path paths ih =>
      rw [List.forall_mem_cons] at h
      rw [takeAway, h.1, if_neg Bool.false_ne_true]
      exact ih h.2

/-- The update manager knows all bundles it has installed. -/
structure Known (installed_apps : List AppRecord) (d : Device) : Prop where
  completed : d.completed = installed_apps.map AppRecord.new_bundle_path
  paths : ∀ app ∈ installed_apps, app.new_bundle_path ≠ []

/-- The bundles of the first applications are gone, and without the others the disk is the final
one. -/
structure Taking (final : Files) (done todo : List AppRecord) (d : Device) : Prop where
  known : Known (done ++ todo) d
  gone : ∀ app ∈ done, d.fs.isDir app.new_bundle_path = false
  rest : takeAway (todo.map AppRecord.new_bundle_path) d.fs = final

/-- What the rest of the removals lead to, all removals lead to. -/
theorem Taking.takeAway_completed {final : Files} {done todo : List AppRecord}
    (h : Taking final done todo d) :
  takeAway d.completed d.fs = final
  := by
  have hgone : takeAway (done.map AppRecord.new_bundle_path) d.fs = d.fs := by
    apply takeAway_of_not_isDir
    intro path hpath
    obtain ⟨app, happ, rfl⟩ := List.mem_map.mp hpath
    exact h.gone app happ
  rw [h.known.completed, List.map_append, takeAway_append, hgone, h.rest]

/-- One more bundle is taken away. -/
theorem Taking.removeBundle {final : Files} {done todo : List AppRecord} {app : AppRecord}
    (h : Taking final done (app :: todo) d) (hdir : d.fs.isDir app.new_bundle_path = true) :
  Taking final (done ++ [app]) todo { d with fs := removeBundle d.fs app.new_bundle_path }
  := by
  constructor
  · constructor
    · rw [← List.append_cons]
      exact h.known.completed
    · rw [← List.append_cons]
      exact h.known.paths
  · intro app' happ'
    rcases List.mem_append.mp happ' with hmem | hmem
    · exact isDir_removeBundle hdir (h.gone app' hmem)
    · rw [List.mem_singleton.mp hmem]
      exact isDir_removeBundle_self hdir
  · have hrest := h.rest
    rwa [List.map_cons, takeAway, if_pos hdir] at hrest

/-! ### What is asked of a phase -/

/-- The phase gives up as it should just when `v` holds: an exception is caught and what was installed
can be taken away, or it is not caught and everything is as before. -/
structure GaveUp (before : Device) (installed_apps : List AppRecord) (v : Prop) (e : PyException)
    (d : Device) : Prop where
  caught : e.cls ∈ [.AppIdError, .AppInstallError] →
    Known installed_apps d ∧ (v ↔ Revocable before d)
  uncaught : e.cls ∉ [.AppIdError, .AppInstallError] → (v ↔ Restored before d)

theorem gaveUp_of_caught {v : Prop} {e : PyException} (h : Known installed_apps d)
    (hcls : e.cls ∈ [.AppIdError, .AppInstallError]) (hv : v ↔ Revocable before d) :
  GaveUp before installed_apps v e d
  := ⟨fun _ => ⟨h, hv⟩, fun hnot => absurd hcls hnot⟩

theorem gaveUp_of_uncaught {v : Prop} {e : PyException}
    (hcls : e.cls ∉ [.AppIdError, .AppInstallError]) (hv : v ↔ Restored before d) :
  GaveUp before installed_apps v e d
  := ⟨fun hin => absurd hin hcls, fun _ => hv⟩

/-- A part of the phase keeps to the guard when it returns, and otherwise gives up. -/
def OrGivesUp (before : Device) (installed_apps : List AppRecord) {α : Type}
    (returned : α → Device → Prop) (v : Prop) : Post Device PyException α where
  returned a d := v ∧ returned a d
  raised := GaveUp before installed_apps v
  cut _ := True

theorem wpVerdict_getAppName {app_pkg : Text} {returned : Text → Device → Prop}
    (h : Known installed_apps d) (hreturned : ∀ app_name, returned app_name d) :
  wpVerdict machine adm (GivesUpClean before) (getAppName app_pkg)
    (OrGivesUp before installed_apps returned) d
  := by
  rw [getAppName_eq]
  apply wpVerdict_issue (fun result => issues_ofExcept _) Unguarded.givesUpClean
  · trivial
  · intro x _
    change wp machine adm (ofExcept (appNameOf app_pkg (opkgInfo x))) _ d
    rw [wp_ofExcept]
    simp only [GivesUpClean]
    cases hname : appNameOf app_pkg (opkgInfo x) with
    | ok app_name => exact ⟨trivial, hreturned app_name⟩
    | error e =>
        rcases appNameOf_cases app_pkg (opkgInfo x) with ⟨hfails, e', he', hcls⟩ | ⟨hnot, hcls⟩
        · obtain rfl := Except.error.inj (hname.symm.trans he')
          rw [hfails, if_pos rfl]
          apply gaveUp_of_uncaught _ Iff.rfl
          rcases hcls with hcls | hcls <;> simp [hcls]
        · rw [hnot, if_neg Bool.false_ne_true]
          exact gaveUp_of_caught h (by simp [hcls e hname]) Iff.rfl

/-- The paths of an application are found, or there are none. -/
theorem wpVerdict_getAppBundlePaths {app_name : Text} :
  wpVerdict machine adm (GivesUpClean before) (getAppBundlePaths app_name)
    (fun v =>
      { returned := fun paths d' => d' = d ∧ ((paths = none ∧ (v ↔ Restored before d))
          ∨ v ∧ ∃ cur new, paths = some (cur, new) ∧ new ≠ [])
        raised := GaveUp before installed_apps v
        cut := fun _ => True }) d
  := by
  have hne (version : ℤ) : joinPath (joinPath APPS_INSTALLATION_PATH app_name) (intText version)
      ≠ [] := by
    rw [joinPath_of_plain _ (plainName_intText version)]
    exact List.concat_ne_nil _ _
  rw [getAppBundlePaths_eq]
  apply wpVerdict_issue_bind trivial
  · intro x _ _
    change wpVerdict machine adm _
      (if d.fs.isDir (joinPath APPS_INSTALLATION_PATH app_name) then _ else _) _ d
    split
    · apply wpVerdict_issue (fun entries => issues_ofExcept _) Unguarded.givesUpClean
      · trivial
      · intro x _
        change wp machine adm (ofExcept (bundlePathsOf app_name
          (joinPath APPS_INSTALLATION_PATH app_name)
          (walk d.fs (joinPath APPS_INSTALLATION_PATH app_name)))) _ d
        rw [wp_ofExcept]
        simp only [GivesUpClean]
        rcases bundlePathsOf_cases app_name (joinPath APPS_INSTALLATION_PATH app_name)
          (walk d.fs (joinPath APPS_INSTALLATION_PATH app_name)) with
          ⟨hfails, hnone | ⟨e, he, hcls⟩⟩ | ⟨hscan, cur, version, hsome⟩
        · rw [hnone, hfails]
          exact ⟨trivial, Or.inl ⟨rfl, by simp⟩⟩
        · rw [he, hfails]
          exact gaveUp_of_uncaught hcls (by simp)
        · rw [hsome, hscan]
          exact ⟨trivial, Or.inr ⟨by simp, _, _, rfl, hne version⟩⟩
    · apply wpVerdict_pure
      exact ⟨rfl, Or.inr ⟨trivial, _, _, rfl, hne 0⟩⟩
  · exact fun x _ hnot => absurd trivial hnot

/-- A bundle is removed, which is as it should be when what was installed can be taken away then. -/
theorem wpVerdict_removeApp {app_name : Text} (hne : path ≠ [])
    (hdir : ∀ x, adm (.isdir path) x d → d.fs.isDir path = true) :
  wpVerdict machine adm (GivesUpClean before) (removeApp app_name path)
    (fun v =>
      { returned := fun _ d' => d.fs.isDir path = true ∧
          d' = { d with fs := removeBundle d.fs path } ∧ (v ↔ Revocable before d')
        raised := fun e d' => e.cls ∉ [.AppIdError, .AppInstallError] ∧ (v ↔ Restored before d') ∧
          ∃ x, adm (.opkgRemove app_name path) x d ∧ x.kind = .fails
        cut := fun _ => True }) d
  := by
  rw [removeApp]
  apply wpVerdict_issue_bind trivial
  · intro x hx _
    have hdir := hdir x hx
    change wpVerdict machine adm _ (if d.fs.isDir path then _ else _) _ d
    rw [if_pos hdir]
    apply wpVerdict_issue _ Unguarded.givesUpClean
    · trivial
    · intro x hx
      simp only [GivesUpClean]
      by_cases hkind : x.kind = .fails
      · obtain ⟨fs, -, hremove⟩ := opkgRemove_fails hkind d path
        have hperform : machine.perform (.opkgRemove app_name path) x d = _ := hremove
        rw [hperform]
        dsimp only
        rw [if_neg Bool.false_ne_true, wp_bind, hremove, if_neg Bool.false_ne_true]
        unfold errorText
        split
        · exact ⟨by simp, Iff.rfl, x, hx, hkind⟩
        · exact ⟨by simp, Iff.rfl, x, hx, hkind⟩
        · exact ⟨by simp, Iff.rfl, x, hx, hkind⟩
      · have hremove : opkgRemove x d path
            = (success x.stdout, { d with fs := d.fs.graft path root }) := by
          simp only [opkgRemove, hdir]
          rw [if_neg hkind, if_pos trivial]
        have hperform : machine.perform (.opkgRemove app_name path) x d = _ := hremove
        rw [hperform, hremove]
        apply wp_removeDirectories (isDir_eq_true.mp hdir) hne
        · exact fun _ _ => trivial
        · exact ⟨hdir, rfl, Iff.rfl⟩
    · intro result
      split
      · apply issues_removeDirectories
        · intro c hc
          cases c <;> trivial
        · trivial
        · exact fun _ => trivial
      · apply Issues.bind (issues_errorText _)
        exact fun _ => trivial
  · exact fun x _ hnot => absurd trivial hnot

theorem has_of_isDir {fs : Files} (hdir : fs.isDir path = true) :
  fs.has path = true
  := by
  by_contra hnot
  rw [isDir_of_has_eq_false (Bool.eq_false_iff.mpr hnot)] at hdir
  contradiction

/-- What a failed installation has left in a directory is removed, or its removal fails. -/
theorem wpVerdict_cleanUp {app_name : Text} (h : Known installed_apps d) (hne : path ≠ [])
    (hdir : d.fs.isDir path = true) :
  wpVerdict machine adm (GivesUpClean before) (cleanUp app_name path)
    (fun v =>
      { returned := fun _ d' => Known installed_apps d' ∧ (v ↔ Revocable before d')
        raised := GaveUp before installed_apps v
        cut := fun _ => True }) d
  := by
  have hhas := has_of_isDir hdir
  rw [cleanUp]
  apply wpVerdict_issue_bind trivial
  · intro x _ _
    change wpVerdict machine adm _ (if d.fs.has path then _ else _) _ d
    rw [if_pos hhas]
    apply (wpVerdict_removeApp hne fun _ _ => hdir).mono
    · rintro v _ d' ⟨-, rfl, hv⟩
      exact ⟨⟨h.completed, h.paths⟩, hv⟩
    · rintro v e d' ⟨hcls, hv, -⟩
      exact gaveUp_of_uncaught hcls hv
    · exact fun _ _ h => h
  · exact fun x _ hnot => absurd trivial hnot

/-- Where nothing, or something that is not a directory, was left, nothing is removed. -/
theorem wp_cleanUp_of_not_isDir {app_name : Text} {v : Prop} {Q : Post Device PyException Unit}
    (hcut : ∀ d', Q.cut d') (hdir : d.fs.isDir path = false)
    (hv : v ↔ if d.fs.has path = false then Revocable before d else Restored before d)
    (hreturned : (v ↔ Revocable before d) → Q.returned () d)
    (hraised : ∀ e, e.cls ∉ [.AppIdError, .AppInstallError] → (v ↔ Restored before d) → Q.raised e d) :
  wp machine adm (cleanUp app_name path) Q d
  := by
  rw [cleanUp, wp_bind, wp_issue]
  refine ⟨hcut d, fun x _ => ?_⟩
  change wp machine adm (if d.fs.has path then _ else _) _ d
  cases hhas : d.fs.has path with
  | false =>
      rw [hhas, if_pos rfl] at hv
      exact hreturned hv
  | true =>
      rw [hhas, if_neg (by simp)] at hv
      rw [if_pos rfl, removeApp, wp_bind, wp_issue]
      refine ⟨hcut d, fun x _ => ?_⟩
      change wp machine adm (if d.fs.isDir path then _ else _) _ d
      rw [hdir, if_neg Bool.false_ne_true]
      exact hraised _ (by simp) hv

/-- None of the calls is then one at which the phase gives up. -/
theorem wpBreach_cleanUp_of_not_isDir {app_name : Text} {Q : Post Device PyException Unit}
    (hdir : d.fs.isDir path = false) :
  wpBreach machine adm (GivesUpClean before) (cleanUp app_name path) Q d
  := by
  rw [cleanUp, wpBreach_issue_bind]
  intro x _
  refine ⟨fun _ => ?_, fun hnot => absurd trivial hnot⟩
  change wpBreach machine adm _ (if d.fs.has path then _ else _) _ d
  split
  · rw [removeApp, wpBreach_issue_bind]
    intro x _
    refine ⟨fun _ => ?_, fun hnot => absurd trivial hnot⟩
    change wpBreach machine adm _ (if d.fs.isDir path then _ else _) _ d
    rw [hdir, if_neg Bool.false_ne_true]
    trivial
  · trivial

section FailedInstall

variable {app_name : Text} {result : CmdResult} {error : Text → PyException}
  {returned : Unit → Device → Prop} (h : Known installed_apps d)
  (herror : ∀ text, (error text).cls ∈ [.AppIdError, .AppInstallError])

include h herror

/-- After a failed installation that is not clean the phase gives up. -/
theorem wp_afterInstallFails_of_not_clean (hno : ¬ FailsClean before path result d) :
  wp machine adm (errorText result >>= fun text =>
      cleanUp app_name path >>= fun _ => (.throw (error text) : Py Unit))
    (OrGivesUp before installed_apps returned False) d
  := by
  have hv := iff_of_false id hno
  rw [wp_bind]
  cases htext : result.stdout.text with
  | none =>
      rw [FailsClean, htext, if_pos rfl] at hv
      apply wp_errorText_of_none htext
      exact gaveUp_of_uncaught (by simp) hv
  | some output =>
      rw [FailsClean, htext, if_neg (Option.some_ne_none output)] at hv
      have hdir : d.fs.isDir path = false := by
        by_contra hthere
        rw [Bool.not_eq_false] at hthere
        rw [hthere, if_pos rfl, has_of_isDir hthere, if_neg (by simp)] at hv
        exact hv.mpr trivial
      rw [hdir, if_neg Bool.false_ne_true] at hv
      apply wp_errorText_of_text htext
      intro text
      dsimp only
      rw [wp_bind]
      apply wp_cleanUp_of_not_isDir (fun _ => trivial) hdir hv
      · exact fun hv => gaveUp_of_caught h (herror text) hv
      · exact fun e hcls hv => gaveUp_of_uncaught hcls hv

/-- A failed installation that is clean: the phase gives up, or it removes a directory and may breach
the guard there. -/
theorem wpVerdict_afterInstallFails (hne : path ≠ []) (hclean : FailsClean before path result d) :
  wpVerdict machine adm (GivesUpClean before) (errorText result >>= fun text =>
      cleanUp app_name path >>= fun _ => (.throw (error text) : Py Unit))
    (OrGivesUp before installed_apps returned) d
  := by
  have hv := iff_of_true trivial hclean
  apply wpVerdict_bind
  apply wpVerdict_of_unguarded (issues_errorText result) Unguarded.givesUpClean
  cases htext : result.stdout.text with
  | none =>
      rw [FailsClean, htext, if_pos rfl] at hv
      apply wp_errorText_of_none htext
      exact gaveUp_of_uncaught (by simp) hv
  | some output =>
      rw [FailsClean, htext, if_neg (Option.some_ne_none output)] at hv
      apply wp_errorText_of_text htext
      intro text
      refine ⟨fun _ => ?_, fun hnot => absurd trivial hnot⟩
      cases hdir : d.fs.isDir path with
      | false =>
          rw [hdir, if_neg Bool.false_ne_true] at hv
          constructor
          · rw [wp_bind]
            apply wp_cleanUp_of_not_isDir (fun _ => trivial) hdir hv
            · exact fun hv => gaveUp_of_caught h (herror text) hv
            · exact fun e hcls hv => gaveUp_of_uncaught hcls hv
          · apply wpBreach_bind_of_no_calls
            · exact fun _ => trivial
            · exact wpBreach_cleanUp_of_not_isDir hdir
      | true =>
          apply wpVerdict_bind
          apply (wpVerdict_cleanUp h hne hdir).mono
          · rintro v _ d' ⟨hknown, hv⟩
            constructor
            · intro hclean'
              apply wpVerdict_throw
              exact gaveUp_of_caught hknown (herror text) (iff_of_true trivial (hv.mp hclean'))
            · intro hnot
              exact gaveUp_of_caught hknown (herror text) (iff_of_false id (mt hv.mpr hnot))
          · exact fun _ _ _ h => h
          · exact fun _ _ h => h

end FailedInstall

/-- One more bundle is installed. -/
theorem Known.concat {d' : Device} {app : AppRecord} (h : Known installed_apps d)
    (hcompleted : d'.completed = d.completed ++ [app.new_bundle_path])
    (hne : app.new_bundle_path ≠ []) :
  Known (installed_apps ++ [app]) d'
  := by
  constructor
  · rw [hcompleted, h.completed, List.map_append, List.map_singleton]
  · intro app' happ'
    rcases List.mem_append.mp happ' with hmem | hmem
    · exact h.paths app' hmem
    · rwa [List.mem_singleton.mp hmem]

theorem wpVerdict_installApp {app_pkg : Text} (h : Known installed_apps d) (hne : path ≠ []) :
  wpVerdict machine adm (GivesUpClean before) (installApp app_pkg path)
    (OrGivesUp before installed_apps fun _ d' => ∀ app : AppRecord,
      app.new_bundle_path = path → Known (installed_apps ++ [app]) d') d
  := by
  rw [installApp]
  apply wpVerdict_bind
  have hnamed : wpVerdict machine adm (GivesUpClean before) (getAppName app_pkg)
      (OrGivesUp before installed_apps fun _ d' => d' = d) d := wpVerdict_getAppName h fun _ => rfl
  apply hnamed.mono
  · rintro v app_name d' ⟨hv, hsame⟩
    refine ⟨fun _ => ?_, fun hnot => absurd hv hnot⟩
    rw [hsame]
    apply wpVerdict_issue_bind trivial
    · intro x _ hclean
      simp only [GivesUpClean] at hclean
      rcases opkgInstall_cases x d path with ⟨tree, -, -, heq⟩ | ⟨fs, -, heq⟩
      · have hperform : machine.perform (.opkgInstall app_name path app_pkg) x d = _ := heq
        rw [hperform]
        apply wpVerdict_pure
        refine ⟨trivial, ?_⟩
        rintro app rfl
        exact h.concat rfl hne
      · have hperform : machine.perform (.opkgInstall app_name path app_pkg) x d = _ := heq
        rw [heq, if_neg Bool.false_ne_true] at hclean
        rw [hperform]
        dsimp only
        rw [if_neg Bool.false_ne_true]
        exact wpVerdict_afterInstallFails ⟨h.completed, h.paths⟩ (fun _ => by simp) hne hclean
    · intro x _ hno
      simp only [GivesUpClean] at hno
      rcases opkgInstall_cases x d path with ⟨tree, -, -, heq⟩ | ⟨fs, -, heq⟩
      · rw [heq] at hno
        exact absurd trivial hno
      · have hperform : machine.perform (.opkgInstall app_name path app_pkg) x d = _ := heq
        rw [heq, if_neg Bool.false_ne_true] at hno
        rw [hperform]
        dsimp only
        rw [if_neg Bool.false_ne_true]
        exact wp_afterInstallFails_of_not_clean ⟨h.completed, h.paths⟩ (fun _ => by simp) hno
  · exact fun _ _ _ h => h
  · exact fun _ _ h => h

theorem wpVerdict_manageAppInstallation {ipk_path : Text} (h : Known installed_apps d) :
  wpVerdict machine adm (GivesUpClean before) (manageAppInstallation ipk_path)
    (OrGivesUp before installed_apps fun app => Known (installed_apps ++ [app])) d
  := by
  rw [manageAppInstallation]
  apply wpVerdict_bind
  have hnamed : wpVerdict machine adm (GivesUpClean before) (getAppName ipk_path)
      (OrGivesUp before installed_apps fun _ d' => d' = d) d := wpVerdict_getAppName h fun _ => rfl
  apply hnamed.mono
  · rintro v app_name d' ⟨hv, hsame⟩
    refine ⟨fun _ => ?_, fun hnot => absurd hv hnot⟩
    rw [hsame]
    apply wpVerdict_bind
    apply wpVerdict_getAppBundlePaths.mono
    · rintro v paths d' ⟨hsame, ⟨rfl, hv⟩ | ⟨hv, cur, new, rfl, hne⟩⟩
      · -- there is no next path, which the phase does not expect
        rw [hsame]
        constructor
        · intro hclean
          apply wpVerdict_throw
          exact gaveUp_of_uncaught (by simp) (iff_of_true trivial (hv.mp hclean))
        · intro hnot
          exact gaveUp_of_uncaught (by simp) (iff_of_false id (mt hv.mpr hnot))
      · refine ⟨fun _ => ?_, fun hnot => absurd hv hnot⟩
        rw [hsame]
        apply wpVerdict_bind
        apply (wpVerdict_installApp h hne).mono
        · rintro v _ d'' ⟨hv, hknown⟩
          refine ⟨fun _ => ?_, fun hnot => absurd hv hnot⟩
          apply wpVerdict_pure
          exact ⟨trivial, hknown _ rfl⟩
        · exact fun _ _ _ h => h
        · exact fun _ _ h => h
    · exact fun _ _ _ h => h
    · exact fun _ _ h => h
  · exact fun _ _ _ h => h
  · exact fun _ _ h => h

/-! ### Taking away what was installed -/

section Removals

variable (hremovals : ∀ c x d, adm c x d → RemovalsSucceed c x d)
include hremovals

/-- A bundle of an application is removed when it is its turn. -/
theorem wp_removeApp_taking {final : Files} {done todo : List AppRecord} {app : AppRecord}
    (h : Taking final done (app :: todo) d) :
  wp machine adm (removeApp app.name app.new_bundle_path)
    { returned := fun _ => Taking final (done ++ [app]) todo
      raised := fun _ _ => False
      cut := fun _ => True } d
  := by
  have hmem : app.new_bundle_path ∈ d.completed := by
    rw [h.known.completed]
    exact List.mem_map_of_mem (by simp)
  apply wp_removeApp (h.known.paths app (by simp))
  · exact fun _ _ => trivial
  · intro x e hx hnot
    rw [hremovals _ _ _ hx hmem] at hnot
    contradiction
  · exact fun x e hx _ hkind _ => hremovals _ _ _ hx hmem hkind
  · exact fun x _ hdir _ => h.removeBundle hdir

/-- The bundles are taken away. -/
theorem wp_removeNewBundles_taking (h : Known installed_apps d) :
  wp machine adm (removeAppsBundles NEW_BUNDLE_PATH installed_apps)
    { returned := fun _ d' => Restored before d' ↔ Revocable before d
      raised := fun _ _ => False
      cut := fun _ => True } d
  := by
  apply wp_forEach (Taking (takeAway d.completed d.fs))
  · intro done app todo d' _ hd'
    exact wp_removeApp_taking hremovals hd'
  · intro d' hd'
    apply restored_congr hd'.rest
    rw [hd'.known.completed, h.completed, List.append_nil]
  · refine ⟨h, List.forall_mem_nil _, ?_⟩
    rw [h.completed]

/-- No removal is one at which the phase gives up, when what was installed can be taken away. -/
theorem wpVerdict_removeNewBundles (h : Known installed_apps d) (hrevocable : Revocable before d) :
  wpVerdict machine adm (GivesUpClean before) (removeAppsBundles NEW_BUNDLE_PATH installed_apps)
    (fun v =>
      { returned := fun _ d' => v ∧ Restored before d'
        raised := fun _ _ => False
        cut := fun _ => True }) d
  := by
  have hcompleted {done todo : List AppRecord} {d' : Device} (hsplit : installed_apps = done ++ todo)
      (hd' : Taking (takeAway d.completed d.fs) done todo d') : d'.completed = d.completed := by
    rw [hd'.known.completed, h.completed, hsplit]
  apply wpVerdict_forEach (Taking (takeAway d.completed d.fs))
  · intro done app todo d' hsplit hd'
    have hmem : app.new_bundle_path ∈ d'.completed := by
      rw [hd'.known.completed]
      exact List.mem_map_of_mem (by simp)
    have hdirs (x : Choice) (hx : adm (.isdir app.new_bundle_path) x d') :
        d'.fs.isDir app.new_bundle_path = true := hremovals _ _ _ hx hmem
    apply (wpVerdict_removeApp (hd'.known.paths app (by simp)) hdirs).mono
    · rintro v _ _ ⟨hdir, rfl, hv⟩
      have htaking := hd'.removeBundle hdir
      have hsame : d'.completed = d.completed := hcompleted hsplit hd'
      exact ⟨hv.mpr ((revocable_congr htaking.takeAway_completed hsame).mpr hrevocable), htaking⟩
    · rintro v e d'' ⟨-, -, x, hx, hkind⟩
      exact hremovals _ _ _ hx hmem hkind
    · exact fun _ _ _ => trivial
  · intro d' hd'
    refine ⟨trivial, (restored_congr hd'.rest ?_).mpr hrevocable⟩
    exact hcompleted (List.append_nil _).symm hd'
  · refine ⟨h, List.forall_mem_nil _, ?_⟩
    rw [h.completed]

/-- The bundles are removed after an exception that is caught. -/
theorem wpVerdict_removeAfterInstallError {α : Type} {install_error : PyException}
    (h : Known installed_apps d) (hrevocable : Revocable before d) :
  wpVerdict machine adm (GivesUpClean before)
    (removeAfterInstallError installed_apps install_error : Py α)
    (fun v =>
      { returned := fun _ _ => True, raised := fun _ d' => v ↔ Restored before d'
        cut := fun _ => True }) d
  := by
  rw [removeAfterInstallError]
  apply wpVerdict_bind
  apply wpVerdict_catching
  apply (wpVerdict_removeNewBundles hremovals h hrevocable).mono
  · rintro v _ d' ⟨hv, hrestored⟩
    exact ⟨fun _ => wpVerdict_throw (iff_of_true trivial hrestored), fun hnot => absurd hv hnot⟩
  · exact fun _ _ _ h => h.elim
  · exact fun _ _ h => h

theorem wp_removeAfterInstallError {α : Type} {install_error : PyException}
    (h : Known installed_apps d) (hlost : ¬ Revocable before d) :
  wp machine adm (removeAfterInstallError installed_apps install_error : Py α)
    { returned := fun _ _ => True, raised := fun _ d' => False ↔ Restored before d'
      cut := fun _ => True } d
  := by
  rw [removeAfterInstallError, wp_bind, wp_catching]
  apply (wp_removeNewBundles_taking hremovals h).mono
  · exact fun _ d' hiff => iff_of_false id (mt hiff.mp hlost)
  · exact fun _ _ h => h.elim
  · exact fun _ h => h

/-- A phase that ends with an exception has restored everything just when it has given up as it
should. -/
theorem wpVerdict_installAppsFrom (ipks : List Text) (h : Known installed_apps d) :
  wpVerdict machine adm (GivesUpClean before) (installAppsFrom installed_apps ipks)
    (fun v =>
      { returned := fun _ _ => True, raised := fun _ d' => v ↔ Restored before d'
        cut := fun _ => True }) d
  := by
  induction ipks generalizing installed_apps d with
  | nil => exact wpVerdict_pure trivial
  | cons ipk ipks ih =>
      rw [installAppsFrom]
      apply wpVerdict_bind
      apply wpVerdict_catching
      apply (wpVerdict_manageAppInstallation h).mono
      · rintro v app d' ⟨hv, hknown⟩
        exact ⟨fun _ => ih hknown, fun hnot => absurd hv hnot⟩
      · intro v e d' hgave
        dsimp only
        split
        · obtain ⟨hknown, hv⟩ := hgave.caught ‹_›
          constructor
          · exact fun hclean => wpVerdict_removeAfterInstallError hremovals hknown (hv.mp hclean)
          · exact fun hnot => wp_removeAfterInstallError hremovals hknown (mt hv.mpr hnot)
        · exact hgave.uncaught ‹_›
      · exact fun _ _ h => h

end Removals

/-! ### When the phase is atomic -/

/-- The package of an application is named, its directory is looked for, and it is named again. -/
def namingOf (app_name : Text) : List Choice :=
  [{ stdout := infoOf app_name }, truthfully, { stdout := infoOf app_name }]

/-- The packages of two applications. -/
def twoIpks : List Text :=
  ["a.ipk".toList, "b.ipk".toList]

/-- The first application is installed. -/
def firstInstalled : List Choice :=
  namingOf ['a'] ++ [truthfully]

end App
