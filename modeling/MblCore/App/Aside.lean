import MblCore.App.Calls
import MblCore.App.SuccessfulUpdate

/-!
# What an update leaves alone

At every point of an update, whatever its commands do, nothing has changed on the disk but the next
versions of the applications, until all of them are installed and run.  From then on nothing changes
but the lowest versions.
-/

namespace App

open FileTree
open Prog hiding pure throw bind

/-- Nothing has changed but what is above or below some paths. -/
def Aside (paths : Set FilePath) (fs fs' : Files) : Prop :=
  ∀ p, (∀ path ∈ paths, Apart path p) → fs'.node p = fs.node p

variable {adm : Call → Choice → Device → Prop} {paths : Set FilePath} {path : FilePath}
  {fs fs' : Files} {before d : Device} {apps : List AppRecord} {placed : Files → Prop}

theorem Aside.refl (paths : Set FilePath) (fs : Files) :
  Aside paths fs fs
  := fun _ _ => rfl

/-- A change at one of the paths. -/
theorem Aside.change {fs'' : Files} (h : Aside paths fs fs') (hpath : path ∈ paths)
    (hchange : ∀ p, Apart path p → fs''.node p = fs'.node p) :
  Aside paths fs fs''
  := by
  intro p hp
  rw [hchange p (hp path hpath), h p hp]

theorem Aside.graft (h : Aside paths fs fs') (hpath : path ∈ paths) (tree : Files) :
  Aside paths fs (fs'.graft path tree)
  := h.change hpath fun _ hp => node_graft_elsewhere _ _ hp.1 hp.2

theorem Aside.remove (h : Aside paths fs fs') (hpath : path ∈ paths) :
  Aside paths fs (fs'.remove path)
  := h.change hpath fun _ hp => node_remove_elsewhere _ hp.1

theorem Aside.removeBundle (h : Aside paths fs fs') (hpath : path ∈ paths)
    (hdir : fs'.isDir path = true) :
  Aside paths fs (removeBundle fs' path)
  := h.change hpath fun _ hp => dir_removeBundle (isDir_eq_true.mp hdir) hp.1 hp.2

/-! ### Removals -/

theorem wp_removeApp_aside {app_name : Text} (hpath : path ∈ paths) (hne : path ≠ [])
    (hd : Aside paths fs d.fs) :
  wp machine adm (removeApp app_name path) (Post.always fun d' => Aside paths fs d'.fs) d
  := by
  apply wp_removeApp hne
  · rintro fs' (rfl | rfl | rfl)
    · exact hd
    · exact hd.graft hpath root
    · exact (hd.graft hpath root).remove hpath
  · exact fun _ _ _ _ _ => hd
  · intro x e _ _ _ _
    exact hd.change hpath fun _ hp => node_opkgRemove hp
  · exact fun _ _ hdir _ => hd.removeBundle hpath hdir

theorem wp_cleanUp_aside {app_name : Text} (hpath : path ∈ paths) (hne : path ≠ [])
    (hd : Aside paths fs d.fs) :
  wp machine adm (cleanUp app_name path) (Post.always fun d' => Aside paths fs d'.fs) d
  := by
  rw [cleanUp, wp_bind, wp_issue]
  refine ⟨hd, fun x _ => ?_⟩
  dsimp only
  split
  · exact wp_removeApp_aside hpath hne hd
  · exact hd

theorem wp_removeAppsBundles_aside {path_attr : PathAttr}
    (hpaths : ∀ app ∈ apps, ∀ path, path_attr app = some path → path ∈ paths)
    (hne : [] ∉ paths) (hd : Aside paths fs d.fs) :
  wp machine adm (removeAppsBundles path_attr apps) (Post.always fun d' => Aside paths fs d'.fs) d
  := by
  apply wp_always_forEach
  · intro app happ d' hd'
    cases hpath : path_attr app with
    | none => exact hd'
    | some path =>
        have hmem := hpaths app happ path hpath
        exact wp_removeApp_aside hmem (ne_of_mem_of_not_mem hmem hne) hd'
  · exact hd

/-! ### Installing -/

/-- An installation changes what is above or below its path only. -/
theorem wp_installApp_aside {app_pkg : Text} (hpath : path ∈ paths) (hne : path ≠ [])
    (hd : Aside paths fs d.fs) :
  wp machine adm (installApp app_pkg path) (Post.always fun d' => Aside paths fs d'.fs) d
  := by
  apply wp_always_bind
  · exact wp_of_quiet (Aside paths fs) (issues_getAppName (fun _ h => h) app_pkg) hd
  · intro app_name d' hd'
    rw [wp_bind, wp_issue]
    refine ⟨hd', fun x _ => ?_⟩
    have hinstall : Aside paths fs (opkgInstall x d' path).2.fs :=
      hd'.change hpath fun _ hp => node_opkgInstall hp
    change wp machine adm (if (opkgInstall x d' path).1.ok then _ else _) _
      (opkgInstall x d' path).2
    split
    · exact hinstall
    · apply wp_always_bind (wp_of_quiet (Aside paths fs) (issues_errorText _) hinstall)
      intro error d'' hd''
      apply wp_always_bind (wp_cleanUp_aside hpath hne hd'')
      exact fun _ _ h => h

/-- The version an update installs: the one after the highest, or `0`. -/
def IsNext (fs : Files) (app_name : Text) (k : ℕ) : Prop :=
  (versions fs app_name = ∅ ∧ k = 0) ∨
    ∃ highest, IsGreatest (versions fs app_name) highest ∧ k = highest + 1

/-- The bundles of some versions of applications. -/
def bundlePaths (P : Text → ℕ → Prop) : Set FilePath :=
  {path | ∃ app_name m, P app_name m ∧ path = bundlePath app_name m}

/-- The bundles updates install. -/
def nextBundles (fs : Files) : Set FilePath :=
  bundlePaths (IsNext fs)

/-- The bundles updates remove. -/
def lowestBundles (fs : Files) : Set FilePath :=
  bundlePaths fun app_name => IsLeast (versions fs app_name)

theorem nil_notMem_bundlePaths (P : Text → ℕ → Prop) :
  [] ∉ bundlePaths P
  := by
  rintro ⟨app_name, m, -, hnil⟩
  simp [bundlePath] at hnil

/-- Other versions are apart. -/
theorem apart_of_mem_bundlePaths {P : Text → ℕ → Prop} {app_name : Text} {m : ℕ}
    (hpath : path ∈ bundlePaths P) (hnot : ¬ P app_name m) :
  Apart path (bundlePath app_name m)
  := by
  obtain ⟨app_name', k, hk, rfl⟩ := hpath
  by_cases hname : app_name' = app_name
  · subst hname
    apply apart_of_versions_ne _ List.prefix_rfl
    rintro rfl
    exact hnot hk
  · apply apart_of_names_ne hname
    · rw [bundlePath_eq_concat]
      apply List.prefix_append
    · rw [bundlePath_eq_concat]
      apply List.prefix_append

/-- A version stays unless it is one of those that change. -/
theorem Aside.mem_versions {P : Text → ℕ → Prop} {app_name : Text} {m : ℕ}
    (h : Aside (bundlePaths P) fs fs') (hnot : ¬ P app_name m) :
  m ∈ versions fs' app_name ↔ m ∈ versions fs app_name
  := by
  apply isBundle_congr
  intro p hp
  apply h p
  exact fun path hpath => (apart_of_mem_bundlePaths hpath hnot).below hp

/-- The new bundle is the next version. -/
theorem Chosen.new_isNext {app : AppRecord} (h : Chosen fs app) :
  ∃ k, IsNext fs app.name k ∧ app.new_bundle_path = bundlePath app.name k
  := by
  obtain ⟨hnot, -, hnew⟩ | ⟨lowest, highest, -, -, hgreatest, -, hnew⟩ := h
  · use 0
    refine ⟨Or.inl ⟨?_, rfl⟩, hnew⟩
    rw [Set.eq_empty_iff_forall_notMem]
    intro m hm
    rw [isDir_of_mem_versions hm] at hnot
    contradiction
  · exact ⟨highest + 1, Or.inr ⟨highest, hgreatest, rfl⟩, hnew⟩

theorem Chosen.new_mem {app : AppRecord} (h : Chosen fs app) :
  app.new_bundle_path ∈ nextBundles fs
  := by
  obtain ⟨k, hk, hnew⟩ := h.new_isNext
  exact ⟨app.name, k, hk, hnew⟩

theorem Chosen.cur_mem {app : AppRecord} {cur : FilePath} (h : Chosen fs app)
    (hcur : app.cur_bundle_path = some cur) :
  cur ∈ lowestBundles fs
  := by
  obtain ⟨lowest, hlowest, rfl⟩ := h.cur_lowest hcur
  exact ⟨app.name, lowest, hlowest, rfl⟩

/-- Nothing but next versions was installed. -/
theorem InstalledFrom.aside (h : InstalledFrom placed before apps d)
    (hnodup : (apps.map AppRecord.name).Nodup) :
  Aside (nextBundles before.fs) before.fs d.fs
  := by
  intro p hp
  apply h.disk hnodup
  exact fun app happ => hp _ (h.chosen hnodup app happ).new_mem

/-- Each package has a name, which is what `opkg info` prints if it prints one. -/
def Names (name : Text → Text) : Call → Choice → Device → Prop
  | .opkgInfo app_pkg, x, _ =>
      ∀ app_name, appNameOf app_pkg (opkgInfo x) = .ok app_name → app_name = name app_pkg
  | _, _, _ => True

instance decidableNames (name : Text → Text) : ∀ (c : Call) (x : Choice) (d : Device),
    Decidable (Names name c x d)
  | .opkgInfo app_pkg, x, _ =>
      match h : appNameOf app_pkg (opkgInfo x) with
      | .ok app_name => decidable_of_iff (app_name = name app_pkg) (by simp [Names, h])
      | .error _ => isTrue (by simp [Names, h])
  | .extractall _ _, _, _ | .opkgInstall _ _ _, _, _ | .opkgRemove _ _, _, _ | .runcState _, _, _
  | .runcKill _ _, _, _ | .runcDelete _, _, _ | .runcCreate _ _, _, _ | .runcStart _, _, _
  | .isdir _, _, _ | .exists_ _, _, _ | .walk _ _, _, _ | .listdir _, _, _ | .rmtree _, _, _
  | .endtimeReached, _, _ | .log _, _, _ => isTrue trivial

section

variable {name : Text → Text} (hnames : ∀ c x d, adm c x d → Names name c x d)
  (hplain : ∀ c x d, adm c x d → PlainNames c x d) (hplaces : Places adm placed)
include hnames hplain hplaces

theorem wp_manageAppInstallation_aside {ipk_path : Text}
    (hnext : ∀ app, app.name = name ipk_path → Proposed d.fs app → app.new_bundle_path ∈ paths)
    (hne : [] ∉ paths) (hd : Aside paths fs d.fs) :
  wp machine adm (manageAppInstallation ipk_path)
    (Post.upTo (fun d' => Aside paths fs d'.fs) fun app d' => app.name = name ipk_path
      ∧ Proposed d.fs app ∧ ∃ tree completed, placed tree ∧ d' =
        { d with fs := d.fs.graft app.new_bundle_path tree, completed := completed }) d
  := by
  have hnamed : wp machine adm (getAppName ipk_path)
      (Post.upTo (fun d' => Aside paths fs d'.fs) fun app_name d' =>
        PlainName app_name ∧ app_name = name ipk_path ∧ d' = d) d := by
    apply wp_getAppName hd
    · intro x app_name hx hname
      exact ⟨hplain _ _ _ hx app_name hname, hnames _ _ _ hx app_name hname, rfl⟩
    · exact fun _ _ _ _ => hd
  apply wp_upTo_bind hnamed
  rintro app_name d ⟨hname, rfl, rfl⟩
  have hscanned : wp machine adm (getAppBundlePaths (name ipk_path))
      (Post.upTo (fun d' => Aside paths fs d'.fs) fun bundle_paths d' => d' = d ∧
        ∀ cur new, bundle_paths = some (cur, new) →
          Proposed d.fs ⟨name ipk_path, cur, new, ipk_path⟩) d := by
    apply (wp_and
      (wp_of_quiet (Aside paths fs) (issues_getAppBundlePaths (fun _ h => h) (name ipk_path)) hd)
      (wp_getAppBundlePaths_proposed hname ipk_path)).mono
    · exact fun _ _ h => h.2
    · exact fun _ _ h => h.1
    · exact fun _ h => h.1
  apply wp_upTo_bind hscanned
  rintro (_ | ⟨cur, new⟩) _ ⟨rfl, hpaths⟩
  · exact hd
  · have hproposed := hpaths cur new rfl
    have hmem := hnext _ rfl hproposed
    rw [wp_bind]
    apply (wp_and (wp_installApp_aside hmem (ne_of_mem_of_not_mem hmem hne) hd)
      (wp_installApp_ifReturned hplaces ipk_path new)).mono
    · rintro _ d' ⟨-, hplaced⟩
      exact ⟨rfl, hproposed, hplaced⟩
    · exact fun _ _ h => h.1
    · exact fun _ h => h.1

omit hnames hplain hplaces in
/-- The bundles that were installed are removed again, and there is an exception. -/
theorem wp_removeAfterInstallError_aside {α : Type} {install_error : PyException}
    {Q : α → Device → Prop} (hpaths : ∀ app ∈ apps, app.new_bundle_path ∈ paths)
    (hne : [] ∉ paths) (hd : Aside paths fs d.fs) :
  wp machine adm (removeAfterInstallError apps install_error)
    (Post.upTo (fun d' => Aside paths fs d'.fs) Q) d
  := by
  have hremove : wp machine adm (removeAppsBundles NEW_BUNDLE_PATH apps)
      (Post.always fun d' => Aside paths fs d'.fs) d := by
    apply wp_removeAppsBundles_aside _ hne hd
    rintro app happ _ ⟨rfl⟩
    exact hpaths app happ
  rw [removeAfterInstallError, wp_bind]
  apply (wp_always_catching hremove).of_returned
  rintro (uninstall_error | _) d' hd' <;> exact hd'

/-- Up to the end of the installation nothing has changed but next versions. -/
theorem wp_installAppsFrom_aside (hversions : ∀ app_name, PlainVersions before.fs app_name)
    {ipks : List Text} (h : InstalledFrom placed before apps d)
    (hnodup : (apps.map AppRecord.name
      ++ ipks.map fun ipk => name (joinText IPKS_EXTRACTION_PATH ipk)).Nodup) :
  wp machine adm (installAppsFrom apps ipks)
    (Post.upTo (fun d' => Aside (nextBundles before.fs) before.fs d'.fs) fun apps' d' =>
      InstalledFrom placed before apps' d' ∧ apps'.map AppRecord.name = apps.map AppRecord.name
        ++ ipks.map fun ipk => name (joinText IPKS_EXTRACTION_PATH ipk)) d
  := by
  induction ipks generalizing apps d with
  | nil => exact ⟨h, by simp⟩
  | cons ipk ipks ih =>
      obtain ⟨happs, -, hdisjoint⟩ := List.nodup_append.mp hnodup
      have hchosen : ∀ app, app.name = name (joinText IPKS_EXTRACTION_PATH ipk) →
          Proposed d.fs app → Chosen before.fs app := by
        intro app hname hproposed
        apply h.chosen_next (hversions app.name) happs _ hproposed
        intro hmem
        exact hdisjoint _ hmem _ List.mem_cons_self hname
      rw [installAppsFrom, wp_bind, wp_catching]
      apply (wp_manageAppInstallation_aside hnames hplain hplaces
        (fun app hname hproposed => (hchosen app hname hproposed).new_mem)
        (nil_notMem_bundlePaths _) (h.aside happs)).mono
      · rintro app _ ⟨hname, hproposed, tree, completed, hplaced, rfl⟩
        have hmore : (apps ++ [app]).map AppRecord.name
              ++ ipks.map (fun ipk => name (joinText IPKS_EXTRACTION_PATH ipk))
            = apps.map AppRecord.name
              ++ (ipk :: ipks).map fun ipk => name (joinText IPKS_EXTRACTION_PATH ipk) := by
          simp [hname]
        rw [← hmore] at hnodup ⊢
        exact ih (h.concat hversions hproposed hplaced) hnodup
      · intro e d' hd'
        dsimp only
        split
        · apply wp_removeAfterInstallError_aside _ (nil_notMem_bundlePaths _) hd'
          exact fun app happ => (h.chosen happs app happ).new_mem
        · exact hd'
      · exact fun _ h => h

end

/-! ### Switching the versions -/

section

variable (hpaths : ∀ app ∈ apps, app.new_bundle_path ∈ paths) (hne : [] ∉ paths)
include hpaths hne

/-- A rollback removes new bundles. -/
theorem wp_rollbackApps_aside (hd : Aside paths fs d.fs) :
  wp machine adm (rollbackApps apps) (Post.always fun d' => Aside paths fs d'.fs) d
  := by
  have hcontainers : ∀ id c, ContainerCall id c → Quiet c := fun _ _ => ContainerCall.quiet
  rw [rollbackApps, wp_bind, wp_issue]
  refine ⟨hd, fun x _ => ?_⟩
  apply wp_always_bind
  · exact wp_of_quiet (Aside paths fs) (issues_stopAllNewlyInstalledApps hcontainers apps) hd
  · intro _ d' hd'
    apply wp_always_bind
    · apply wp_removeAppsBundles_aside _ hne hd'
      rintro app happ _ ⟨rfl⟩
      exact hpaths app happ
    · intro _ d'' hd''
      exact wp_of_quiet (Aside paths fs) (issues_runPreviousAppVersions hcontainers apps) hd''

theorem wp_orRollBack_aside {p : Py Unit} {classes : List ExceptionClass} (hp : Issues Quiet p)
    (hd : Aside paths fs d.fs) :
  wp machine adm (orRollBack apps p classes) (Post.always fun d' => Aside paths fs d'.fs) d
  := by
  apply wp_always_bind (wp_always_catching (wp_of_quiet (Aside paths fs) hp hd))
  rintro (error | _) d' hd'
  · apply wp_always_bind (wp_always_catching (wp_rollbackApps_aside hpaths hne hd'))
    rintro (rollback_error | _) d'' hd'' <;> exact hd''
  · exact hd'

/-- While the versions are switched nothing changes but new bundles. -/
theorem wp_switchVersions_aside (hd : Aside paths fs d.fs) :
  wp machine adm (switchVersions apps) (Post.always fun d' => Aside paths fs d'.fs) d
  := by
  apply wp_always_bind
  · apply wp_always_forEach
    · intro app _ d' hd'
      apply wp_always_bind (wp_of_quiet (Aside paths fs) (issues_issue.mpr (by trivial)) hd')
      intro _ d'' hd''
      apply wp_orRollBack_aside hpaths hne _ hd''
      exact (issues_terminateApp _ _).mono fun _ => ContainerCall.quiet
    · exact hd
  · intro _ d' hd'
    apply wp_always_forEach
    · intro app _ d' hd'
      apply wp_always_bind (wp_of_quiet (Aside paths fs) (issues_issue.mpr (by trivial)) hd')
      intro _ d'' hd''
      apply wp_orRollBack_aside hpaths hne _ hd''
      exact (issues_runApp _).mono fun _ => ContainerCall.quiet
    · exact hd'

end

/-! ### The whole update -/

/-- All applications of an update were installed at some point, and nothing has changed since but
lowest versions. -/
def Settling (placed : Files → Prop) (names : List Text) (before d : Device) : Prop :=
  ∃ apps installed, InstalledFrom placed before apps installed ∧ apps.map AppRecord.name = names
    ∧ Aside (lowestBundles before.fs) installed.fs d.fs

/-- Nothing has changed but next versions, or else all applications are installed. -/
def HalfUpdated (placed : Files → Prop) (names : List Text) (before d : Device) : Prop :=
  Aside (nextBundles before.fs) before.fs d.fs ∨ Settling placed names before d

theorem wp_startInstalledApps_halfUpdated (h : InstalledFrom placed before apps d)
    (hnodup : (apps.map AppRecord.name).Nodup) :
  wp machine adm (startInstalledApps apps)
    (Post.always (HalfUpdated placed (apps.map AppRecord.name) before)) d
  := by
  have hchosen := h.chosen hnodup
  rw [startInstalledApps, wp_bind]
  apply (wp_and
    (wp_switchVersions_aside (fun app happ => (hchosen app happ).new_mem)
      (nil_notMem_bundlePaths _) (h.aside hnodup))
    wp_switchVersions_ifReturned).mono
  · rintro _ d' ⟨-, hcontainers, -⟩
    have hsettling : wp machine adm (removePreviousVersions apps)
        (Post.always fun d'' => Aside (lowestBundles before.fs) d.fs d''.fs) d' := by
      apply wp_removeAppsBundles_aside
      · intro app happ cur hcur
        exact (hchosen app happ).cur_mem hcur
      · exact nil_notMem_bundlePaths _
      · rw [hcontainers.fs]
        apply Aside.refl
    apply hsettling.mono
    · exact fun _ _ haside => Or.inr ⟨apps, d, h, rfl, haside⟩
    · exact fun _ _ haside => Or.inr ⟨apps, d, h, rfl, haside⟩
    · exact fun _ haside => Or.inr ⟨apps, d, h, rfl, haside⟩
  · exact fun _ _ haside => Or.inl haside.1
  · exact fun _ haside => Or.inl haside.1

/-- At every point of an update of applications with different names, nothing has changed but next
versions, or else all applications are installed. -/
theorem wp_runMblAppUpdateManager_halfUpdated {update_pkg : UpdatePkg} {name : Text → Text}
    (hnames : ∀ c x d, adm c x d → Names name c x d)
    (hplain : ∀ c x d, adm c x d → PlainNames c x d) (hplaces : Places adm placed)
    (hversions : ∀ app_name, PlainVersions before.fs app_name)
    (hnodup : ((ipksOf update_pkg).map fun ipk =>
      name (joinText IPKS_EXTRACTION_PATH ipk)).Nodup) :
  wp machine adm (runMblAppUpdateManager update_pkg)
    (Post.always (HalfUpdated placed ((ipksOf update_pkg).map fun ipk =>
      name (joinText IPKS_EXTRACTION_PATH ipk)) before)) before
  := by
  have hunpack : Issues Quiet (unpack update_pkg) := issues_unpack (fun _ h => h) update_pkg
  rw [runMblAppUpdateManager, wp_bind]
  apply (wp_and
    (wp_of_quiet (Aside (nextBundles before.fs) before.fs) hunpack (Aside.refl _ _))
    (wp_unpack update_pkg)).mono
  · rintro _ before ⟨-, rfl, rfl⟩
    have hstart : InstalledFrom placed before [] before :=
      ⟨rfl, fun _ => List.forall_mem_nil _, fun _ _ _ => rfl, fun _ => List.forall_mem_nil _⟩
    dsimp only
    rw [wp_bind]
    apply (wp_installAppsFrom_aside hnames hplain hplaces hversions hstart hnodup).mono
    · rintro apps d ⟨hinstalled, happs⟩
      rw [List.map_nil, List.nil_append] at happs
      rw [← happs] at hnodup ⊢
      apply wp_always_bind (wp_startInstalledApps_halfUpdated hinstalled hnodup)
      exact fun _ _ h => h
    · exact fun _ _ haside => Or.inl haside
    · exact fun _ haside => Or.inl haside
  · exact fun _ _ haside => Or.inl haside.1
  · exact fun _ haside => Or.inl haside.1

end App
