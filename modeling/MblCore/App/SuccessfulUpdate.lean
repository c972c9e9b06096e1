import MblCore.App.InstallPhase
import MblCore.App.OwnApps

/-!
# What a successful update has done

When an update returns, the applications of the package have different names, each one runs from
a version one above the highest there was, and its lowest earlier version is gone.  Everything
else is as it was before.
-/

namespace App

open FileTree
open Prog hiding pure throw bind

/-! ### The postcondition -/

/-- The current and the next bundle of an application, by the versions on a disk. -/
def Chosen (fs : Files) (app : AppRecord) : Prop :=
  (fs.isDir (APPS_PATH ++ [app.name]) = false ∧ app.cur_bundle_path = none ∧
    app.new_bundle_path = bundlePath app.name 0) ∨
  ∃ lowest highest, fs.isDir (APPS_PATH ++ [app.name]) = true ∧
    IsLeast (versions fs app.name) lowest ∧ IsGreatest (versions fs app.name) highest ∧
    app.cur_bundle_path = some (bundlePath app.name lowest) ∧
    app.new_bundle_path = bundlePath app.name (highest + 1)

/-- What an update has done when it has succeeded. -/
structure Updated (apps : List AppRecord) (before after : Device) : Prop where
  names : (apps.map AppRecord.name).Nodup
  /-- Each application runs from `0`, or else from the version after the highest. -/
  chosen : ∀ app ∈ apps, Chosen before.fs app
  runs : ∀ app ∈ apps, after.containers app.name = some ⟨app.new_bundle_path, .running⟩
  /-- Nothing is left of the lowest version there was before. -/
  removed : ∀ app ∈ apps, ∀ m, IsLeast (versions before.fs app.name) m →
    ∀ p, bundlePath app.name m <+: p → after.fs.node p = none
  /-- The other versions are unchanged. -/
  kept : ∀ app ∈ apps, ∀ m ∈ versions before.fs app.name,
    ¬ IsLeast (versions before.fs app.name) m →
      ∀ p, bundlePath app.name m <+: p → after.fs.node p = before.fs.node p
  /-- Everything of the other applications is unchanged. -/
  others : ∀ app_name, app_name ∉ apps.map AppRecord.name →
    (∀ p, APPS_PATH ++ [app_name] <+: p → after.fs.node p = before.fs.node p) ∧
      after.containers app_name = before.containers app_name

variable {adm : Call → Choice → Device → Prop} {before d : Device} {apps : List AppRecord}

/-! ### The choice of versions -/

/-- What the versions in a directory tell does not depend on the rest of the disk. -/
theorem Chosen.congr {fs fs' : Files} {app : AppRecord} (h : Chosen fs app)
    (hagree : ∀ p, APPS_PATH ++ [app.name] <+: p → fs.node p = fs'.node p) :
  Chosen fs' app
  := by
  have hdir : fs.isDir (APPS_PATH ++ [app.name]) = fs'.isDir (APPS_PATH ++ [app.name]) := by
    simp only [isDir, hagree _ List.prefix_rfl]
  rw [Chosen, hdir, versions_congr hagree] at h
  exact h

/-- The bundles of an application are in its directory. -/
theorem Chosen.new_below {fs : Files} {app : AppRecord} (h : Chosen fs app) :
  APPS_PATH ++ [app.name] <+: app.new_bundle_path
  := by
  obtain ⟨-, -, hnew⟩ | ⟨_, _, -, -, -, -, hnew⟩ := h
  · rw [hnew, bundlePath_eq_concat]
    apply List.prefix_append
  · rw [hnew, bundlePath_eq_concat]
    apply List.prefix_append

/-- The new bundle is a version. -/
theorem Chosen.new_version {fs : Files} {app : AppRecord} (h : Chosen fs app) :
  ∃ k, app.new_bundle_path = bundlePath app.name k
  := by
  obtain ⟨-, -, hnew⟩ | ⟨_, highest, -, -, -, -, hnew⟩ := h
  · use 0
  · use highest + 1

/-- The current bundle is the lowest version. -/
theorem Chosen.cur_lowest {fs : Files} {app : AppRecord} {cur : FilePath} (h : Chosen fs app)
    (hcur : app.cur_bundle_path = some cur) :
  ∃ lowest, IsLeast (versions fs app.name) lowest ∧ cur = bundlePath app.name lowest
  := by
  obtain ⟨-, hnone, -⟩ | ⟨lowest, highest, -, hleast, -, hsome, -⟩ := h
  · rw [hnone] at hcur
    cases hcur
  · rw [hsome] at hcur
    cases hcur
    use lowest

/-- The lowest version is the current bundle. -/
theorem Chosen.cur_of_isLeast {fs : Files} {app : AppRecord} {m : ℕ} (h : Chosen fs app)
    (hm : IsLeast (versions fs app.name) m) :
  app.cur_bundle_path = some (bundlePath app.name m)
  := by
  obtain ⟨hnot, -, -⟩ | ⟨lowest, highest, -, hleast, -, hsome, -⟩ := h
  · rw [isDir_of_mem_versions hm.1] at hnot
    contradiction
  · rw [hsome, hleast.unique hm]

/-- The new bundle is apart from all versions there were. -/
theorem Chosen.new_apart {fs : Files} {app : AppRecord} {m : ℕ} {p : FilePath} (h : Chosen fs app)
    (hm : m ∈ versions fs app.name) (hp : bundlePath app.name m <+: p) :
  Apart app.new_bundle_path p
  := by
  obtain ⟨hnot, -, -⟩ | ⟨lowest, highest, -, -, hgreatest, -, hnew⟩ := h
  · rw [isDir_of_mem_versions hm] at hnot
    contradiction
  · rw [hnew]
    apply apart_of_versions_ne _ hp
    have hle := hgreatest.2 hm
    omega

/-- The paths `_get_app_bundle_paths` gives for an application. -/
def Proposed (fs : Files) (app : AppRecord) : Prop :=
  (fs.isDir (APPS_PATH ++ [app.name]) = false ∧ app.cur_bundle_path = none ∧
    app.new_bundle_path = bundlePath app.name 0) ∨
  (fs.isDir (APPS_PATH ++ [app.name]) = true ∧
    bundlePathsOf app.name (APPS_PATH ++ [app.name]) (walk fs (APPS_PATH ++ [app.name]))
      = .ok (some (app.cur_bundle_path, app.new_bundle_path)))

theorem Proposed.chosen {fs : Files} {app : AppRecord} (h : Proposed fs app)
    (hplain : PlainVersions fs app.name) :
  Chosen fs app
  := by
  obtain h | ⟨hdir, hpaths⟩ := h
  · exact Or.inl h
  · obtain ⟨lowest, highest, hleast, hgreatest, hcur, hnew⟩ :=
      bundlePathsOf_of_plainVersions hplain hpaths
    right
    use lowest, highest

/-! ### Installing -/

/-- The disk and the containers while applications are installed.  What is known of the disk is
known as long as the names are different. -/
structure InstalledFrom (placed : Files → Prop) (before : Device) (apps : List AppRecord)
    (d : Device) : Prop where
  containers : d.containers = before.containers
  chosen : (apps.map AppRecord.name).Nodup → ∀ app ∈ apps, Chosen before.fs app
  disk : (apps.map AppRecord.name).Nodup →
    ∀ p, (∀ app ∈ apps, Apart app.new_bundle_path p) → d.fs.node p = before.fs.node p
  /-- Each new bundle is a tree that was placed there. -/
  trees : (apps.map AppRecord.name).Nodup → ∀ app ∈ apps,
    ∃ tree, placed tree ∧ ∀ q, d.fs.node (app.new_bundle_path ++ q) = tree.node q

variable {placed : Files → Prop}

/-- Nothing has changed in the directory of another application. -/
theorem InstalledFrom.agree (h : InstalledFrom placed before apps d) {app_name : Text} {p : FilePath}
    (hnodup : (apps.map AppRecord.name).Nodup) (hname : app_name ∉ apps.map AppRecord.name)
    (hp : APPS_PATH ++ [app_name] <+: p) :
  d.fs.node p = before.fs.node p
  := by
  apply h.disk hnodup
  intro app happ
  apply apart_of_names_ne _ (h.chosen hnodup app happ).new_below hp
  rintro rfl
  exact hname (List.mem_map_of_mem happ)

/-- What is proposed for another application was chosen before. -/
theorem InstalledFrom.chosen_next (h : InstalledFrom placed before apps d) {app : AppRecord}
    (hplain : PlainVersions before.fs app.name) (hnodup : (apps.map AppRecord.name).Nodup)
    (hname : app.name ∉ apps.map AppRecord.name) (hproposed : Proposed d.fs app) :
  Chosen before.fs app
  := by
  have hagree : ∀ p, APPS_PATH ++ [app.name] <+: p → d.fs.node p = before.fs.node p :=
    fun p hp => h.agree hnodup hname hp
  apply (hproposed.chosen (hplain.congr hagree)).congr hagree

/-- One more application is installed at the path that was proposed. -/
theorem InstalledFrom.concat {app : AppRecord} {tree : Files} {completed : List FilePath}
    (h : InstalledFrom placed before apps d)
    (hplain : ∀ app_name, PlainVersions before.fs app_name) (hproposed : Proposed d.fs app)
    (hplaced : placed tree) :
  InstalledFrom placed before (apps ++ [app])
    { d with fs := d.fs.graft app.new_bundle_path tree, completed := completed }
  := by
  have hsplit (hnodup : ((apps ++ [app]).map AppRecord.name).Nodup) :
      (apps.map AppRecord.name).Nodup ∧ app.name ∉ apps.map AppRecord.name := by
    rw [List.map_append, List.map_singleton, List.nodup_append] at hnodup
    use hnodup.1
    intro hmem
    exact hnodup.2.2 _ hmem _ List.mem_cons_self rfl
  have happ (hnodup : ((apps ++ [app]).map AppRecord.name).Nodup) : Chosen before.fs app := by
    obtain ⟨hnames, hnew⟩ := hsplit hnodup
    exact h.chosen_next (hplain app.name) hnames hnew hproposed
  constructor
  · exact h.containers
  · intro hnodup app' hmem
    rcases List.mem_append.mp hmem with hmem | hmem
    · apply h.chosen (hsplit hnodup).1 app' hmem
    · rw [List.mem_singleton.mp hmem]
      apply happ hnodup
  · intro hnodup p hp
    have hself := hp app (List.mem_append_right _ List.mem_cons_self)
    change (d.fs.graft app.new_bundle_path tree).node p = _
    rw [node_graft_elsewhere _ _ hself.1 hself.2]
    apply h.disk (hsplit hnodup).1
    intro app' happ'
    apply hp app' (List.mem_append_left _ happ')
  · intro hnodup app' hmem
    obtain ⟨hnames, hnew⟩ := hsplit hnodup
    rcases List.mem_append.mp hmem with hmem | hmem
    · obtain ⟨tree', hplaced', htree'⟩ := h.trees hnames app' hmem
      use tree', hplaced'
      intro q
      have hne : app.name ≠ app'.name := by
        intro heq
        rw [heq] at hnew
        exact hnew (List.mem_map_of_mem hmem)
      have hapart : Apart app.new_bundle_path (app'.new_bundle_path ++ q) := by
        apply apart_of_names_ne hne (happ hnodup).new_below
        exact (h.chosen hnames app' hmem).new_below.trans ( List.prefix_append _ q)
      rw [← htree' q]
      exact node_graft_elsewhere _ _ hapart.1 hapart.2
    · obtain rfl := List.mem_singleton.mp hmem
      use tree, hplaced
      exact fun q => node_graft_append d.fs app'.new_bundle_path tree q

/-- What `opkg` installs when it succeeds are trees that may be placed. -/
def Places (adm : Call → Choice → Device → Prop) (placed : Files → Prop) : Prop :=
  ∀ app_name path app_pkg x d, adm (.opkgInstall app_name path app_pkg) x d →
    (opkgInstall x d path).1.ok = true → placed ((x.tree.getD root).mkdirs [])

section

variable (hnames : ∀ c x d, adm c x d → PlainNames c x d) (hplaces : Places adm placed)

theorem wp_getAppName_unchanged (app_pkg : Text) :
  wp machine adm (getAppName app_pkg) (Post.ifReturned fun _ d' => d' = d) d
  := by
  apply wp_getAppName
  · trivial
  · exact fun _ _ _ _ => rfl
  · exact fun _ _ _ _ => trivial

include hnames in
theorem wp_getAppName_plain (app_pkg : Text) :
  wp machine adm (getAppName app_pkg)
    (Post.ifReturned fun app_name d' => PlainName app_name ∧ d' = d) d
  := by
  apply wp_getAppName
  · trivial
  · intro x app_name hx hname
    exact ⟨hnames _ _ _ hx app_name hname, rfl⟩
  · exact fun _ _ _ _ => trivial

include hplaces in
/-- After an installation that succeeds there is a new tree at the path. -/
theorem wp_installApp_ifReturned (app_pkg : Text) (path : FilePath) :
  wp machine adm (installApp app_pkg path)
    (Post.ifReturned fun _ d' => ∃ tree completed, placed tree ∧
      d' = { d with fs := d.fs.graft path tree, completed := completed }) d
  := by
  apply wp_ifReturned_bind (wp_getAppName_unchanged app_pkg)
  rintro app_name d rfl
  rw [wp_bind, wp_issue]
  refine ⟨trivial, fun x hx => ?_⟩
  change wp machine adm (if (opkgInstall x d path).1.ok then _ else _) _ (opkgInstall x d path).2
  split
  · rename_i hok
    use (x.tree.getD root).mkdirs [], d.completed ++ [path], hplaces _ _ _ _ _ hx hok
    exact opkgInstall_ok hok
  · apply wp_ifReturned_bind_of_forall
    intro error d'
    apply wp_ifReturned_bind_of_forall
    intro _ _
    trivial

/-- The paths that are returned are those proposed for the application. -/
theorem wp_getAppBundlePaths_proposed {app_name : Text} (hname : PlainName app_name)
    (ipk_path : Text) :
  wp machine adm (getAppBundlePaths app_name)
    (Post.ifReturned fun paths d' => d' = d ∧ ∀ cur new, paths = some (cur, new) →
      Proposed d.fs ⟨app_name, cur, new, ipk_path⟩) d
  := by
  apply wp_getAppBundlePaths hname
  · trivial
  · intro hnot
    use rfl
    rintro cur new heq
    cases heq
    exact Or.inl ⟨hnot, rfl, rfl⟩
  · intro x paths _ hdir hpaths
    use rfl
    rintro cur new rfl
    exact Or.inr ⟨hdir, hpaths⟩
  · exact fun _ _ _ _ => trivial

include hnames hplaces in
theorem wp_manageAppInstallation_ifReturned (ipk_path : Text) :
  wp machine adm (manageAppInstallation ipk_path)
    (Post.ifReturned fun app d' => app.ipk_path = ipk_path ∧ Proposed d.fs app ∧
      ∃ tree completed, placed tree ∧ d' =
        { d with fs := d.fs.graft app.new_bundle_path tree, completed := completed }) d
  := by
  apply wp_ifReturned_bind (wp_getAppName_plain hnames ipk_path)
  rintro app_name _ ⟨hname, rfl⟩
  apply wp_ifReturned_bind (wp_getAppBundlePaths_proposed hname ipk_path)
  rintro (_ | ⟨cur, new⟩) _ ⟨rfl, hpaths⟩
  · trivial
  · apply wp_ifReturned_bind (wp_installApp_ifReturned hplaces ipk_path new)
    intro _ d' hd'
    exact ⟨rfl, hpaths cur new rfl, hd'⟩

include hnames hplaces in
/-- The applications are installed one after the other, or an exception is raised. -/
theorem wp_installAppsFrom_ifReturned (hplain : ∀ app_name, PlainVersions before.fs app_name)
    {ipks : List Text} (h : InstalledFrom placed before apps d) :
  wp machine adm (installAppsFrom apps ipks)
    (Post.ifReturned fun apps' d' => InstalledFrom placed before apps' d' ∧
      apps'.map AppRecord.ipk_path
        = apps.map AppRecord.ipk_path ++ ipks.map (joinText IPKS_EXTRACTION_PATH)) d
  := by
  induction ipks generalizing apps d with
  | nil => exact ⟨h, by simp⟩
  | cons ipk ipks ih =>
      apply wp_ifReturned_bind
        (wp_catching_ifReturned (wp_manageAppInstallation_ifReturned hnames hplaces _))
      rintro (e | app) d' happ
      · apply wp_removeAfterInstallError_ifReturned
      · obtain ⟨hpath, hproposed, tree, completed, hplaced, rfl⟩ := happ app rfl
        apply wp_ifReturned_mono (ih (h.concat hplain hproposed hplaced))
        rintro apps' d'' ⟨hinstalled', hpaths⟩
        use hinstalled'
        simp [hpaths, hpath]

end

/-! ### Running -/

section

variable {id : Text}

theorem settle_eq_none {exited : Bool} (h : (d.settle id exited).containers id = none) :
  d.containers id = none
  := by
  cases hc : d.containers id with
  | none => rfl
  | some c =>
      obtain ⟨c', -, heq⟩ := Device.settle_some exited hc
      rw [heq, Device.setContainer_same] at h
      cases h

theorem runcState_device (x : Choice) :
  (runcState x d id).2 = d.settle id x.exited
  := by
  unfold runcState
  dsimp only
  split
  · rfl
  · rfl
  · split <;> rfl

/-- All that is known after the state of a container was read. -/
theorem wp_getState_ifReturned :
  wp machine adm (getState id) (Post.ifReturned fun _ d' => ∃ exited, d' = d.settle id exited) d
  := by
  rw [getState, wp_bind, wp_issue]
  refine ⟨trivial, fun x _ => ?_⟩
  dsimp only
  rw [wp_ofExcept]
  split
  · use x.exited
    exact runcState_device x
  · trivial

/-- `runc create` succeeds where there is no container. -/
theorem runcCreate_ok {x : Choice} {bundle_path : FilePath}
    (h : (runcCreate x d bundle_path id).1.ok = true) :
  d.containers id = none ∧
    (runcCreate x d bundle_path id).2 = d.setContainer id (some ⟨bundle_path, .created⟩)
  := by
  unfold runcCreate at h ⊢
  cases hc : d.containers id with
  | some c => cases hkind : x.kind <;> simp [hkind, hc, failure] at h
  | none => cases hkind : x.kind <;> simp [hkind, hc] at h ⊢

/-- `runc start` runs a container that was created. -/
theorem runcStart_ok {x : Choice} {bundle_path : FilePath}
    (hd : d.containers id = some ⟨bundle_path, .created⟩) (h : (runcStart x d id).1.ok = true) :
  (runcStart x d id).2 = d.setContainer id (some ⟨bundle_path, .running⟩)
  := by
  unfold runcStart at h ⊢
  cases hkind : x.kind <;> simp [hkind, hd] at h ⊢

/-- A container is created where there was none. -/
theorem wp_create_ifReturned (bundle_path : FilePath) :
  wp machine adm (create id bundle_path)
    (Post.ifReturned fun _ d' => d.containers id = none ∧
      d' = d.setContainer id (some ⟨bundle_path, .created⟩)) d
  := by
  apply wp_ifReturned_bind wp_getState_ifReturned
  rintro container_state _ ⟨exited, rfl⟩
  split
  · trivial
  · rw [wp_bind, wp_issue]
    refine ⟨trivial, fun x _ => ?_⟩
    dsimp only
    split
    · trivial
    · rw [createOrRaise, wp_bind, wp_issue]
      refine ⟨trivial, fun x _ => ?_⟩
      change wp machine adm (if (runcCreate x (d.settle id exited) bundle_path id).1.ok then _ else _)
        _ (runcCreate x (d.settle id exited) bundle_path id).2
      split
      · rename_i hok
        obtain ⟨hnone, heq⟩ := runcCreate_ok hok
        have hd := settle_eq_none hnone
        use hd
        rw [heq, Device.settle_none hd]
      · trivial

/-- A container that was created runs. -/
theorem wp_start_ifReturned {bundle_path : FilePath}
    (hd : d.containers id = some ⟨bundle_path, .created⟩) :
  wp machine adm (start id)
    (Post.ifReturned fun _ d' => d' = d.setContainer id (some ⟨bundle_path, .running⟩)) d
  := by
  rw [start, runOrRaise, wp_bind, wp_issue]
  refine ⟨trivial, fun x _ => ?_⟩
  change wp machine adm (if (runcStart x d id).1.ok then _ else _) _ (runcStart x d id).2
  split
  · rename_i hok
    exact runcStart_ok hd hok
  · apply wp_ifReturned_bind_of_forall
    intro _ _
    trivial

/-- An application runs where no container was. -/
theorem wp_runApp_ifReturned (app_path : FilePath) :
  wp machine adm (runApp id app_path)
    (Post.ifReturned fun _ d' => d.containers id = none ∧
      d' = d.setContainer id (some ⟨app_path, .running⟩)) d
  := by
  apply wp_ifReturned_bind (wp_create_ifReturned app_path)
  rintro _ _ ⟨hnone, rfl⟩
  apply wp_ifReturned_mono (wp_start_ifReturned (d.setContainer_same id _))
  rintro _ _ rfl
  use hnone
  rw [Device.setContainer_setContainer]

end

/-- After a rollback there is an exception. -/
theorem wp_orRollBack_ifReturned {p : Py Unit} {classes : List ExceptionClass}
    {Q : Device → Prop} (hp : wp machine adm p (Post.ifReturned fun _ => Q) d) :
  wp machine adm (orRollBack apps p classes) (Post.ifReturned fun _ => Q) d
  := by
  apply wp_ifReturned_bind (wp_catching_ifReturned hp)
  rintro (error | _) d' hd'
  · apply wp_ifReturned_bind_of_forall
    rintro (rollback_error | _) d'' <;> trivial
  · exact hd' () rfl

/-- Nothing but the containers of some applications has changed. -/
structure OnlyContainersOf (names : List Text) (before d : Device) : Prop where
  fs : d.fs = before.fs
  containers : ∀ id, id ∉ names → d.containers id = before.containers id

/-- The container of one of the applications has changed. -/
theorem OnlyContainersOf.setContainer {names : List Text} {app_name : Text}
    {k : Option Container} (h : OnlyContainersOf names before d) (hname : app_name ∈ names) :
  OnlyContainersOf names before (d.setContainer app_name k)
  := by
  constructor
  · exact h.fs
  · intro id hid
    rw [Device.setContainer_of_ne]
    · exact h.containers id hid
    · rintro rfl
      exact hid hname

theorem OnlyContainersOf.refl (names : List Text) (d : Device) :
  OnlyContainersOf names d d
  := ⟨rfl, fun _ _ => rfl⟩

/-- What concerns the container of one of the applications changes nothing else. -/
theorem wp_onlyContainersOf {α : Type} {p : Py α} {app : AppRecord} (happ : app ∈ apps)
    (hp : Issues (ContainerCall app.name) p)
    (hd : OnlyContainersOf (apps.map AppRecord.name) before d) :
  wp machine adm p (Post.always (OnlyContainersOf (apps.map AppRecord.name) before)) d
  := by
  apply wp_of_containerCalls _ hp _ hd
  exact fun d' k hd' => hd'.setContainer (List.mem_map_of_mem happ)

theorem OnlyContainersOf.logged {names : List Text} (h : OnlyContainersOf names before d)
    (line : LogLine) :
  OnlyContainersOf names before (logged d line)
  := by
  cases line <;> exact ⟨h.fs, h.containers⟩

/-- Stopping the running versions changes nothing but their containers. -/
theorem wp_stopRunningVersions_ifReturned :
  wp machine adm (stopRunningVersions apps)
    (Post.ifReturned fun _ => OnlyContainersOf (apps.map AppRecord.name) d) d
  := by
  apply wp_forEach fun _ _ d' => OnlyContainersOf (apps.map AppRecord.name) d d'
  · rintro done app todo d' rfl hd'
    rw [wp_bind, wp_issue]
    refine ⟨trivial, fun x _ => ?_⟩
    apply wp_orRollBack_ifReturned
    have happ : app ∈ done ++ app :: todo := by simp
    have hlogged := hd'.logged (.stopRunning app.name)
    apply wp_ifReturned_of_wp (wp_onlyContainersOf happ (issues_terminateApp _ _) hlogged)
    exact fun _ _ h => h
  · exact fun _ h => h
  · exact OnlyContainersOf.refl _ d

/-- The containers of the applications that have been run so far. -/
structure RunFrom (done : List AppRecord) (d : Device) : Prop where
  names : (done.map AppRecord.name).Nodup
  runs : ∀ app ∈ done, d.containers app.name = some ⟨app.new_bundle_path, .running⟩

/-- One more application runs, where there was no container. -/
theorem RunFrom.concat {done : List AppRecord} {app : AppRecord} (h : RunFrom done d)
    (hnone : d.containers app.name = none) :
  RunFrom (done ++ [app]) (d.setContainer app.name (some ⟨app.new_bundle_path, .running⟩))
  := by
  have hne {app' : AppRecord} (happ' : app' ∈ done) : app'.name ≠ app.name := by
    intro heq
    have hruns := h.runs app' happ'
    rw [heq, hnone] at hruns
    cases hruns
  constructor
  · rw [List.map_append, List.map_singleton, List.nodup_append]
    use h.names, List.nodup_singleton _
    intro n hn n' hn'
    obtain ⟨app', happ', rfl⟩ := List.mem_map.mp hn
    rw [List.mem_singleton.mp hn']
    exact hne happ'
  · intro app' hmem
    rcases List.mem_append.mp hmem with hmem | hmem
    · rw [Device.setContainer_of_ne _ _ (hne hmem)]
      exact h.runs app' hmem
    · rw [List.mem_singleton.mp hmem, Device.setContainer_same]

/-- The new versions run in the end, so no two applications have the same name. -/
theorem wp_runNewInstalledVersions_ifReturned
    (h : OnlyContainersOf (apps.map AppRecord.name) before d) :
  wp machine adm (runNewInstalledVersions apps)
    (Post.ifReturned fun _ d' =>
      OnlyContainersOf (apps.map AppRecord.name) before d' ∧ RunFrom apps d') d
  := by
  apply wp_forEach fun done _ d' =>
    OnlyContainersOf (apps.map AppRecord.name) before d' ∧ RunFrom done d'
  · rintro done app todo d' rfl ⟨hd', hrun⟩
    have hmem : app.name ∈ (done ++ app :: todo).map AppRecord.name := by
      simp
    rw [wp_bind, wp_issue]
    refine ⟨trivial, fun x _ => ?_⟩
    apply wp_orRollBack_ifReturned
    apply wp_ifReturned_mono (wp_runApp_ifReturned _)
    rintro _ _ ⟨hnone, rfl⟩
    constructor
    · exact OnlyContainersOf.setContainer ⟨hd'.fs, hd'.containers⟩ hmem
    · exact RunFrom.concat ⟨hrun.names, hrun.runs⟩ hnone
  · exact fun _ h => h
  · exact ⟨h, List.nodup_nil, List.forall_mem_nil _⟩

/-- When the versions are switched nothing but containers has changed. -/
theorem wp_switchVersions_ifReturned :
  wp machine adm (switchVersions apps)
    (Post.ifReturned fun _ d' => OnlyContainersOf (apps.map AppRecord.name) d d' ∧ RunFrom apps d')
    d
  := by
  apply wp_ifReturned_bind wp_stopRunningVersions_ifReturned
  intro _ stopped hstopped
  exact wp_runNewInstalledVersions_ifReturned hstopped

/-! ### Removing the previous versions -/

/-- The current bundles of the applications that are done are removed, and everything apart from
the current bundles of all applications stays. -/
structure RemovedFrom (apps done : List AppRecord) (before d : Device) : Prop where
  containers : d.containers = before.containers
  removed : ∀ app ∈ done, ∀ cur, app.cur_bundle_path = some cur →
    ∀ p, cur <+: p → d.fs.node p = none
  kept : ∀ p, (∀ app ∈ apps, ∀ cur, app.cur_bundle_path = some cur → Apart cur p) →
    d.fs.node p = before.fs.node p

theorem RemovedFrom.concat {done : List AppRecord} {app : AppRecord}
    (h : RemovedFrom apps done before d) (hcur : app.cur_bundle_path = none) :
  RemovedFrom apps (done ++ [app]) before d
  := by
  refine ⟨h.containers, ?_, h.kept⟩
  intro app' hmem cur hcur'
  rcases List.mem_append.mp hmem with hmem | hmem
  · exact h.removed app' hmem cur hcur'
  · rw [List.mem_singleton.mp hmem, hcur] at hcur'
    cases hcur'

theorem RemovedFrom.concat_removeBundle {done : List AppRecord} {app : AppRecord} {cur : FilePath}
    (h : RemovedFrom apps done before d) (happ : app ∈ apps)
    (hcur : app.cur_bundle_path = some cur) (hdir : d.fs.node cur = some .dir) :
  RemovedFrom apps (done ++ [app]) before { d with fs := removeBundle d.fs cur }
  := by
  constructor
  · exact h.containers
  · intro app' hmem cur' hcur' p hp
    rcases List.mem_append.mp hmem with hmem | hmem
    · apply node_removeBundle_eq_none hdir
      exact h.removed app' hmem cur' hcur' p hp
    · rw [List.mem_singleton.mp hmem, hcur] at hcur'
      obtain rfl := Option.some.inj hcur'
      exact node_removeBundle_below hdir hp
  · intro p hp
    have hapart := hp app happ cur hcur
    change (removeBundle d.fs cur).node p = _
    rw [dir_removeBundle hdir hapart.1 hapart.2]
    exact h.kept p hp

/-- The current bundles are removed one after the other, or an exception is raised. -/
theorem wp_removePreviousVersions_ifReturned
    (hcur : ∀ app ∈ apps, ∀ cur, app.cur_bundle_path = some cur → cur ≠ []) :
  wp machine adm (removePreviousVersions apps)
    (Post.ifReturned fun _ => RemovedFrom apps apps d) d
  := by
  apply wp_forEach fun done _ d' => RemovedFrom apps done d d'
  · rintro done app todo d' hsplit hd'
    have happ : app ∈ apps := by
      simp [hsplit]
    cases hpath : app.cur_bundle_path with
    | none =>
        simp only [CURRENT_BUNDLE_PATH, hpath]
        exact hd'.concat hpath
    | some cur =>
        simp only [CURRENT_BUNDLE_PATH, hpath]
        apply wp_removeApp (hcur app happ cur hpath)
        · exact fun _ _ => trivial
        · exact fun _ _ _ _ _ => trivial
        · exact fun _ _ _ _ _ _ => trivial
        · intro x _ hdir _
          exact hd'.concat_removeBundle happ hpath (isDir_eq_true.mp hdir)
  · exact fun _ h => h
  · exact ⟨rfl, List.forall_mem_nil _, fun _ _ => rfl⟩

/-! ### The whole update -/

/-- The current bundle is in the directory of the application. -/
theorem Chosen.cur_below {fs : Files} {app : AppRecord} {cur : FilePath} (h : Chosen fs app)
    (hcur : app.cur_bundle_path = some cur) :
  APPS_PATH ++ [app.name] <+: cur
  := by
  obtain ⟨lowest, -, rfl⟩ := h.cur_lowest hcur
  rw [bundlePath_eq_concat]
  apply List.prefix_append

/-- What an update that returns has done to the disk and the containers. -/
structure Switched (placed : Files → Prop) (apps : List AppRecord) (before after : Device) :
    Prop where
  names : (apps.map AppRecord.name).Nodup
  chosen : ∀ app ∈ apps, Chosen before.fs app
  runs : ∀ app ∈ apps, after.containers app.name = some ⟨app.new_bundle_path, .running⟩
  containers : ∀ id, id ∉ apps.map AppRecord.name → after.containers id = before.containers id
  removed : ∀ app ∈ apps, ∀ cur, app.cur_bundle_path = some cur →
    ∀ p, cur <+: p → after.fs.node p = none
  disk : ∀ p, (∀ app ∈ apps, Apart app.new_bundle_path p) →
    (∀ app ∈ apps, ∀ cur, app.cur_bundle_path = some cur → Apart cur p) →
    after.fs.node p = before.fs.node p
  trees : ∀ app ∈ apps,
    ∃ tree, placed tree ∧ ∀ q, after.fs.node (app.new_bundle_path ++ q) = tree.node q

/-- The new bundle of one application is apart from the current ones of all. -/
theorem apart_cur_new {fs : Files} (hchosen : ∀ app ∈ apps, Chosen fs app) {app app' : AppRecord}
    (happ : app ∈ apps) (happ' : app' ∈ apps) {cur : FilePath} (hcur : app'.cur_bundle_path = some cur) :
  Apart cur app.new_bundle_path
  := by
  by_cases heq : app'.name = app.name
  · obtain ⟨lowest, hlowest, rfl⟩ := (hchosen app' happ').cur_lowest hcur
    rw [heq] at hlowest ⊢
    exact ((hchosen app happ).new_apart hlowest.1 List.prefix_rfl).symm
  · exact apart_of_names_ne heq ((hchosen app' happ').cur_below hcur)
      (hchosen app happ).new_below

/-- The phases of an update, put together. -/
theorem switched_of_phases {installed switched after : Device}
    (hinstalled : InstalledFrom placed before apps installed)
    (hcontainers : OnlyContainersOf (apps.map AppRecord.name) installed switched)
    (hrun : RunFrom apps switched) (hremoved : RemovedFrom apps apps switched after) :
  Switched placed apps before after
  := by
  have hchosen := hinstalled.chosen hrun.names
  constructor
  · exact hrun.names
  · exact hchosen
  · intro app happ
    rw [hremoved.containers]
    exact hrun.runs app happ
  · intro id hid
    rw [hremoved.containers, hcontainers.containers id hid, hinstalled.containers]
  · exact hremoved.removed
  · intro p hnew hcur
    rw [hremoved.kept p hcur, hcontainers.fs, hinstalled.disk hrun.names p hnew]
  · intro app happ
    obtain ⟨tree, hplaced, htree⟩ := hinstalled.trees hrun.names app happ
    use tree, hplaced
    intro q
    rw [hremoved.kept, hcontainers.fs, htree]
    intro app' happ' cur hcur
    exact (apart_cur_new hchosen happ happ' hcur).below ( List.prefix_append _ q)

/-- What an update has switched is updated. -/
theorem Switched.updated {after : Device} (h : Switched placed apps before after) :
  Updated apps before after
  := by
  have hchosen := h.chosen
  constructor
  · exact h.names
  · exact hchosen
  · intro app happ
    exact h.runs app happ
  · intro app happ m hm p hp
    exact h.removed app happ _ ((hchosen app happ).cur_of_isLeast hm) p hp
  · intro app happ m hm hleast p hp
    have hbelow : APPS_PATH ++ [app.name] <+: p := by
      rw [bundlePath_eq_concat] at hp
      exact prefix_left_of_concat hp
    apply h.disk
    · intro app' happ'
      by_cases heq : app'.name = app.name
      · rw [← heq] at hm hp
        exact (hchosen app' happ').new_apart hm hp
      · exact apart_of_names_ne heq (hchosen app' happ').new_below hbelow
    · intro app' happ' cur hcur
      by_cases heq : app'.name = app.name
      · obtain ⟨lowest, hlowest, rfl⟩ := (hchosen app' happ').cur_lowest hcur
        rw [heq] at hlowest ⊢
        apply apart_of_versions_ne _ hp
        rintro rfl
        exact hleast hlowest
      · exact apart_of_names_ne heq ((hchosen app' happ').cur_below hcur) hbelow
  · intro app_name hname
    have hne {app : AppRecord} (happ : app ∈ apps) : app.name ≠ app_name := by
      rintro rfl
      exact hname (List.mem_map_of_mem happ)
    constructor
    · intro p hp
      apply h.disk
      · intro app happ
        exact apart_of_names_ne (hne happ) (hchosen app happ).new_below hp
      · intro app happ cur hcur
        exact apart_of_names_ne (hne happ) ((hchosen app happ).cur_below hcur) hp
    · exact h.containers app_name hname

/-- An update that returns has switched the versions of its applications. -/
theorem wp_runMblAppUpdateManager_switched {update_pkg : UpdatePkg}
    (hnames : ∀ c x d, adm c x d → PlainNames c x d) (hplaces : Places adm placed)
    (hplain : ∀ app_name, PlainVersions before.fs app_name) :
  wp machine adm (runMblAppUpdateManager update_pkg)
    (Post.ifReturned fun apps d' => Switched placed apps before d' ∧
      apps.map AppRecord.ipk_path
        = (ipksOf update_pkg).map (joinText IPKS_EXTRACTION_PATH)) before
  := by
  apply wp_ifReturned_bind (wp_unpack update_pkg)
  rintro _ d ⟨rfl, rfl⟩
  have hstart : InstalledFrom placed d [] d :=
    ⟨rfl, fun _ => List.forall_mem_nil _, fun _ _ _ => rfl, fun _ => List.forall_mem_nil _⟩
  apply wp_ifReturned_bind (wp_installAppsFrom_ifReturned hnames hplaces hplain hstart)
  rintro apps installed ⟨hinstalled, hpaths⟩
  have hwhole : wp machine adm (startInstalledApps apps)
      (Post.ifReturned fun _ => Switched placed apps d) installed := by
    apply wp_ifReturned_bind wp_switchVersions_ifReturned
    rintro _ switched ⟨hcontainers, hrun⟩
    have hchosen := hinstalled.chosen hrun.names
    apply wp_ifReturned_mono (wp_removePreviousVersions_ifReturned _)
    · intro _ after hremoved
      exact switched_of_phases hinstalled hcontainers hrun hremoved
    · rintro app happ _ hcur rfl
      have hbelow := (hchosen app happ).cur_below hcur
      simp [APPS_PATH] at hbelow
  apply wp_ifReturned_bind hwhole
  intro _ after hswitched
  exact ⟨hswitched, by simpa using hpaths⟩

/-! ### The names of the applications -/

/-- A record has the name that `opkg info` prints for its package. -/
def Named (info : Text → CmdResult) (app : AppRecord) : Prop :=
  appNameOf app.ipk_path (info app.ipk_path) = .ok app.name

section

variable {info : Text → CmdResult} (hinfo : ∀ c x d, adm c x d → Prints info c x d)

include hinfo in
theorem wp_manageAppInstallation_named (ipk_path : Text) :
  wp machine adm (manageAppInstallation ipk_path) (Post.ifReturned fun app _ => Named info app) d
  := by
  apply wp_ifReturned_bind (wp_getAppName_prints hinfo ipk_path)
  intro app_name d' hname
  apply wp_ifReturned_bind_of_forall
  rintro (_ | ⟨cur, new⟩) d''
  · trivial
  · apply wp_ifReturned_bind_of_forall
    intro _ _
    exact hname

include hinfo in
theorem wp_installAppsFrom_named {ipks : List Text} (h : ∀ app ∈ apps, Named info app) :
  wp machine adm (installAppsFrom apps ipks)
    (Post.ifReturned fun apps' _ => ∀ app ∈ apps', Named info app) d
  := by
  induction ipks generalizing apps d with
  | nil => exact h
  | cons ipk ipks ih =>
      apply wp_ifReturned_bind (wp_catching_ifReturned (wp_manageAppInstallation_named hinfo _))
      rintro (e | app) d' happ
      · apply wp_removeAfterInstallError_ifReturned
      · apply ih
        simpa [or_imp, forall_and, happ app rfl] using h

include hinfo in
theorem wp_runMblAppUpdateManager_named (update_pkg : UpdatePkg) :
  wp machine adm (runMblAppUpdateManager update_pkg)
    (Post.ifReturned fun apps _ => ∀ app ∈ apps, Named info app) d
  := by
  apply wp_ifReturned_bind_of_forall
  intro ipks d'
  apply wp_ifReturned_bind (wp_installAppsFrom_named hinfo (List.forall_mem_nil _))
  intro apps d'' hnamed
  apply wp_ifReturned_bind_of_forall
  intro _ _
  exact hnamed

end

/-! ### Runs that return -/

/-- What a successful update has done: it has updated one application for each package, under the
name of the package, and the names are different. -/
theorem updated_of_returned
    {update_pkg : UpdatePkg} {xs : List Choice}
    (hplain : ∀ app_name, PlainVersions before.fs app_name)
    (hnames : Obeys machine PlainNames (runMblAppUpdateManager update_pkg) xs before)
    (hreturned : (run machine (runMblAppUpdateManager update_pkg) xs before).1 = .returned apps) :
  Updated apps before (run machine (runMblAppUpdateManager update_pkg) xs before).2.2 ∧
    apps.map AppRecord.ipk_path = (ipksOf update_pkg).map (joinText IPKS_EXTRACTION_PATH) ∧
    ∀ info, Obeys machine (Prints info) (runMblAppUpdateManager update_pkg) xs before →
      ∀ app ∈ apps, Named info app
  := by
  have hplaces : Places PlainNames fun _ => True := fun _ _ _ _ _ _ _ => trivial
  have hends := holds_of_wp
    (wp_runMblAppUpdateManager_switched (fun _ _ _ h => h) hplaces hplain) hnames
  rw [hreturned] at hends
  use hends.1.updated, hends.2
  intro info hinfo
  have hnamed := holds_of_wp
    (wp_runMblAppUpdateManager_named (fun _ _ _ h => h) update_pkg) hinfo
  rw [hreturned] at hnamed
  exact hnamed

/-- Version 0 of an application is installed. -/
def deviceWithTool : Device where
  fs := diskWith [bundlePath "tool".toList 0]
  containers := fun _ => none
  phase := .install
  completed := []

/-- The directory of version 0 is the only bundle. -/
theorem plainVersions_deviceWithTool (app_name : Text) :
  PlainVersions deviceWithTool.fs app_name
  := by
  have hbundles : ∀ p ∈ deviceWithTool.fs.names,
      (isOciBundle (walkEntry deviceWithTool.fs p)).toOption = some true →
        p = bundlePath "tool".toList 0 := by
    decide
  rintro p hp ⟨hdir, hbundle⟩
  have hmem : p ∈ deviceWithTool.fs.names := by
    apply deviceWithTool.fs.mem_names
    simp [isDir_eq_true.mp hdir]
  obtain rfl := hbundles p hmem (by rw [hbundle]; rfl)
  have hname : app_name = "tool".toList := by
    simpa [bundlePath] using hp
  subst hname
  use 0

/-- Every command does what it is asked to. -/
def updatingTool : List Choice :=
  [truthfully, { truthfully with stdout := infoOf "tool".toList }, truthfully, truthfully,
    { truthfully with stdout := infoOf "tool".toList }] ++ List.replicate 20 truthfully

set_option maxRecDepth 4000 in
/-- An update of an application from version 0 to version 1. -/
theorem updated_tool :
  Updated [⟨"tool".toList, some (bundlePath "tool".toList 0), bundlePath "tool".toList 1,
      joinText IPKS_EXTRACTION_PATH "a.ipk".toList⟩] deviceWithTool
    (run machine (runMblAppUpdateManager onePackage) updatingTool deviceWithTool).2.2
  := (updated_of_returned plainVersions_deviceWithTool (by decide) (by decide)).1

end App
