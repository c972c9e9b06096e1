import MblCore.App.Bundles

/-!
# The rollback

What `_rollback_apps` does when its commands do what they are asked to, whatever containers there
are when it is called, and when it is called at all: an update that fails is rolled back just
if no command of it fails in a way that the programs do not expect.
-/

namespace App

open FileTree
open Prog hiding pure throw bind

/-- The applications have been installed: their new bundles are on the disk beside the previous
ones, apart from each other. -/
structure Installed (apps : List AppRecord) (fs : Files) : Prop where
  names : (apps.map AppRecord.name).Nodup
  new_dir : ∀ app ∈ apps, fs.node app.new_bundle_path = some .dir
  new_ne_nil : ∀ app ∈ apps, app.new_bundle_path ≠ []
  new_apart : apps.Pairwise fun app app' =>
    ¬ app.new_bundle_path <+: app'.new_bundle_path
      ∧ ¬ app'.new_bundle_path <+: app.new_bundle_path
  cur_bundle : ∀ app ∈ apps, ∀ cur ∈ app.cur_bundle_path, ∃ content,
    fs.node (configPath cur) = some (.file content)
  cur_apart : ∀ app ∈ apps, ∀ app' ∈ apps, ∀ cur ∈ app'.cur_bundle_path,
    ¬ app.new_bundle_path <+: cur

/-- The container of an application as it is before the update. -/
def previousContainer (app : AppRecord) : Option Container :=
  app.cur_bundle_path.map (⟨·, .running⟩)

/-- No new bundle is left on the disk, and every application that was installed before runs from
its previous bundle; the others have no container. -/
def RolledBack (apps : List AppRecord) (d : Device) : Prop :=
  ∀ app ∈ apps, d.fs.has app.new_bundle_path = false
    ∧ d.containers app.name = previousContainer app

instance (apps : List AppRecord) (d : Device) : Decidable (RolledBack apps d) :=
  inferInstanceAs (Decidable (∀ _ ∈ _, _ ∧ _))

/-! ### A rollback whose commands do what they are asked to -/

section Rollback

variable {adm : Call → Choice → Device → Prop} {phase : Phase} {apps : List AppRecord}
  {d : Device}

theorem file_ne_of_isDir {fs : Files} {p q : FilePath} {content : Content}
    (hp : fs.node p = some .dir) (hq : fs.node q = some (.file content)) :
  p ≠ q
  := by
  rintro rfl
  rw [hp] at hq
  simp at hq

/-- The new bundle of one application is not above the file of a previous bundle. -/
theorem Installed.not_prefix_config {fs : Files} (h : Installed apps fs) {app app' : AppRecord}
    (happ : app ∈ apps) (happ' : app' ∈ apps) {cur : FilePath} (hcur : cur ∈ app'.cur_bundle_path) :
  ¬ app.new_bundle_path <+: configPath cur
  := by
  obtain ⟨content, hfile⟩ := h.cur_bundle app' happ' cur hcur
  rw [configPath, prefix_concat_iff, not_or]
  constructor
  · exact file_ne_of_isDir (h.new_dir app happ) hfile
  · exact h.cur_apart app happ app' happ' cur hcur

variable (htruthful : Truthful adm phase)
include htruthful

/-- Whatever containers there are, afterwards the applications have none. -/
theorem wp_stopAllNewlyInstalledApps (hphase : d.phase = phase) :
  wp machine adm (stopAllNewlyInstalledApps apps)
    { returned := fun _ d' => d'.phase = phase ∧ d'.fs = d.fs
        ∧ ∀ app ∈ apps, d'.containers app.name = none
      raised := fun _ _ => False
      cut := fun _ => True } d
  := by
  apply wp_forEach fun done _ d' => d'.phase = phase ∧ d'.fs = d.fs
    ∧ ∀ app ∈ done, d'.containers app.name = none
  · rintro done app todo d' - ⟨hphase', hfs, hdone⟩
    have hstopped : ∀ app' ∈ done ++ [app],
        (d'.setContainer app.name none).containers app'.name = none := by
      intro app' happ'
      by_cases heq : app'.name = app.name
      · rw [heq, Device.setContainer_same]
      · rw [Device.setContainer_of_ne _ _ heq]
        rcases List.mem_append.mp happ' with h | h
        · exact hdone app' h
        · exact absurd (congrArg AppRecord.name (List.mem_singleton.mp h)) heq
    rw [wp_bind, wp_catching]
    apply wp_terminateApp htruthful _ _ hphase'
    · exact fun _ => trivial
    · exact ⟨hphase', hfs, hstopped⟩
    · intro e hcls hsays
      dsimp only
      rw [if_pos (by simp [hcls, TERMINATE_EXCEPTIONS]), if_pos hsays]
      exact ⟨hphase', hfs, hstopped⟩
  · rintro d' ⟨hphase', hfs, hdone⟩
    exact ⟨hphase', hfs, hdone⟩
  · exact ⟨hphase, rfl, by simp⟩

/-- The new bundles are removed, and the previous ones stay. -/
theorem wp_removeNewBundles (hinstalled : Installed apps d.fs) (hphase : d.phase = phase) :
  wp machine adm (removeAppsBundles NEW_BUNDLE_PATH apps)
    { returned := fun _ d' => d'.phase = phase ∧ d'.containers = d.containers
        ∧ (∀ app ∈ apps, d'.fs.node app.new_bundle_path = none)
        ∧ ∀ app ∈ apps, ∀ cur ∈ app.cur_bundle_path, d'.fs.isDir cur = true
      raised := fun _ _ => False
      cut := fun _ => True } d
  := by
  apply wp_forEach fun done todo d' => d'.phase = phase ∧ d'.containers = d.containers
    ∧ (∀ app ∈ done, d'.fs.node app.new_bundle_path = none)
    ∧ (∀ app ∈ todo, d'.fs.node app.new_bundle_path = some .dir)
    ∧ ∀ app ∈ apps, ∀ cur ∈ app.cur_bundle_path, ∃ content,
      d'.fs.node (configPath cur) = some (.file content)
  · rintro done app todo d' hsplit ⟨hphase', hcontainers, hdone, htodo, hcur⟩
    have happ : app ∈ apps := by simp [hsplit]
    have hdir := htodo app List.mem_cons_self
    apply wp_removeApp_of_removes hdir (hinstalled.new_ne_nil app happ)
    · intro x hx
      rw [htruthful _ _ _ hphase' hx]
      decide
    · exact fun _ => trivial
    · refine ⟨hphase', hcontainers, ?_, ?_, ?_⟩
      · intro app' happ'
        rcases List.mem_append.mp happ' with h | h
        · exact node_removeBundle_eq_none hdir (hdone app' h)
        · rw [List.mem_singleton.mp h]
          exact node_removeBundle_below hdir List.prefix_rfl
      · intro app' happ'
        have hapart := hinstalled.new_apart
        rw [hsplit, List.pairwise_append, List.pairwise_cons] at hapart
        obtain ⟨hbelow, habove⟩ := hapart.2.1.1 app' happ'
        rw [dir_removeBundle hdir hbelow habove]
        exact htodo app' (List.mem_cons_of_mem app happ')
      · intro app' happ' cur hcur'
        obtain ⟨content, hfile⟩ := hcur app' happ' cur hcur'
        use content
        apply file_removeBundle hdir (hinstalled.new_ne_nil app happ) _ hfile
        exact hinstalled.not_prefix_config happ happ' hcur'
  · rintro d' ⟨hphase', hcontainers, hdone, -, hcur⟩
    refine ⟨hphase', hcontainers, hdone, ?_⟩
    intro app happ cur hcur'
    obtain ⟨content, hfile⟩ := hcur app happ cur hcur'
    rw [configPath] at hfile
    apply isDir_eq_true.mpr
    exact d'.fs.parent_dir (by rw [hfile]; exact Option.some_ne_none _)
  · exact ⟨hphase, rfl, by simp, hinstalled.new_dir, hinstalled.cur_bundle⟩

/-- The applications that were installed before run from their previous bundles. -/
theorem wp_runPreviousAppVersions (hnames : (apps.map AppRecord.name).Nodup)
    (hphase : d.phase = phase) (hnone : ∀ app ∈ apps, d.containers app.name = none)
    (hcur : ∀ app ∈ apps, ∀ cur ∈ app.cur_bundle_path, d.fs.isDir cur = true) :
  wp machine adm (runPreviousAppVersions apps)
    { returned := fun _ d' => d'.fs = d.fs
        ∧ ∀ app ∈ apps, d'.containers app.name = previousContainer app
      raised := fun _ _ => False
      cut := fun _ => True } d
  := by
  apply wp_forEach fun done todo d' => d'.phase = phase ∧ d'.fs = d.fs
    ∧ (∀ app ∈ done, d'.containers app.name = previousContainer app)
    ∧ ∀ app ∈ todo, d'.containers app.name = none
  · rintro done app todo d' hsplit ⟨hphase', hfs, hdone, htodo⟩
    have happ : app ∈ apps := by simp [hsplit]
    have hnone' := htodo app List.mem_cons_self
    -- the container of another application is left
    have hother : ∀ app' ∈ done ++ todo, app'.name ≠ app.name := by
      rw [hsplit, List.map_append, List.map_cons, List.nodup_middle, ← List.map_append,
        List.nodup_cons] at hnames
      intro app' happ' heq
      exact hnames.1 (List.mem_map.mpr ⟨app', happ', heq⟩)
    cases hprevious : app.cur_bundle_path with
    | none =>
        refine ⟨hphase', hfs, ?_, fun app' happ' => htodo app' (List.mem_cons_of_mem app happ')⟩
        intro app' happ'
        rcases List.mem_append.mp happ' with h | h
        · exact hdone app' h
        · rw [List.mem_singleton.mp h, hnone', previousContainer, hprevious]
          rfl
    | some cur =>
        apply wp_runApp htruthful hnone' hphase' (by rw [hfs]; exact hcur app happ cur hprevious)
        · exact fun _ => trivial
        · refine ⟨hphase', hfs, ?_, ?_⟩
          · intro app' happ'
            rcases List.mem_append.mp happ' with h | h
            · rw [Device.setContainer_of_ne _ _ (hother app' (List.mem_append_left todo h))]
              exact hdone app' h
            · rw [List.mem_singleton.mp h, Device.setContainer_same, previousContainer, hprevious]
              rfl
          · intro app' happ'
            rw [Device.setContainer_of_ne _ _ (hother app' (List.mem_append_right done happ'))]
            exact htodo app' (List.mem_cons_of_mem app happ')
  · rintro d' ⟨-, hfs, hdone, -⟩
    exact ⟨hfs, hdone⟩
  · exact ⟨hphase, rfl, by simp, hnone⟩

end Rollback

/-- A rollback whose commands do what they are asked to returns, and has rolled back, whatever
containers there are when it is called. -/
theorem wp_rollbackApps {adm : Call → Choice → Device → Prop} {apps : List AppRecord}
    {d : Device} (htruthful : Truthful adm .rollBack) (hinstalled : Installed apps d.fs) :
  wp machine adm (rollbackApps apps)
    { returned := fun _ => RolledBack apps
      raised := fun _ _ => False
      cut := fun _ => True } d
  := by
  rw [rollbackApps, wp_bind, wp_issue]
  refine ⟨trivial, fun x _ => ?_⟩
  change wp machine adm (stopAllNewlyInstalledApps apps >>= _) _ { d with phase := .rollBack }
  rw [wp_bind]
  apply (wp_stopAllNewlyInstalledApps htruthful rfl).of_returned
  rintro _ d₁ ⟨hphase₁, hfs₁, hnone⟩
  dsimp only at hfs₁ ⊢
  rw [wp_bind]
  apply (wp_removeNewBundles htruthful (by rw [hfs₁]; exact hinstalled) hphase₁).of_returned
  rintro _ d₂ ⟨hphase₂, hcontainers, hremoved, hcur⟩
  rw [← hcontainers] at hnone
  apply (wp_runPreviousAppVersions htruthful hinstalled.names hphase₂ hnone hcur).of_returned
  rintro _ d₃ ⟨hfs₃, hcontainers₃⟩ app happ
  constructor
  · rw [hfs₃]
    simp [has, hremoved app happ]
  · exact hcontainers₃ app happ

end App
