import MblCore.App.Truthful

/-!
# Bundles on the disk

Where the bundles of applications are, and what is on the disk after `remove_app` has removed
one: nothing is left at its path, the directory above goes as well when nothing else is in it,
and all the rest stays.
-/

namespace App

open FileTree
open Prog hiding pure throw bind

/-! ### Bundles -/

/-- The file by which a directory is an OCI bundle. -/
def configPath (bundle : FilePath) : FilePath :=
  bundle ++ ["config.json".toList]

/-- A `config.json` with a root path. -/
def configOf (path : Text) : Json :=
  .obj [("ociVersion".toList, .str "1.0.0".toList),
    ("root".toList, .obj [("path".toList, .str path)])]

/-- A bundle with its `config.json` at its top. -/
def plainBundle : Files :=
  (root.mkdirs ["rootfs".toList]).addFile [] "config.json".toList
    (.json (configOf "rootfs".toList)) rfl rfl

/-- Where a version of an application is installed. -/
def bundlePath (app_name : Text) (version : ℕ) : FilePath :=
  APPS_PATH ++ [app_name, Text.decimal version]

/-- A disk with bundles at the given paths. -/
def diskWith (paths : List FilePath) : Files :=
  paths.foldl (fun fs path => fs.graft path plainBundle) (root.mkdirs APPS_PATH)

/-- A device without applications. -/
def bareDevice : Device where
  fs := diskWith []
  containers := fun _ => none
  phase := .install
  completed := []

/-- What `opkg info` prints for a package with a name. -/
def infoOf (app_name : Text) : Output where
  text := some ("Package: ".toList ++ app_name)

/-! ### Removing a bundle -/

/-- The disk without a bundle. -/
def removeBundle (fs : Files) (path : FilePath) : Files :=
  let fs := (fs.graft path root).remove path
  if fs.children path.dropLast = [] ∧ path.dropLast ≠ APPS_PATH then fs.remove path.dropLast
  else fs

variable {fs : Files} {path q : FilePath}

theorem node_remove_graft (hdir : fs.node path = some .dir) (q : FilePath) :
  ((fs.graft path root).remove path).node q = if path <+: q then none else fs.node q
  := by
  rw [node_remove]
  split
  · rfl
  · rename_i hq
    rw [node_graft, if_neg hq]
    split
    · rename_i hq'
      have hne : q ≠ path := fun h => hq (h ▸ List.prefix_rfl)
      exact (dir_above (by simp [hdir]) hq' hne).symm
    · rfl

/-- Nothing is left of a bundle that was removed. -/
theorem node_removeBundle_below (hdir : fs.node path = some .dir) (hq : path <+: q) :
  (removeBundle fs path).node q = none
  := by
  unfold removeBundle
  dsimp only
  split
  · rw [node_remove, node_remove_graft hdir, if_pos hq, ite_self]
  · rw [node_remove_graft hdir, if_pos hq]

/-- Everything outside a bundle stays, the directory above the bundle perhaps apart. -/
theorem node_removeBundle (hdir : fs.node path = some .dir) (hq : ¬ path <+: q)
    (hparent : q ≠ path.dropLast) :
  (removeBundle fs path).node q = fs.node q
  := by
  have hrest : ((fs.graft path root).remove path).node q = fs.node q := by
    rw [node_remove_graft hdir, if_neg hq]
  unfold removeBundle
  dsimp only
  split
  · rename_i hempty
    rw [node_remove]
    split
    · -- nothing else is in the directory above the bundle
      rename_i hbelow
      rw [← hrest]
      by_contra hnode
      obtain ⟨r, rfl⟩ := hbelow
      cases r with
      | nil => simp at hparent
      | cons name r =>
          have hchild : name ∈ ((fs.graft path root).remove path).children path.dropLast := by
            rw [mem_children]
            by_cases hr : r = []
            · subst hr
              exact fun h => hnode (h.symm ▸ rfl)
            · rw [dir_above (fun h => hnode h.symm) (q := path.dropLast ++ name :: r)]
              · simp
              · exact ⟨r, by simp⟩
              · simpa using hr
          rw [hempty.1] at hchild
          contradiction
    · exact hrest
  · exact hrest

/-- Nothing appears where a bundle is removed. -/
theorem node_removeBundle_eq_none (hdir : fs.node path = some .dir) (hq : fs.node q = none) :
  (removeBundle fs path).node q = none
  := by
  have hrest : ((fs.graft path root).remove path).node q = none := by
    rw [node_remove_graft hdir, hq, ite_self]
  unfold removeBundle
  dsimp only
  split
  · rw [node_remove, hrest, ite_self]
  · exact hrest

/-- The files outside a bundle stay. -/
theorem file_removeBundle {content : Content} (hdir : fs.node path = some .dir)
    (hpath : path ≠ []) (hq : ¬ path <+: q) (hfile : fs.node q = some (.file content)) :
  (removeBundle fs path).node q = some (.file content)
  := by
  rw [node_removeBundle hdir hq, hfile]
  rintro rfl
  rw [dir_above (q := path) (by simp [hdir]) ( List.dropLast_prefix path)
    (dropLast_ne_self hpath)] at hfile
  simp at hfile

/-- The directories that are not above the bundle stay. -/
theorem dir_removeBundle (hdir : fs.node path = some .dir) (hq : ¬ path <+: q)
    (habove : ¬ q <+: path) :
  (removeBundle fs path).node q = fs.node q
  := by
  apply node_removeBundle hdir hq
  rintro rfl
  exact habove ( List.dropLast_prefix path)

variable {adm : Call → Choice → Device → Prop} {d : Device} {app_name : Text}

/-- A directory is removed with all that is in it. -/
theorem wp_rmtree {Q : Post Device PyException Unit} (hcut : Q.cut d)
    (hremoved : d.fs.isDir path = true → Q.returned () { d with fs := d.fs.remove path })
    (habsent : d.fs.isDir path = false → Q.raised ⟨.OSError, []⟩ d) :
  wp machine adm (rmtree path) Q d
  := by
  rw [rmtree, wp_bind, wp_issue]
  refine ⟨hcut, fun x _ => ?_⟩
  change wp machine adm (if d.fs.isDir path then pure () else _) Q
    { d with fs := if d.fs.isDir path then d.fs.remove path else d.fs }
  cases hdir : d.fs.isDir path with
  | true => exact hremoved hdir
  | false => exact habsent hdir

theorem wp_rmtree_of_isDir {Q : Post Device PyException Unit} (hdir : d.fs.isDir path = true)
    (hcut : Q.cut d) (hremoved : Q.returned () { d with fs := d.fs.remove path }) :
  wp machine adm (rmtree path) Q d
  := by
  apply wp_rmtree hcut
  · exact fun _ => hremoved
  · intro hnot
    rw [hdir] at hnot
    contradiction

/-- A directory in which nothing is left is removed, unless it is that of all applications. -/
theorem wp_removeEmptyParent {Q : Post Device PyException Unit} {dir : FilePath} (hcut : Q.cut d)
    (hempty : d.fs.children dir = [] ∧ dir ≠ APPS_PATH → wp machine adm (rmtree dir) Q d)
    (hstays : ¬ (d.fs.children dir = [] ∧ dir ≠ APPS_PATH) → Q.returned () d) :
  wp machine adm (removeEmptyParent dir) Q d
  := by
  rw [removeEmptyParent, wp_bind, wp_issue]
  refine ⟨hcut, fun x _ => ?_⟩
  change wp machine adm (if d.fs.children dir = [] ∧ dir ≠ APPS_PATH then _ else _) Q d
  split
  · exact hempty ‹_›
  · exact hstays ‹_›

/-- After `opkg` has removed an application, its directory is removed, and the one above when
nothing else is in it. -/
theorem wp_removeDirectories {Q : Post Device PyException Unit}
    (hdir : d.fs.node path = some .dir) (hpath : path ≠ [])
    (hcut : ∀ fs, fs = d.fs.graft path root ∨ fs = (d.fs.graft path root).remove path →
      Q.cut { d with fs := fs })
    (hremoved : Q.returned () { d with fs := removeBundle d.fs path }) :
  wp machine adm (rmtree path >>= fun _ => removeEmptyParent path.dropLast) Q
    { d with fs := d.fs.graft path root }
  := by
  have hgraft : (d.fs.graft path root).isDir path = true := by
    rw [isDir_eq_true, node_graft, if_pos List.prefix_rfl]
    simp [node_root]
  have hparent : ((d.fs.graft path root).remove path).isDir path.dropLast = true := by
    rw [isDir_eq_true, node_remove_graft hdir, if_neg (not_prefix_dropLast hpath)]
    exact dir_above (q := path) (by simp [hdir]) ( List.dropLast_prefix path)
      (dropLast_ne_self hpath)
  rw [wp_bind]
  apply wp_rmtree_of_isDir hgraft
  · exact hcut _ (Or.inl rfl)
  · dsimp only [removeBundle] at hremoved
    apply wp_removeEmptyParent (hcut _ (Or.inr rfl))
    · intro hempty
      rw [if_pos hempty] at hremoved
      exact wp_rmtree_of_isDir hparent (hcut _ (Or.inr rfl)) hremoved
    · intro hstays
      rw [if_neg hstays] at hremoved
      exact hremoved

/-- All that comes of the removal of an application. -/
theorem wp_removeApp {Q : Post Device PyException Unit} (hpath : path ≠ [])
    (hcut : ∀ fs, fs = d.fs ∨ fs = d.fs.graft path root
      ∨ fs = (d.fs.graft path root).remove path → Q.cut { d with fs := fs })
    (habsent : ∀ x e, adm (.isdir path) x d → d.fs.isDir path = false →
      e.cls = .AppPathInexistent → Q.raised e d)
    (hfails : ∀ x e, adm (.opkgRemove app_name path) x d → d.fs.isDir path = true →
      x.kind = .fails → e.cls ∈ [.UnicodeDecodeError, .AppUninstallError] →
      Q.raised e (opkgRemove x d path).2)
    (hremoved : ∀ x, adm (.opkgRemove app_name path) x d → d.fs.isDir path = true →
      x.kind ≠ .fails → Q.returned () { d with fs := removeBundle d.fs path }) :
  wp machine adm (removeApp app_name path) Q d
  := by
  rw [removeApp, wp_bind, wp_issue]
  refine ⟨hcut _ (Or.inl rfl), fun x hx => ?_⟩
  change wp machine adm (if d.fs.isDir path then _ else _) _ d
  cases hdir : d.fs.isDir path with
  | false => exact habsent x _ hx hdir rfl
  | true =>
      rw [if_pos rfl, wp_bind, wp_issue]
      refine ⟨hcut _ (Or.inl rfl), fun x hx => ?_⟩
      by_cases hkind : x.kind = .fails
      · have hremove : machine.perform (.opkgRemove app_name path) x d
            = (⟨false, x.returncode, x.stdout⟩, (opkgRemove x d path).2) := by
          simp [machine, perform, opkgRemove, hkind]
        rw [hremove]
        dsimp only
        rw [if_neg Bool.false_ne_true, wp_bind]
        have hraised := hfails x
        unfold errorText
        split
        · exact hraised _ hx hdir hkind (by simp)
        · exact hraised _ hx hdir hkind (by simp)
        · exact hraised _ hx hdir hkind (by simp)
      · have hremove : machine.perform (.opkgRemove app_name path) x d
            = (success x.stdout, { d with fs := d.fs.graft path root }) := by
          simp only [machine, perform, opkgRemove, hdir]
          rw [if_neg hkind, if_pos trivial]
        rw [hremove]
        apply wp_removeDirectories (isDir_eq_true.mp hdir) hpath
        · exact fun fs hfs => hcut fs (Or.inr hfs)
        · exact hremoved x hx hdir hkind

/-- An application whose bundle is there is removed when `opkg` removes it. -/
theorem wp_removeApp_of_removes {Q : Post Device PyException Unit}
    (hdir : d.fs.node path = some .dir) (hpath : path ≠ [])
    (hremoves : ∀ x, adm (.opkgRemove app_name path) x d → x.kind ≠ .fails)
    (hcut : ∀ d, Q.cut d) (hremoved : Q.returned () { d with fs := removeBundle d.fs path }) :
  wp machine adm (removeApp app_name path) Q d
  := by
  apply wp_removeApp hpath
  · exact fun fs _ => hcut _
  · intro x e _ hnot
    rw [isDir_eq_true.mpr hdir] at hnot
    contradiction
  · exact fun x e hx _ hkind => absurd hkind (hremoves x hx)
  · exact fun _ _ _ _ => hremoved

/-- What an installation has left at its path is removed, when it has left something. -/
theorem wp_cleanUp {Q : Post Device PyException Unit} (hcut : Q.cut d)
    (hthere : d.fs.has path = true → wp machine adm (removeApp app_name path) Q d)
    (hnothing : d.fs.has path = false → Q.returned () d) :
  wp machine adm (cleanUp app_name path) Q d
  := by
  rw [cleanUp, wp_bind, wp_issue]
  refine ⟨hcut, fun x _ => ?_⟩
  change wp machine adm (if d.fs.has path then _ else _) Q d
  cases hhas : d.fs.has path with
  | true => exact hthere hhas
  | false => exact hnothing hhas

end App
