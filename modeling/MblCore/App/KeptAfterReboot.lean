import Mathlib.Order.Lattice.Nat
import MblCore.App.Boot
import MblCore.App.SuccessfulUpdate

/-!
# What a reboot keeps of a successful update

A successful update removes the lowest version of each of its applications, and a reboot runs the
lowest version there is and removes the others.  The two agree on the version that runs just if no
application of the update had more than one version before.  The reboot comes by an application unless
the versions of one that is listed before it cannot be sorted.
-/

namespace App

open FileTree
open Prog hiding pure throw bind

variable {apps : List AppRecord} {app : AppRecord} {before after : Device} {m : ℕ}

/-! ### The versions after an update -/

/-- What `opkg` installs is a bundle. -/
def TopIsBundle (tree : Files) : Prop :=
  IsBundle tree []

/-- A tree that was placed somewhere is a bundle there. -/
theorem isBundle_of_placed {fs : Files} {path : FilePath}
    (h : ∃ tree, TopIsBundle tree ∧ ∀ q, fs.node (path ++ q) = tree.node q) :
  IsBundle fs path
  := by
  obtain ⟨tree, hbundle, htree⟩ := h
  exact (isBundle_of_agree fun r => by simpa using htree r).mpr hbundle

/-- A version that is neither the new one nor the current one is as it was. -/
theorem Switched.unchanged (h : Switched TopIsBundle apps before after) (happ : app ∈ apps)
    (hnew : bundlePath app.name m ≠ app.new_bundle_path)
    (hcur : app.cur_bundle_path ≠ some (bundlePath app.name m)) :
  m ∈ versions after.fs app.name ↔ m ∈ versions before.fs app.name
  := by
  have hself : APPS_PATH ++ [app.name] <+: bundlePath app.name m := by
    rw [bundlePath_eq_concat]
    apply List.prefix_append
  have hsame {app' : AppRecord} (happ' : app' ∈ apps) (heq : app'.name = app.name) : app' = app :=
    List.inj_on_of_nodup_map h.names happ' happ heq
  apply isBundle_congr
  intro p hp
  apply h.disk
  · intro app' happ'
    apply Apart.below _ hp
    by_cases heq : app'.name = app.name
    · obtain rfl := hsame happ' heq
      obtain ⟨k, hk⟩ := (h.chosen app' happ').new_version
      rw [hk] at hnew ⊢
      apply apart_of_versions_ne _ List.prefix_rfl
      rintro rfl
      exact hnew rfl
    · exact apart_of_names_ne heq (h.chosen app' happ').new_below hself
  · intro app' happ' cur hcur'
    apply Apart.below _ hp
    by_cases heq : app'.name = app.name
    · obtain rfl := hsame happ' heq
      obtain ⟨k, -, rfl⟩ := (h.chosen app' happ').cur_lowest hcur'
      apply apart_of_versions_ne _ List.prefix_rfl
      rintro rfl
      exact hcur hcur'
    · exact apart_of_names_ne heq ((h.chosen app' happ').cur_below hcur') hself

/-- After an update there are the new version and those before but the lowest one. -/
theorem Switched.mem_versions (h : Switched TopIsBundle apps before after) (happ : app ∈ apps) :
  m ∈ versions after.fs app.name ↔ bundlePath app.name m = app.new_bundle_path
    ∨ m ∈ versions before.fs app.name ∧ ¬ IsLeast (versions before.fs app.name) m
  := by
  have hchosen := h.chosen app happ
  by_cases hnew : bundlePath app.name m = app.new_bundle_path
  · have hversion : m ∈ versions after.fs app.name := by
      change IsBundle after.fs (bundlePath app.name m)
      rw [hnew]
      exact isBundle_of_placed (h.trees app happ)
    simp [hversion, hnew]
  · by_cases hcur : app.cur_bundle_path = some (bundlePath app.name m)
    · obtain ⟨lowest, hlowest, heq⟩ := hchosen.cur_lowest hcur
      obtain rfl := bundlePath_injective.mp heq
      have hgone : m ∉ versions after.fs app.name := by
        intro hversion
        have hdir := isDir_eq_true.mp hversion.1
        rw [h.removed app happ _ hcur _ List.prefix_rfl] at hdir
        contradiction
      simp [hgone, hnew, hlowest]
    · rw [h.unchanged happ hnew hcur]
      have hleast : ¬ IsLeast (versions before.fs app.name) m :=
        fun hleast => hcur (hchosen.cur_of_isLeast hleast)
      simp [hnew, hleast]

/-- The new version is the lowest one after an update just if there was at most one before. -/
theorem Switched.new_isLeast_iff (h : Switched TopIsBundle apps before after) (happ : app ∈ apps)
    (hnew : app.new_bundle_path = bundlePath app.name m) :
  IsLeast (versions after.fs app.name) m ↔ (versions before.fs app.name).Subsingleton
  := by
  have hmem {k : ℕ} : k ∈ versions after.fs app.name ↔ k = m
      ∨ k ∈ versions before.fs app.name ∧ ¬ IsLeast (versions before.fs app.name) k := by
    rw [h.mem_versions happ, hnew, bundlePath_injective]
  constructor
  · intro hleast
    have hall : ∀ k ∈ versions before.fs app.name, IsLeast (versions before.fs app.name) k := by
      intro k hk
      by_contra hnot
      have hle := hleast.2 (hmem.mpr (Or.inr ⟨hk, hnot⟩))
      obtain ⟨hdir, -, -⟩ | ⟨lowest, highest, -, -, hgreatest, -, hpath⟩ := h.chosen app happ
      · rw [isDir_of_mem_versions hk] at hdir
        contradiction
      · rw [hnew, bundlePath_injective] at hpath
        have hle' := hgreatest.2 hk
        omega
    intro k hk k' hk'
    exact (hall k hk).unique (hall k' hk')
  · intro hone
    refine ⟨hmem.mpr (Or.inl rfl), ?_⟩
    intro k hk
    rcases hmem.mp hk with rfl | ⟨hk, hnot⟩
    · exact le_rfl
    · exfalso
      apply hnot
      refine ⟨hk, ?_⟩
      intro k' hk'
      rw [hone hk hk']

/-- Plain packages hold bundles. -/
theorem places_plainPackages :
  Places PlainPackages TopIsBundle
  := by
  rintro app_name path app_pkg x d ⟨-, -, hinstalled⟩ hok
  obtain ⟨tree, htree, hbundle⟩ := hinstalled hok
  rw [htree]
  exact (isBundle_of_agree fun r => node_mkdirs_nil hbundle.1 r).mpr hbundle

/-! ### The reboot -/

/-- The application runs from the bundle it ran from before, and the bundle is on the disk. -/
def StartsAgain (app_name : Text) (before after : Device) : Prop :=
  ∃ bundle, before.containers app_name = some ⟨bundle, .running⟩
    ∧ after.containers app_name = some ⟨bundle, .running⟩ ∧ after.fs.isDir bundle = true

/-- The lowest version of an application boots, which is the new one or another one. -/
theorem Switched.startsAgain_iff {booted : Device} (h : Switched TopIsBundle apps before after)
    (happ : app ∈ apps) (hboots : Boots app.name (restart after) booted) :
  StartsAgain app.name after booted ↔ (versions before.fs app.name).Subsingleton
  := by
  obtain ⟨m, hm⟩ := (h.chosen app happ).new_version
  have hversion : m ∈ versions after.fs app.name :=
    (h.mem_versions happ).mpr (Or.inl hm.symm)
  rw [← h.new_isLeast_iff happ hm]
  constructor
  · rintro ⟨bundle, hbefore, hafter, -⟩
    rw [h.runs app happ, Option.some.injEq, Container.mk.injEq] at hbefore
    obtain ⟨lowest, hlowest⟩ : ∃ k, IsLeast (versions after.fs app.name) k := by
      have hne : (versions after.fs app.name).Nonempty := ⟨m, hversion⟩
      exact ⟨_, Nat.sInf_mem hne, fun k hk => Nat.sInf_le hk⟩
    obtain ⟨hruns, -⟩ := hboots.lowest lowest hlowest
    rw [hafter, Option.some.injEq, Container.mk.injEq, ← hbefore.1, hm, bundlePath_injective]
      at hruns
    rwa [hruns.1]
  · intro hleast
    obtain ⟨hruns, hkept⟩ := hboots.lowest m hleast
    use bundlePath app.name m
    refine ⟨?_, hruns, ?_⟩
    · rw [h.runs app happ, hm]
    · rw [isDir_eq_true, hkept _ List.prefix_rfl]
      exact isDir_eq_true.mp hversion.1

/-- Neither the versions of the application nor those of one that is listed before it are such that
they cannot be sorted. -/
def ComesBy (fs : Files) (app_name : Text) : Prop :=
  ∀ name, (name = app_name ∨ [name, app_name].Sublist (subdirs fs APPS_PATH)) → ¬ Unsorted fs name

/-- An application of an update has a directory. -/
theorem Switched.mem_subdirs (h : Switched TopIsBundle apps before after) (happ : app ∈ apps) :
  app.name ∈ subdirs after.fs APPS_PATH
  := by
  obtain ⟨m, hm⟩ := (h.chosen app happ).new_version
  have hversion := (h.mem_versions happ (m := m)).mpr (Or.inl hm.symm)
  rw [App.mem_subdirs, ← isDir_eq_true]
  exact isDir_of_mem_versions hversion

/-- When `run-all` has ended at versions that cannot be sorted, it has come by the applications that
have booted. -/
theorem EndedBySort.comesBy_iff {booted : Device} (h : EndedBySort before booted) {app_name : Text}
    (happ : app_name ∈ subdirs before.fs APPS_PATH) :
  ComesBy before.fs app_name ∧ Boots app_name before booted
    ∨ ¬ ComesBy before.fs app_name ∧ booted.containers app_name = before.containers app_name
  := by
  obtain ⟨done, name, todo, hsplit, hunsorted, hdone, htodo⟩ := h
  have hnodup := nodup_subdirs before.fs APPS_PATH
  rw [hsplit, List.nodup_append] at hnodup
  rw [hsplit, List.mem_append] at happ
  rcases happ with hmem | hmem
  · left
    refine ⟨?_, (hdone app_name hmem).2⟩
    rintro other (rfl | hpair)
    · exact (hdone other hmem).1
    · rw [hsplit] at hpair
      by_cases hother : other ∈ done
      · exact (hdone other hother).1
      · have hlater := List.mem_cons_of_mem name (mem_of_pair_sublist hpair hother)
        exact absurd rfl (hnodup.2.2 app_name hmem app_name hlater)
  · right
    refine ⟨fun hcomes => hcomes name ?_ hunsorted, htodo app_name hmem⟩
    rcases List.mem_cons.mp hmem with rfl | hmem
    · exact Or.inl rfl
    · right
      rw [hsplit]
      apply List.Sublist.trans _ (List.sublist_append_right _ _)
      exact (List.singleton_sublist.mpr hmem).cons_cons name

/-- The package of an application called `a` is unpacked, named, and installed beside the versions
that are found, and the log tells that running versions are stopped. -/
def installChoices (found : Bool) : List Choice :=
  [truthfully, { stdout := infoOf ['a'] }, truthfully] ++ (if found then [truthfully] else [])
    ++ [{ stdout := infoOf ['a'] }, { tree := some plainBundle }, truthfully]

/-- What `runc kill` prints is not UTF-8, and the update ends with an exception. -/
def failedUpdate (found : Bool) : Event :=
  .update onePackage (installChoices found ++ [{ kind := .fails, stdout := { text := none } }])

/-- Every command of the update does what it is asked to. -/
def goodUpdate (found : Bool) : List Choice :=
  installChoices found ++ List.replicate 20 truthfully

/-- Every command of a reboot does what it is asked to. -/
def goodReboot : List Choice :=
  List.replicate 10 truthfully

/-- The record of the application in its update. -/
def appA (cur : Option ℕ) (new : ℕ) : AppRecord where
  name := ['a']
  cur_bundle_path := cur.map (bundlePath ['a'])
  new_bundle_path := bundlePath ['a'] new
  ipk_path := joinText IPKS_EXTRACTION_PATH "a.ipk".toList

/-- The device after two updates that failed: versions 0 and 1 are on the disk. -/
def failedTwice : Device :=
  happen (happen bareDevice (failedUpdate false)) (failedUpdate true)

end App
