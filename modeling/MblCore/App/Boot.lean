import Mathlib.Data.Set.List
import MblCore.App.Histories

/-!
# What a reboot runs

When `run-all` returns, each application with a version runs from its lowest version, and its other
versions are removed.  When every command does what it is asked to it does return, unless the versions
of an application cannot be sorted: the name of the application is part of what is sorted.
-/

namespace App

open FileTree
open Prog hiding pure throw bind

/-- An application runs from its lowest version, which is as it was before, or it has none and
does not run. -/
structure Boots (app_name : Text) (before after : Device) : Prop where
  lowest : ∀ m, IsLeast (versions before.fs app_name) m →
    after.containers app_name = some ⟨bundlePath app_name m, .running⟩
      ∧ ∀ p, bundlePath app_name m <+: p → after.fs.node p = before.fs.node p
  idle : versions before.fs app_name = ∅ → after.containers app_name = before.containers app_name
    ∧ ∀ p, APPS_PATH ++ [app_name] <+: p → after.fs.node p = before.fs.node p

/-- What `run-all` has done to one application. -/
structure Booted (app_name : Text) (before after : Device) : Prop where
  boots : Boots app_name before after
  /-- Nothing has changed for the others. -/
  containers : ∀ id, id ≠ app_name → after.containers id = before.containers id
  disk : ∀ p, ¬ APPS_PATH ++ [app_name] <+: p → after.fs.node p = before.fs.node p
  shrinks : Shrinks before.fs after.fs

/-- The keys of the versions of an application can be computed. -/
def CanSort (app_name : Text) : Prop :=
  ∃ key, Text.alphanumKey? .unicode (pathText (bundlePath app_name 0)) = .ok key

/-- There is a version of an application, and it has no key. -/
def Unsorted (fs : Files) (app_name : Text) : Prop :=
  (versions fs app_name).Nonempty ∧ ¬ CanSort app_name

/-- An application without a container runs, or there is an exception. -/
def RunsOrRaises (adm : Call → Choice → Device → Prop) (raised : PyException → Device → Prop) :
    Prop :=
  ∀ id path d, d.containers id = none → d.fs.isDir path = true →
    wp machine adm (runApp id path)
      { returned := fun _ d' => d' = d.setContainer id (some ⟨path, .running⟩)
        raised := raised
        cut := fun _ => True } d

variable {adm : Call → Choice → Device → Prop} {raised : PyException → Device → Prop} {d : Device}
  {app_name : Text}

/-! ### Sorting the versions -/

/-- One version of an application has a key when another one has. -/
theorem canSort_iff (m : ℕ) :
  CanSort app_name ↔ ∃ key, Text.alphanumKey? .unicode (pathText (bundlePath app_name m)) = .ok key
  := by
  obtain ⟨key?, hkeys⟩ :=
    Text.alphanumKey?_slash_numeral .unicode (pathText (APPS_PATH ++ [app_name]))
  have hkey (k : ℕ) : Text.alphanumKey? .unicode (pathText (bundlePath app_name k))
      = key?.map (· ++ [.number k, .text []]) := by
    have h := hkeys (.ofNat k)
    rw [Text.Numeral.value_ofNat] at h
    rw [bundlePath_eq_concat, pathText_concat]
    exact h
  rw [CanSort, hkey, hkey]
  cases key? with
  | error e => simp [Except.map]
  | ok key => simp [Except.map]

/-- The versions on a tidy disk can be sorted when they have keys, or when there is none. -/
theorem Tidy.sortedBundles_iff {fs : Files} (h : Tidy fs) (app_name : Text) :
  (∃ sorted, sortedBundles (walk fs (APPS_PATH ++ [app_name])) = .ok sorted) ↔ ¬ Unsorted fs app_name
  := by
  obtain ⟨bundles, hbundles⟩ := h.ociBundles ( List.prefix_append APPS_PATH [app_name])
  have hmem {p : FilePath} : p ∈ bundles ↔ ∃ m ∈ versions fs app_name, p = bundlePath app_name m := by
    rw [mem_ociBundles_walk hbundles]
    constructor
    · rintro ⟨hbelow, hbundle⟩
      obtain ⟨m, rfl⟩ := h.plainVersions app_name p hbelow hbundle
      exact ⟨m, hbundle, rfl⟩
    · rintro ⟨m, hm, rfl⟩
      refine ⟨?_, hm⟩
      rw [bundlePath_eq_concat]
      apply List.prefix_append
  rw [sortedBundles, hbundles]
  constructor
  · rintro ⟨sorted, hsort⟩ ⟨⟨m, hm⟩, hcan⟩
    apply hcan
    rw [canSort_iff m]
    apply Text.exists_key_of_humanSort? (humanSort_eq_ok.mp hsort)
    exact hmem.mpr ⟨m, hm, rfl⟩
  · intro hsorted
    obtain ⟨ms, rfl⟩ : ∃ ms : List ℕ, bundles = ms.map (bundlePath app_name) := by
      have hrange : bundles ∈ Set.range (List.map (bundlePath app_name)) := by
        rw [Set.range_list_map]
        intro p hp
        obtain ⟨m, -, rfl⟩ := hmem.mp hp
        exact ⟨m, rfl⟩
      obtain ⟨ms, hms⟩ := hrange
      exact ⟨ms, hms.symm⟩
    cases ms with
    | nil => exact ⟨[], rfl⟩
    | cons m ms =>
        have hversion : m ∈ versions fs app_name := by
          obtain ⟨k, hk, heq⟩ := hmem.mp List.mem_cons_self
          rwa [bundlePath_injective.mp heq]
        have hcan : CanSort app_name := by
          by_contra hcan
          exact hsorted ⟨⟨m, hversion⟩, hcan⟩
        obtain ⟨key, hkey⟩ := hcan
        have hsort : Text.humanSort? .unicode pathText
            (((m :: ms).map .ofNat).map fun n : Text.Numeral => APPS_PATH ++ [app_name] ++ [n.text])
            = .ok _ :=
          Text.humanSort?_numerals (fun n => pathText_concat _ n.text) (m := .ofNat 0) hkey _
        rw [List.map_map] at hsort
        exact ⟨_, humanSort_eq_ok.mpr hsort⟩

/-! ### Removing the other versions -/

/-- The versions that are done are removed, and what is apart from all of them stays. -/
structure VersionsRemoved (invalid todo : List FilePath) (before d : Device) : Prop where
  containers : d.containers = before.containers
  shrinks : Shrinks before.fs d.fs
  disk : ∀ p, (∀ path ∈ invalid, ¬ path <+: p) → d.fs.node p = before.fs.node p
  there : ∀ path ∈ todo, d.fs.isDir path = true

/-- Versions that are apart are removed one after the other. -/
theorem wp_removeVersions {invalid_versions : List FilePath}
    (hapart : invalid_versions.Pairwise fun p q => ¬ p <+: q)
    (hdirs : ∀ path ∈ invalid_versions, d.fs.isDir path = true) :
  wp machine adm (forEach invalid_versions rmtree)
    { returned := fun _ => VersionsRemoved invalid_versions [] d
      raised := raised
      cut := fun _ => True } d
  := by
  apply wp_forEach fun _ todo d' => VersionsRemoved invalid_versions todo d d'
  · intro done path todo d' hsplit hd'
    have hdir := hd'.there path List.mem_cons_self
    apply wp_rmtree_of_isDir hdir trivial
    constructor
    · exact hd'.containers
    · intro p
      rcases shrinks_remove d'.fs path p with hnone | hsame
      · exact Or.inl hnone
      · rw [hsame]
        exact hd'.shrinks p
    · intro p hp
      have hmem : path ∈ invalid_versions := by simp [hsplit]
      change (d'.fs.remove path).node p = _
      rw [node_remove_elsewhere _ (hp path hmem)]
      exact hd'.disk p hp
    · intro path' hpath'
      rw [hsplit, List.pairwise_append, List.pairwise_cons] at hapart
      have hother := hapart.2.1.1 path' hpath'
      rw [isDir_eq_true]
      change (d'.fs.remove path).node path' = _
      rw [node_remove_elsewhere _ hother]
      exact isDir_eq_true.mp (hd'.there path' (List.mem_cons_of_mem path hpath'))
  · exact fun _ h => h
  · exact ⟨rfl, Shrinks.refl _, fun _ _ => rfl, hdirs⟩

/-! ### One application -/

/-- Every path is that of a version other than the lowest one. -/
def OtherVersions (fs : Files) (app_name : Text) (lowest : ℕ) (paths : List FilePath) : Prop :=
  ∀ path ∈ paths, ∃ m ∈ versions fs app_name, m ≠ lowest ∧ path = bundlePath app_name m

/-- The first of the sorted bundles is the lowest version, and the rest are the others. -/
theorem lowest_of_sortedBundles {fs : Files} {invalid_versions : List FilePath}
    {valid_version : FilePath} (hplain : PlainVersions fs app_name)
    (hsorted : sortedBundles (walk fs (APPS_PATH ++ [app_name]))
      = .ok (valid_version :: invalid_versions)) :
  ∃ lowest, IsLeast (versions fs app_name) lowest ∧ valid_version = bundlePath app_name lowest ∧
    OtherVersions fs app_name lowest invalid_versions
  := by
  obtain ⟨lowest, hlowest, rfl⟩ :=
    isLeast_of_head? hplain hsorted (p := valid_version) rfl
  use lowest, hlowest, rfl
  intro path hpath
  obtain ⟨m, hm, rfl⟩ :=
    (mem_sortedBundles_iff hplain hsorted).mp (List.mem_cons_of_mem _ hpath)
  refine ⟨m, hm, ?_, rfl⟩
  rintro rfl
  exact (List.nodup_cons.mp (nodup_sortedBundles hsorted)).1 hpath

/-- Different versions are apart. -/
theorem OtherVersions.pairwise {fs : Files} {lowest : ℕ} {paths : List FilePath}
    (h : OtherVersions fs app_name lowest paths) (hnodup : paths.Nodup) :
  paths.Pairwise fun p q => ¬ p <+: q
  := by
  apply hnodup.imp_of_mem
  intro p q hp hq hne hbelow
  obtain ⟨m, -, -, rfl⟩ := h p hp
  obtain ⟨n, -, -, rfl⟩ := h q hq
  exact hne (hbelow.eq_of_length rfl)

/-- When the lowest version runs and the others are removed, the application is booted. -/
theorem OtherVersions.booted {lowest : ℕ} {paths : List FilePath} {d' : Device}
    (h : OtherVersions d.fs app_name lowest paths) (hlowest : IsLeast (versions d.fs app_name) lowest)
    (hremoved : VersionsRemoved paths []
      (d.setContainer app_name (some ⟨bundlePath app_name lowest, .running⟩)) d') :
  Booted app_name d d'
  := by
  constructor
  · constructor
    · intro m hm
      obtain rfl := hlowest.unique hm
      constructor
      · rw [hremoved.containers, Device.setContainer_same]
      · intro p hp
        apply hremoved.disk
        intro path hpath
        obtain ⟨k, -, hne, rfl⟩ := h path hpath
        exact (apart_of_versions_ne hne hp).1
    · intro hempty
      have hversion := hlowest.1
      rw [hempty] at hversion
      exact hversion.elim
  · intro id hid
    rw [hremoved.containers, Device.setContainer_of_ne _ _ hid]
  · intro p hp
    apply hremoved.disk
    intro path hpath hbelow
    obtain ⟨k, -, -, rfl⟩ := h path hpath
    apply hp
    rw [bundlePath_eq_concat] at hbelow
    exact prefix_left_of_concat hbelow
  · exact hremoved.shrinks

/-- The application is booted when its versions can be sorted; otherwise nothing is done. -/
theorem wp_runAppFromParentDir (hruns : RunsOrRaises adm raised) {name : Text}
    (hname : PlainName name) (hd : Tidy d.fs) (hdir : d.fs.isDir (APPS_PATH ++ [name]) = true)
    (hnone : d.containers name = none) :
  wp machine adm (runAppFromParentDir name)
    { returned := fun _ d' => ¬ Unsorted d.fs name ∧ Booted name d d'
      raised := fun e d' => raised e d' ∨ Unsorted d.fs name ∧ d' = d
      cut := fun _ => True } d
  := by
  have hplain := hd.plainVersions name
  rw [runAppFromParentDir_eq, joinPath_of_plain _ hname, wp_bind, wp_issue]
  refine ⟨trivial, fun x _ => ?_⟩
  change wp machine adm (if d.fs.isDir (APPS_PATH ++ [name]) then _ else _) _ d
  rw [if_pos hdir, wp_bind, wp_issue]
  refine ⟨trivial, fun x _ => ?_⟩
  change wp machine adm (ofExcept (sortedBundles (walk d.fs (APPS_PATH ++ [name]))) >>= _) _ d
  have hiff := hd.sortedBundles_iff name
  cases hsorted : sortedBundles (walk d.fs (APPS_PATH ++ [name])) with
  | error e =>
      rw [hsorted] at hiff
      refine Or.inr ⟨?_, rfl⟩
      by_contra hnot
      obtain ⟨sorted, h⟩ := hiff.mpr hnot
      contradiction
  | ok sorted =>
      have hcan := (hd.sortedBundles_iff name).mp ⟨sorted, hsorted⟩
      change wp machine adm (runFirstOf name sorted) _ d
      cases sorted with
      | nil =>
          refine ⟨hcan, ⟨?_, fun _ => ⟨rfl, fun _ _ => rfl⟩⟩, fun _ _ => rfl, fun _ _ => rfl,
            Shrinks.refl _⟩
          intro m hm
          have hfound := (mem_sortedBundles_iff hplain hsorted).mpr ⟨m, hm.1, rfl⟩
          contradiction
      | cons valid_version invalid_versions =>
          obtain ⟨lowest, hlowest, rfl, hothers⟩ := lowest_of_sortedBundles hplain hsorted
          have hnodup := List.nodup_cons.mp (nodup_sortedBundles hsorted)
          have hthere : ∀ path ∈ invalid_versions,
              (d.setContainer name (some ⟨bundlePath name lowest, .running⟩)).fs.isDir path
                = true := by
            intro path hpath
            obtain ⟨m, hm, -, rfl⟩ := hothers path hpath
            exact hm.1
          rw [runFirstOf, wp_bind]
          apply (hruns name _ d hnone hlowest.1.1).mono
          · rintro _ _ rfl
            apply (wp_removeVersions (hothers.pairwise hnodup.2) hthere).mono
            · exact fun _ _ hremoved => ⟨hcan, hothers.booted hlowest hremoved⟩
            · exact fun _ _ h => Or.inl h
            · exact fun _ h => h
          · exact fun _ _ h => Or.inl h
          · exact fun _ h => h

/-! ### All applications -/

/-- What `run-all` has done to the applications that are done, on a disk that is tidy. -/
structure BootedFrom (done : List Text) (before d : Device) : Prop where
  sorted : ∀ name ∈ done, ¬ Unsorted before.fs name
  boots : ∀ name ∈ done, Boots name before d
  tidy : Tidy d.fs
  containers : ∀ id, id ∉ done → d.containers id = before.containers id
  disk : ∀ name, name ∉ done → ∀ p, APPS_PATH ++ [name] <+: p → d.fs.node p = before.fs.node p

/-- One more application has booted. -/
theorem BootedFrom.concat {done : List Text} {before d' : Device} {name : Text}
    (h : BootedFrom done before d) (hcan : ¬ Unsorted before.fs name) (hbooted : Booted name d d')
    (hnew : name ∉ done) :
  BootedFrom (done ++ [name]) before d'
  := by
  have hother {name' : Text} (hname' : name' ≠ name) {p : FilePath} (hp : APPS_PATH ++ [name'] <+: p) :
      d'.fs.node p = d.fs.node p := by
    apply hbooted.disk
    intro hbelow
    exact (apart_of_names_ne hname' List.prefix_rfl hbelow).1 hp
  constructor
  · intro name' hname'
    rcases List.mem_append.mp hname' with hmem | hmem
    · exact h.sorted name' hmem
    · rwa [List.mem_singleton.mp hmem]
  · intro name' hname'
    rcases List.mem_append.mp hname' with hmem | hmem
    · have hne : name' ≠ name := by
        rintro rfl
        exact hnew hmem
      constructor
      · intro m hm
        obtain ⟨hruns, hkept⟩ := (h.boots name' hmem).lowest m hm
        constructor
        · rw [hbooted.containers name' hne, hruns]
        · intro p hp
          rw [← hkept p hp]
          apply hother hne
          rw [bundlePath_eq_concat] at hp
          exact prefix_left_of_concat hp
      · intro hempty
        obtain ⟨hidle, hkept⟩ := (h.boots name' hmem).idle hempty
        constructor
        · rw [hbooted.containers name' hne, hidle]
        · intro p hp
          rw [hother hne hp, hkept p hp]
    · obtain rfl := List.mem_singleton.mp hmem
      have hagree := h.disk name' hnew
      constructor
      · intro m hm
        rw [← versions_congr hagree] at hm
        obtain ⟨hruns, hkept⟩ := hbooted.boots.lowest m hm
        use hruns
        intro p hp
        rw [hkept p hp]
        apply hagree
        rw [bundlePath_eq_concat] at hp
        exact prefix_left_of_concat hp
      · intro hempty
        rw [← versions_congr hagree] at hempty
        obtain ⟨hidle, hkept⟩ := hbooted.boots.idle hempty
        constructor
        · rw [hidle, h.containers name' hnew]
        · intro p hp
          rw [hkept p hp, hagree p hp]
  · apply h.tidy.shrinks hbooted.shrinks
    rw [isDir_eq_true, hbooted.disk, isDir_eq_true.mp h.tidy.apps_dir]
    intro hbelow
    have hlength := hbelow.length_le
    simp [APPS_PATH] at hlength
  · intro id hid
    rw [List.mem_append, List.mem_singleton, not_or] at hid
    rw [hbooted.containers id hid.2, h.containers id hid.1]
  · intro name' hname' p hp
    rw [List.mem_append, List.mem_singleton, not_or] at hname'
    rw [hother hname'.2 hp, h.disk name' hname'.1 p hp]

theorem nodup_subdirs (fs : Files) (dir : FilePath) :
  (subdirs fs dir).Nodup
  := (List.nodup_dedup _).filter _

/-- What comes after a member of a list that is not in its first part comes after that part. -/
theorem mem_of_pair_sublist {α : Type} {a b c : α} {done todo : List α}
    (h : [a, b].Sublist (done ++ c :: todo)) (ha : a ∉ done) :
  b ∈ todo
  := by
  induction done with
  | nil =>
      cases h with
      | cons _ h => exact h.subset (by simp)
      | cons_cons _ h => exact List.singleton_sublist.mp h
  | cons e done ih =>
      rw [List.mem_cons, not_or] at ha
      cases h with
      | cons _ h => exact ih h ha.2
      | cons_cons _ _ => exact absurd rfl ha.1

/-- The versions of an application cannot be sorted.  Those listed before it have booted, and nothing
has been done to the others. -/
def EndedBySort (before after : Device) : Prop :=
  ∃ done name todo, subdirs before.fs APPS_PATH = done ++ name :: todo ∧ Unsorted before.fs name ∧
    (∀ app ∈ done, ¬ Unsorted before.fs app ∧ Boots app before after) ∧
    ∀ app ∈ name :: todo, after.containers app = before.containers app

/-- A reboot that returns runs the lowest version of every application. -/
theorem wp_runAllAction_boots (hruns : RunsOrRaises adm raised) (hd : Tidy d.fs)
    (hnone : ∀ id, d.containers id = none) :
  wp machine adm runAllAction
    { returned := fun _ d' => ∀ name, ¬ Unsorted d.fs name ∧ Boots name d d'
      raised := fun e d' => raised e d' ∨ EndedBySort d d'
      cut := fun _ => True } d
  := by
  apply wp_runAllAction hd.apps_dir trivial
  apply wp_forEach fun done _ d' => BootedFrom done d d'
  · intro done name todo d' hsplit hd'
    have hnodup := nodup_subdirs d.fs APPS_PATH
    rw [hsplit, List.nodup_append] at hnodup
    have hnew : name ∉ done := fun hmem => hnodup.2.2 name hmem name List.mem_cons_self rfl
    have hsubdir : d.fs.node (APPS_PATH ++ [name]) = some .dir := by
      rw [← mem_subdirs, hsplit]
      simp
    have hname : PlainName name := hd.names name (isDir_eq_true.mpr hsubdir)
    have hdir : d'.fs.isDir (APPS_PATH ++ [name]) = true := by
      rw [isDir_eq_true, hd'.disk name hnew _ List.prefix_rfl, hsubdir]
    have hidle : d'.containers name = none := by
      rw [hd'.containers name hnew, hnone]
    have hsame : Unsorted d'.fs name ↔ Unsorted d.fs name := by
      rw [Unsorted, Unsorted, versions_congr (hd'.disk name hnew)]
    apply (wp_runAppFromParentDir hruns hname hd'.tidy hdir hidle).mono
    · rintro _ d'' ⟨hcan, hbooted⟩
      rw [hsame] at hcan
      exact hd'.concat hcan hbooted hnew
    · rintro e d'' (h | ⟨hunsorted, rfl⟩)
      · exact Or.inl h
      · right
        rw [hsame] at hunsorted
        refine ⟨done, name, todo, hsplit, hunsorted, ?_, ?_⟩
        · exact fun app happ => ⟨hd'.sorted app happ, hd'.boots app happ⟩
        · intro app happ
          apply hd'.containers
          exact fun hmem => hnodup.2.2 app hmem app happ rfl
    · exact fun _ h => h
  · intro d' hd' name
    by_cases hname : name ∈ subdirs d.fs APPS_PATH
    · exact ⟨hd'.sorted name hname, hd'.boots name hname⟩
    · have hnot {m : ℕ} (hm : m ∈ versions d.fs name) : False := by
        have hdir := isDir_of_mem_versions hm
        rw [isDir_eq_true, ← mem_subdirs] at hdir
        exact hname hdir
      constructor
      · rintro ⟨⟨m, hm⟩, -⟩
        exact hnot hm
      · constructor
        · exact fun m hm => (hnot hm.1).elim
        · exact fun _ => ⟨hd'.containers name hname, hd'.disk name hname⟩
  · exact ⟨List.forall_mem_nil _, List.forall_mem_nil _, hd, fun _ _ => rfl, fun _ _ _ _ => rfl⟩

/-- Applications run where every command does what it is asked to. -/
theorem runsOrRaises_of_truthful (htruthful : ∀ c x d, adm c x d → x.kind = .truthful) :
  RunsOrRaises adm fun _ _ => False
  := by
  intro id path d hnone hdir
  apply wp_runApp (fun c x d' _ hx => htruthful c x d' hx) hnone rfl hdir
  · exact fun _ => trivial
  · rfl

end App
