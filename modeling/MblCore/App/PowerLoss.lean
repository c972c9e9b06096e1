import MblCore.App.Aside
import MblCore.App.KeptAfterReboot

/-!
# Power loss during an update

An update is cut at any point and the device boots again.  Each application of the update then runs
its version before or its next one, by what was on the disk when the power was lost.  The
applications agree just if all of them had been switched on the disk, or none.
-/

namespace App

open FileTree
open Prog hiding pure throw bind

/-- An application is not installed, or it has exactly one version, which runs. -/
def OneVersionRuns (d : Device) (app_name : Text) : Prop :=
  versions d.fs app_name = ∅ ∨ ∃ v, versions d.fs app_name = {v}
    ∧ d.containers app_name = some ⟨bundlePath app_name v, .running⟩

/-- An application is as it was before: its version runs, or it is not installed. -/
structure AsBefore (before after : Device) (app_name : Text) : Prop where
  runs : ∀ v ∈ versions before.fs app_name,
    after.containers app_name = some ⟨bundlePath app_name v, .running⟩
  absent : versions before.fs app_name = ∅ →
    versions after.fs app_name = ∅ ∧ after.containers app_name = none

/-- An application runs its next version. -/
def RunsNext (before after : Device) (app_name : Text) : Prop :=
  ∃ k, IsNext before.fs app_name k
    ∧ after.containers app_name = some ⟨bundlePath app_name k, .running⟩

/-- All applications are as before, or all of them run their next version. -/
def AllOrNothing (names : List Text) (before after : Device) : Prop :=
  (∀ app_name ∈ names, AsBefore before after app_name)
    ∨ ∀ app_name ∈ names, RunsNext before after app_name

/-- An application is switched on the disk when its version before is gone, or when it has a version
and had none. -/
def SwitchedOnDisk (fs fs' : Files) (app_name : Text) : Prop :=
  ¬ versions fs app_name ⊆ versions fs' app_name
    ∨ versions fs app_name = ∅ ∧ (versions fs' app_name).Nonempty

variable {app_name : Text} {fs fs' : Files} {before cut after : Device} {k m : ℕ}

/-! ### The next version -/

theorem IsNext.notMem (h : IsNext fs app_name k) :
  k ∉ versions fs app_name
  := by
  intro hk
  obtain ⟨hempty, -⟩ | ⟨highest, hgreatest, rfl⟩ := h
  · rw [hempty] at hk
    exact hk
  · have hle := hgreatest.2 hk
    omega

theorem IsNext.unique (h : IsNext fs app_name k) (h' : IsNext fs app_name m) :
  k = m
  := by
  obtain ⟨hempty, rfl⟩ | ⟨highest, hgreatest, rfl⟩ := h
  · obtain ⟨-, rfl⟩ | ⟨highest, hgreatest, rfl⟩ := h'
    · rfl
    · have hmem := hgreatest.1
      rw [hempty] at hmem
      exact hmem.elim
  · obtain ⟨hempty, rfl⟩ | ⟨highest', hgreatest', rfl⟩ := h'
    · have hmem := hgreatest.1
      rw [hempty] at hmem
      exact hmem.elim
    · rw [hgreatest.unique hgreatest']

/-! ### When the power is lost -/

/-- There are the versions before or the next one, and no others. -/
structure CutShort (fs fs' : Files) (app_name : Text) : Prop where
  subset : ∀ m ∈ versions fs' app_name, m ∈ versions fs app_name ∨ IsNext fs app_name m
  /-- Not everything is gone. -/
  left : versions fs app_name ⊆ versions fs' app_name
    ∨ ∃ k ∈ versions fs' app_name, IsNext fs app_name k

/-- While nothing but next versions has changed the versions before are there. -/
theorem cutShort_of_aside (h : Aside (nextBundles fs) fs fs') :
  CutShort fs fs' app_name
  := by
  constructor
  · intro m hm
    by_cases hnext : IsNext fs app_name m
    · exact Or.inr hnext
    · left
      exact (h.mem_versions hnext).mp hm
  · left
    intro m hm
    have hnot : ¬ IsNext fs app_name m := fun hnext => hnext.notMem hm
    exact (h.mem_versions hnot).mpr hm

/-- When all applications are installed their next versions are there. -/
theorem cutShort_of_settling {names : List Text} (h : Settling TopIsBundle names before cut)
    (hnodup : names.Nodup) (hname : app_name ∈ names) :
  CutShort before.fs cut.fs app_name
  := by
  obtain ⟨apps, installed, hinstalled, rfl, haside⟩ := h
  obtain ⟨app, happ, rfl⟩ := List.mem_map.mp hname
  obtain ⟨k, hk, hnew⟩ := (hinstalled.chosen hnodup app happ).new_isNext
  constructor
  · intro m hm
    by_cases hnext : IsNext before.fs app.name m
    · exact Or.inr hnext
    · left
      by_cases hleast : IsLeast (versions before.fs app.name) m
      · exact hleast.1
      · apply ((hinstalled.aside hnodup).mem_versions hnext).mp
        exact (haside.mem_versions hleast).mp hm
  · right
    refine ⟨k, ?_, hk⟩
    have hnot : ¬ IsLeast (versions before.fs app.name) k := fun hleast => hk.notMem hleast.1
    apply (haside.mem_versions hnot).mpr
    change IsBundle installed.fs (bundlePath app.name k)
    rw [← hnew]
    exact isBundle_of_placed (hinstalled.trees hnodup app happ)

theorem HalfUpdated.cutShort {names : List Text} (h : HalfUpdated TopIsBundle names before cut)
    (hnodup : names.Nodup) (hname : app_name ∈ names) :
  CutShort before.fs cut.fs app_name
  := by
  rcases h with haside | hsettling
  · exact cutShort_of_aside haside
  · exact cutShort_of_settling hsettling hnodup hname

/-! ### When the device boots again -/

/-- An application that is not switched on the disk is as before. -/
theorem asBefore_of_not_switched (hinit : OneVersionRuns before app_name)
    (hcut : CutShort before.fs cut.fs app_name) (hboots : Boots app_name (restart cut) after)
    (hnot : ¬ SwitchedOnDisk before.fs cut.fs app_name) :
  AsBefore before after app_name
  := by
  rw [SwitchedOnDisk, not_or, not_not, not_and, Set.not_nonempty_iff_eq_empty] at hnot
  obtain ⟨hsubset, hempty⟩ := hnot
  constructor
  · intro v hv
    have hleast : IsLeast (versions cut.fs app_name) v := by
      use hsubset hv
      intro m hm
      obtain hnone | ⟨v', hone, -⟩ := hinit
      · rw [hnone] at hv
        exact hv.elim
      · rw [hone, Set.mem_singleton_iff] at hv
        subst hv
        rcases hcut.subset m hm with hmem | ⟨hnone, -⟩ | ⟨highest, hgreatest, rfl⟩
        · rw [hone] at hmem
          exact hmem.ge
        · rw [hone] at hnone
          exact absurd hnone (Set.singleton_ne_empty v)
        · have hle := hgreatest.2 (hone ▸ Set.mem_singleton v)
          omega
    exact (hboots.lowest v hleast).1
  · intro hnone
    obtain ⟨hidle, hkept⟩ := hboots.idle (hempty hnone)
    constructor
    · rw [versions_congr hkept]
      exact hempty hnone
    · exact hidle

/-- An application that is switched on the disk runs its next version. -/
theorem runsNext_of_switched (hinit : OneVersionRuns before app_name)
    (hcut : CutShort before.fs cut.fs app_name) (hboots : Boots app_name (restart cut) after)
    (hswitched : SwitchedOnDisk before.fs cut.fs app_name) :
  RunsNext before after app_name
  := by
  have hnext : ∀ m ∈ versions cut.fs app_name, IsNext before.fs app_name m := by
    intro m hm
    rcases hcut.subset m hm with hmem | hnext
    · exfalso
      rcases hswitched with hgone | ⟨hnone, -⟩
      · obtain hnone | ⟨v, hone, -⟩ := hinit
        · rw [hnone] at hmem
          exact hmem
        · -- the only version before would still be there
          apply hgone
          rw [hone, Set.mem_singleton_iff] at hmem
          rw [hone, Set.singleton_subset_iff, ← hmem]
          exact hm
      · rw [hnone] at hmem
        exact hmem
    · exact hnext
  obtain ⟨k, hk⟩ : (versions cut.fs app_name).Nonempty := by
    rcases hswitched with hgone | ⟨-, hsome⟩
    · obtain hleft | ⟨k, hk, -⟩ := hcut.left
      · exact absurd hleft hgone
      · exact ⟨k, hk⟩
    · exact hsome
  have hleast : IsLeast (versions cut.fs app_name) k := by
    use hk
    intro m hm
    rw [(hnext k hk).unique (hnext m hm)]
  exact ⟨k, hnext k hk, (hboots.lowest k hleast).1⟩

/-- No application is as before and runs its next version. -/
theorem AsBefore.not_runsNext (h : AsBefore before after app_name) :
  ¬ RunsNext before after app_name
  := by
  rintro ⟨k, hk, hruns⟩
  rcases (versions before.fs app_name).eq_empty_or_nonempty with hnone | ⟨v, hv⟩
  · rw [(h.absent hnone).2] at hruns
    contradiction
  · rw [h.runs v hv, Option.some.injEq, Container.mk.injEq, bundlePath_injective] at hruns
    rw [hruns.1] at hv
    exact hk.notMem hv

/-- What an application runs is told by the disk when the power was lost. -/
theorem runsNext_iff (hinit : OneVersionRuns before app_name)
    (hcut : CutShort before.fs cut.fs app_name) (hboots : Boots app_name (restart cut) after) :
  RunsNext before after app_name ↔ SwitchedOnDisk before.fs cut.fs app_name
  := by
  constructor
  · intro hruns
    by_contra hnot
    exact (asBefore_of_not_switched hinit hcut hboots hnot).not_runsNext hruns
  · exact runsNext_of_switched hinit hcut hboots

theorem asBefore_iff (hinit : OneVersionRuns before app_name)
    (hcut : CutShort before.fs cut.fs app_name) (hboots : Boots app_name (restart cut) after) :
  AsBefore before after app_name ↔ ¬ SwitchedOnDisk before.fs cut.fs app_name
  := by
  constructor
  · intro hbefore hswitched
    exact hbefore.not_runsNext (runsNext_of_switched hinit hcut hboots hswitched)
  · exact asBefore_of_not_switched hinit hcut hboots

/-- Applications run, or there is an exception, whatever the commands do. -/
theorem runsOrRaises (adm : Call → Choice → Device → Prop) :
  RunsOrRaises adm fun _ _ => True
  := by
  intro id path d _ _
  apply wp_ifReturned_of_wp (wp_runApp_ifReturned path)
  exact fun _ _ h => h.2

/-- The names of the applications of an update. -/
def namesOf (name : Text → Text) (update_pkg : UpdatePkg) : List Text :=
  (ipksOf update_pkg).map fun ipk => name (joinText IPKS_EXTRACTION_PATH ipk)

/-- The power is lost at any point of an update of applications with different names, each of which
is not installed or has exactly one version, which runs.  After a reboot that ends without error all
applications are as before, or all of them run their next version, just if on the disk none of them
was switched or all of them were. -/
theorem allOrNothing_iff {update_pkg : UpdatePkg} {name : Text → Text} {xs ys : List Choice}
    (htidy : Tidy before.fs) (hnodup : (namesOf name update_pkg).Nodup)
    (hinit : ∀ app_name ∈ namesOf name update_pkg, OneVersionRuns before app_name)
    (hplain : PlainEvent before (.update update_pkg xs))
    (hnames : Obeys machine (Names name) (runMblAppUpdateManager update_pkg) xs before)
    (hreturned : (run machine runAllAction ys
      (restart (happen before (.update update_pkg xs)))).1 = .returned ()) :
  AllOrNothing (namesOf name update_pkg) before
      (happen (happen before (.update update_pkg xs)) (.reboot ys))
    ↔ (∀ app_name ∈ namesOf name update_pkg,
        ¬ SwitchedOnDisk before.fs (happen before (.update update_pkg xs)).fs app_name)
      ∨ ∀ app_name ∈ namesOf name update_pkg,
        SwitchedOnDisk before.fs (happen before (.update update_pkg xs)).fs app_name
  := by
  have hhalf : HalfUpdated TopIsBundle (namesOf name update_pkg) before
      (happen before (.update update_pkg xs)) := by
    have hplaces : Places (fun c x d => PlainPackages c x d ∧ Names name c x d) TopIsBundle :=
      fun app_name path app_pkg x d hx => places_plainPackages app_name path app_pkg x d hx.1
    apply of_wp_always (wp_runMblAppUpdateManager_halfUpdated (fun _ _ _ h => h.2)
      (fun _ _ _ h => h.1.1) hplaces htidy.plainVersions hnodup)
    exact hplain.and hnames
  have hcut : Tidy (restart (happen before (.update update_pkg xs))).fs :=
    of_wp_always (wp_runMblAppUpdateManager_tidy (fun _ _ _ h => h) update_pkg htidy) hplain
  have hboot := wp_runAllAction_boots (runsOrRaises fun _ _ _ => True) hcut fun _ => rfl
  have hboots := holds_of_wp hboot (obeys_true : Obeys machine _ _ ys _)
  rw [hreturned] at hboots
  apply or_congr
  · apply forall₂_congr
    intro app_name hname
    exact asBefore_iff (hinit app_name hname) (hhalf.cutShort hnodup hname) (hboots app_name).2
  · apply forall₂_congr
    intro app_name hname
    exact runsNext_iff (hinit app_name hname) (hhalf.cutShort hnodup hname) (hboots app_name).2

/-! ### An update that is cut -/

/-- An application without a directory has no versions. -/
theorem versions_eq_empty (h : fs.isDir (APPS_PATH ++ [app_name]) = false) :
  versions fs app_name = ∅
  := by
  rw [Set.eq_empty_iff_forall_notMem]
  intro m hm
  rw [isDir_of_mem_versions hm] at h
  contradiction

set_option maxRecDepth 8000 in
/-- An application is installed for the first time, and the power is lost before it is started. -/
theorem allOrNothing_first :
  AllOrNothing (namesOf (fun _ => ['a']) onePackage) bareDevice
    (happen (happen bareDevice (.update onePackage (installChoices false))) (.reboot goodReboot))
  := by
  have happs : WithoutApps bareDevice := by decide
  have hnames : namesOf (fun _ => ['a']) onePackage = [['a']] := by decide
  have hnone : OneVersionRuns bareDevice ['a'] := Or.inl (versions_eq_empty (by decide))
  have hreturned : (run machine runAllAction goodReboot (restart (happen bareDevice
      (.update onePackage (installChoices false))))).1 = .returned () := by decide
  apply (allOrNothing_iff happs.tidy (by decide) _ (by decide) (by decide) hreturned).mpr
  · rw [hnames, List.forall_mem_singleton, List.forall_mem_singleton]
    exact Classical.em _ |>.symm
  · rw [hnames, List.forall_mem_singleton]
    exact hnone

/-- The packages of two applications. -/
def twoPackages : UpdatePkg :=
  ⟨"update.tar".toList, some [⟨"a.ipk".toList, true⟩, ⟨"b.ipk".toList, true⟩]⟩

/-- The package of one of them is for the application of the same name. -/
def nameOfTwo (app_pkg : Text) : Text :=
  if app_pkg = joinText IPKS_EXTRACTION_PATH "a.ipk".toList then ['a'] else ['b']

/-- An application is named, looked for and installed. -/
def installingOne (app_name : Text) (found : Bool) : List Choice :=
  [{ stdout := infoOf app_name }, truthfully] ++ (if found then [truthfully] else [])
    ++ [{ stdout := infoOf app_name }, { tree := some plainBundle }]

/-- Both applications are installed. -/
def installingTwo (found : Bool) : List Choice :=
  [truthfully] ++ installingOne ['a'] found ++ installingOne ['b'] found

/-- Both applications run their version 0. -/
def twoRunning : Device :=
  happen bareDevice (.update twoPackages (installingTwo false ++ List.replicate 20 truthfully))

/-- Both applications run their version 1, and version 0 of the first one is removed. -/
def firstRemoved : List Choice :=
  installingTwo true ++ List.replicate 20 { exited := true }

/-- The device after the reboot. -/
def oneSwitched : Device :=
  happen (happen twoRunning (.update twoPackages firstRemoved)) (.reboot (List.replicate 20 truthfully))

set_option maxRecDepth 8000 in
/-- The power is lost when the first of two previous versions is removed: after the reboot the
first application runs its version 1 and the second one its version 0. -/
theorem not_allOrNothing_between_removals :
  ¬ ∀ (before : Device) (update_pkg : UpdatePkg) (name : Text → Text) (xs ys : List Choice),
    Tidy before.fs → (namesOf name update_pkg).Nodup →
    (∀ app_name ∈ namesOf name update_pkg, OneVersionRuns before app_name) →
    PlainEvent before (.update update_pkg xs) →
    Obeys machine (Names name) (runMblAppUpdateManager update_pkg) xs before →
    (run machine runAllAction ys
      (restart (happen before (.update update_pkg xs)))).1 = .returned () →
    AllOrNothing (namesOf name update_pkg) before
      (happen (happen before (.update update_pkg xs)) (.reboot ys))
  := by
  intro h
  have hevents : Lts.Meets stepDevice PlainEvent bareDevice
      [.update twoPackages (installingTwo false ++ List.replicate 20 truthfully)] := by decide
  have htidy : Tidy twoRunning.fs :=
    tidy_of_history (by decide : WithoutApps bareDevice) hevents rfl
  have hbundles : ∀ p ∈ twoRunning.fs.names, IsBundle twoRunning.fs p →
      p = bundlePath ['a'] 0 ∨ p = bundlePath ['b'] 0 := by decide
  have hzero {app_name : Text} {m : ℕ} (hm : m ∈ versions twoRunning.fs app_name) : m = 0 := by
    have hmem := twoRunning.fs.mem_names (p := bundlePath app_name m)
      (by simp [isDir_eq_true.mp hm.1])
    rcases hbundles _ hmem hm with heq | heq <;>
    · obtain rfl : app_name = _ := by
        simp only [bundlePath, List.append_cancel_left_eq, List.cons.injEq] at heq
        exact heq.1
      exact bundlePath_injective.mp heq
  have hnames : namesOf nameOfTwo twoPackages = [['a'], ['b']] := by decide
  have hversions : ∀ app_name ∈ [['a'], ['b']], 0 ∈ versions twoRunning.fs app_name := by
    have hthere : ∀ app_name ∈ [['a'], ['b']], IsBundle twoRunning.fs (bundlePath app_name 0) := by
      decide
    exact hthere
  have hruns : ∀ app_name ∈ [['a'], ['b']],
      twoRunning.containers app_name = some ⟨bundlePath app_name 0, .running⟩ := by decide
  have hinit : ∀ app_name ∈ namesOf nameOfTwo twoPackages, OneVersionRuns twoRunning app_name := by
    rw [hnames]
    intro app_name hname
    right
    use 0
    constructor
    · apply Set.eq_singleton_iff_unique_mem.mpr
      exact ⟨hversions app_name hname, fun m hm => hzero hm⟩
    · exact hruns app_name hname
  have hends : (run machine runAllAction (List.replicate 20 truthfully)
      (restart (happen twoRunning (.update twoPackages firstRemoved)))).1 = .returned () := by
    decide
  have hfirst : oneSwitched.containers ['a'] = some ⟨bundlePath ['a'] 1, .running⟩ := by decide
  have hsecond : oneSwitched.containers ['b'] = some ⟨bundlePath ['b'] 0, .running⟩ := by decide
  have hall : AllOrNothing (namesOf nameOfTwo twoPackages) twoRunning oneSwitched :=
    h twoRunning twoPackages nameOfTwo firstRemoved _ htidy (by decide) hinit (by decide)
      (by decide) hends
  rw [AllOrNothing, hnames] at hall
  rcases hall with hbefore | hnext
  · have hold := (hbefore ['a'] List.mem_cons_self).runs 0 (hversions _ List.mem_cons_self)
    rw [hfirst, Option.some.injEq, Container.mk.injEq, bundlePath_injective] at hold
    exact absurd hold.1 one_ne_zero
  · obtain ⟨k, hk, hnew⟩ := hnext ['b'] (by decide)
    rw [hsecond, Option.some.injEq, Container.mk.injEq, bundlePath_injective] at hnew
    rw [← hnew.1] at hk
    exact hk.notMem (hversions _ (by decide))

end App
