import MblCore.App.SuccessfulUpdate
import MblCore.App.VersionOrder

/-!
# What is removed beside a started bundle

`run_app_from_parent_dir` runs the first of the bundles it finds and removes the others.  The others
are removed with all that is in them, and the search also finds bundles inside of bundles.  So the
bundle that was started stays as it is just when no other one is inside of it.
-/

namespace App

open FileTree
open Prog hiding pure throw bind

variable {adm : Call → Choice → Device → Prop} {d : Device} {dir p q : FilePath}
  {sorted : List FilePath}

/-! ### The order of bundles -/

/-- What is in a directory is not sorted before it. -/
theorem not_keyLe_inside (h : p <+: q) (hne : p ≠ q) :
  ¬ Text.KeyLe .unicode (pathText q) (pathText p)
  := by
  obtain ⟨r, rfl⟩ := h
  cases r with
  | nil => simp at hne
  | cons name r =>
      have htext : pathText (p ++ name :: r) = pathText p ++ '/' :: (name ++ pathText r) := by
        simp [pathText]
      rw [htext]
      apply Text.not_keyLe_append_slash

/-- No other bundle is above the first one. -/
theorem not_prefix_first {entries : List WalkEntry} {first : FilePath} {rest : List FilePath}
    (hsorted : sortedBundles entries = .ok (first :: rest)) (hq : q ∈ rest) (hne : q ≠ first) :
  ¬ q <+: first
  := by
  intro habove
  have hle := (List.pairwise_cons.mp (sortedBundles_pairwise hsorted)).1 q hq
  exact not_keyLe_inside habove hne hle

/-! ### Removing directories -/

/-- The directories are removed with all that is in them, and nothing else is. -/
structure AllRemoved (paths : List FilePath) (before d : Device) : Prop where
  containers : d.containers = before.containers
  gone : ∀ path ∈ paths, ∀ r, path <+: r → d.fs.node r = none
  kept : ∀ r, (∀ path ∈ paths, ¬ path <+: r) → d.fs.node r = before.fs.node r

theorem AllRemoved.cons {path : FilePath} {paths : List FilePath} {before d : Device}
    (h : AllRemoved paths { before with fs := before.fs.remove path } d) :
  AllRemoved (path :: paths) before d
  := by
  constructor
  · exact h.containers
  · intro path' hpath' r hr
    rcases List.mem_cons.mp hpath' with rfl | hpath'
    · by_cases hlater : ∃ path ∈ paths, path <+: r
      · obtain ⟨later, hmem, hbelow⟩ := hlater
        exact h.gone later hmem r hbelow
      · rw [h.kept r fun path hpath hbelow => hlater ⟨path, hpath, hbelow⟩]
        exact node_remove_below _ hr
    · exact h.gone path' hpath' r hr
  · intro r hr
    rw [h.kept r fun path hpath => hr path (List.mem_cons_of_mem _ hpath)]
    exact node_remove_elsewhere _ (hr path List.mem_cons_self)

/-- When the removal of directories returns, all of them were there. -/
theorem wp_rmtreeAll (paths : List FilePath) :
  wp machine adm (forEach paths rmtree) (Post.ifReturned fun _ => AllRemoved paths d) d
  := by
  induction paths generalizing d with
  | nil => exact ⟨rfl, by simp, fun _ _ => rfl⟩
  | cons path paths ih =>
      apply wp_ifReturned_bind (P := fun _ d' => d' = { d with fs := d.fs.remove path })
      · apply wp_rmtree trivial
        · exact fun _ => rfl
        · exact fun _ => trivial
      · rintro _ _ rfl
        apply wp_ifReturned_mono ih
        exact fun _ _ => AllRemoved.cons

/-! ### Running an application -/

/-- What was started stays as it was. -/
def StartedKept (name : Text) (d d' : Device) : Prop :=
  ∀ p, d'.containers name = some ⟨p, .running⟩ → ∀ r, p <+: r → d'.fs.node r = d.fs.node r

/-- A bundle is found inside of the first one. -/
def NestedInFirst (fs : Files) (dir : FilePath) : Prop :=
  ∃ sorted first q, sortedBundles (walk fs dir) = .ok sorted ∧
    sorted.head? = some first ∧ q ∈ sorted ∧ q ≠ first ∧ first <+: q

/-- A directory of what was started is gone. -/
theorem not_startedKept_of_isDir {name : Text} {d' : Device} {r : FilePath}
    (hp : d'.containers name = some ⟨p, .running⟩) (hbelow : p <+: r)
    (hbefore : d.fs.isDir r = true) (hafter : d'.fs.isDir r = false) :
  ¬ StartedKept name d d'
  := by
  intro hkept
  rw [isDir, hkept p hp r hbelow] at hafter
  rw [isDir, hafter] at hbefore
  contradiction

/-- What was started stays just when no other bundle is found in it. -/
theorem startedKept_iff_of_allRemoved {name : Text} {d' : Device} {first : FilePath}
    {rest : List FilePath} (hsorted : sortedBundles (walk d.fs dir) = .ok (first :: rest))
    (hremoved : AllRemoved rest (d.setContainer name (some ⟨first, .running⟩)) d') :
  StartedKept name d d' ↔ ¬ NestedInFirst d.fs dir
  := by
  have hnodup := nodup_sortedBundles hsorted
  have hrunning : d'.containers name = some ⟨first, .running⟩ := by
    rw [hremoved.containers, Device.setContainer_same]
  constructor
  · rintro hkept ⟨sorted', first', q, hsorted', hfirst', hq, hne, hbelow⟩
    obtain rfl : first :: rest = sorted' := Except.ok.inj (hsorted.symm.trans hsorted')
    rw [List.head?_cons, Option.some.injEq] at hfirst'
    subst hfirst'
    have hrest : q ∈ rest := (List.mem_cons.mp hq).resolve_left hne
    have hsame := hkept first hrunning q hbelow
    rw [hremoved.gone q hrest q List.prefix_rfl] at hsame
    have hisDir := isDir_eq_true.mp ((mem_sortedBundles hsorted).mp hq).2.1
    rw [hisDir] at hsame
    contradiction
  · intro hnot p hp r hr
    rw [hrunning, Option.some.injEq, Container.mk.injEq] at hp
    obtain ⟨rfl, -⟩ := hp
    apply hremoved.kept
    intro q hq hbelow
    have hne : q ≠ first := by
      rintro rfl
      exact (List.nodup_cons.mp hnodup).1 hq
    rcases List.prefix_or_prefix_of_prefix hbelow hr with habove | hinside
    · exact not_prefix_first hsorted hq hne habove
    · apply hnot
      exact ⟨first :: rest, first, q, hsorted, rfl, List.mem_cons_of_mem _ hq, hne, hinside⟩

/-- Running an application does not touch the disk. -/
theorem fs_run_runApp (name : Text) (app_path : FilePath) (xs : List Choice) :
  (run machine (runApp name app_path) xs d).2.2.fs = d.fs
  := by
  have hquiet : Issues Quiet (runApp name app_path) :=
    (issues_runApp app_path).mono fun c hc => hc.quiet
  have hkept : wp machine (fun _ _ _ => True) (runApp name app_path)
      (Post.always fun d' => d'.fs = d.fs) d := wp_of_quiet (fun fs => fs = d.fs) hquiet rfl
  exact of_wp_always hkept obeys_true

/-- What a run that returns has left of the bundle it started. -/
theorem wp_runAppFromParentDir_kept (name : Text) :
  wp machine adm (runAppFromParentDir name)
    (Post.ifReturned fun _ d' =>
      (StartedKept name d d' ↔ ¬ NestedInFirst d.fs (joinPath APPS_PATH name))) d
  := by
  rw [runAppFromParentDir_eq, wp_bind, wp_issue]
  refine ⟨trivial, fun x _ => ?_⟩
  change wp machine adm (if d.fs.isDir (joinPath APPS_PATH name) then _ else _) _ d
  split
  · rw [wp_bind, wp_issue]
    refine ⟨trivial, fun x _ => ?_⟩
    change wp machine adm (ofExcept (sortedBundles (walk d.fs (joinPath APPS_PATH name))) >>= _) _ d
    cases hsorted : sortedBundles (walk d.fs (joinPath APPS_PATH name)) with
    | error e => trivial
    | ok sorted =>
        change wp machine adm (runFirstOf name sorted) _ d
        cases sorted with
        | nil =>
            constructor
            · rintro - ⟨sorted, first, q, hsorted', hfirst, -⟩
              obtain rfl : [] = sorted := Except.ok.inj (hsorted.symm.trans hsorted')
              contradiction
            · exact fun _ _ _ _ _ => rfl
        | cons first rest =>
            apply wp_ifReturned_bind (wp_runApp_ifReturned first)
            rintro _ _ ⟨-, rfl⟩
            apply wp_ifReturned_mono (wp_rmtreeAll rest)
            intro _ d' hremoved
            exact startedKept_iff_of_allRemoved hsorted hremoved
  · trivial

/-- A run that returns leaves the bundle it started as it was just when no other bundle is found
inside of it, and nothing is removed when the application cannot be run. -/
theorem startedKept_iff (name : Text) (d : Device) (xs : List Choice) :
  (∀ rest d', run machine (runAppFromParentDir name) xs d = (.returned (), rest, d') →
      (StartedKept name d d' ↔ ¬ NestedInFirst d.fs (joinPath APPS_PATH name))) ∧
    ∀ x y ys bundles first invalid_versions e rest d', xs = x :: y :: ys →
      d.fs.isDir (joinPath APPS_PATH name) = true →
      ociBundles (walk d.fs (joinPath APPS_PATH name)) = .ok bundles →
      alphanumSort bundles = .ok (first :: invalid_versions) →
      run machine (runApp name first) ys d = (.raised e, rest, d') →
        run machine (runAppFromParentDir name) xs d = (.raised e, rest, d') ∧ d'.fs = d.fs
  := by
  constructor
  · intro rest d' hrun
    have hholds : (Post.ifReturned fun _ d' =>
        (StartedKept name d d' ↔ ¬ NestedInFirst d.fs (joinPath APPS_PATH name))).Holds
        (run machine (runAppFromParentDir name) xs d).1
        (run machine (runAppFromParentDir name) xs d).2.2 :=
      holds_of_wp (wp_runAppFromParentDir_kept name) obeys_true
    rw [hrun] at hholds
    exact hholds
  · rintro x y ys bundles first invalid_versions e rest d' rfl hisDir hbundles hsort hraises
    have hsorted : sortedBundles (walk d.fs (joinPath APPS_PATH name))
        = .ok (first :: invalid_versions) := by
      rw [sortedBundles, hbundles]
      exact hsort
    constructor
    · rw [run_runAppFromParentDir rfl hisDir hsorted, runFirstOf, run_bind, hraises]
    · have hfs := fs_run_runApp (d := d) name first ys
      rw [hraises] at hfs
      exact hfs

/-- Version 0 of an application. -/
def outerBundle : FilePath :=
  bundlePath ['a'] 0

/-- A bundle in the root file system of version 0. -/
def innerBundle : FilePath :=
  outerBundle ++ ["rootfs".toList, "b".toList]

/-- A device with these bundles, or with version 0 and another version. -/
def deviceWithBundles (paths : List FilePath) : Device :=
  { bareDevice with fs := diskWith paths }

/-- The run of the application. -/
def runOfA (d : Device) : Outcome PyException Unit × List Choice × Device :=
  run machine (runAppFromParentDir ['a']) (List.replicate 7 truthfully) d

set_option maxRecDepth 8000 in
/-- A version beside the one that is started is removed. -/
theorem startedKept_beside :
  StartedKept ['a'] (deviceWithBundles [outerBundle, bundlePath ['a'] 1])
    (runOfA (deviceWithBundles [outerBundle, bundlePath ['a'] 1])).2.2
  := by
  have hreturned : runOfA (deviceWithBundles [outerBundle, bundlePath ['a'] 1])
      = (.returned (), [], (runOfA (deviceWithBundles [outerBundle, bundlePath ['a'] 1])).2.2) := rfl
  apply ((startedKept_iff _ _ _).1 _ _ hreturned).mpr
  rintro ⟨sorted, first, q, hsorted, hfirst, hq, hne, hbelow⟩
  have hfound : sortedBundles (walk (deviceWithBundles [outerBundle, bundlePath ['a'] 1]).fs
      (joinPath APPS_PATH ['a'])) = .ok [outerBundle, bundlePath ['a'] 1] := rfl
  obtain rfl := Except.ok.inj (hfound.symm.trans hsorted)
  obtain rfl := Option.some.inj hfirst
  simp only [List.mem_cons, List.not_mem_nil, or_false] at hq
  rcases hq with rfl | rfl
  · exact hne rfl
  · exact absurd hbelow (by decide)

set_option maxRecDepth 8000 in
/-- A bundle in the root file system of the one that is started is removed. -/
theorem not_startedKept_inside :
  (runOfA (deviceWithBundles [outerBundle, innerBundle])).1 = .returned () ∧
    ¬ StartedKept ['a'] (deviceWithBundles [outerBundle, innerBundle])
      (runOfA (deviceWithBundles [outerBundle, innerBundle])).2.2
  := by
  have hreturned : (runOfA (deviceWithBundles [outerBundle, innerBundle])).1 = .returned () := rfl
  have hstarted : (runOfA (deviceWithBundles [outerBundle, innerBundle])).2.2.containers ['a']
      = some ⟨outerBundle, .running⟩ := rfl
  have hbefore : (deviceWithBundles [outerBundle, innerBundle]).fs.isDir innerBundle = true := by
    decide
  have hafter : (runOfA (deviceWithBundles [outerBundle, innerBundle])).2.2.fs.isDir innerBundle
      = false := by decide
  have hbelow : outerBundle <+: innerBundle := List.prefix_append _ _
  exact ⟨hreturned, not_startedKept_of_isDir hstarted hbelow hbefore hafter⟩

end App
