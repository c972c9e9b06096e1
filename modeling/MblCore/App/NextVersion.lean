import MblCore.App.StartedBundle

/-!
# Whether the next version is free

`_get_app_bundle_paths` counts on from the last bundle that it finds, and does not look at anything
else that is in the directory of the application.  So the next path is free just when nothing there
is called by a higher number than the last bundle is.
-/

namespace App

open FileTree
open Prog hiding pure throw bind

variable {fs : Files} {d : Device} {app_name : Text} {dir : FilePath}

/-- The directory of an application. -/
def appDir (app_name : Text) : FilePath :=
  joinPath APPS_INSTALLATION_PATH app_name

/-- There is a next path, it is called by a number and leads to nothing, and all directories of the
application that are called by numbers are called by lower ones. -/
def NextIsFree (fs : Files) (app_name : Text)
    (outcome : Outcome PyException (Option (Option FilePath × FilePath))) : Prop :=
  ∃ cur_bundle_path, ∃ next : Text.Numeral,
    outcome = .returned (some (cur_bundle_path, appDir app_name ++ [next.text])) ∧
      fs.node (appDir app_name ++ [next.text]) = none ∧
      ∀ n : Text.Numeral, fs.isDir (appDir app_name ++ [n.text]) = true → n.value < next.value

/-- Where the directory of an application is, the search of it ends with a bundle that is called by
an integer, no directory is called by a greater one, and no file by the one after it. -/
def EndsWithGreatest (fs : Files) (app_name : Text) : Prop :=
  fs.isDir (appDir app_name) = true → ∃ bundles sorted last version,
    ociBundles (walk fs (appDir app_name)) = .ok bundles ∧ humanSort bundles = .ok sorted ∧
      sorted.getLast? = some last ∧
      intOf? (versionName app_name (appDir app_name) last) = some version ∧ -1 ≤ version ∧
      (∀ n : Text.Numeral, fs.isDir (appDir app_name ++ [n.text]) = true → n.value ≤ version) ∧
      ∀ content, fs.node (appDir app_name ++ [intText (version + 1)]) ≠ some (.file content)

/-! ### The next path -/

/-- The current and next paths by what is on the disk. -/
def nextPaths (fs : Files) (app_name : Text) :
    Except PyException (Option (Option FilePath × FilePath)) :=
  if fs.isDir (appDir app_name) then
    bundlePathsOf app_name (appDir app_name) (walk fs (appDir app_name))
  else .ok (some (none, joinPath (appDir app_name) "0".toList))

/-- A call that ends returns the paths, or raises what the search of them raises. -/
theorem wp_getAppBundlePaths_nextPaths {adm : Call → Choice → Device → Prop} (app_name : Text) :
  wp machine adm (getAppBundlePaths app_name)
    { returned := fun paths _ => nextPaths d.fs app_name = .ok paths
      raised := fun e _ => nextPaths d.fs app_name = .error e
      cut := fun _ => True } d
  := by
  rw [getAppBundlePaths_eq, wp_bind, wp_issue]
  refine ⟨trivial, fun x _ => ?_⟩
  change wp machine adm (if d.fs.isDir (appDir app_name) then _ else _) _ d
  rw [nextPaths]
  split
  · rw [wp_bind, wp_issue]
    refine ⟨trivial, fun x _ => ?_⟩
    change wp machine adm
      (ofExcept (bundlePathsOf app_name (appDir app_name) (walk d.fs (appDir app_name)))) _ d
    cases bundlePathsOf app_name (appDir app_name) (walk d.fs (appDir app_name)) with
    | ok paths => rfl
    | error e => rfl
  · rfl

/-- A text that is a numeral and that of an integer is that of the number it denotes. -/
theorem value_of_intText {version : ℤ} {n : Text.Numeral} (h : intText version = n.text) :
  version = n.value
  := by
  cases version with
  | ofNat m =>
      have hvalue : Text.decimalValue? (Text.decimal m) = some n.value := by
        rw [show Text.decimal m = n.text from h, n.decimalValue?_text]
      rw [Text.decimalValue?_decimal, Option.some.injEq] at hvalue
      rw [hvalue]
      rfl
  | negSucc m =>
      have hdigit : '-'.isDigit = true := n.isDigit (by simp [← h, intText])
      contradiction

/-- Nothing is in a directory that is not there. -/
theorem node_of_not_isDir (h : ¬ fs.isDir dir = true) (name : Text) :
  fs.node (dir ++ [name]) = none
  := by
  apply node_eq_none_below (p := dir)
  · rwa [isDir_eq_true] at h
  · apply List.prefix_append
  · simp

/-- The next path is free when the directory of the application is not there. -/
theorem nextIsFree_of_not_isDir (h : ¬ fs.isDir (appDir app_name) = true) :
  NextIsFree fs app_name (.returned (some (none, joinPath (appDir app_name) "0".toList)))
  := by
  refine ⟨none, .ofNat 0, ?_, node_of_not_isDir h _, ?_⟩
  · rw [joinPath_of_plain _ (by decide)]
    rfl
  · intro n hn
    rw [isDir_eq_true, node_of_not_isDir h] at hn
    contradiction

/-- The next path is called by the number after that of the last bundle. -/
theorem bundlePathsOf_of_last {entries : List WalkEntry} {sorted : List FilePath}
    {last : FilePath} {version : ℤ} (hsorted : sortedBundles entries = .ok sorted)
    (hlast : sorted.getLast? = some last)
    (hversion : intOf? (versionName app_name dir last) = some version) :
  ∃ current_path, bundlePathsOf app_name dir entries
    = .ok (some (some current_path, dir ++ [intText (version + 1)]))
  := by
  obtain ⟨current_path, hhead⟩ : ∃ p, sorted.head? = some p := by
    rw [← Option.isSome_iff_exists, List.isSome_head?]
    rintro rfl
    contradiction
  use current_path
  rw [← joinPath_of_plain dir (plainName_intText (version + 1))]
  simp only [bundlePathsOf, hsorted, bind, Except.bind, hhead, hlast, hversion]

/-- The next path is free when the search ends with the greatest number. -/
theorem nextIsFree_of_endsWithGreatest (hdir : fs.isDir (appDir app_name) = true)
    (h : EndsWithGreatest fs app_name) :
  ∃ paths, nextPaths fs app_name = .ok paths ∧ NextIsFree fs app_name (.returned paths)
  := by
  obtain ⟨bundles, sorted, last, version, hbundles, hsort, hlast, hversion, hle, hgreatest, hfile⟩ :=
    h hdir
  obtain ⟨current_path, hpaths⟩ :=
    bundlePathsOf_of_last (sortedBundles_eq_ok.mpr ⟨bundles, hbundles, hsort⟩) hlast hversion
  obtain ⟨next, hnext⟩ : ∃ next : ℕ, version + 1 = next := Int.eq_ofNat_of_zero_le (by omega)
  have htext : intText (version + 1) = (Text.Numeral.ofNat next).text := by
    rw [hnext]
    rfl
  rw [htext] at hpaths hfile
  rw [nextPaths, if_pos hdir]
  refine ⟨_, hpaths, some current_path, .ofNat next, rfl, ?_, ?_⟩
  · cases hnode : fs.node (appDir app_name ++ [(Text.Numeral.ofNat next).text]) with
    | none => rfl
    | some node =>
        cases node with
        | file content => exact absurd hnode (hfile content)
        | dir =>
            have hvalue := hgreatest (.ofNat next) (isDir_eq_true.mpr hnode)
            rw [Text.Numeral.value_ofNat] at hvalue
            omega
  · intro n hn
    have hvalue := hgreatest n hn
    rw [Text.Numeral.value_ofNat]
    omega

/-- The search ends with the greatest number when the next path is free. -/
theorem endsWithGreatest_of_nextIsFree (hdir : fs.isDir (appDir app_name) = true)
    {paths : Option (Option FilePath × FilePath)} (hpaths : nextPaths fs app_name = .ok paths)
    (h : NextIsFree fs app_name (.returned paths)) :
  EndsWithGreatest fs app_name
  := by
  obtain ⟨cur_bundle_path, next, hnext, hnone, hgreatest⟩ := h
  obtain rfl := Outcome.returned.inj hnext
  rw [nextPaths, if_pos hdir] at hpaths
  obtain ⟨sorted, current_path, last, version, hsorted, -, hlast, hversion, -, heq⟩ :=
    bundlePathsOf_eq_some hpaths
  obtain ⟨bundles, hbundles, hsort⟩ := sortedBundles_eq_ok.mp hsorted
  rw [joinPath_of_plain _ (plainName_intText _)] at heq
  have htext : next.text = intText (version + 1) := by simpa using heq
  have hvalue := value_of_intText htext.symm
  intro _
  refine ⟨bundles, sorted, last, version, hbundles, hsort, hlast, hversion, ?_, ?_, ?_⟩
  · omega
  · intro n hn
    have hlt := hgreatest n hn
    omega
  · intro content hfile
    rw [← htext, hnone] at hfile
    contradiction

/-- What a call has come to when it has ended. -/
theorem nextPaths_of_run {xs : List Choice}
    {outcome : Outcome PyException (Option (Option FilePath × FilePath))} {rest : List Choice}
    {d' : Device} (hrun : run machine (getAppBundlePaths app_name) xs d = (outcome, rest, d'))
    (hends : outcome ≠ .cut) :
  (∃ paths, outcome = .returned paths ∧ nextPaths d.fs app_name = .ok paths) ∨
    ∃ e, outcome = .raised e ∧ nextPaths d.fs app_name = .error e
  := by
  have hobeys : Obeys machine (fun _ _ _ => True) (getAppBundlePaths app_name) xs d := obeys_true
  have hholds := holds_of_wp (wp_getAppBundlePaths_nextPaths app_name) hobeys
  rw [hrun] at hholds
  cases outcome with
  | returned paths => exact Or.inl ⟨paths, rfl, hholds⟩
  | raised e => exact Or.inr ⟨e, rfl, hholds⟩
  | cut => contradiction

/-- The next path is free just when the search ends with the greatest number. -/
theorem nextIsFree_iff {app_name : Text} {d : Device} {xs : List Choice}
    {outcome : Outcome PyException (Option (Option FilePath × FilePath))} {rest : List Choice}
    {d' : Device} (hrun : run machine (getAppBundlePaths app_name) xs d = (outcome, rest, d'))
    (hends : outcome ≠ .cut) :
  NextIsFree d.fs app_name outcome ↔ EndsWithGreatest d.fs app_name
  := by
  have hended := nextPaths_of_run hrun hends
  by_cases hdir : d.fs.isDir (appDir app_name) = true
  · constructor
    · intro hfree
      rcases hended with ⟨paths, rfl, hpaths⟩ | ⟨e, rfl, -⟩
      · exact endsWithGreatest_of_nextIsFree hdir hpaths hfree
      · obtain ⟨_, _, heq, -⟩ := hfree
        contradiction
    · intro h
      obtain ⟨paths, hpaths, hfree⟩ := nextIsFree_of_endsWithGreatest hdir h
      rw [hpaths] at hended
      rcases hended with ⟨paths', rfl, heq⟩ | ⟨e, -, heq⟩
      · rw [← Except.ok.inj heq]
        exact hfree
      · contradiction
  · rw [nextPaths, if_neg hdir] at hended
    apply iff_of_true _ fun h => absurd h hdir
    rcases hended with ⟨paths, rfl, heq⟩ | ⟨e, -, heq⟩
    · rw [← Except.ok.inj heq]
      exact nextIsFree_of_not_isDir hdir
    · contradiction

/-! ### Plain versions -/

/-- Where all bundles are versions called by numbers, and they can be sorted, the search ends with the
greatest number just when one of the versions is called by it. -/
theorem endsWithGreatest_iff {sorted : List FilePath} (hname : PlainName app_name)
    (hplain : PlainVersions fs app_name) (hdir : fs.isDir (APPS_PATH ++ [app_name]) = true)
    (hsorted : sortedBundles (walk fs (APPS_PATH ++ [app_name])) = .ok sorted) :
  EndsWithGreatest fs app_name ↔ ∃ m ∈ versions fs app_name,
    (∀ n : Text.Numeral, fs.isDir (APPS_PATH ++ [app_name] ++ [n.text]) = true → n.value ≤ m) ∧
      ∀ content, fs.node (bundlePath app_name (m + 1)) ≠ some (.file content)
  := by
  have happ : appDir app_name = APPS_PATH ++ [app_name] := joinPath_of_plain _ hname
  have hnext (m : ℕ) : APPS_PATH ++ [app_name] ++ [intText ((m : ℤ) + 1)]
      = bundlePath app_name (m + 1) := (bundlePath_eq_concat app_name (m + 1)).symm
  rw [EndsWithGreatest, happ]
  constructor
  · intro h
    obtain ⟨bundles, sorted', last, version, hbundles, hsort, hlast, hversion, -, hgreatest, hfile⟩ :=
      h hdir
    have hsorted' := sortedBundles_eq_ok.mpr ⟨bundles, hbundles, hsort⟩
    obtain ⟨highest, hhighest, rfl⟩ := isGreatest_of_getLast? hplain hsorted' hlast
    rw [versionName_bundlePath, intOf?_decimal] at hversion
    obtain rfl := Option.some.inj hversion
    rw [hnext] at hfile
    refine ⟨highest, hhighest.1, ?_, hfile⟩
    intro n hn
    exact Int.ofNat_le.mp (hgreatest n hn)
  · rintro ⟨m, hm, hgreatest, hfile⟩ -
    have hfound : bundlePath app_name m ∈ sorted :=
      (mem_sortedBundles_iff hplain hsorted).mpr ⟨m, hm, rfl⟩
    obtain ⟨last, hlast⟩ : ∃ p, sorted.getLast? = some p := by
      rw [← Option.isSome_iff_exists, List.getLast?_isSome]
      exact List.ne_nil_of_mem hfound
    obtain ⟨highest, hhighest, rfl⟩ := isGreatest_of_getLast? hplain hsorted hlast
    have hle : highest ≤ m := by
      have hthere := hhighest.1.1
      rw [bundlePath_eq_concat] at hthere
      have hvalue := hgreatest (.ofNat highest) hthere
      rwa [Text.Numeral.value_ofNat] at hvalue
    obtain rfl := le_antisymm hle (hhighest.2 hm)
    obtain ⟨bundles, hbundles, hsort⟩ := sortedBundles_eq_ok.mp hsorted
    refine ⟨bundles, sorted, _, highest, hbundles, hsort, hlast, ?_, ?_, ?_, ?_⟩
    · rw [versionName_bundlePath, intOf?_decimal]
    · omega
    · intro n hn
      exact Int.ofNat_le.mpr (hgreatest n hn)
    · rwa [hnext]

/-! ### Devices -/

/-- A device on which an application has version 0, and a directory called 1 with nothing in it. -/
def deviceWithPart : Device :=
  { bareDevice with fs := (diskWith [bundlePath ['a'] 0]).mkdirs (bundlePath ['a'] 1) }

/-- A device on which the directory of an application is empty. -/
def deviceWithEmptyApp : Device :=
  { bareDevice with fs := (diskWith []).mkdirs (APPS_PATH ++ [['a']]) }

/-- What the update manager finds of the application. -/
def pathsOfA (d : Device) : Outcome PyException (Option (Option FilePath × FilePath)) :=
  (run machine (getAppBundlePaths ['a']) [truthfully, truthfully] d).1

/-- The next path is free after version 0. -/
theorem nextIsFree_after_first :
  NextIsFree (deviceWithBundles [outerBundle]).fs ['a'] (pathsOfA (deviceWithBundles [outerBundle]))
  := by
  apply (nextIsFree_iff rfl (by decide)).mpr
  intro _
  refine ⟨[outerBundle], [outerBundle], outerBundle, 0, rfl, rfl, rfl, rfl, by decide, ?_, ?_⟩
  · intro n hn
    have honly : ∀ p ∈ (deviceWithBundles [outerBundle]).fs.names, p.dropLast = appDir ['a'] →
        p.getLast? = some ['0'] := by decide
    rw [isDir_eq_true] at hn
    have hmem : appDir ['a'] ++ [n.text] ∈ (deviceWithBundles [outerBundle]).fs.names :=
      mem_names _ (by simp [hn])
    have htext := honly _ hmem List.dropLast_concat
    rw [List.getLast?_concat, Option.some.injEq] at htext
    have hvalue := n.decimalValue?_text
    rw [htext] at hvalue
    have hzero : 0 = n.value := Option.some.inj hvalue
    omega
  · intro content hfile
    cases hfile

/-- The next path is not free when there is a directory called 1 without a bundle in it, and there
is none when the directory of the application is empty. -/
theorem not_nextIsFree :
  ¬ NextIsFree deviceWithPart.fs ['a'] (pathsOfA deviceWithPart) ∧
    ¬ NextIsFree deviceWithEmptyApp.fs ['a'] (pathsOfA deviceWithEmptyApp)
  := by
  constructor
  · rintro ⟨cur_bundle_path, next, hreturned, hnone, -⟩
    have hpaths : pathsOfA deviceWithPart
        = .returned (some (some (bundlePath ['a'] 0), bundlePath ['a'] 1)) := rfl
    rw [hpaths, Outcome.returned.injEq, Option.some.injEq, Prod.mk.injEq] at hreturned
    have hthere : deviceWithPart.fs.node (bundlePath ['a'] 1) = some .dir := rfl
    rw [← hreturned.2, hthere] at hnone
    contradiction
  · rintro ⟨cur_bundle_path, next, hreturned, -⟩
    have hpaths : pathsOfA deviceWithEmptyApp = .returned none := rfl
    rw [hpaths] at hreturned
    cases hreturned

end App
