import MblCore.Lib.KeySort
import MblCore.App.Scan

/-!
# The order of versions

The update manager and the boot path sort the bundles of an application with the same function.
When the bundles are versions called by decimal numerals, the sort does not raise and puts them into
the order of their numbers.  So what the update manager takes to be the current version is what is
started at the next boot, and its next version is above all versions that are there.
-/

namespace App

open FileTree
open Prog hiding pure throw bind

/-! ### The sorts with their exceptions -/

/-- `alphanum_sort`, with the exceptions it can raise. -/
def alphanumSort? (digits : Text.Digits) (versions : List FilePath) :
    Except Text.SortError (List FilePath) :=
  Text.humanSort? digits pathText versions

/-- `human_sort`, with the exceptions it can raise. -/
def humanSort? (digits : Text.Digits) (l : List FilePath) : Except Text.SortError (List FilePath) :=
  Text.humanSort? digits pathText l

/-- The keys of two texts can be computed and compared. -/
def CanCompare (digits : Text.Digits) (s t : Text) : Prop :=
  ∃ key key' less, Text.alphanumKey? digits s = .ok key ∧ Text.alphanumKey? digits t = .ok key' ∧
    Text.keyLt? key key' = .ok less

/-- The sorts of the two programs know the digits that Python knows. -/
theorem mapError_humanSort? (l : List FilePath) :
  (humanSort? .unicode l).mapError sortException = humanSort l
  := rfl

/-! ### Versions called by numerals -/

/-- The version of an application that is called by a numeral. -/
def numeralPath (dir : FilePath) (n : Text.Numeral) : FilePath :=
  dir ++ [n.text]

variable {dir : FilePath}

theorem pathText_numeralPath (n : Text.Numeral) :
  pathText (numeralPath dir n) = pathText dir ++ '/' :: n.text
  := pathText_concat dir n.text

/-- The keys of all versions can be computed when that of the directory is ASCII. -/
theorem alphanumKey?_numeralPath (digits : Text.Digits) (hascii : Text.IsAscii (pathText dir)) :
  ∃ key, ∀ n, Text.alphanumKey? digits (pathText (numeralPath dir n))
    = .ok (key ++ [.number n.value, .text []])
  := by
  obtain ⟨key?, hkeys⟩ := Text.alphanumKey?_slash_numeral digits (pathText dir)
  have hzero : Text.IsAscii (pathText (numeralPath dir (.ofNat 0))) := by
    intro c hc
    rw [pathText_numeralPath, List.mem_append, List.mem_cons] at hc
    rcases hc with hc | rfl | hc
    · exact hascii c hc
    · decide
    · have hdigit := toNat_of_isDigit (( Text.Numeral.ofNat 0).isDigit hc)
      omega
  obtain ⟨key, hkey⟩ : ∃ key, Text.alphanumKey? digits (pathText (numeralPath dir (.ofNat 0)))
      = .ok key := Text.alphanumKey?_of_ascii hzero
  rw [pathText_numeralPath, hkeys] at hkey
  cases key? with
  | error e => contradiction
  | ok key =>
      use key
      intro n
      rw [pathText_numeralPath, hkeys]
      rfl

/-- Versions with different numbers go up in a sorted list. -/
theorem pairwise_lt_versions {versions : List Text.Numeral}
    (hdiff : (versions.map Text.Numeral.value).Nodup) :
  (versions.insertionSort fun m n => m.value ≤ n.value).Pairwise fun m n => m.value < n.value
  := by
  have hle : (versions.insertionSort fun m n => m.value ≤ n.value).Pairwise
      fun m n => m.value ≤ n.value := by
    have htotal : Std.Total fun m n : Text.Numeral => m.value ≤ n.value :=
      ⟨fun m n => le_total _ _⟩
    have htrans : IsTrans Text.Numeral fun m n => m.value ≤ n.value :=
      ⟨fun k m n => le_trans⟩
    exact List.pairwise_insertionSort _ _
  have hne : (versions.insertionSort fun m n => m.value ≤ n.value).Pairwise
      fun m n => m.value ≠ n.value := by
    rw [← List.pairwise_map (f := Text.Numeral.value) (R := (· ≠ ·))]
    exact ((List.perm_insertionSort _ versions).map _).nodup_iff.mpr hdiff
  exact (hle.and hne).imp fun h => lt_of_le_of_ne h.1 h.2

/-- The highest number is that of the last version of a list that goes up. -/
theorem isGreatest_getLast {sorted : List Text.Numeral} (hne : sorted ≠ [])
    (hlt : sorted.Pairwise fun m n => m.value < n.value) :
  IsGreatest {k | ∃ n ∈ sorted, n.value = k} (sorted.getLast hne).value
  := by
  constructor
  · exact ⟨_, List.getLast_mem hne, rfl⟩
  · rintro k ⟨n, hn, rfl⟩
    have hreverse := List.pairwise_reverse.mpr (hlt.imp fun h => h.le)
    apply first_le hreverse (a := sorted.getLast hne) (b := n) _ (List.mem_reverse.mpr hn) le_rfl
    rw [List.head?_reverse, List.getLast?_eq_some_getLast hne]

/-! ### What the two programs make of them -/

variable {d : Device} {app_name : Text} {bundles sorted : List FilePath}

theorem isDir_of_ociBundles (hbundles : ociBundles (walk d.fs dir) = .ok bundles)
    (hne : bundles ≠ []) :
  d.fs.isDir dir = true
  := by
  by_contra hdir
  rw [walk, if_neg hdir] at hbundles
  exact hne (Except.ok.inj hbundles).symm

/-- The update manager looks at the disk and leaves it. -/
theorem run_getAppBundlePaths (hdir : joinPath APPS_PATH app_name = dir)
    (hisDir : d.fs.isDir dir = true) (x y : Choice) (xs : List Choice) :
  run machine (getAppBundlePaths app_name) (x :: y :: xs) d
    = run machine (ofExcept (bundlePathsOf app_name dir (walk d.fs dir))) xs d
  := by
  rw [getAppBundlePaths_eq, APPS_INSTALLATION_PATH, hdir, run_bind]
  change run machine (if d.fs.isDir dir then _ else _) (y :: xs) d = _
  rw [if_pos hisDir, run_bind]
  rfl

/-- The boot path looks at the disk and then runs the first of the sorted bundles. -/
theorem run_runAppFromParentDir (hdir : joinPath APPS_PATH app_name = dir)
    (hisDir : d.fs.isDir dir = true) (hsorted : sortedBundles (walk d.fs dir) = .ok sorted)
    (x y : Choice) (xs : List Choice) :
  run machine (runAppFromParentDir app_name) (x :: y :: xs) d
    = run machine (runFirstOf app_name sorted) xs d
  := by
  rw [runAppFromParentDir_eq, hdir, run_bind]
  change run machine (if d.fs.isDir dir then _ else _) (y :: xs) d = _
  rw [if_pos hisDir, run_bind]
  change run machine (ofExcept (sortedBundles (walk d.fs dir)) >>= _) xs d = _
  rw [hsorted]
  rfl

/-- The next version has the number after that of the last one. -/
theorem bundlePathsOf_versions {entries : List WalkEntry} {versions : List Text.Numeral}
    {first last : Text.Numeral}
    (hsorted : sortedBundles entries = .ok (versions.map (numeralPath dir)))
    (hfirst : versions.head? = some first) (hlast : versions.getLast? = some last) :
  bundlePathsOf app_name dir entries
    = .ok (some (some (numeralPath dir first), dir ++ [Text.decimal (last.value + 1)]))
  := by
  have hname : versionName app_name dir (numeralPath dir last) = last.text := by
    have hne : numeralPath dir last ≠ dir := by simp [numeralPath]
    rw [versionName, if_neg hne, numeralPath,
      basename_pathText_concat _ (plainName_numeral last).2.1]
  have hnext : joinPath dir (intText ((last.value : ℤ) + 1))
      = dir ++ [Text.decimal (last.value + 1)] := joinPath_of_plain _ (plainName_intText _)
  rw [bundlePathsOf, hsorted]
  simp only [bind, Except.bind, List.head?_map, List.getLast?_map, hfirst, hlast, Option.map_some,
    hname, intOf?_numeral, hnext]

/-- The versions of an application that are called by numerals, in whatever order they are found,
are sorted by their numbers without an exception.  The update manager takes for the current version
the one that the boot path runs, and its next version is above all of them. -/
theorem same_current_version (digits : Text.Digits) (hascii : Text.IsAscii (pathText dir))
    {versions : List Text.Numeral} (hne : versions ≠ [])
    (hdiff : (versions.map Text.Numeral.value).Nodup) :
  (∀ m ∈ versions, ∀ n ∈ versions,
      CanCompare digits (pathText (numeralPath dir m)) (pathText (numeralPath dir n))) ∧
    ∃ first rest highest, (first :: rest).Perm versions ∧
      (first :: rest).Pairwise (fun m n => m.value < n.value) ∧
      IsGreatest {k | ∃ n ∈ versions, n.value = k} highest ∧
      alphanumSort? digits (versions.map (numeralPath dir))
        = .ok ((first :: rest).map (numeralPath dir)) ∧
      humanSort? digits (versions.map (numeralPath dir))
        = .ok ((first :: rest).map (numeralPath dir)) ∧
      ∀ app_name d x y xs, joinPath APPS_PATH app_name = dir →
        ociBundles (walk d.fs dir) = .ok (versions.map (numeralPath dir)) →
          run machine (getAppBundlePaths app_name) (x :: y :: xs) d
              = (.returned (some (some (numeralPath dir first),
                  dir ++ [Text.decimal (highest + 1)])), xs, d) ∧
            run machine (runAppFromParentDir app_name) (x :: y :: xs) d
              = run machine (runApp app_name (numeralPath dir first) >>= fun _ =>
                  forEach (rest.map (numeralPath dir)) rmtree) xs d
  := by
  obtain ⟨key, hkeys⟩ := alphanumKey?_numeralPath digits hascii
  constructor
  · intro m _ n _
    exact ⟨_, _, _, hkeys m, hkeys n, Text.keyLt?_numbers key m.value n.value⟩
  have hperm := List.perm_insertionSort (fun m n : Text.Numeral => m.value ≤ n.value) versions
  have hlt := pairwise_lt_versions hdiff
  have hsort (digits : Text.Digits) : Text.humanSort? digits pathText (versions.map (numeralPath dir))
      = .ok ((versions.insertionSort fun m n => m.value ≤ n.value).map (numeralPath dir)) := by
    obtain ⟨key, hkeys⟩ := alphanumKey?_numeralPath digits hascii
    exact Text.humanSort?_numerals pathText_numeralPath (hkeys (.ofNat 0)) versions
  generalize versions.insertionSort (fun m n => m.value ≤ n.value) = sorted at hperm hlt hsort
  cases sorted with
  | nil => exact absurd hperm.nil_eq.symm hne
  | cons first rest =>
      have hgreatest := isGreatest_getLast (List.cons_ne_nil first rest) hlt
      simp only [hperm.mem_iff] at hgreatest
      refine ⟨first, rest, _, hperm, hlt, hgreatest, hsort digits, hsort digits, ?_⟩
      intro app_name d x y xs hdir hbundles
      have hisDir := isDir_of_ociBundles hbundles (by simpa using hne)
      have hsorted : sortedBundles (walk d.fs dir) = .ok ((first :: rest).map (numeralPath dir)) := by
        rw [sortedBundles, hbundles]
        exact humanSort_eq_ok.mpr (hsort .unicode)
      constructor
      · have hlast := List.getLast?_eq_some_getLast (List.cons_ne_nil first rest)
        rw [run_getAppBundlePaths hdir hisDir, bundlePathsOf_versions hsorted rfl hlast]
        rfl
      · rw [run_runAppFromParentDir hdir hisDir hsorted]
        rfl

/-- Version 10 of an application and version 9, called `09`. -/
def tenAndNine : List Text.Numeral :=
  [.ofNat 10, ⟨"09".toList, rfl⟩]

/-- A device with these versions. -/
def deviceWithTenAndNine : Device :=
  { bareDevice with
    fs := diskWith (tenAndNine.reverse.map (numeralPath (APPS_PATH ++ ["app2".toList]))) }

theorem same_current_version_tenAndNine :
  ∃ first rest highest, (first :: rest).Perm tenAndNine ∧
    run machine (getAppBundlePaths "app2".toList) [truthfully, truthfully] deviceWithTenAndNine
      = (.returned (some (some (numeralPath (APPS_PATH ++ ["app2".toList]) first),
          APPS_PATH ++ ["app2".toList, Text.decimal (highest + 1)])), [], deviceWithTenAndNine)
  := by
  have hascii : Text.IsAscii (pathText (APPS_PATH ++ ["app2".toList])) := by decide
  have hdiff : (tenAndNine.map Text.Numeral.value).Nodup := by decide
  have hbundles : ociBundles (walk deviceWithTenAndNine.fs (APPS_PATH ++ ["app2".toList]))
      = .ok (tenAndNine.map (numeralPath (APPS_PATH ++ ["app2".toList]))) := by rfl
  obtain ⟨-, first, rest, highest, hperm, -, -, -, -, hruns⟩ :=
    same_current_version .unicode hascii (List.cons_ne_nil _ _) hdiff
  use first, rest, highest, hperm
  exact (hruns "app2".toList deviceWithTenAndNine truthfully truthfully [] rfl hbundles).1

end App
