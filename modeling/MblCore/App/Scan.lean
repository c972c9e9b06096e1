import Mathlib.Order.Bounds.Basic
import MblCore.App.Versions

/-!
# The bundles a scan finds

`get_oci_bundle_paths` finds the directories below a directory that are the tops of OCI bundles.
When these are called by decimal numerals, the first one of the sorted list is the lowest
version, and the last one the highest.
-/

namespace App

open FileTree
open Loops (bind_eq_ok)

variable {fs : Files} {top p : FilePath} {bundles sorted : List FilePath}

/-- A directory is the top of an OCI bundle. -/
def IsBundle (fs : Files) (path : FilePath) : Prop :=
  fs.isDir path = true ∧ isOciBundle (walkEntry fs path) = .ok true

/-! ### Membership -/

theorem mem_ociBundles {entries : List WalkEntry} (h : ociBundles entries = .ok bundles) :
  p ∈ bundles ↔ ∃ entry ∈ entries, isOciBundle entry = .ok true ∧ entry.dirpath = p
  := by
  induction entries generalizing bundles with
  | nil =>
      cases h
      simp
  | cons entry entries ih =>
      obtain ⟨isBundle, hentry, hrest⟩ := bind_eq_ok.mp h
      obtain ⟨rest, hentries, heq⟩ := bind_eq_ok.mp hrest
      cases heq
      cases isBundle with
      | true => simp [ih hentries, hentry, eq_comm]
      | false => simp [ih hentries, hentry]

theorem isOciBundle_of_ociBundles {entries : List WalkEntry}
    (h : ociBundles entries = .ok bundles) :
  ∀ entry ∈ entries, ∃ found, isOciBundle entry = .ok found
  := by
  induction entries generalizing bundles with
  | nil => exact List.forall_mem_nil _
  | cons entry entries ih =>
      obtain ⟨found, hentry, hrest⟩ := bind_eq_ok.mp h
      obtain ⟨rest, hentries, -⟩ := bind_eq_ok.mp hrest
      rw [List.forall_mem_cons]
      exact ⟨⟨found, hentry⟩, ih hentries⟩

theorem mem_walk {entry : WalkEntry} :
  entry ∈ walk fs top ↔ ∃ dir, top <+: dir ∧ fs.isDir dir = true ∧ entry = walkEntry fs dir
  := by
  unfold walk
  split
  · rename_i htop
    simp only [List.mem_cons, List.mem_map, List.mem_filter, mem_below, Bool.and_eq_true,
      bne_iff_ne]
    constructor
    · rintro (rfl | ⟨dir, ⟨⟨hbelow, -⟩, hdir, -⟩, rfl⟩)
      · use top, List.prefix_rfl
      · use dir
    · rintro ⟨dir, hbelow, hdir, rfl⟩
      by_cases heq : dir = top
      · left
        rw [heq]
      · right
        use dir
        rw [isDir_eq_true] at hdir
        simp [hbelow, hdir, heq]
  · rename_i htop
    simp only [List.not_mem_nil, false_iff, not_exists, not_and]
    intro dir hbelow hdir
    rw [isDir_eq_true] at htop hdir
    by_cases heq : top = dir
    · exact absurd (heq ▸ hdir) htop
    · exact absurd (dir_above (by simp [hdir]) hbelow heq) htop

/-- A scan finds the bundles at and below its top. -/
theorem mem_ociBundles_walk (h : ociBundles (walk fs top) = .ok bundles) :
  p ∈ bundles ↔ top <+: p ∧ IsBundle fs p
  := by
  rw [mem_ociBundles h]
  constructor
  · rintro ⟨entry, hentry, hbundle, rfl⟩
    obtain ⟨dir, hbelow, hdir, rfl⟩ := mem_walk.mp hentry
    exact ⟨hbelow, hdir, hbundle⟩
  · rintro ⟨hbelow, hdir, hbundle⟩
    use walkEntry fs p, mem_walk.mpr ⟨p, hbelow, hdir, rfl⟩, hbundle
    rfl

/-! ### Versions -/

/-- Every bundle of the application is a version called by a decimal numeral. -/
def PlainVersions (fs : Files) (app_name : Text) : Prop :=
  ∀ p, APPS_PATH ++ [app_name] <+: p → IsBundle fs p → ∃ m, p = bundlePath app_name m

/-- The versions of an application on the disk. -/
def versions (fs : Files) (app_name : Text) : Set ℕ :=
  {m | IsBundle fs (bundlePath app_name m)}

theorem bundlePath_eq_concat (app_name : Text) (m : ℕ) :
  bundlePath app_name m = (APPS_PATH ++ [app_name]) ++ [Text.decimal m]
  := by
  simp [bundlePath]

theorem bundlePath_injective {app_name : Text} {m n : ℕ} :
  bundlePath app_name m = bundlePath app_name n ↔ m = n
  := by
  simp [bundlePath, Text.decimal_injective.eq_iff]

/-- The directory of an application with a version. -/
theorem isDir_of_mem_versions {app_name : Text} {m : ℕ} (h : m ∈ versions fs app_name) :
  fs.isDir (APPS_PATH ++ [app_name]) = true
  := by
  have hdir := isDir_eq_true.mp h.1
  apply isDir_eq_true.mpr
  apply dir_above (q := bundlePath app_name m)
  · simp [hdir]
  · rw [bundlePath_eq_concat]
    apply List.prefix_append
  · intro heq
    simpa [bundlePath] using congrArg List.length heq

theorem pathText_concat (p : FilePath) (name : Text) :
  pathText (p ++ [name]) = pathText p ++ '/' :: name
  := by
  simp [pathText]

theorem basename_pathText_concat (p : FilePath) {name : Text} (h : '/' ∉ name) :
  basename (pathText (p ++ [name])) = name
  := by
  rw [pathText_concat, basename, List.reverse_append, List.reverse_cons, List.append_assoc,
    List.takeWhile_append_of_pos]
  · simp
  · intro c hc
    simp only [bne_iff_ne]
    rintro rfl
    exact h (List.mem_reverse.mp hc)

theorem toNat_of_isDigit {c : Char} (h : c.isDigit = true) :
  48 ≤ c.toNat ∧ c.toNat ≤ 57
  := by
  simp only [Char.isDigit, Bool.and_eq_true, decide_eq_true_eq] at h
  exact h

/-- Reading a decimal numeral as a number. -/
theorem intOf?_numeral (n : Text.Numeral) :
  intOf? n.text = some (n.value : ℤ)
  := by
  have hspace : ∀ c ∈ n.text, isIntSpace c = false := by
    intro c hc
    obtain ⟨hlow, hhigh⟩ := toNat_of_isDigit (n.isDigit hc)
    simp [isIntSpace, isSpace]
    omega
  have hne {c d : Char} (hc : c ∈ n.text) (hd : d.isDigit = false) : c ≠ d := by
    rintro rfl
    rw [n.isDigit hc] at hd
    contradiction
  have hvalue : Text.digitsValue? n.text = some n.value := by
    rw [Text.digitsValue?_of_isNumeral n.isNumeral, n.decimalValue?_text]
  have hdigits : (if (n.text.splitOn '_').all fun piece => (Text.digitsValue? piece).isSome then
      Text.digitsValue? (n.text.splitOn '_').flatten else none) = some n.value := by
    rw [List.splitOn_eq_singleton fun hc => hne hc (by decide) rfl]
    simp [hvalue]
  unfold intOf?
  rw [dropSpace_eq_self hspace]
  split
  · rename_i t heq
    exact absurd rfl (hne (c := '-') (d := '-') (heq ▸ List.mem_cons_self) (by decide))
  · rename_i t heq
    exact absurd rfl (hne (c := '+') (d := '+') (heq ▸ List.mem_cons_self) (by decide))
  · dsimp only
    rw [hdigits]
    rfl

theorem intOf?_decimal (n : ℕ) :
  intOf? (Text.decimal n) = some (n : ℤ)
  := by
  have h := intOf?_numeral (Text.Numeral.ofNat n)
  rwa [Text.Numeral.value_ofNat] at h

/-- What is known of the current and the next path. -/
theorem bundlePathsOf_eq_some
    {app_name : Text} {app_parent_dir new_bundle_path : FilePath} {cur_bundle_path : Option FilePath}
    {entries : List WalkEntry}
    (h : bundlePathsOf app_name app_parent_dir entries
      = .ok (some (cur_bundle_path, new_bundle_path))) :
  ∃ sorted current_path last version, sortedBundles entries = .ok sorted ∧
    sorted.head? = some current_path ∧ sorted.getLast? = some last ∧
    intOf? (versionName app_name app_parent_dir last) = some version ∧
    cur_bundle_path = some current_path ∧
    new_bundle_path = joinPath app_parent_dir (intText (version + 1))
  := by
  obtain ⟨sorted, hsorted, hpaths⟩ := bind_eq_ok.mp h
  cases hhead : sorted.head? with
  | none =>
      rw [hhead] at hpaths
      cases hpaths
  | some current_path =>
      cases hlast : sorted.getLast? with
      | none =>
          rw [hhead, hlast] at hpaths
          cases hpaths
      | some last =>
          rw [hhead, hlast] at hpaths
          cases hversion : intOf? (versionName app_name app_parent_dir last) with
          | none => simp [hversion] at hpaths
          | some version =>
              simp only [hversion, Except.ok.injEq, Option.some.injEq, Prod.mk.injEq] at hpaths
              obtain ⟨rfl, rfl⟩ := hpaths
              use sorted, current_path, last, version

/-! ### Sorted bundles -/

theorem humanSort_eq_ok {l l' : List FilePath} :
  humanSort l = .ok l' ↔ Text.humanSort? .unicode pathText l = .ok l'
  := by
  rw [humanSort]
  cases Text.humanSort? .unicode pathText l with
  | error e => simp [Except.mapError]
  | ok sorted => simp [Except.mapError]

theorem sortedBundles_eq_ok {entries : List WalkEntry} :
  sortedBundles entries = .ok sorted
    ↔ ∃ bundles, ociBundles entries = .ok bundles ∧ humanSort bundles = .ok sorted
  := bind_eq_ok

/-- The bundles are those of a scan, in another order. -/
theorem sortedBundles_perm {entries : List WalkEntry} (h : sortedBundles entries = .ok sorted) :
  ∃ bundles, ociBundles entries = .ok bundles ∧ sorted.Perm bundles
  := by
  obtain ⟨bundles, hbundles, hsort⟩ := bind_eq_ok.mp h
  exact ⟨bundles, hbundles, Text.humanSort?_perm (humanSort_eq_ok.mp hsort)⟩

/-- The keys of the bundles go up. -/
theorem sortedBundles_pairwise {entries : List WalkEntry} (h : sortedBundles entries = .ok sorted) :
  sorted.Pairwise fun p q => Text.KeyLe .unicode (pathText p) (pathText q)
  := by
  obtain ⟨bundles, -, hsort⟩ := bind_eq_ok.mp h
  exact Text.humanSort?_pairwise (humanSort_eq_ok.mp hsort)

/-- The sorted bundles are those at and below the top. -/
theorem mem_sortedBundles (h : sortedBundles (walk fs top) = .ok sorted) :
  p ∈ sorted ↔ top <+: p ∧ IsBundle fs p
  := by
  obtain ⟨bundles, hbundles, hperm⟩ := sortedBundles_perm h
  rw [hperm.mem_iff, mem_ociBundles_walk hbundles]

/-- Both paths are in the directory of the application, whatever is called a version there. -/
theorem prefix_of_bundlePathsOf
    {app_name : Text} {app_parent_dir new_bundle_path : FilePath} {cur_bundle_path : Option FilePath}
    (h : bundlePathsOf app_name app_parent_dir (walk fs app_parent_dir)
      = .ok (some (cur_bundle_path, new_bundle_path))) :
  app_parent_dir <+: new_bundle_path ∧ ∀ p, cur_bundle_path = some p → app_parent_dir <+: p
  := by
  obtain ⟨sorted, current_path, last, version, hsorted, hhead, -, -, rfl, rfl⟩ :=
    bundlePathsOf_eq_some h
  constructor
  · rw [joinPath_of_plain _ (plainName_intText _)]
    apply List.prefix_append
  · rintro p heq
    obtain rfl := Option.some.inj heq
    exact ((mem_sortedBundles hsorted).mp (List.mem_of_mem_head? hhead)).1

/-- The first element of a sorted list is below the others, and the last one above. -/
theorem first_le {α : Type} {r : α → α → Prop} {l : List α} {a b : α} (hl : l.Pairwise r)
    (ha : l.head? = some a) (hb : b ∈ l) (hr : r a a) :
  r a b
  := by
  cases l with
  | nil => cases ha
  | cons c l =>
      obtain rfl := Option.some.inj ha
      rcases List.mem_cons.mp hb with rfl | hb
      · exact hr
      · exact (List.pairwise_cons.mp hl).1 b hb

/-- Versions called by numerals are sorted by their numbers. -/
theorem pairwise_versions {entries : List WalkEntry} (app_name : Text)
    (h : sortedBundles entries = .ok sorted) :
  sorted.Pairwise fun p q => ∀ m n, p = bundlePath app_name m → q = bundlePath app_name n → m ≤ n
  := by
  apply (sortedBundles_pairwise h).imp
  rintro p q hle m n rfl rfl
  rw [bundlePath_eq_concat, bundlePath_eq_concat, pathText_concat _ (Text.decimal m),
    pathText_concat _ (Text.decimal n)] at hle
  have hvalue := Text.KeyLe.value_le (m := .ofNat m) (n := .ofNat n) hle
  rwa [Text.Numeral.value_ofNat, Text.Numeral.value_ofNat] at hvalue

section Sorted

variable {app_name : Text} (hplain : PlainVersions fs app_name)
  (hsorted : sortedBundles (walk fs (APPS_PATH ++ [app_name])) = .ok sorted)
include hplain hsorted

/-- A scan finds the versions. -/
theorem mem_sortedBundles_iff :
  p ∈ sorted ↔ ∃ m ∈ versions fs app_name, p = bundlePath app_name m
  := by
  rw [mem_sortedBundles hsorted]
  constructor
  · rintro ⟨hbelow, hbundle⟩
    obtain ⟨m, rfl⟩ := hplain p hbelow hbundle
    exact ⟨m, hbundle, rfl⟩
  · rintro ⟨m, hm, rfl⟩
    refine ⟨?_, hm⟩
    rw [bundlePath_eq_concat]
    apply List.prefix_append

/-- The first bundle is the lowest version. -/
theorem isLeast_of_head? (hhead : sorted.head? = some p) :
  ∃ lowest, IsLeast (versions fs app_name) lowest ∧ p = bundlePath app_name lowest
  := by
  have hmem {q : FilePath} := mem_sortedBundles_iff (p := q) hplain hsorted
  obtain ⟨lowest, hlowest, rfl⟩ := hmem.mp (List.mem_of_mem_head? hhead)
  refine ⟨lowest, ⟨hlowest, ?_⟩, rfl⟩
  intro m hm
  apply first_le (pairwise_versions app_name hsorted) hhead (hmem.mpr ⟨m, hm, rfl⟩) _ lowest m rfl rfl
  rintro k n heq heq'
  exact (bundlePath_injective.mp (heq.symm.trans heq')).le

/-- The last bundle is the highest version. -/
theorem isGreatest_of_getLast? (hlast : sorted.getLast? = some p) :
  ∃ highest, IsGreatest (versions fs app_name) highest ∧ p = bundlePath app_name highest
  := by
  have hmem {q : FilePath} := mem_sortedBundles_iff (p := q) hplain hsorted
  obtain ⟨highest, hhighest, rfl⟩ := hmem.mp (List.mem_of_getLast? hlast)
  refine ⟨highest, ⟨hhighest, ?_⟩, rfl⟩
  intro m hm
  have hreverse := List.pairwise_reverse.mpr (pairwise_versions app_name hsorted)
  apply first_le hreverse (a := bundlePath app_name highest) (b := bundlePath app_name m) _ _ _
    m highest rfl rfl
  · rw [List.head?_reverse, hlast]
  · exact List.mem_reverse.mpr (hmem.mpr ⟨m, hm, rfl⟩)
  · rintro k n heq heq'
    exact (bundlePath_injective.mp (heq.symm.trans heq')).le

end Sorted

/-- A version is called by its number. -/
theorem versionName_bundlePath (app_name : Text) (m : ℕ) :
  versionName app_name (APPS_PATH ++ [app_name]) (bundlePath app_name m) = Text.decimal m
  := by
  have hne : bundlePath app_name m ≠ APPS_PATH ++ [app_name] := by
    intro heq
    simpa [bundlePath] using congrArg List.length heq
  rw [versionName, if_neg hne, bundlePath_eq_concat,
    basename_pathText_concat _ (plainName_decimal m).2.1]

/-- Among versions called by numerals, the current path is that of the lowest one and the next
path that after the highest one. -/
theorem bundlePathsOf_of_plainVersions
    {app_name : Text} {new_bundle_path : FilePath} {cur_bundle_path : Option FilePath}
    (hplain : PlainVersions fs app_name)
    (h : bundlePathsOf app_name (APPS_PATH ++ [app_name]) (walk fs (APPS_PATH ++ [app_name]))
      = .ok (some (cur_bundle_path, new_bundle_path))) :
  ∃ lowest highest, IsLeast (versions fs app_name) lowest ∧
    IsGreatest (versions fs app_name) highest ∧
    cur_bundle_path = some (bundlePath app_name lowest) ∧
    new_bundle_path = bundlePath app_name (highest + 1)
  := by
  obtain ⟨sorted, current_path, last, version, hsorted, hhead, hlast, hversion, rfl, rfl⟩ :=
    bundlePathsOf_eq_some h
  obtain ⟨lowest, hlowest, rfl⟩ := isLeast_of_head? hplain hsorted hhead
  obtain ⟨highest, hhighest, rfl⟩ := isGreatest_of_getLast? hplain hsorted hlast
  use lowest, highest
  refine ⟨hlowest, hhighest, rfl, ?_⟩
  rw [versionName_bundlePath, intOf?_decimal] at hversion
  obtain rfl := Option.some.inj hversion
  rw [joinPath_of_plain _ (plainName_intText _), bundlePath_eq_concat]
  rfl

/-! ### No bundle is found twice -/

theorem ociBundles_sublist {entries : List WalkEntry} (h : ociBundles entries = .ok bundles) :
  bundles.Sublist (entries.map WalkEntry.dirpath)
  := by
  induction entries generalizing bundles with
  | nil =>
      cases h
      exact List.Sublist.refl _
  | cons entry entries ih =>
      obtain ⟨isBundle, -, hrest⟩ := bind_eq_ok.mp h
      obtain ⟨rest, hentries, heq⟩ := bind_eq_ok.mp hrest
      cases heq
      cases isBundle with
      | true => exact (ih hentries).cons_cons _
      | false => exact (ih hentries).cons _

/-- A walk comes by every directory once. -/
theorem nodup_walk (fs : Files) (top : FilePath) :
  ((walk fs top).map WalkEntry.dirpath).Nodup
  := by
  unfold walk
  split
  · have hpaths : ((fs.below top).filter fun dir => fs.isDir dir && dir != top).map
        (WalkEntry.dirpath ∘ walkEntry fs)
          = (fs.below top).filter fun dir => fs.isDir dir && dir != top := by
      simp [Function.comp_def, walkEntry]
    rw [List.map_cons, List.map_map, hpaths, List.nodup_cons]
    constructor
    · simp [walkEntry]
    · exact (List.nodup_dedup _).filter _
  · exact List.nodup_nil

theorem nodup_sortedBundles (h : sortedBundles (walk fs top) = .ok sorted) :
  sorted.Nodup
  := by
  obtain ⟨bundles, hbundles, hperm⟩ := sortedBundles_perm h
  rw [hperm.nodup_iff]
  exact (nodup_walk fs top).sublist (ociBundles_sublist hbundles)

/-! ### Paths that are apart -/

/-- Neither path is below the other. -/
def Apart (p q : FilePath) : Prop :=
  ¬ p <+: q ∧ ¬ q <+: p

/-- What is apart from a path is apart from all below it. -/
theorem Apart.below {p q r : FilePath} (h : Apart p q) (hr : q <+: r) :
  Apart p r
  := by
  constructor
  · intro hp
    rcases List.prefix_or_prefix_of_prefix hp hr with hbelow | habove
    · exact h.1 hbelow
    · exact h.2 habove
  · intro hp
    exact h.2 (hr.trans hp)

/-- What is in the directories of different applications is apart. -/
theorem apart_of_names_ne {n n' : Text} {p q : FilePath} (hne : n ≠ n') (hp : APPS_PATH ++ [n] <+: p)
    (hq : APPS_PATH ++ [n'] <+: q) :
  Apart p q
  := by
  have hsame {r : FilePath} (h : APPS_PATH ++ [n] <+: r) (h' : APPS_PATH ++ [n'] <+: r) : False := by
    have heq := (List.prefix_of_prefix_length_le h h' le_rfl).eq_of_length rfl
    simp [hne] at heq
  constructor
  · intro hbelow
    apply hsame (hp.trans hbelow) hq
  · intro hbelow
    apply hsame hp (hq.trans hbelow)

/-- What is in different versions of an application is apart. -/
theorem apart_of_versions_ne {n : Text} {k m : ℕ} {p : FilePath} (hne : k ≠ m)
    (hp : bundlePath n m <+: p) :
  Apart (bundlePath n k) p
  := by
  constructor
  · intro hbelow
    have heq := (List.prefix_of_prefix_length_le hbelow hp le_rfl).eq_of_length rfl
    exact hne (bundlePath_injective.mp heq)
  · intro hbelow
    have heq := (hp.trans hbelow).eq_of_length rfl
    exact hne (bundlePath_injective.mp heq).symm

/-! ### Disks that agree below a directory -/

theorem isOciBundle_congr {entry entry' : WalkEntry} (hconfig : entry.config = entry'.config)
    (hdirnames : ∀ name, name ∈ entry.dirnames ↔ name ∈ entry'.dirnames) :
  isOciBundle entry = isOciBundle entry'
  := by
  have hisIn (document : Json) :
      document.isIn entry.dirnames = document.isIn entry'.dirnames := by
    cases document with
    | str s => simp only [Json.isIn, List.contains_eq_mem, hdirnames]
    | _ => rfl
  simp only [isOciBundle, hconfig, hisIn]

theorem mem_subdirs {name : Text} :
  name ∈ subdirs fs p ↔ fs.node (p ++ [name]) = some .dir
  := by
  simp only [subdirs, List.mem_filter, mem_children, isDir_eq_true]
  constructor
  · exact fun h => h.2
  · intro h
    simp [h]

/-- Only what is at and below a directory tells whether it is a bundle. -/
theorem isOciBundle_of_agree {fs' : Files} {p' : FilePath}
    (h : ∀ r, fs.node (p ++ r) = fs'.node (p' ++ r)) :
  isOciBundle (walkEntry fs p) = isOciBundle (walkEntry fs' p')
  := by
  apply isOciBundle_congr
  · simp only [walkEntry, h]
  · intro name
    simp only [walkEntry, mem_subdirs, h]

theorem isBundle_of_agree {fs' : Files} {p' : FilePath}
    (h : ∀ r, fs.node (p ++ r) = fs'.node (p' ++ r)) :
  IsBundle fs p ↔ IsBundle fs' p'
  := by
  have htop : fs.node p = fs'.node p' := by
    simpa using h []
  rw [IsBundle, IsBundle, isOciBundle_of_agree h, isDir_eq_true, isDir_eq_true, htop]

theorem isBundle_congr {fs' : Files} (h : ∀ q, p <+: q → fs.node q = fs'.node q) :
  IsBundle fs p ↔ IsBundle fs' p
  := isBundle_of_agree fun r => h _ ( List.prefix_append p r)

theorem versions_congr {fs' : Files} {app_name : Text}
    (h : ∀ q, APPS_PATH ++ [app_name] <+: q → fs.node q = fs'.node q) :
  versions fs app_name = versions fs' app_name
  := by
  ext m
  apply isBundle_congr
  intro q hq
  apply h q
  rw [bundlePath_eq_concat] at hq
  exact prefix_left_of_concat hq

theorem PlainVersions.congr {fs' : Files} {app_name : Text} (hplain : PlainVersions fs' app_name)
    (h : ∀ q, APPS_PATH ++ [app_name] <+: q → fs.node q = fs'.node q) :
  PlainVersions fs app_name
  := by
  intro p hp hbundle
  apply hplain p hp
  exact (isBundle_congr fun q hq => h q (hp.trans hq)).mp hbundle

end App
