import MblCore.App.Calls
import MblCore.App.Scan

/-!
# Tidy disks

A disk is tidy when `/home/app` holds nothing but versions of applications called by decimal
numerals, and a scan of a version finds no bundle inside of it.  A scan of a tidy disk raises no
exception.  Whatever the commands of an update do, a tidy disk stays tidy, as long as `opkg` leaves
nothing but bundles that are plain.
-/

namespace App

open FileTree
open Prog hiding pure throw bind

variable {fs fs' : Files} {top path : FilePath}

/-! ### Tidy disks -/

/-- A scan can look at every directory of a tree, and none but its top is a bundle. -/
def NoBundleInside (fs : Files) (top : FilePath) : Prop :=
  ∀ q, fs.isDir (top ++ q) = true →
    ∃ found, isOciBundle (walkEntry fs (top ++ q)) = .ok found ∧ (found = true → q = [])

/-- Whether there are bundles inside a tree can be computed. -/
instance (fs : Files) (top : FilePath) : Decidable (NoBundleInside fs top) :=
  decidable_of_iff
    (∀ p ∈ fs.names, top <+: p → fs.isDir p = true →
      (isOciBundle (walkEntry fs p)).toOption.any (fun found => !found || p == top) = true)
    (by
      constructor
      · intro h q hdir
        have hmem := fs.mem_names (p := top ++ q) (by simp [isDir_eq_true.mp hdir])
        have hany := h _ hmem ( List.prefix_append top q) hdir
        cases hfound : isOciBundle (walkEntry fs (top ++ q)) with
        | error e => simp [hfound, Except.toOption] at hany
        | ok found =>
            use found, rfl
            rintro rfl
            simpa [hfound, Except.toOption] using hany
      · rintro h p - ⟨q, rfl⟩ hdir
        obtain ⟨found, hfound, htop⟩ := h q hdir
        cases found with
        | false => simp [hfound, Except.toOption]
        | true =>
            obtain rfl := htop rfl
            rw [hfound]
            simp [Except.toOption])

instance (fs : Files) (path : FilePath) : Decidable (IsBundle fs path) :=
  decidable_of_iff
    (fs.isDir path = true ∧ (isOciBundle (walkEntry fs path)).toOption = some true)
    (by cases h : isOciBundle (walkEntry fs path) <;> simp [IsBundle, h, Except.toOption])

/-- There are only versions of applications on a disk, and no bundles inside of them. -/
structure Tidy (fs : Files) : Prop where
  apps_dir : fs.isDir APPS_PATH = true
  names : ∀ n, fs.isDir (APPS_PATH ++ [n]) = true → PlainName n
  files : ∀ p content, APPS_PATH <+: p → fs.node p = some (.file content) →
    ∃ n m, bundlePath n m <+: p
  inside : ∀ n m, NoBundleInside fs (bundlePath n m)

theorem bundlePath_ne_config (n : Text) (m : ℕ) (p : FilePath) :
  bundlePath n m ≠ configPath p
  := by
  intro heq
  have hlast := congrArg List.getLast? heq
  rw [bundlePath_eq_concat, configPath, List.getLast?_concat, List.getLast?_concat,
    Option.some.injEq] at hlast
  have hdigit := Text.isDigit_of_mem_decimal (n := m) (c := 'c') (by rw [hlast]; decide)
  contradiction

/-- A directory outside all versions has no `config.json`. -/
theorem Tidy.config_eq_none (h : Tidy fs) {p : FilePath} (hp : APPS_PATH <+: p)
    (hout : ∀ n m, ¬ bundlePath n m <+: p) :
  (walkEntry fs p).config = none
  := by
  simp only [walkEntry]
  split
  · rename_i content hfile
    obtain ⟨n, m, hbelow⟩ :=
      h.files _ content (hp.trans ( List.prefix_append p _)) hfile
    rcases prefix_concat_iff.mp hbelow with heq | hbelow
    · exact absurd heq (bundlePath_ne_config n m p)
    · exact absurd hbelow (hout n m)
  · rfl

/-- A scan can look at every directory, and a bundle it finds is a version. -/
theorem Tidy.isOciBundle (h : Tidy fs) {p : FilePath} (hp : APPS_PATH <+: p)
    (hdir : fs.isDir p = true) :
  ∃ found, isOciBundle (walkEntry fs p) = .ok found
    ∧ (found = true → ∃ n m, p = bundlePath n m)
  := by
  by_cases hin : ∃ n m, bundlePath n m <+: p
  · obtain ⟨n, m, q, rfl⟩ := hin
    obtain ⟨found, hfound, htop⟩ := h.inside n m q hdir
    use found, hfound
    intro htrue
    use n, m
    rw [htop htrue, List.append_nil]
  · use false
    constructor
    · have hnone : (walkEntry fs p).config = none := by
        apply h.config_eq_none hp
        intro n m hbelow
        exact hin ⟨n, m, hbelow⟩
      simp only [App.isOciBundle, hnone]
    · exact fun hfalse => absurd hfalse Bool.false_ne_true

/-- The bundles of an application are versions of it. -/
theorem Tidy.plainVersions (h : Tidy fs) (app_name : Text) :
  PlainVersions fs app_name
  := by
  rintro p hp ⟨hdir, hbundle⟩
  obtain ⟨found, hfound, hversion⟩ := h.isOciBundle (prefix_left_of_concat hp) hdir
  rw [hbundle, Except.ok.injEq] at hfound
  obtain ⟨n, m, rfl⟩ := hversion hfound.symm
  have hname : app_name = n := by
    simpa [bundlePath] using hp
  use m
  rw [hname]

theorem ociBundles_eq_ok {entries : List WalkEntry}
    (h : ∀ entry ∈ entries, ∃ found, isOciBundle entry = .ok found) :
  ∃ bundles, ociBundles entries = .ok bundles
  := by
  induction entries with
  | nil => exact ⟨[], rfl⟩
  | cons entry entries ih =>
      obtain ⟨found, hfound⟩ := h entry List.mem_cons_self
      obtain ⟨bundles, hbundles⟩ := ih fun e he => h e (List.mem_cons_of_mem entry he)
      rw [ociBundles, hfound, hbundles]
      exact ⟨_, rfl⟩

/-- A scan of a tidy disk raises no exception. -/
theorem Tidy.ociBundles (h : Tidy fs) (htop : APPS_PATH <+: top) :
  ∃ bundles, ociBundles (walk fs top) = .ok bundles
  := by
  apply ociBundles_eq_ok
  intro entry hentry
  obtain ⟨p, hp, hdir, rfl⟩ := mem_walk.mp hentry
  obtain ⟨found, hfound, -⟩ := h.isOciBundle (htop.trans hp) hdir
  use found

/-! ### What a directory tells -/

/-- Whether a directory is a bundle is told by whether a path is among the names of the directories
in it, unless it is not or cannot be told whatever is in it. -/
def ByRootPath (look : List Text → Except PyException Bool) : Prop :=
  (∃ e, ∀ dirnames, look dirnames = .error e) ∨ (∀ dirnames, look dirnames = .ok false)
    ∨ ∃ path : Json, ∀ dirnames, look dirnames = .ok (path.isIn dirnames)

theorem ByRootPath.bind {α : Type} {r : Except PyException α}
    {k : α → List Text → Except PyException Bool} (h : ∀ a, ByRootPath (k a)) :
  ByRootPath fun dirnames => r >>= fun a => k a dirnames
  := by
  cases r with
  | error e => exact Or.inl ⟨e, fun _ => rfl⟩
  | ok a => exact h a

theorem byRootPath_isOciBundle (dirpath : FilePath) (config : Option Content) :
  ByRootPath fun dirnames => isOciBundle ⟨dirpath, dirnames, config⟩
  := by
  have hfalse : ByRootPath fun _ => .ok false := Or.inr (Or.inl fun _ => rfl)
  cases config with
  | none => exact hfalse
  | some content =>
      apply ByRootPath.bind
      intro config
      apply ByRootPath.bind
      intro versioned
      split
      · exact hfalse
      · apply ByRootPath.bind
        intro rooted
        split
        · exact hfalse
        · apply ByRootPath.bind
          intro root
          apply ByRootPath.bind
          intro pathed
          split
          · exact hfalse
          · apply ByRootPath.bind
            intro path
            exact Or.inr (Or.inr ⟨path, fun _ => rfl⟩)

/-- With fewer directories in it a directory can still be looked at, and is no bundle if it was
none before. -/
theorem isOciBundle_of_subset {entry entry' : WalkEntry} {found : Bool}
    (hfound : isOciBundle entry = .ok found)
    (hconfig : entry'.config = none ∨ entry'.config = entry.config)
    (hdirnames : entry'.dirnames ⊆ entry.dirnames) :
  ∃ found', isOciBundle entry' = .ok found' ∧ (found' = true → found = true)
  := by
  obtain ⟨dirpath, dirnames, config⟩ := entry
  obtain ⟨dirpath', dirnames', config'⟩ := entry'
  rcases hconfig with rfl | rfl
  · exact ⟨false, rfl, fun h => absurd h Bool.false_ne_true⟩
  · rcases byRootPath_isOciBundle dirpath config' with ⟨e, he⟩ | hfalse | ⟨path, hpath⟩
    · cases hfound.symm.trans (he dirnames)
    · exact ⟨false, hfalse dirnames', fun h => absurd h Bool.false_ne_true⟩
    · obtain rfl : found = path.isIn dirnames :=
        Except.ok.inj (hfound.symm.trans (hpath dirnames))
      use path.isIn dirnames', hpath dirnames'
      cases path with
      | str name =>
          simp only [Json.isIn, List.contains_eq_mem, decide_eq_true_eq]
          exact fun hmem => hdirnames hmem
      | _ => exact fun h => h

theorem NoBundleInside.congr {top' : FilePath} (hinside : NoBundleInside fs' top')
    (h : ∀ r, fs.node (top ++ r) = fs'.node (top' ++ r)) :
  NoBundleInside fs top
  := by
  intro q hdir
  have hagree : ∀ r, fs.node (top ++ q ++ r) = fs'.node (top' ++ q ++ r) := by
    intro r
    simpa using h (q ++ r)
  rw [isOciBundle_of_agree hagree]
  apply hinside q
  rw [isDir_eq_true] at hdir ⊢
  rw [← h, hdir]

/-! ### Removing -/

/-- Nothing is on the second disk that is not on the first. -/
def Shrinks (fs fs' : Files) : Prop :=
  ∀ p, fs'.node p = none ∨ fs'.node p = fs.node p

theorem Shrinks.refl (fs : Files) :
  Shrinks fs fs
  := fun _ => Or.inr rfl

theorem shrinks_remove (fs : Files) (path : FilePath) :
  Shrinks fs (fs.remove path)
  := by
  intro p
  rw [node_remove]
  split
  · exact Or.inl rfl
  · exact Or.inr rfl

theorem shrinks_graft_root (hdir : fs.isDir path = true) :
  Shrinks fs (fs.graft path root)
  := by
  have hnode := isDir_eq_true.mp hdir
  intro p
  rw [node_graft]
  split
  · rename_i hbelow
    obtain ⟨q, rfl⟩ := hbelow
    cases q with
    | nil => simp [node_root, hnode]
    | cons name q => simp [node_root]
  · split
    · rename_i hnot habove
      right
      symm
      apply dir_above (q := path) (by simp [hnode]) habove
      rintro rfl
      exact hnot List.prefix_rfl
    · exact Or.inr rfl

theorem Shrinks.dir (h : Shrinks fs fs') {p : FilePath} (hdir : fs'.isDir p = true) :
  fs.isDir p = true
  := by
  rw [isDir_eq_true] at hdir ⊢
  rcases h p with hnone | hsame
  · rw [hnone] at hdir
    contradiction
  · rw [← hsame, hdir]

/-- A tidy disk stays tidy when something is removed, but the directory of all applications. -/
theorem Tidy.shrinks (h : Tidy fs) (hshrinks : Shrinks fs fs')
    (happs : fs'.isDir APPS_PATH = true) :
  Tidy fs'
  := by
  constructor
  · exact happs
  · exact fun n hdir => h.names n (hshrinks.dir hdir)
  · intro p content hp hfile
    rcases hshrinks p with hnone | hsame
    · rw [hnone] at hfile
      contradiction
    · apply h.files p content hp
      rw [← hsame, hfile]
  · intro n m q hdir
    obtain ⟨found, hfound, htop⟩ := h.inside n m q (hshrinks.dir hdir)
    have hconfig : (walkEntry fs' (bundlePath n m ++ q)).config = none
        ∨ (walkEntry fs' (bundlePath n m ++ q)).config
          = (walkEntry fs (bundlePath n m ++ q)).config := by
      simp only [walkEntry]
      rcases hshrinks (bundlePath n m ++ q ++ ["config.json".toList]) with hnone | hsame
      · rw [hnone]
        exact Or.inl rfl
      · rw [hsame]
        exact Or.inr rfl
    have hdirnames : (walkEntry fs' (bundlePath n m ++ q)).dirnames
        ⊆ (walkEntry fs (bundlePath n m ++ q)).dirnames := by
      intro name hname
      simp only [walkEntry, mem_subdirs, ← isDir_eq_true] at hname ⊢
      exact hshrinks.dir hname
    obtain ⟨found', hfound', hless⟩ := isOciBundle_of_subset hfound hconfig hdirnames
    exact ⟨found', hfound', fun htrue => htop (hless htrue)⟩

/-! ### Installing -/

/-- There are directories above a graft. -/
theorem isDir_graft_above (fs tree : Files) {p : FilePath} (habove : p <+: path) (hne : p ≠ path) :
  (fs.graft path tree).isDir p = true
  := by
  rw [isDir_eq_true, node_graft, if_neg, if_pos habove]
  intro hbelow
  exact hne (habove.eq_of_length_le hbelow.length_le)

/-- A tidy disk stays tidy when a tree without bundles inside comes to a version. -/
theorem Tidy.graft {tree : Files} {n : Text} (m : ℕ) (h : Tidy fs) (hname : PlainName n)
    (htree : NoBundleInside tree []) :
  Tidy (fs.graft (bundlePath n m) tree)
  := by
  have happs : APPS_PATH <+: bundlePath n m := List.prefix_append _ _
  constructor
  · exact isDir_graft_above fs tree happs (by simp [bundlePath])
  · intro n' hdir
    rw [isDir_eq_true, node_graft, if_neg] at hdir
    · split at hdir
      · rename_i habove
        have heq : n' = n := by
          rw [bundlePath_eq_concat] at habove
          simpa using habove
        rwa [heq]
      · exact h.names n' (isDir_eq_true.mpr hdir)
    · intro hbelow
      simpa [bundlePath] using hbelow.length_le
  · intro p content hp hfile
    rw [node_graft] at hfile
    split at hfile
    · use n, m
    · split at hfile
      · simp at hfile
      · exact h.files p content hp hfile
  · intro n' m'
    by_cases hsame : bundlePath n' m' = bundlePath n m
    · rw [hsame]
      exact htree.congr fun r => node_graft_append fs (bundlePath n m) tree r
    · have hapart : Apart (bundlePath n m) (bundlePath n' m') := by
        constructor
        · exact fun hbelow => hsame (hbelow.eq_of_length rfl).symm
        · exact fun hbelow => hsame (hbelow.eq_of_length rfl)
      apply (h.inside n' m').congr
      intro r
      have hbelow := hapart.below ( List.prefix_append (bundlePath n' m') r)
      exact node_graft_elsewhere _ _ hbelow.1 hbelow.2

/-! ### The calls -/

/-- What `opkg` leaves at a path has no bundle inside, and what it has installed is a bundle. -/
def PlainBundles : Call → Choice → Device → Prop
  | .opkgInstall _ path _, x, d =>
      (∀ tree, x.tree = some tree → NoBundleInside tree [])
        ∧ ((opkgInstall x d path).1.ok = true → ∃ tree, x.tree = some tree ∧ IsBundle tree [])
  | .opkgRemove _ _, x, _ => ∀ tree, x.tree = some tree → NoBundleInside tree []
  | _, _, _ => True

instance decidablePlainBundles : ∀ (c : Call) (x : Choice) (d : Device),
    Decidable (PlainBundles c x d)
  | .opkgInstall _ path _, x, d =>
      inferInstanceAs (Decidable
        ((∀ tree ∈ x.tree, NoBundleInside tree [])
          ∧ ((opkgInstall x d path).1.ok = true → ∃ tree ∈ x.tree, IsBundle tree [])))
  | .opkgRemove _ _, x, _ => inferInstanceAs (Decidable (∀ tree ∈ x.tree, NoBundleInside tree []))
  | .extractall _ _, _, _ | .opkgInfo _, _, _ | .runcState _, _, _ | .runcKill _ _, _, _
  | .runcDelete _, _, _ | .runcCreate _ _, _, _ | .runcStart _, _, _ | .isdir _, _, _
  | .exists_ _, _, _ | .walk _ _, _, _ | .listdir _, _, _ | .rmtree _, _, _ | .endtimeReached, _, _
  | .log _, _, _ => isTrue trivial

/-- What is installed or removed is a version of an application. -/
def VersionCall : Call → Prop
  | .opkgInstall _ path _ | .opkgRemove _ path => ∃ n m, PlainName n ∧ path = bundlePath n m
  | .rmtree path => ∃ n, APPS_PATH ++ [n] <+: path
  | _ => True

theorem Quiet.versionCall (c : Call) (hc : Quiet c) :
  VersionCall c
  := by
  cases c with
  | opkgInstall _ _ _ | opkgRemove _ _ | rmtree _ => exact hc.elim
  | _ => trivial

/-- The tree that is installed when `opkg` is given one whose top is a directory. -/
theorem node_mkdirs_nil {tree : Files} (hdir : tree.isDir [] = true) (p : FilePath) :
  (tree.mkdirs []).node p = tree.node p
  := by
  rw [node_mkdirs]
  split
  · rename_i hnil
    rw [List.prefix_nil.mp hnil, isDir_eq_true.mp hdir]
  · rfl

/-- A tidy disk stays tidy when versions are installed and removed. -/
theorem Tidy.perform {c : Call} {x : Choice} {d : Device} (h : Tidy d.fs) (hc : VersionCall c)
    (hx : PlainBundles c x d) :
  Tidy (perform c x d).2.fs
  := by
  have hcontainer {id : Text} (hid : ContainerCall id c) : Tidy (App.perform c x d).2.fs := by
    obtain ⟨k, hk⟩ := perform_containerCall (d := d) (x := x) hid
    rw [hk]
    exact h
  cases c with
  | runcState id | runcKill id signal | runcDelete id | runcCreate bundle_path id
  | runcStart id => exact hcontainer (show ContainerCall id _ from rfl)
  | opkgInstall app_name path app_pkg =>
      obtain ⟨n, m, hname, rfl⟩ := hc
      obtain ⟨htrees, hinstalled⟩ := hx
      by_cases hok : (opkgInstall x d (bundlePath n m)).1.ok = true
      · obtain ⟨tree, htree, hbundle⟩ := hinstalled hok
        change Tidy (opkgInstall x d (bundlePath n m)).2.fs
        rw [opkgInstall_ok hok, htree]
        apply h.graft m hname
        exact (htrees tree htree).congr fun r => node_mkdirs_nil hbundle.1 r
      · rcases opkgInstall_cases x d (bundlePath n m) with ⟨tree, -, -, heq⟩ | ⟨fs', hfs', heq⟩
        · rw [heq] at hok
          contradiction
        · change Tidy (opkgInstall x d (bundlePath n m)).2.fs
          rw [heq]
          rcases hfs' with rfl | ⟨tree, htree, rfl⟩
          · exact h
          · exact h.graft m hname (htrees tree htree)
  | opkgRemove app_name path =>
      obtain ⟨n, m, hname, rfl⟩ := hc
      by_cases hkind : x.kind = .fails
      · obtain ⟨fs', hfs', heq⟩ := opkgRemove_fails hkind d (bundlePath n m)
        change Tidy (opkgRemove x d (bundlePath n m)).2.fs
        rw [heq]
        rcases hfs' with rfl | ⟨tree, htree, rfl⟩
        · exact h
        · exact h.graft m hname (hx tree htree)
      · simp only [App.perform, opkgRemove, hkind, if_false]
        split
        · apply h.shrinks (shrinks_graft_root ‹_›)
          exact isDir_graft_above d.fs root ( List.prefix_append _ _) (by simp [bundlePath])
        · exact h
  | rmtree path =>
      obtain ⟨n, hpath⟩ := hc
      simp only [App.perform]
      split
      · apply h.shrinks (shrinks_remove d.fs path)
        rw [isDir_eq_true, node_remove_elsewhere, isDir_eq_true.mp h.apps_dir]
        intro hbelow
        have hlength := (hpath.trans hbelow).length_le
        simp [APPS_PATH] at hlength
      · exact h
  | log line => cases line <;> exact h
  | _ => exact h

end App
