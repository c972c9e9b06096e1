import MblCore.App.StartedBundle
import MblCore.App.Tidy

/-!
# The bundles a scan should find

A directory is the top of an OCI bundle when its `config.json` is an object with a version, and with
a root whose path leads from the directory to a directory.  The search compares that path with the
names of the directories that are there, and goes on with whatever JSON it reads.  So it finds just
the bundles when each path that leads to a directory is a plain name, and when it comes by no
`config.json` with which it fails.
-/

namespace App

open FileTree
open Loops (bind_eq_ok)
open Prog hiding pure throw bind

variable {fs : Files} {d : Device} {dir top : FilePath} {path : Text}

/-! ### Bundles -/

/-- The value of a key of an object. -/
def Json.field? (key : Text) : Json → Option Json
  | .obj fields => (fields.find? fun field => field.1 == key).map Prod.snd
  | _ => none

/-- The text of a string. -/
def Json.text? : Json → Option Text
  | .str s => some s
  | _ => none

/-- The path of the root file system, for a configuration that has a version. -/
def ociRootPath (config : Json) : Option Text := do
  let _ ← config.field? "ociVersion".toList
  let root ← config.field? "root".toList
  let path ← root.field? "path".toList
  path.text?

/-- Where the names lead to from a directory, one after the other. -/
def follow (fs : Files) : FilePath → List Text → Option FilePath
  | p, [] => if fs.isDir p then some p else none
  | p, name :: names =>
      if fs.isDir p then
        if name = [] ∨ name = ".".toList then follow fs p names
        else if name = "..".toList then follow fs p.dropLast names
        else follow fs (p ++ [name]) names
      else none

/-- A path leads to a directory, from the root when it is absolute. -/
def namesDir (fs : Files) (dir : FilePath) (path : Text) : Bool :=
  (follow fs (if path.head? = some '/' then [] else dir) (path.splitOn '/')).isSome

/-- What is in the `config.json` of a directory. -/
def configIn (fs : Files) (dir : FilePath) : Option Content :=
  (walkEntry fs dir).config

/-- A directory is the top of an OCI bundle. -/
def IsOciTop (fs : Files) (dir : FilePath) : Prop :=
  fs.isDir dir = true ∧ ∃ config path, configIn fs dir = some (.json config) ∧
    ociRootPath config = some path ∧ namesDir fs dir path = true

/-- The search returns just the tops of bundles at and below a directory. -/
def FindsBundles (top : FilePath) (d : Device) : Prop :=
  ∃ bundles, (∀ x xs, run machine (getOciBundlePaths top) (x :: xs) d = (.returned bundles, xs, d)) ∧
    bundles.Nodup ∧ ∀ dir, dir ∈ bundles ↔ top <+: dir ∧ IsOciTop d.fs dir

/-! ### What the search reads -/

/-- A document that is no object, and that is not known to be without one of the keys. -/
def Json.Mistaken (keys : List Text) (document : Json) : Prop :=
  (∀ fields, document ≠ .obj fields) ∧ ∀ key ∈ keys, document.contains key ≠ .ok false

/-- The search fails with what is in a `config.json`. -/
def Content.Unreadable : Content → Prop
  | .undecodable | .notJson => True
  | .json config => config.Mistaken ["ociVersion".toList, "root".toList]
      ∨ ∃ root, (config.field? "ociVersion".toList).isSome = true ∧
          config.field? "root".toList = some root ∧ root.Mistaken ["path".toList]

/-- The search can read each `config.json`, and each path of a root file system that leads to a
directory is a plain name. -/
def PlainConfigs (fs : Files) (top : FilePath) : Prop :=
  ∀ dir, top <+: dir → fs.isDir dir = true → ∀ content, configIn fs dir = some content →
    ¬ content.Unreadable ∧
      ∀ config path, content = .json config → ociRootPath config = some path →
        namesDir fs dir path = true → PlainName path

/-- Whatever is in a directory has a plain name. -/
def EntriesNamed (fs : Files) : Prop :=
  ∀ p name, fs.node (p ++ [name]) ≠ none → PlainName name

/-! ### Reading a configuration -/

theorem contains_obj (key : Text) (fields : List (Text × Json)) :
  (Json.obj fields).contains key = .ok ((Json.obj fields).field? key).isSome
  := by
  simp only [Json.contains, Json.field?, Option.isSome_map, List.isSome_find?]

theorem getItem_of_field? {key : Text} {document value : Json}
    (h : document.field? key = some value) :
  document.getItem key = .ok value
  := by
  cases document with
  | obj fields =>
      simp only [Json.field?, Option.map_eq_some_iff] at h
      obtain ⟨field, hfield, rfl⟩ := h
      simp only [Json.getItem, hfield]
  | _ => contradiction

theorem getItem_of_not_obj {key : Text} {document : Json} (h : ∀ fields, document ≠ .obj fields) :
  document.getItem key = .error ⟨.TypeError, []⟩
  := by
  cases document with
  | obj fields => exact absurd rfl (h fields)
  | _ => rfl

theorem field?_of_not_obj {key : Text} {document : Json} (h : ∀ fields, document ≠ .obj fields) :
  document.field? key = none
  := by
  cases document with
  | obj fields => exact absurd rfl (h fields)
  | _ => rfl

/-- A document that is no object cannot be asked for any key, or it can be asked for all. -/
theorem contains_of_not_obj {document : Json} (h : ∀ fields, document ≠ .obj fields) :
  (∃ e, ∀ key, document.contains key = .error e) ∨
    ∃ has : Text → Bool, ∀ key, document.contains key = .ok (has key)
  := by
  cases document with
  | obj fields => exact absurd rfl (h fields)
  | arr items => exact Or.inr ⟨_, fun _ => rfl⟩
  | str s => exact Or.inr ⟨_, fun _ => rfl⟩
  | _ => exact Or.inl ⟨_, fun _ => rfl⟩

/-- Whether the path of a root is among the names of the directories. -/
def rootAmong (dirnames : List Text) (root : Json) : Except PyException Bool := do
  if (← root.contains "path".toList) = false then return false
  else return (← root.getItem "path".toList).isIn dirnames

theorem isOciBundle_json {entry : WalkEntry} {config : Json}
    (hconfig : entry.config = some (.json config)) :
  isOciBundle entry = (do
    if (← config.contains "ociVersion".toList) = false then return false
    else if (← config.contains "root".toList) = false then return false
    else rootAmong entry.dirnames (← config.getItem "root".toList))
  := by
  rw [isOciBundle, hconfig]
  rfl

/-- The root of a configuration cannot be read. -/
theorem rootAmong_of_mistaken {root : Json} (h : root.Mistaken ["path".toList])
    (dirnames : List Text) :
  ∃ e, rootAmong dirnames root = .error e
  := by
  obtain ⟨hno, hkeys⟩ := h
  have hpath := hkeys _ List.mem_cons_self
  rw [rootAmong, getItem_of_not_obj hno]
  rcases contains_of_not_obj hno with ⟨e, he⟩ | ⟨has, hhas⟩
  · exact ⟨e, by rw [he]; rfl⟩
  · rw [hhas] at hpath ⊢
    cases hfound : has "path".toList with
    | false => exact absurd (congrArg Except.ok hfound) hpath
    | true => exact ⟨_, rfl⟩

/-- The path of a root, when it can be read. -/
theorem rootAmong_of_not_mistaken {root : Json} (h : ¬ root.Mistaken ["path".toList])
    (dirnames : List Text) :
  rootAmong dirnames root
    = .ok (((root.field? "path".toList).map (Json.isIn dirnames)).getD false)
  := by
  by_cases hobj : ∃ fields, root = .obj fields
  · obtain ⟨fields, rfl⟩ := hobj
    rw [rootAmong, contains_obj]
    cases hpath : (Json.obj fields).field? "path".toList with
    | none => rfl
    | some path =>
        rw [getItem_of_field? hpath]
        rfl
  · have hno : ∀ fields, root ≠ .obj fields := fun fields heq => hobj ⟨fields, heq⟩
    have hpath : root.contains "path".toList = .ok false := by
      by_contra hpath
      apply h
      use hno
      simpa using hpath
    rw [rootAmong, field?_of_not_obj hno, hpath]
    rfl

/-- The search fails with a configuration that it cannot read. -/
theorem isOciBundle_of_unreadable {entry : WalkEntry} {content : Content}
    (hconfig : entry.config = some content) (h : content.Unreadable) :
  ∃ e, isOciBundle entry = .error e
  := by
  cases content with
  | undecodable => exact ⟨_, by rw [isOciBundle, hconfig]; rfl⟩
  | notJson => exact ⟨_, by rw [isOciBundle, hconfig]; rfl⟩
  | json config =>
      rw [isOciBundle_json hconfig]
      rcases h with ⟨hno, hkeys⟩ | ⟨root, hversion, hroot, hmistaken⟩
      · rw [getItem_of_not_obj hno]
        rcases contains_of_not_obj hno with ⟨e, he⟩ | ⟨has, hhas⟩
        · exact ⟨e, by rw [he]; rfl⟩
        · have hversion := hkeys "ociVersion".toList (by simp)
          have hroot := hkeys "root".toList (by simp)
          rw [hhas] at hversion hroot
          rw [hhas, hhas]
          cases hfound : has "ociVersion".toList with
          | false => exact absurd (congrArg Except.ok hfound) hversion
          | true =>
              cases hfound' : has "root".toList with
              | false => exact absurd (congrArg Except.ok hfound') hroot
              | true => exact ⟨_, rfl⟩
      · obtain ⟨e, he⟩ := rootAmong_of_mistaken hmistaken entry.dirnames
        cases config with
        | obj fields =>
            rw [contains_obj, contains_obj, hversion, hroot, getItem_of_field? hroot]
            exact ⟨e, he⟩
        | _ => contradiction

theorem isIn_eq_true {document : Json} {dirnames : List Text} :
  document.isIn dirnames = true ↔ ∃ path, document.text? = some path ∧ path ∈ dirnames
  := by
  cases document with
  | str s => simp [Json.isIn, Json.text?]
  | _ => simp [Json.isIn, Json.text?]

theorem isIn_getD_eq_true {document : Option Json} {dirnames : List Text} :
  (document.map (Json.isIn dirnames)).getD false = true
    ↔ ∃ path, document.bind Json.text? = some path ∧ path ∈ dirnames
  := by
  cases document with
  | none => simp
  | some document => exact isIn_eq_true

/-- Whether a configuration that can be read is that of a bundle. -/
theorem isOciBundle_of_readable {entry : WalkEntry} {config : Json}
    (hconfig : entry.config = some (.json config)) (h : ¬ (Content.json config).Unreadable) :
  ∃ found, isOciBundle entry = .ok found ∧
    (found = true ↔ ∃ path, ociRootPath config = some path ∧ path ∈ entry.dirnames)
  := by
  rw [Content.Unreadable, not_or, not_exists] at h
  obtain ⟨hmistaken, hroots⟩ := h
  rw [isOciBundle_json hconfig]
  by_cases hobj : ∃ fields, config = .obj fields
  · obtain ⟨fields, rfl⟩ := hobj
    rw [contains_obj, contains_obj, ociRootPath]
    cases hversion : (Json.obj fields).field? "ociVersion".toList with
    | none => exact ⟨false, rfl, by simp⟩
    | some version =>
        cases hroot : (Json.obj fields).field? "root".toList with
        | none => exact ⟨false, rfl, by simp⟩
        | some root =>
            have hread : ¬ root.Mistaken ["path".toList] := fun hroot' =>
              hroots root ⟨by rw [hversion]; rfl, hroot, hroot'⟩
            rw [getItem_of_field? hroot]
            exact ⟨_, rootAmong_of_not_mistaken hread entry.dirnames, isIn_getD_eq_true⟩
  · have hno : ∀ fields, config ≠ .obj fields := fun fields heq => hobj ⟨fields, heq⟩
    have hnone : ociRootPath config = none := by
      rw [ociRootPath, field?_of_not_obj hno]
      rfl
    rcases contains_of_not_obj hno with ⟨e, he⟩ | ⟨has, hhas⟩
    · exact absurd ⟨hno, fun key _ => by simp [he]⟩ hmistaken
    · rw [hhas, hhas, getItem_of_not_obj hno]
      cases hversion : has "ociVersion".toList with
      | false => exact ⟨false, rfl, by simp [hnone]⟩
      | true =>
          cases hroot : has "root".toList with
          | false => exact ⟨false, rfl, by simp [hnone]⟩
          | true =>
              apply absurd _ hmistaken
              use hno
              intro key hkey
              rw [hhas]
              rcases List.mem_pair.mp hkey with rfl | rfl
              · rw [hversion]
                simp
              · rw [hroot]
                simp

/-! ### The search -/

/-- A plain name leads to the directory of that name. -/
theorem namesDir_of_plain (hpath : PlainName path) (hdir : fs.isDir dir = true) :
  namesDir fs dir path = fs.isDir (dir ++ [path])
  := by
  obtain ⟨hne, hslash, hdot, hdots⟩ := hpath
  have hhead : path.head? ≠ some '/' := fun h => hslash (List.mem_of_mem_head? h)
  rw [namesDir, List.splitOn_eq_singleton hslash, if_neg hhead, follow, if_pos hdir,
    if_neg (not_or.mpr ⟨hne, hdot⟩), if_neg hdots, follow]
  split
  · rename_i hisDir
    rw [hisDir]
    rfl
  · rename_i hisDir
    rw [Bool.not_eq_true] at hisDir
    rw [hisDir]
    rfl

/-- With plain paths, the search takes a directory for a bundle when it is one. -/
theorem isBundle_iff_isOciTop (hnames : EntriesNamed fs) (hdir : fs.isDir dir = true)
    (hplain : ∀ content, configIn fs dir = some content → ¬ content.Unreadable ∧
      ∀ config path, content = .json config → ociRootPath config = some path →
        namesDir fs dir path = true → PlainName path) :
  IsBundle fs dir ↔ IsOciTop fs dir
  := by
  rw [IsBundle, IsOciTop]
  apply and_congr_right
  intro _
  cases hconfig : configIn fs dir with
  | none =>
      have hnone : isOciBundle (walkEntry fs dir) = .ok false := by
        rw [isOciBundle, show (walkEntry fs dir).config = none from hconfig]
      simp [hnone]
  | some content =>
      obtain ⟨hreadable, hpaths⟩ := hplain content hconfig
      cases content with
      | undecodable => exact absurd trivial hreadable
      | notJson => exact absurd trivial hreadable
      | json config =>
          obtain ⟨found, hfound, hiff⟩ := isOciBundle_of_readable hconfig hreadable
          rw [hfound, Except.ok.injEq, hiff]
          constructor
          · rintro ⟨path, hpath, hmem⟩
            have hnode : fs.node (dir ++ [path]) = some .dir := mem_subdirs.mp hmem
            have hname : PlainName path := hnames dir path (by simp [hnode])
            refine ⟨config, path, rfl, hpath, ?_⟩
            rw [namesDir_of_plain hname hdir, isDir_eq_true]
            exact hnode
          · rintro ⟨config', path, heq, hpath, hleads⟩
            obtain rfl := Content.json.inj (Option.some.inj heq)
            refine ⟨path, hpath, mem_subdirs.mpr ?_⟩
            have hname := hpaths config path rfl hpath hleads
            rw [namesDir_of_plain hname hdir, isDir_eq_true] at hleads
            exact hleads

/-- What the search returns. -/
theorem run_getOciBundlePaths (top : FilePath) (d : Device) (x : Choice) (xs : List Choice) :
  run machine (getOciBundlePaths top) (x :: xs) d
    = run machine (ofExcept (ociBundles (walk d.fs top))) xs d
  := rfl

/-- A search that finds just the bundles can read each configuration, and compares plain names. -/
theorem plainConfigs_of_ociBundles {bundles : List FilePath} (hnames : EntriesNamed fs)
    (hbundles : ociBundles (walk fs top) = .ok bundles)
    (hmem : ∀ dir, dir ∈ bundles ↔ top <+: dir ∧ IsOciTop fs dir) :
  PlainConfigs fs top
  := by
  intro dir htop hdir content hconfig
  have hentry : walkEntry fs dir ∈ walk fs top := mem_walk.mpr ⟨dir, htop, hdir, rfl⟩
  obtain ⟨found, hfound⟩ := isOciBundle_of_ociBundles hbundles _ hentry
  have hreadable : ¬ content.Unreadable := by
    intro hunreadable
    obtain ⟨e, he⟩ := isOciBundle_of_unreadable hconfig hunreadable
    rw [hfound] at he
    contradiction
  use hreadable
  rintro config path rfl hpath hleads
  have hbundle : dir ∈ bundles := (hmem dir).mpr ⟨htop, hdir, config, path, hconfig, hpath, hleads⟩
  have htaken := ((mem_ociBundles_walk hbundles).mp hbundle).2.2
  obtain ⟨found', hfound', hiff⟩ := isOciBundle_of_readable hconfig hreadable
  obtain rfl : found' = true := Except.ok.inj (hfound'.symm.trans htaken)
  obtain ⟨path', hpath', hdirname⟩ := hiff.mp rfl
  obtain rfl := Option.some.inj (hpath.symm.trans hpath')
  apply hnames dir path
  rw [mem_subdirs.mp hdirname]
  simp

/-- A search that can read each configuration, and compares plain names, finds just the bundles. -/
theorem ociBundles_of_plainConfigs (hnames : EntriesNamed fs) (hplain : PlainConfigs fs top) :
  ∃ bundles, ociBundles (walk fs top) = .ok bundles ∧
    ∀ dir, dir ∈ bundles ↔ top <+: dir ∧ IsOciTop fs dir
  := by
  have hread : ∀ entry ∈ walk fs top, ∃ found, isOciBundle entry = .ok found := by
    intro entry hentry
    obtain ⟨dir, htop, hdir, rfl⟩ := mem_walk.mp hentry
    cases hconfig : configIn fs dir with
    | none =>
        use false
        rw [isOciBundle, show (walkEntry fs dir).config = none from hconfig]
    | some content =>
        have hreadable := (hplain dir htop hdir content hconfig).1
        cases content with
        | undecodable => exact absurd trivial hreadable
        | notJson => exact absurd trivial hreadable
        | json config =>
            obtain ⟨found, hfound, -⟩ := isOciBundle_of_readable hconfig hreadable
            exact ⟨found, hfound⟩
  obtain ⟨bundles, hbundles⟩ := ociBundles_eq_ok hread
  use bundles, hbundles
  intro dir
  rw [mem_ociBundles_walk hbundles]
  apply and_congr_right
  intro htop
  constructor
  · exact fun h => (isBundle_iff_isOciTop hnames h.1 (hplain dir htop h.1)).mp h
  · exact fun h => (isBundle_iff_isOciTop hnames h.1 (hplain dir htop h.1)).mpr h

/-- The search finds just the bundles when it can read each `config.json`, and each path of a root
file system that leads to a directory is a plain name. -/
theorem findsBundles_iff {d : Device} (hnames : EntriesNamed d.fs) (top : FilePath) :
  FindsBundles top d ↔ PlainConfigs d.fs top
  := by
  constructor
  · rintro ⟨bundles, hruns, -, hmem⟩
    have hrun := congrArg Prod.fst (hruns truthfully [])
    rw [run_getOciBundlePaths, run_ofExcept_returned] at hrun
    exact plainConfigs_of_ociBundles hnames hrun hmem
  · intro hplain
    obtain ⟨bundles, hbundles, hmem⟩ := ociBundles_of_plainConfigs hnames hplain
    refine ⟨bundles, ?_, (nodup_walk d.fs top).sublist (ociBundles_sublist hbundles), hmem⟩
    intro x xs
    rw [run_getOciBundlePaths, hbundles]
    rfl

theorem configIn_eq_some {content : Content} :
  configIn fs dir = some content ↔ fs.node (configPath dir) = some (.file content)
  := by
  rw [configIn, walkEntry, ← configPath]
  dsimp only
  split
  · rename_i content' hnode
    rw [hnode, Option.some.injEq, Option.some.injEq, Node.file.injEq]
  · rename_i hnone
    constructor
    · intro h
      contradiction
    · exact fun h => absurd h (hnone content)

/-- The entries of a tree have plain names when the paths in it end with such names. -/
theorem entriesNamed_of_names (h : ∀ p ∈ fs.names, ∀ name ∈ p.getLast?, PlainName name) :
  EntriesNamed fs
  := by
  intro p name hnode
  exact h _ (fs.mem_names hnode) name (by simp)

/-- A device with nothing but a bundle on its disk. -/
def deviceWith (bundle : Files) : Device :=
  { bareDevice with fs := bundle }

/-- A bundle whose configuration has another path of the root file system. -/
def bundleWithRootPath (path : Text) : Files :=
  (root.mkdirs ["rootfs".toList, "etc".toList]).addFile [] "config.json".toList
    (.json (configOf path)) rfl rfl

/-- A bundle with a `config.json` in its root file system that is not JSON. -/
def bundleWithNotJson : Files :=
  plainBundle.addFile ["rootfs".toList] "config.json".toList .notJson rfl rfl

/-- A bundle whose root file system is called by its plain name is found. -/
theorem findsBundles_plainBundle :
  FindsBundles [] (deviceWith plainBundle)
  := by
  have hnames : EntriesNamed (deviceWith plainBundle).fs := entriesNamed_of_names (by decide)
  apply (findsBundles_iff hnames []).mpr
  intro dir _ _ content hconfig
  have hdir : dir = [] := by
    have hnode : plainBundle.node (configPath dir) = some (.file content) :=
      configIn_eq_some.mp hconfig
    have htop : ∀ p ∈ plainBundle.names, p.getLast? = some "config.json".toList →
        p.dropLast = [] := by decide
    have hmem : configPath dir ∈ plainBundle.names := plainBundle.mem_names (by simp [hnode])
    have hdrop := htop _ hmem List.getLast?_concat
    rwa [configPath, List.dropLast_concat] at hdrop
  subst hdir
  obtain rfl : Content.json (configOf "rootfs".toList) = content := Option.some.inj hconfig
  constructor
  · rintro (⟨hno, -⟩ | ⟨root, -, hroot, hno, -⟩)
    · exact hno _ rfl
    · obtain rfl := Option.some.inj hroot
      exact hno _ rfl
  · rintro config path heq hpath -
    obtain rfl := Content.json.inj heq
    obtain rfl : "rootfs".toList = path := Option.some.inj hpath
    decide

/-- The search fails with a file in a root file system that is not JSON, and it does not find a
bundle whose root file system is called `./rootfs`. -/
theorem not_findsBundles :
  ¬ FindsBundles [] (deviceWith bundleWithNotJson) ∧
    ¬ FindsBundles [] (deviceWith (bundleWithRootPath "./rootfs".toList))
  := by
  constructor
  · rintro ⟨bundles, hruns, -⟩
    have hrun := congrArg Prod.fst (hruns truthfully [])
    rw [run_getOciBundlePaths, run_ofExcept_returned] at hrun
    have hraises : ociBundles (walk (deviceWith bundleWithNotJson).fs [])
        = .error ⟨.JSONDecodeError, []⟩ := rfl
    rw [hraises] at hrun
    contradiction
  · rintro ⟨bundles, hruns, -, hmem⟩
    have hrun := congrArg Prod.fst (hruns truthfully [])
    rw [run_getOciBundlePaths, run_ofExcept_returned] at hrun
    have hnone : ociBundles (walk (deviceWith (bundleWithRootPath "./rootfs".toList)).fs [])
        = .ok [] := rfl
    obtain rfl := Except.ok.inj (hnone.symm.trans hrun)
    have htop : IsOciTop (deviceWith (bundleWithRootPath "./rootfs".toList)).fs [] :=
      ⟨rfl, _, _, rfl, rfl, rfl⟩
    exact List.not_mem_nil ((hmem []).mpr ⟨List.prefix_rfl, htop⟩)

end App
