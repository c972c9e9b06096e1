import MblCore.App.Bundles

/-!
# The name of a package and the versions of an application

What `get_app_name` makes of the output of `opkg info`, and what `_get_app_bundle_paths` makes
of the directories it comes by.
-/

namespace App

open FileTree
open Loops (bind_eq_error)
open Prog hiding pure throw bind

/-! ### The name of a package -/

/-- The name of an application, or the exception that is raised in its place. -/
def appNameOf (app_pkg : Text) (result : CmdResult) : Except PyException Text :=
  match result.stdout.text with
  | none => .error ⟨.UnicodeDecodeError, []⟩
  | some text =>
      if result.ok then
        match parseControlData app_pkg text with
        | .error e =>
            if e.cls = .AppInfoParserError then
              .error ⟨.AppIdError, cmdMessage "Getting the app name from '".toList app_pkg
                "' failed, error: ".toList e.msg []⟩
            else .error e
        | .ok pkg_info =>
            match pkg_info.lookup "Package".toList with
            | some app_name => .ok app_name
            | none => .error ⟨.KeyError, []⟩
      else .error ⟨.AppIdError, cmdMessage "Getting the app name from '".toList app_pkg
        "' failed, error: ".toList (cmdMessage "Getting package info from '".toList app_pkg
          "' failed, error: ".toList text []) []⟩

theorem getAppName_eq (app_pkg : Text) :
  getAppName app_pkg = issue (.opkgInfo app_pkg) >>= fun result =>
    ofExcept (appNameOf app_pkg result)
  := by
  change (Prog.call (Call.opkgInfo app_pkg) _ : Py Text) = Prog.call (Call.opkgInfo app_pkg) _
  congr 1
  funext result
  obtain ⟨ok, returncode, text, json⟩ := result
  cases text with
  | none => rfl
  | some text =>
      cases ok with
      | false => rfl
      | true =>
          cases hparse : parseControlData app_pkg text with
          | error e =>
              by_cases he : e.cls = .AppInfoParserError <;>
                simp [Prog.bind, attempt, decode, ofExcept, appNameOf, hparse, he, Bind.bind,
                  Pure.pure]
          | ok pkg_info =>
              cases hname : pkg_info.lookup "Package".toList <;>
                simp only [Prog.bind, attempt, decode, ofExcept, appNameOf, hparse, hname,
                  Bind.bind, Pure.pure, if_true]

/-- A line of control data cannot be taken apart when it has more than one colon. -/
theorem parseLine_eq_error {line : Text} :
  (∃ e, parseLine line = .error e) ↔ 2 < (line.splitOn ':').length
  := by
  unfold parseLine
  have hne := List.splitOn_ne_nil ':' line
  split
  · rename_i h
    simp [h]
  · rename_i h
    simp [h]
  · rename_i h1 h2
    match hparts : line.splitOn ':' with
    | [] => contradiction
    | [x] => exact absurd hparts (h1 x)
    | [x, y] => exact absurd hparts (h2 x y)
    | _ :: _ :: _ :: _ => simp

theorem parseLine_error_cls {line : Text} {e : PyException} (h : parseLine line = .error e) :
  e.cls = .ValueError
  := by
  unfold parseLine at h
  split at h
  · contradiction
  · contradiction
  · rw [← Except.error.inj h]

theorem parseLines_eq_error {lines : List Text} {pkg_info : List (Text × Text)} :
  (∃ e, parseLines lines pkg_info = .error e)
    ↔ ∃ line ∈ lines, 2 < (line.splitOn ':').length
  := by
  induction lines generalizing pkg_info with
  | nil => simp [parseLines]
  | cons line lines ih =>
      simp only [parseLines, bind_eq_error, List.exists_mem_cons_iff, ← parseLine_eq_error]
      cases hline : parseLine line with
      | error e => simp
      | ok entry =>
          have hrest : ∀ pkg_info, (∃ e, parseLines lines pkg_info = .error e)
              ↔ ∃ line ∈ lines, ∃ e, parseLine line = .error e := by
            intro pkg_info
            rw [ih]
            simp only [parseLine_eq_error]
          cases entry <;> simp [hrest]

theorem parseLines_error_cls {lines : List Text} {pkg_info : List (Text × Text)}
    {e : PyException} (h : parseLines lines pkg_info = .error e) :
  e.cls = .ValueError
  := by
  induction lines generalizing pkg_info with
  | nil => contradiction
  | cons line lines ih =>
      rcases bind_eq_error.mp h with h | ⟨entry, -, h⟩
      · exact parseLine_error_cls h
      · cases entry with
        | none => exact ih h
        | some entry => exact ih h

/-- What `opkg info` prints cannot be decoded, or it is control data with a line with more than
one colon. -/
def infoFails (result : CmdResult) : Bool :=
  match result.stdout.text with
  | none => true
  | some text => result.ok && (text.splitOn '\n').any fun line => 2 < (line.splitOn ':').length

/-- A package cannot be named with an `AppIdError`, or with an exception that the update manager
does not expect. -/
theorem appNameOf_cases (app_pkg : Text) (result : CmdResult) :
  (infoFails result = true ∧ ∃ e, appNameOf app_pkg result = .error e
      ∧ (e.cls = .UnicodeDecodeError ∨ e.cls = .ValueError))
    ∨ infoFails result = false ∧ ∀ e, appNameOf app_pkg result = .error e → e.cls = .AppIdError
  := by
  obtain ⟨ok, returncode, text, json⟩ := result
  cases text with
  | none => exact Or.inl ⟨rfl, _, rfl, Or.inl rfl⟩
  | some text =>
      cases ok with
      | false =>
          right
          refine ⟨rfl, fun e h => ?_⟩
          simp only [appNameOf, Bool.false_eq_true, if_false, Except.error.injEq] at h
          rw [← h]
      | true =>
          have hiff : infoFails ⟨true, returncode, { text := some text, json := json }⟩ = true
              ↔ ∃ e, parseLines (text.splitOn '\n') [] = .error e := by
            rw [parseLines_eq_error]
            simp [infoFails]
          cases hlines : parseLines (text.splitOn '\n') [] with
          | error e =>
              have hcls := parseLines_error_cls hlines
              have hparse : parseControlData app_pkg text = .error e := by
                rw [parseControlData, hlines]
                rfl
              left
              refine ⟨hiff.mpr ⟨e, hlines⟩, e, ?_, Or.inr hcls⟩
              simp [appNameOf, hparse, hcls]
          | ok pkg_info =>
              right
              constructor
              · rw [Bool.eq_false_iff, Ne, hiff, hlines]
                simp
              · intro e h
                simp only [appNameOf, parseControlData, hlines, if_true] at h
                cases hname : pkg_info.lookup "Package".toList with
                | none =>
                    simp only [hname, bind, Except.bind, if_true, Except.error.injEq] at h
                    rw [← h]
                | some app_name =>
                    simp only [hname, bind, Except.bind, reduceCtorEq, if_false, pure,
                      Except.pure] at h

/-! ### The versions of an application -/

/-- The sorted bundles among the directories that `os.walk` comes by. -/
def sortedBundles (entries : List WalkEntry) : Except PyException (List FilePath) :=
  ociBundles entries >>= humanSort

/-- The current and next paths by the directories that `os.walk` comes by. -/
def bundlePathsOf (app_name : Text) (app_parent_dir : FilePath) (entries : List WalkEntry) :
    Except PyException (Option (Option FilePath × FilePath)) := do
  let app_version_dirs ← sortedBundles entries
  match app_version_dirs.head?, app_version_dirs.getLast? with
  | some current_path, some last =>
      match intOf? (versionName app_name app_parent_dir last) with
      | none => .error ⟨.ValueError, []⟩
      | some latest_app_version =>
          .ok (some (some current_path,
            joinPath app_parent_dir (intText (latest_app_version + 1))))
  | _, _ => .ok none

theorem getAppBundlePaths_eq (app_name : Text) :
  getAppBundlePaths app_name
    = issue (.isdir (joinPath APPS_INSTALLATION_PATH app_name)) >>= fun found =>
      if found then
        issue (.walk (joinPath APPS_INSTALLATION_PATH app_name) app_name) >>= fun entries =>
          ofExcept (bundlePathsOf app_name (joinPath APPS_INSTALLATION_PATH app_name) entries)
      else pure (some (none, joinPath (joinPath APPS_INSTALLATION_PATH app_name) "0".toList))
  := by
  rw [getAppBundlePaths]
  congr 1
  funext found
  cases found with
  | false => rfl
  | true =>
      simp only [if_true]
      change (Prog.call (Call.walk _ _) _ : Py _) = Prog.call (Call.walk _ _) _
      congr 1
      funext entries
      simp only [Prog.bind, bundlePathsOf, sortedBundles]
      generalize ociBundles entries = result
      cases result with
      | error e => rfl
      | ok bundles =>
          simp only [Prog.bind, ofExcept, Bind.bind, Except.bind, Pure.pure]
          generalize humanSort bundles = sorted
          cases sorted with
          | error e => rfl
          | ok app_version_dirs =>
              simp only [Prog.bind]
              cases app_version_dirs.head? with
              | none => rfl
              | some current_path =>
                  cases app_version_dirs.getLast? with
                  | none => rfl
                  | some last =>
                      dsimp only
                      cases intOf? _ <;> rfl

/-- Run the first of the sorted bundles and remove the others. -/
def runFirstOf (name : Text) : List FilePath → Py Unit
  | [] => pure ()
  | valid_version :: invalid_versions =>
      runApp name valid_version >>= fun _ => forEach invalid_versions rmtree

theorem runAppFromParentDir_eq (name : Text) :
  runAppFromParentDir name
    = issue (.isdir (joinPath APPS_PATH name)) >>= fun found =>
      if found then
        issue (.walk (joinPath APPS_PATH name) name) >>= fun entries =>
          ofExcept (sortedBundles entries) >>= runFirstOf name
      else raise .AppNotInstalled ("'".toList ++ name ++ "' is not installed".toList)
  := by
  rw [runAppFromParentDir]
  congr 1
  funext found
  cases found with
  | false => rfl
  | true =>
      simp only [if_true]
      change (Prog.call (Call.walk _ _) _ : Py _) = Prog.call (Call.walk _ _) _
      congr 1
      funext entries
      simp only [Prog.bind, sortedBundles]
      generalize ociBundles entries = result
      cases result with
      | error e => rfl
      | ok bundles =>
          change ofExcept (humanSort bundles) >>= _ = ofExcept (humanSort bundles) >>= _
          congr 1

theorem isOciBundle_error {entry : WalkEntry} {e : PyException}
    (h : isOciBundle entry = .error e) :
  e.cls ∈ [.UnicodeDecodeError, .JSONDecodeError, .KeyError, .TypeError]
  := by
  have hcontains {key : Text} {document : Json} {e : PyException}
      (h : document.contains key = .error e) :
      e.cls ∈ [.UnicodeDecodeError, .JSONDecodeError, .KeyError, .TypeError] := by
    simp [Json.contains_error h]
  have hgetItem {key : Text} {document : Json} {e : PyException}
      (h : document.getItem key = .error e) :
      e.cls ∈ [.UnicodeDecodeError, .JSONDecodeError, .KeyError, .TypeError] := by
    rcases Json.getItem_error h with h | h <;> simp [h]
  unfold isOciBundle at h
  split at h
  · contradiction
  · rcases bind_eq_error.mp h with h | ⟨config, -, h⟩
    · rcases Content.load_error h with h | h <;> simp [h]
    · rcases bind_eq_error.mp h with h | ⟨found, -, h⟩
      · exact hcontains h
      · split at h
        · contradiction
        · rcases bind_eq_error.mp h with h | ⟨found, -, h⟩
          · exact hcontains h
          · split at h
            · contradiction
            · rcases bind_eq_error.mp h with h | ⟨root, -, h⟩
              · exact hgetItem h
              · rcases bind_eq_error.mp h with h | ⟨found, -, h⟩
                · exact hcontains h
                · split at h
                  · contradiction
                  · rcases bind_eq_error.mp h with h | ⟨path, -, h⟩
                    · exact hgetItem h
                    · contradiction

theorem ociBundles_error {entries : List WalkEntry} {e : PyException}
    (h : ociBundles entries = .error e) :
  e.cls ∈ [.UnicodeDecodeError, .JSONDecodeError, .KeyError, .TypeError]
  := by
  induction entries with
  | nil => contradiction
  | cons entry entries ih =>
      rcases bind_eq_error.mp h with h | ⟨isBundle, -, h⟩
      · exact isOciBundle_error h
      · rcases bind_eq_error.mp h with h | ⟨bundles, -, h⟩
        · exact ih h
        · contradiction

theorem humanSort_error {l : List FilePath} {e : PyException} (h : humanSort l = .error e) :
  e.cls ∈ [.ValueError, .TypeError]
  := by
  rw [humanSort] at h
  cases hsort : Text.humanSort? .unicode pathText l with
  | ok sorted =>
      rw [hsort] at h
      contradiction
  | error sortError =>
      rw [hsort] at h
      obtain rfl := Except.error.inj h
      cases sortError <;> simp [sortException]

theorem sortedBundles_error {entries : List WalkEntry} {e : PyException}
    (h : sortedBundles entries = .error e) :
  e.cls ∈ [.UnicodeDecodeError, .JSONDecodeError, .KeyError, .TypeError, .ValueError]
  := by
  rcases bind_eq_error.mp h with h | ⟨bundles, -, h⟩
  · have hcls := ociBundles_error h
    simp only [List.mem_cons, List.not_mem_nil, or_false] at hcls ⊢
    tauto
  · have hcls := humanSort_error h
    simp only [List.mem_cons, List.not_mem_nil, or_false] at hcls ⊢
    tauto

/-- No next version is found in the directory of an application: a `config.json` cannot be
loaded, the bundles cannot be sorted, there is none, or the last one is not called by a number. -/
def scanFails (app_name : Text) (app_parent_dir : FilePath) (entries : List WalkEntry) : Bool :=
  match sortedBundles entries with
  | .error _ => true
  | .ok app_version_dirs =>
      match app_version_dirs.getLast? with
      | none => true
      | some last => (intOf? (versionName app_name app_parent_dir last)).isNone

/-- The next version is called by a number, or the scan fails with nothing that the update
manager expects. -/
theorem bundlePathsOf_cases (app_name : Text) (app_parent_dir : FilePath)
    (entries : List WalkEntry) :
  (scanFails app_name app_parent_dir entries = true
      ∧ (bundlePathsOf app_name app_parent_dir entries = .ok none
        ∨ ∃ e, bundlePathsOf app_name app_parent_dir entries = .error e
          ∧ e.cls ∉ [.AppIdError, .AppInstallError]))
    ∨ scanFails app_name app_parent_dir entries = false
      ∧ ∃ current_path version, bundlePathsOf app_name app_parent_dir entries
        = .ok (some (some current_path, joinPath app_parent_dir (intText version)))
  := by
  unfold scanFails bundlePathsOf
  cases hsorted : sortedBundles entries with
  | error e =>
      left
      refine ⟨rfl, Or.inr ⟨e, rfl, ?_⟩⟩
      have hcls := sortedBundles_error hsorted
      intro h
      simp only [List.mem_cons, List.not_mem_nil, or_false] at h hcls
      rcases h with h | h <;> simp [h] at hcls
  | ok app_version_dirs =>
      simp only [bind, Except.bind]
      cases hlast : app_version_dirs.getLast? with
      | none =>
          have hhead : app_version_dirs.head? = none := by
            rw [List.getLast?_eq_none_iff.mp hlast]
            rfl
          rw [hhead]
          exact Or.inl ⟨rfl, Or.inl rfl⟩
      | some last =>
          obtain ⟨current_path, hhead⟩ : ∃ p, app_version_dirs.head? = some p := by
            rw [← Option.isSome_iff_exists, List.isSome_head?]
            rintro rfl
            contradiction
          rw [hhead]
          dsimp only
          cases intOf? (versionName app_name app_parent_dir last) with
          | none => exact Or.inl ⟨rfl, Or.inr ⟨_, rfl, by simp⟩⟩
          | some version => exact Or.inr ⟨rfl, current_path, _, rfl⟩

/-! ### Rules -/

variable {adm : Call → Choice → Device → Prop} {d : Device}

theorem wp_getAppName {app_pkg : Text} {Q : Post Device PyException Text} (hcut : Q.cut d)
    (hreturned : ∀ x app_name, adm (.opkgInfo app_pkg) x d →
      appNameOf app_pkg (opkgInfo x) = .ok app_name → Q.returned app_name d)
    (hraised : ∀ x e, adm (.opkgInfo app_pkg) x d →
      appNameOf app_pkg (opkgInfo x) = .error e → Q.raised e d) :
  wp machine adm (getAppName app_pkg) Q d
  := by
  rw [getAppName_eq, wp_bind, wp_issue]
  refine ⟨hcut, fun x hx => ?_⟩
  change wp machine adm (ofExcept (appNameOf app_pkg (opkgInfo x))) Q d
  rw [wp_ofExcept]
  split
  · exact hreturned x _ hx ‹_›
  · exact hraised x _ hx ‹_›

theorem wp_getAppBundlePaths {app_name : Text} (hname : PlainName app_name)
    {Q : Post Device PyException (Option (Option FilePath × FilePath))} (hcut : Q.cut d)
    (habsent : d.fs.isDir (APPS_PATH ++ [app_name]) = false →
      Q.returned (some (none, APPS_PATH ++ [app_name, "0".toList])) d)
    (hreturned : ∀ x paths, adm (.walk (APPS_PATH ++ [app_name]) app_name) x d →
      d.fs.isDir (APPS_PATH ++ [app_name]) = true →
      bundlePathsOf app_name (APPS_PATH ++ [app_name])
        (walk d.fs (APPS_PATH ++ [app_name])) = .ok paths → Q.returned paths d)
    (hraised : ∀ x e, adm (.walk (APPS_PATH ++ [app_name]) app_name) x d →
      bundlePathsOf app_name (APPS_PATH ++ [app_name])
        (walk d.fs (APPS_PATH ++ [app_name])) = .error e → Q.raised e d) :
  wp machine adm (getAppBundlePaths app_name) Q d
  := by
  have hparent : joinPath APPS_INSTALLATION_PATH app_name = APPS_PATH ++ [app_name] :=
    joinPath_of_plain _ hname
  have hfirst : joinPath (APPS_PATH ++ [app_name]) "0".toList
      = APPS_PATH ++ [app_name, "0".toList] := by
    rw [joinPath_of_plain _ (by decide), List.append_assoc]
    rfl
  rw [getAppBundlePaths_eq, hparent, hfirst, wp_bind, wp_issue]
  refine ⟨hcut, fun x _ => ?_⟩
  change wp machine adm (if d.fs.isDir (APPS_PATH ++ [app_name]) then _ else _) Q d
  cases hdir : d.fs.isDir (APPS_PATH ++ [app_name]) with
  | false => exact habsent hdir
  | true =>
      rw [if_pos rfl, wp_bind, wp_issue]
      refine ⟨hcut, fun x hx => ?_⟩
      change wp machine adm (ofExcept (bundlePathsOf app_name (APPS_PATH ++ [app_name])
        (walk d.fs (APPS_PATH ++ [app_name])))) Q d
      rw [wp_ofExcept]
      split
      · exact hreturned x _ hx hdir ‹_›
      · exact hraised x _ hx ‹_›

/-- All that `opkg install` can do: it installs a directory and says so, or it fails and may
leave something of its own. -/
theorem opkgInstall_cases (x : Choice) (d : Device) (path : FilePath) :
  (∃ tree : Files, tree.node [] = some .dir ∧ x.kind ≠ .fails
      ∧ opkgInstall x d path = (success x.stdout,
        { d with fs := d.fs.graft path tree, completed := d.completed ++ [path] }))
    ∨ ∃ fs, (fs = d.fs ∨ ∃ tree, x.tree = some tree ∧ fs = d.fs.graft path tree)
      ∧ opkgInstall x d path = (⟨false, x.returncode, x.stdout⟩, { d with fs := fs })
  := by
  unfold opkgInstall
  split
  · rename_i h
    refine Or.inl ⟨(x.tree.getD root).mkdirs [], ?_, h.1, rfl⟩
    simp [node_mkdirs]
  · split
    · cases htree : x.tree with
      | none => exact Or.inr ⟨d.fs, Or.inl rfl, rfl⟩
      | some tree => exact Or.inr ⟨d.fs.graft path tree, Or.inr ⟨tree, rfl, rfl⟩, rfl⟩
    · exact Or.inr ⟨d.fs, Or.inl rfl, rfl⟩

/-- What `opkg install` installs when it says so. -/
theorem opkgInstall_ok {x : Choice} {d : Device} {path : FilePath}
    (h : (opkgInstall x d path).1.ok = true) :
  (opkgInstall x d path).2 =
    { d with
      fs := d.fs.graft path ((x.tree.getD root).mkdirs [])
      completed := d.completed ++ [path] }
  := by
  unfold opkgInstall at h ⊢
  split
  · rfl
  · rw [if_neg ‹_›] at h
    split at h <;> contradiction

/-- All that `opkg remove` can leave when it fails. -/
theorem opkgRemove_fails {x : Choice} (hkind : x.kind = .fails) (d : Device) (path : FilePath) :
  ∃ fs, (fs = d.fs ∨ ∃ tree, x.tree = some tree ∧ fs = d.fs.graft path tree)
    ∧ opkgRemove x d path = (⟨false, x.returncode, x.stdout⟩, { d with fs := fs })
  := by
  simp only [opkgRemove, hkind, if_true]
  split
  · cases htree : x.tree with
    | none => exact ⟨d.fs, Or.inl rfl, rfl⟩
    | some tree => exact ⟨d.fs.graft path tree, Or.inr ⟨tree, rfl, rfl⟩, rfl⟩
  · exact ⟨d.fs, Or.inl rfl, rfl⟩

end App
