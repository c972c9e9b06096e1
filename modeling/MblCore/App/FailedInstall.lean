import MblCore.App.GivesUp

/-!
# What a failed installation leaves

When `opkg install` fails, `install_app` removes whatever is at the path, also what was there before.
So a failed installation leaves the destination as it was just when nothing was there, the clean-up
succeeds, and the directory above is not one that the clean-up removes or leaves behind.
-/

namespace App

open FileTree
open Prog hiding pure throw bind

variable {fs fs' : Files} {adm : Call → Choice → Device → Prop} {d : Device} {path : FilePath}

/-! ### What is asked of an installation -/

/-- Everything at and below a directory is as it was. -/
def SameBelow (dir : FilePath) (before after : Files) : Prop :=
  ∀ q, dir <+: q → after.node q = before.node q

/-- The exception is that for a package without a name, or that for a failed installation, and then
the path and the directory above it are as before. -/
def KeptAfter (path : FilePath) (before : Device) (e : PyException) (after : Device) : Prop :=
  e.cls ∈ [.AppIdError, .AppInstallError] ∧
    (e.cls = .AppInstallError → SameBelow path.dropLast before.fs after.fs)

/-- What is asked of every installation, however it ends. -/
def LeavesDestination (path : FilePath) (before : Device) (outcome : Outcome PyException Unit)
    (after : Device) : Prop :=
  ∀ e, outcome = .raised e → KeptAfter path before e after

/-! ### What the installation relies on -/

/-- Nothing is at the path, and the directory above is as it is when a bundle is removed from there:
it is not there, or it is that of all applications, or something else is in it. -/
structure Vacant (fs : Files) (path : FilePath) : Prop where
  ne_nil : path ≠ []
  absent : fs.has path = false
  alone : fs.children path.dropLast = [] → path.dropLast ≠ APPS_PATH → fs.has path.dropLast = false
  apps : path.dropLast = APPS_PATH → fs.isDir path.dropLast = true

/-- A failed command that has made one disk of another leaves a directory that can be removed, where
nothing was, or it leaves nothing. -/
def CanCleanUp (path : FilePath) (before after : Files) : Prop :=
  if after.has path then after.isDir path = true ∧ Vacant before path
  else before.has path = false ∧
    (after.has path.dropLast = true → before.has path.dropLast = true)

/-- The guard of an installation: the control data can be read, and when `opkg` cannot install the
package, its output can be decoded and what it leaves can be removed. -/
def FailsCleanly : Call → Choice → Device → Prop
  | .opkgInfo _, x, _ => infoFails (opkgInfo x) = false
  | .opkgInstall _ path _, x, d => (opkgInstall x d path).1.ok = false →
      x.stdout.text ≠ none ∧ CanCleanUp path d.fs (opkgInstall x d path).2.fs
  | .opkgRemove _ _, x, _ => x.kind ≠ .fails
  | _, _, _ => True

/-! ### The destination -/

/-- The disks agree but for what is at, below and above the path. -/
def AgreeApart (path : FilePath) (before after : Files) : Prop :=
  ∀ q, ¬ path <+: q → ¬ q <+: path → after.node q = before.node q

/-- Between the directory above a path and the path there is nothing. -/
theorem eq_dropLast_of_between {q : FilePath} (habove : path.dropLast <+: q) (hbelow : q <+: path)
    (hne : ¬ path <+: q) :
  q = path.dropLast
  := by
  have hlt : q.length < path.length := by
    by_contra hge
    apply hne
    rw [hbelow.eq_of_length_le (not_lt.mp hge)]
  symm
  apply habove.eq_of_length_le
  rw [List.length_dropLast]
  omega

/-- The destination is as before when nothing was and is at the path, and the directory above is as
before. -/
theorem sameBelow_iff (hagree : AgreeApart path fs fs') (hnone : fs'.node path = none) :
  SameBelow path.dropLast fs fs' ↔
    fs.has path = false ∧ fs'.node path.dropLast = fs.node path.dropLast
  := by
  constructor
  · intro hsame
    constructor
    · rw [has_eq_false, ← hsame path ( List.dropLast_prefix path), hnone]
    · exact hsame _ List.prefix_rfl
  · rintro ⟨habsent, hparent⟩ q hq
    rw [has_eq_false] at habsent
    by_cases hbelow : path <+: q
    · by_cases heq : path = q
      · rw [← heq, hnone, habsent]
      · rw [node_eq_none_below (by simp [hnone]) hbelow heq,
          node_eq_none_below (by simp [habsent]) hbelow heq]
    · by_cases habove : q <+: path
      · rw [eq_dropLast_of_between hq habove hbelow, hparent]
      · exact hagree q hbelow habove

/-- The directory above a bundle is removed with it when nothing else is in it. -/
theorem node_removeBundle_dropLast (hpath : path ≠ []) (hdir : fs.node path = some .dir) :
  (removeBundle fs path).node path.dropLast
    = if ((fs.graft path root).remove path).children path.dropLast = []
        ∧ path.dropLast ≠ APPS_PATH then none else some .dir
  := by
  have hparent : ((fs.graft path root).remove path).node path.dropLast = some .dir := by
    rw [node_remove_graft hdir, if_neg (not_prefix_dropLast hpath)]
    exact dir_above (q := path) (by simp [hdir]) ( List.dropLast_prefix path) (dropLast_ne_self hpath)
  rw [removeBundle]
  split
  · exact node_remove_below _ List.prefix_rfl
  · exact hparent

/-- Beside the bundle there is nothing just when nothing was there before. -/
theorem children_removed_eq_nil (hpath : path ≠ []) (hagree : AgreeApart path fs fs')
    (hdir : fs'.node path = some .dir) (habsent : fs.node path = none) :
  ((fs'.graft path root).remove path).children path.dropLast = []
    ↔ fs.children path.dropLast = []
  := by
  have hsame (name : Text) : ((fs'.graft path root).remove path).node (path.dropLast ++ [name])
      = fs.node (path.dropLast ++ [name]) := by
    have hlength : (path.dropLast ++ [name]).length = path.length := by
      have hpos := List.length_pos_iff.mpr hpath
      simp
      omega
    rw [node_remove_graft hdir]
    split
    · rename_i hbelow
      rw [← hbelow.eq_of_length hlength.symm, habsent]
    · rename_i hbelow
      apply hagree _ hbelow
      intro habove
      apply hbelow
      rw [habove.eq_of_length hlength]
  simp only [children_eq_nil, hsame]

/-- After the removal of a bundle the destination is as before just when it was vacant. -/
theorem sameBelow_removeBundle_iff (hpath : path ≠ []) (hagree : AgreeApart path fs fs')
    (hdir : fs'.node path = some .dir) :
  SameBelow path.dropLast fs (removeBundle fs' path) ↔ Vacant fs path
  := by
  have hagree' : AgreeApart path fs (removeBundle fs' path) := by
    intro q hbelow habove
    rw [dir_removeBundle hdir hbelow habove, hagree q hbelow habove]
  rw [sameBelow_iff hagree' (node_removeBundle_below hdir List.prefix_rfl),
    node_removeBundle_dropLast hpath hdir]
  constructor
  · rintro ⟨habsent, hparent⟩
    simp only [children_removed_eq_nil hpath hagree hdir (has_eq_false.mp habsent)] at hparent
    constructor
    · exact hpath
    · exact habsent
    · intro hempty hother
      rw [if_pos ⟨hempty, hother⟩] at hparent
      exact has_eq_false.mpr hparent.symm
    · intro happs
      rw [if_neg fun h => h.2 happs] at hparent
      exact isDir_eq_true.mpr hparent.symm
  · intro hvacant
    use hvacant.absent
    simp only [children_removed_eq_nil hpath hagree hdir (has_eq_false.mp hvacant.absent)]
    split
    · rename_i h
      exact (has_eq_false.mp (hvacant.alone h.1 h.2)).symm
    · rename_i h
      symm
      rw [← isDir_eq_true]
      by_cases happs : path.dropLast = APPS_PATH
      · exact hvacant.apps happs
      · have hbeside : fs.children path.dropLast ≠ [] := fun hempty => h ⟨hempty, happs⟩
        rw [Ne, children_eq_nil, not_forall] at hbeside
        obtain ⟨name, hname⟩ := hbeside
        rw [isDir_eq_true]
        exact fs.parent_dir hname

/-- What a failed `opkg install` can make of a disk: it can leave anything at and below the path, and
can make directories above it. -/
structure LeftAt (path : FilePath) (before after : Files) : Prop where
  apart : AgreeApart path before after
  above : ∀ p, p <+: path → p ≠ path →
    after.node p = before.node p ∨ after.node p = some .dir ∧ before.has p = false

theorem LeftAt.refl (path : FilePath) (fs : Files) :
  LeftAt path fs fs
  := ⟨fun _ _ _ => rfl, fun _ _ _ => Or.inl rfl⟩

/-- The directory above is as before when it was not made. -/
theorem LeftAt.node_dropLast (h : LeftAt path fs fs') (hnone : fs'.node path = none)
    (habsent : fs.has path = false)
    (hparent : fs'.has path.dropLast = true → fs.has path.dropLast = true) :
  fs'.node path.dropLast = fs.node path.dropLast
  := by
  by_cases hpath : path.dropLast = path
  · rw [hpath, hnone, has_eq_false.mp habsent]
  · rcases h.above _ ( List.dropLast_prefix path) hpath with hsame | ⟨hmade, hbefore⟩
    · exact hsame
    · rw [hparent (by simp [hmade])] at hbefore
      contradiction

theorem opkgInstall_fails {x : Choice} (h : (opkgInstall x d path).1.ok = false) :
  ∃ fs, opkgInstall x d path = (⟨false, x.returncode, x.stdout⟩, { d with fs := fs }) ∧
    LeftAt path d.fs fs
  := by
  unfold opkgInstall at h ⊢
  split
  · rename_i hinstalls
    rw [if_pos hinstalls] at h
    contradiction
  · split
    · rename_i hdirs
      cases htree : x.tree with
      | none => exact ⟨d.fs, rfl, LeftAt.refl path d.fs⟩
      | some tree =>
          refine ⟨d.fs.graft path tree, rfl, ?_, ?_⟩
          · exact fun q hbelow habove => node_graft_elsewhere _ _ hbelow habove
          · intro p hp hne
            have hdir : (d.fs.graft path tree).node p = some .dir := by
              rw [node_graft, if_neg fun hbelow => hne (hp.eq_of_length_le hbelow.length_le),
                if_pos hp]
            rw [hdir]
            cases hhas : d.fs.has p with
            | false => exact Or.inr ⟨rfl, rfl⟩
            | true =>
                left
                symm
                rw [← isDir_eq_true]
                exact hdirs p ((List.mem_inits p path).mpr hp) hhas
    · exact ⟨d.fs, rfl, LeftAt.refl path d.fs⟩

/-! ### After a failed installation -/

/-- What is done when `opkg` could not install a package. -/
def afterFailure (result : CmdResult) (app_name : Text) (app_path : FilePath)
    (install_error : Text → PyException) : Py Unit :=
  errorText result >>= fun error => cleanUp app_name app_path >>= fun _ =>
    .throw (install_error error)

/-- The exceptions that nobody expects of an installation. -/
def RaisesOther {α : Type} : Post Device PyException α where
  returned _ _ := False
  raised e _ := e.cls ∉ [.AppIdError, .AppInstallError]
  cut _ := True

/-- The text of an error is read, or cannot be decoded. -/
theorem wp_errorText_of_forall {result : CmdResult} {Q : Post Device PyException Text}
    (hreturned : ∀ error, Q.returned error d) (hraised : ∀ e, Q.raised e d) :
  wp machine adm (errorText result) Q d
  := by
  cases htext : result.stdout.text with
  | none => exact wp_errorText_of_none htext (hraised _)
  | some text => exact wp_errorText_of_text htext hreturned

theorem wp_errorText_raise {result : CmdResult} {error : Text → PyException}
    (herror : ∀ text, (error text).cls ∉ [.AppIdError, .AppInstallError]) :
  wp machine adm (errorText result >>= fun text => (.throw (error text) : Py Unit)) RaisesOther d
  := by
  rw [wp_bind]
  cases htext : result.stdout.text with
  | none =>
      apply wp_errorText_of_none htext
      simp [RaisesOther]
  | some text => exact wp_errorText_of_text htext herror

/-- Nothing is left when the root directory is removed, so the directory above it cannot be. -/
theorem wp_removeDirectories_root :
  wp machine adm (rmtree [] >>= fun _ => removeEmptyParent []) RaisesOther
    { d with fs := d.fs.graft [] root }
  := by
  have hgone : ((d.fs.graft [] root).remove []).isDir [] = false := by
    rw [isDir, node_remove_below _ List.prefix_rfl]
  have hempty : ((d.fs.graft [] root).remove []).children [] = [] := by
    rw [children_eq_nil]
    exact fun name => node_remove_below _ List.nil_prefix
  have hgraft : (d.fs.graft [] root).isDir [] = true := by
    rw [isDir_graft_self]
    rfl
  rw [wp_bind]
  apply wp_rmtree_of_isDir hgraft trivial
  apply wp_removeEmptyParent trivial
  · intro _
    apply wp_rmtree trivial
    · intro hdir
      rw [hgone] at hdir
      contradiction
    · exact fun _ => by simp [RaisesOther]
  · exact fun hstays => absurd ⟨hempty, by decide⟩ hstays

/-- The root directory is not removed without an exception. -/
theorem wp_removeApp_root (app_name : Text) :
  wp machine adm (removeApp app_name []) RaisesOther d
  := by
  rw [removeApp, wp_bind, wp_issue]
  refine ⟨trivial, fun x _ => ?_⟩
  change wp machine adm (if d.fs.isDir [] then _ else _) _ d
  split
  · rename_i hdir
    rw [wp_bind, wp_issue]
    refine ⟨trivial, fun x _ => ?_⟩
    dsimp only
    split
    · rename_i hok
      have hkind : x.kind ≠ .fails := by
        intro hkind
        simp [machine, perform, opkgRemove, hkind] at hok
      have hremove : (machine.perform (.opkgRemove app_name []) x d).2
          = { d with fs := d.fs.graft [] root } := by
        simp only [machine, perform, opkgRemove, hdir]
        rw [if_neg hkind, if_pos trivial]
      rw [hremove]
      exact wp_removeDirectories_root
    · exact wp_errorText_raise fun _ => by simp
  · simp [RaisesOther, raise]

section

variable {result : CmdResult} {app_name : Text} {install_error : Text → PyException}
  {before : Device}

/-- When what is left can be removed, the destination is as before. -/
theorem wp_afterFailure (hcls : ∀ error, (install_error error).cls = .AppInstallError)
    (hleft : LeftAt path before.fs d.fs) (htext : result.stdout.text ≠ none)
    (hclean : CanCleanUp path before.fs d.fs) :
  wp machine FailsCleanly (afterFailure result app_name path install_error)
    { returned := fun _ _ => False, raised := KeptAfter path before, cut := fun _ => True } d
  := by
  obtain ⟨text, htext⟩ := Option.ne_none_iff_exists'.mp htext
  rw [afterFailure, wp_bind]
  apply wp_errorText_of_text htext
  intro error
  have hkept {d' : Device} (hsame : SameBelow path.dropLast before.fs d'.fs) :
      KeptAfter path before (install_error error) d' := by
    constructor
    · simp [hcls]
    · exact fun _ => hsame
  dsimp only
  rw [wp_bind]
  rw [CanCleanUp] at hclean
  apply wp_cleanUp trivial
  · intro hhas
    rw [if_pos hhas] at hclean
    obtain ⟨hdir, hvacant⟩ := hclean
    apply wp_removeApp hvacant.ne_nil
    · exact fun _ _ => trivial
    · intro _ _ _ hnot
      rw [hdir] at hnot
      contradiction
    · exact fun _ _ hx _ hkind => absurd hkind hx
    · intro _ _ _ _
      apply hkept
      exact (sameBelow_removeBundle_iff hvacant.ne_nil hleft.apart (isDir_eq_true.mp hdir)).mpr
        hvacant
  · intro hhas
    rw [if_neg (Bool.eq_false_iff.mp hhas)] at hclean
    have hnone : d.fs.node path = none := has_eq_false.mp hhas
    apply hkept
    apply (sameBelow_iff hleft.apart hnone).mpr
    exact ⟨hclean.1, hleft.node_dropLast hnone hclean.1 hclean.2⟩

/-- When what is left cannot be removed, the destination is not as before. -/
theorem wp_afterFailure_not (hcls : ∀ error, (install_error error).cls = .AppInstallError)
    (hleft : LeftAt path before.fs d.fs)
    (h : ¬ (result.stdout.text ≠ none ∧ CanCleanUp path before.fs d.fs)) :
  wp machine adm (afterFailure result app_name path install_error)
    { returned := fun _ _ => False
      raised := fun e d' => ¬ KeptAfter path before e d'
      cut := fun _ => True } d
  := by
  rw [afterFailure, wp_bind]
  cases htext : result.stdout.text with
  | none =>
      apply wp_errorText_of_none htext
      intro hkept
      exact absurd hkept.1 (by simp)
  | some text =>
      apply wp_errorText_of_text htext
      intro error
      have hclean : ¬ CanCleanUp path before.fs d.fs := fun hclean => h ⟨by simp [htext], hclean⟩
      have hlost {d' : Device} (hsame : ¬ SameBelow path.dropLast before.fs d'.fs) :
          ¬ KeptAfter path before (install_error error) d' :=
        fun hkept => hsame (hkept.2 (hcls error))
      dsimp only
      rw [wp_bind]
      rw [CanCleanUp] at hclean
      apply wp_cleanUp trivial
      · intro hhas
        rw [if_pos hhas] at hclean
        by_cases hpath : path = []
        · subst hpath
          apply (wp_removeApp_root app_name).mono
          · exact fun _ _ h => h.elim
          · exact fun _ _ h hkept => h hkept.1
          · exact fun _ h => h
        · apply wp_removeApp hpath
          · exact fun _ _ => trivial
          · intro _ e _ _ he hkept
            exact absurd hkept.1 (by simp [he])
          · intro _ e _ _ _ he hkept
            simp only [List.mem_cons, List.not_mem_nil, or_false] at he
            rcases he with he | he <;> exact absurd hkept.1 (by simp [he])
          · intro _ _ hdir _
            apply hlost
            rw [sameBelow_removeBundle_iff hpath hleft.apart (isDir_eq_true.mp hdir)]
            exact fun hvacant => hclean ⟨hdir, hvacant⟩
      · intro hhas
        rw [if_neg (Bool.eq_false_iff.mp hhas)] at hclean
        apply hlost
        intro hsame
        have hnone : d.fs.node path = none := has_eq_false.mp hhas
        obtain ⟨habsent, hparent⟩ := (sameBelow_iff hleft.apart hnone).mp hsame
        apply hclean
        use habsent
        rw [has, has, hparent]
        exact id

end

/-! ### A clean-up that is not careful -/

/-- Control data that cannot be read are an exception that nobody expects. -/
theorem wpBreach_getAppName_escapes (app_pkg : Text) :
  wpBreach machine adm FailsCleanly (getAppName app_pkg) RaisesOther d
  := by
  rw [getAppName_eq]
  apply wpBreach_bind_of_no_calls
  · exact fun result => issues_ofExcept _
  · rw [wpBreach_issue]
    intro x _ hno
    change wp machine adm (ofExcept (appNameOf app_pkg (opkgInfo x))) _ d
    rcases appNameOf_cases app_pkg (opkgInfo x) with ⟨-, e, he, hcls⟩ | ⟨hreads, -⟩
    · rw [he]
      change e.cls ∉ _
      rcases hcls with hcls | hcls <;> simp [hcls]
    · exact absurd hreads hno

/-- The calls after `opkg` has removed an application rely on nothing. -/
theorem RemovalCall.failsCleanly {c : Call} (hc : RemovalCall [] c) (x : Choice) (d : Device) :
  FailsCleanly c x d
  := by
  cases c with
  | isdir path | exists_ path | listdir path | rmtree path => trivial
  | opkgRemove app_name path => exact absurd hc List.not_mem_nil
  | _ => exact hc.elim

/-- So is a removal that fails. -/
theorem wpBreach_cleanUp_escapes (app_name : Text) (path : FilePath) :
  wpBreach machine adm FailsCleanly (cleanUp app_name path) RaisesOther d
  := by
  rw [cleanUp, wpBreach_issue_bind]
  intro x _
  refine ⟨fun _ => ?_, fun hno => absurd trivial hno⟩
  change wpBreach machine adm FailsCleanly (if d.fs.has path then _ else _) _ d
  split
  · rw [removeApp, wpBreach_issue_bind]
    intro x _
    refine ⟨fun _ => ?_, fun hno => absurd trivial hno⟩
    change wpBreach machine adm FailsCleanly (if d.fs.isDir path then _ else _) _ d
    split
    · rw [wpBreach_issue_bind]
      intro x _
      constructor
      · intro _
        split
        · have hissues : Issues (RemovalCall []) (rmtree path >>= fun _ =>
              removeEmptyParent path.dropLast) :=
            issues_removeDirectories Asks.removalCall trivial fun _ => trivial
          apply wpBreach_of_issues (fun _ => True) hissues
          · exact fun c x d' hc _ _ => hc.failsCleanly x d'
          · exact fun _ _ _ _ _ _ => trivial
          · trivial
        · apply wpBreach_of_no_calls
          apply Issues.bind (issues_errorText _)
          exact fun _ => trivial
      · intro hno
        have hkind : x.kind = .fails := not_not.mp hno
        have hfails : (machine.perform (.opkgRemove app_name path) x d).1.ok = false := by
          simp [machine, perform, opkgRemove, hkind]
        rw [hfails, if_neg Bool.false_ne_true]
        exact wp_errorText_raise fun _ => by simp
    · trivial
  · trivial

/-! ### Installations -/

/-- An installation that fails cleanly leaves the destination as it was. -/
theorem wp_installApp_cleanly (app_pkg : Text) (path : FilePath) (d : Device) :
  wp machine FailsCleanly (installApp app_pkg path)
    { returned := fun _ _ => True, raised := KeptAfter path d, cut := fun _ => True } d
  := by
  rw [installApp, wp_bind]
  apply wp_getAppName trivial
  · intro x app_name _ _
    dsimp only
    rw [wp_bind, wp_issue]
    refine ⟨trivial, fun x hx => ?_⟩
    dsimp only
    split
    · trivial
    · rename_i hok
      have hok : (opkgInstall x d path).1.ok = false := Bool.eq_false_iff.mpr hok
      obtain ⟨htext, hclean⟩ := hx hok
      obtain ⟨fs, hfails, hleft⟩ := opkgInstall_fails hok
      have hperform : machine.perform (.opkgInstall app_name path app_pkg) x d = _ := hfails
      rw [hfails] at hclean
      rw [hperform]
      apply (wp_afterFailure (fun _ => rfl) (by exact hleft) (by exact htext) hclean).of_returned
      exact fun _ _ h => h.elim
  · intro x e hx he
    rcases appNameOf_cases app_pkg (opkgInfo x) with ⟨hfails, -⟩ | ⟨-, hcls⟩
    · rw [hx] at hfails
      contradiction
    · constructor
      · simp [hcls e he]
      · intro h
        rw [hcls e he] at h
        contradiction

/-- An installation that does not fail cleanly leaves the destination changed, or ends with an
exception that nobody expects. -/
theorem wpBreach_installApp_cleanly (app_pkg : Text) (path : FilePath) (d : Device) :
  wpBreach machine adm FailsCleanly (installApp app_pkg path)
    { returned := fun _ _ => False
      raised := fun e d' => ¬ KeptAfter path d e d'
      cut := fun _ => True } d
  := by
  rw [installApp]
  apply wpBreach_bind
  · apply (wpBreach_getAppName_escapes app_pkg).mono
    · exact fun _ _ h => h.elim
    · exact fun _ _ h hkept => h hkept.1
    · exact fun _ h => h
  · apply wp_getAppName trivial
    · intro x app_name _ _
      dsimp only
      rw [wpBreach_issue_bind]
      intro x _
      constructor
      · intro _
        split
        · trivial
        · apply wpBreach_bind
          · apply wpBreach_of_no_calls
            exact issues_errorText _
          · apply wp_errorText_of_forall
            · intro error
              apply wpBreach_bind_left
              · exact fun _ _ => trivial
              · apply (wpBreach_cleanUp_escapes app_name path).mono
                · exact fun _ _ h => h.elim
                · exact fun _ _ h hkept => h hkept.1
                · exact fun _ h => h
            · exact fun _ => trivial
      · intro hno
        obtain ⟨hfails, hnot⟩ := Classical.not_imp.mp hno
        obtain ⟨fs, hfails, hleft⟩ := opkgInstall_fails hfails
        have hperform : machine.perform (.opkgInstall app_name path app_pkg) x d = _ := hfails
        rw [hfails] at hnot
        rw [hperform]
        exact wp_afterFailure_not (fun _ => rfl) (by exact hleft) hnot
    · exact fun _ _ _ _ => trivial

/-- A failed installation leaves the destination as it was just when it fails cleanly. -/
theorem leavesDestination_iff {app_pkg : Text} {path : FilePath} {d : Device} {xs : List Choice}
    {outcome : Outcome PyException Unit} {rest : List Choice} {d' : Device}
    (hrun : run machine (installApp app_pkg path) xs d = (outcome, rest, d')) (hends : outcome ≠ .cut) :
  LeavesDestination path d outcome d' ↔ Obeys machine FailsCleanly (installApp app_pkg path) xs d
  := by
  constructor
  · intro hleaves
    by_contra hno
    have hends' := holds_of_wpBreach (wpBreach_installApp_cleanly app_pkg path d) obeys_true hno
    rw [hrun] at hends'
    cases outcome with
    | returned a => exact hends'
    | raised e => exact hends' (hleaves e rfl)
    | cut => contradiction
  · intro hobeys e he
    have hends' := holds_of_wp (wp_installApp_cleanly app_pkg path d) hobeys
    rw [hrun, he] at hends'
    exact hends'

/-- `opkg` names the package and fails to install it, and what comes after that succeeds. -/
def failingChoices (tree : Option Files) : List Choice :=
  [{ stdout := infoOf ['a'] }, { kind := .fails, tree := tree }] ++ List.replicate 6 truthfully

/-- The run of an installation of version 0. -/
def runOfInstall (xs : List Choice) (d : Device) : Outcome PyException Unit × List Choice × Device :=
  run machine (installApp [] (bundlePath ['a'] 0)) xs d

/-- A device with version 0 of an application. -/
def deviceWithFirst : Device :=
  { bareDevice with fs := diskWith [bundlePath ['a'] 0] }

set_option maxRecDepth 4000 in
/-- What is left of the first version of an application is removed. -/
theorem leavesDestination_first :
  LeavesDestination (bundlePath ['a'] 0) bareDevice
    (runOfInstall (failingChoices (some plainBundle)) bareDevice).1
    (runOfInstall (failingChoices (some plainBundle)) bareDevice).2.2
  := by
  apply (leavesDestination_iff rfl (by decide)).mpr
  have hvacant : Vacant bareDevice.fs (bundlePath ['a'] 0) := by
    constructor
    · decide
    · decide
    · exact fun _ _ => by decide
    · exact fun happs => absurd happs (by decide)
  refine ⟨rfl, fun _ => ⟨Option.some_ne_none _, ?_⟩, trivial, trivial, ?_, trivial, trivial,
    trivial, trivial⟩
  · rw [CanCleanUp, if_pos (by decide)]
    exact ⟨by decide, hvacant⟩
  · exact fun hkind => absurd hkind (by decide)

set_option maxRecDepth 4000 in
/-- What was there before is removed when it cannot be installed again. -/
theorem not_leavesDestination_again :
  ¬ LeavesDestination (bundlePath ['a'] 0) deviceWithFirst
      (runOfInstall (failingChoices none) deviceWithFirst).1
      (runOfInstall (failingChoices none) deviceWithFirst).2.2
  := by
  intro hleaves
  obtain ⟨e, he, hcls⟩ : ∃ e, (runOfInstall (failingChoices none) deviceWithFirst).1 = .raised e ∧
      e.cls = .AppInstallError := ⟨_, rfl, rfl⟩
  have hbefore : deviceWithFirst.fs.node (bundlePath ['a'] 0) = some .dir := rfl
  have hafter : (runOfInstall (failingChoices none) deviceWithFirst).2.2.fs.node (bundlePath ['a'] 0)
      = none := rfl
  have hsame := (hleaves e he).2 hcls _ ( List.dropLast_prefix _)
  rw [hbefore, hafter] at hsame
  contradiction

end App
