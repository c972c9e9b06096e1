import MblCore.App.StartedBundle
import MblCore.App.Boot

/-!
# Applications that cannot be started

`run-all` starts the applications one after the other, and nothing in it catches an exception.  So
an application whose bundles cannot be found and sorted, that cannot be started, or whose other
versions cannot all be removed, keeps all the applications that are listed after it from starting.
-/

namespace App

open FileTree
open Prog hiding pure throw bind

/-! ### Commands that fail -/

/-- The applications for which `runc create` fails, and those for which `runc start` does. -/
structure Failing where
  create : Text → Bool
  start : Text → Bool

/-- The commands that fail. -/
def Failing.fails (failing : Failing) : Call → Bool
  | .runcCreate _ id => failing.create id
  | .runcStart id => failing.start id
  | _ => false

/-- Every command does what it is asked to, but for those that fail. -/
def AsFailing (failing : Failing) (c : Call) (x : Choice) (_ : Device) : Prop :=
  x.kind = if failing.fails c then .fails else .truthful

instance (failing : Failing) (c : Call) (x : Choice) (d : Device) :
    Decidable (AsFailing failing c x d) :=
  inferInstanceAs (Decidable (_ = _))

/-! ### What can be started -/

/-- A bundle of an application. -/
def BundleOf (fs : Files) (name : Text) (path : FilePath) : Prop :=
  APPS_PATH ++ [name] <+: path ∧ IsBundle fs path

/-- A `config.json` of the application cannot be parsed. -/
def Unparsable (fs : Files) (name : Text) : Prop :=
  ∃ p content e, APPS_PATH ++ [name] <+: p ∧ fs.node (configPath p) = some (.file content) ∧
    content.load = .error e

/-- There is a container already, or `runc` fails. -/
def StartRefused (failing : Failing) (d : Device) (name : Text) : Prop :=
  d.containers name ≠ none ∨ failing.create name = true ∨ failing.start name = true

/-- A `config.json` cannot be parsed, there is a container already, or `runc` fails. -/
def CannotStart (failing : Failing) (d : Device) (name : Text) : Prop :=
  Unparsable d.fs name ∨ StartRefused failing d name

/-- The application can be started and has a bundle. -/
def Good (failing : Failing) (d : Device) (name : Text) : Prop :=
  ¬ CannotStart failing d name ∧ ∃ path, BundleOf d.fs name path

/-- Every application that can be started and has a bundle runs from one of its bundles. -/
def GoodAppsRun (failing : Failing) (d d' : Device) : Prop :=
  ∀ name ∈ subdirs d.fs APPS_PATH, Good failing d name →
    ∃ path, BundleOf d.fs name path ∧ d'.containers name = some ⟨path, .running⟩

/-! ### What ends `run-all` -/

/-- The sorted bundles of an application, or the exception of the search for them. -/
def foundBundles (fs : Files) (name : Text) : Except PyException (List FilePath) :=
  sortedBundles (walk fs (APPS_PATH ++ [name]))

/-- The bundles of an application cannot be found and sorted. -/
def SearchFails (fs : Files) (name : Text) : Prop :=
  ∃ e, foundBundles fs name = .error e

/-- A version that is to be removed is inside of another one that is removed before it. -/
def CleanupFails (fs : Files) (name : Text) : Prop :=
  ∃ first rest, foundBundles fs name = .ok (first :: rest) ∧ ¬ rest.Pairwise fun p q => ¬ p <+: q

/-- The application ends `run-all` with an exception. -/
def Stops (failing : Failing) (d : Device) (name : Text) : Prop :=
  SearchFails d.fs name ∨ (∃ path, BundleOf d.fs name path) ∧ StartRefused failing d name
    ∨ CleanupFails d.fs name

/-- The search for the bundles of no application that can be started and has a bundle fails, and no
application that ends `run-all` is listed before it. -/
def NoneKeptFromStarting (failing : Failing) (d : Device) : Prop :=
  ∀ other ∈ subdirs d.fs APPS_PATH, Good failing d other → ¬ SearchFails d.fs other ∧
    ∀ name, [name, other].Sublist (subdirs d.fs APPS_PATH) → ¬ Stops failing d name

variable {failing : Failing} {d : Device} {name : Text}

/-! ### Removing directories that may be gone -/

/-- Each directory is still there when it is to be removed. -/
def Removable : Files → List FilePath → Prop
  | _, [] => True
  | fs, path :: paths => fs.isDir path = true ∧ Removable (fs.remove path) paths

theorem isDir_of_isDir_remove {fs : Files} {path q : FilePath}
    (h : (fs.remove path).isDir q = true) :
  fs.isDir q = true
  := by
  rw [isDir_eq_true, node_remove] at h
  split at h
  · contradiction
  · rwa [isDir_eq_true]

theorem Removable.isDir {fs : Files} {paths : List FilePath} (h : Removable fs paths) :
  ∀ path ∈ paths, fs.isDir path = true
  := by
  induction paths generalizing fs with
  | nil => exact List.forall_mem_nil _
  | cons path paths ih =>
      rw [List.forall_mem_cons]
      use h.1
      intro q hq
      exact isDir_of_isDir_remove (ih h.2 q hq)

/-- Directories can be removed one after the other when none is inside of one before it. -/
theorem removable_iff {fs : Files} {paths : List FilePath}
    (hdirs : ∀ path ∈ paths, fs.isDir path = true) :
  Removable fs paths ↔ paths.Pairwise fun p q => ¬ p <+: q
  := by
  induction paths generalizing fs with
  | nil => simp [Removable]
  | cons path paths ih =>
      rw [List.forall_mem_cons] at hdirs
      rw [List.pairwise_cons, Removable]
      constructor
      · rintro ⟨-, h⟩
        have hapart : ∀ q ∈ paths, ¬ path <+: q := by
          intro q hq hbelow
          have hthere := h.isDir q hq
          rw [isDir_eq_true, node_remove_below _ hbelow] at hthere
          contradiction
        exact ⟨hapart, (ih h.isDir).mp h⟩
      · rintro ⟨hapart, hpairwise⟩
        use hdirs.1
        apply (ih _).mpr hpairwise
        intro q hq
        rw [isDir_eq_true, node_remove_elsewhere _ (hapart q hq)]
        exact isDir_eq_true.mp (hdirs.2 q hq)

theorem wp_rmtree_removable {adm : Call → Choice → Device → Prop} (paths : List FilePath) :
  wp machine adm (forEach paths rmtree)
    { returned := fun _ _ => Removable d.fs paths
      raised := fun _ _ => ¬ Removable d.fs paths
      cut := fun _ => True } d
  := by
  induction paths generalizing d with
  | nil => trivial
  | cons path paths ih =>
      rw [forEach, wp_bind]
      apply wp_rmtree trivial
      · intro hdir
        apply ih.mono
        · exact fun _ _ h => ⟨hdir, h⟩
        · exact fun _ _ h hremovable => h hremovable.2
        · exact fun _ h => h
      · intro hnot hremovable
        rw [hremovable.1] at hnot
        contradiction

/-! ### Running one application -/

/-- A container is not created or not started when `runc` fails. -/
theorem wp_runApp_fails (h : failing.create name = true ∨ failing.start name = true)
    (path : FilePath) :
  wp machine (AsFailing failing) (runApp name path) (Post.ifReturned fun _ _ => False) d
  := by
  rw [runApp]
  apply wp_ifReturned_bind (P := fun _ _ => failing.create name = false)
  · apply wp_ifReturned_bind (P := fun _ _ => True)
    · exact wp_ifReturned_of_forall fun _ _ => trivial
    · intro container_state d' _
      split
      · trivial
      · apply wp_ifReturned_bind (P := fun _ _ => True)
        · exact wp_ifReturned_of_forall fun _ _ => trivial
        · intro found d' _
          split
          · trivial
          · rw [createOrRaise, wp_bind, wp_issue]
            refine ⟨trivial, fun x hx => ?_⟩
            dsimp only
            split
            · rename_i hok
              rw [Bool.eq_false_iff]
              intro hfails
              have hkind : x.kind = .fails := by
                rw [hx, Failing.fails, if_pos hfails]
              simp [machine, perform, runcCreate, hkind] at hok
            · trivial
  · intro _ d' hcreate
    rw [start, runOrRaise, wp_bind, wp_issue]
    refine ⟨trivial, fun x hx => ?_⟩
    have hkind : x.kind = .fails := by
      rw [hx, Failing.fails, if_pos (h.resolve_left (by simp [hcreate]))]
    dsimp only
    split
    · rename_i hok
      simp [machine, perform, runcStart, hkind] at hok
    · apply wp_ifReturned_bind_of_forall
      intro _ _
      trivial

/-- An application that is not refused runs. -/
theorem wp_runApp_of_not_refused (h : ¬ StartRefused failing d name) {path : FilePath}
    (hdir : d.fs.isDir path = true) :
  wp machine (AsFailing failing) (runApp name path)
    { returned := fun _ d' => d' = d.setContainer name (some ⟨path, .running⟩)
      raised := fun _ _ => False
      cut := fun _ => True } d
  := by
  rw [StartRefused, not_or, not_or, not_not] at h
  obtain ⟨hnone, hcreate, hstart⟩ := h
  have hruns : wp machine (fun _ x _ => x.kind = .truthful) (runApp name path)
      { returned := fun _ d' => d' = d.setContainer name (some ⟨path, .running⟩)
        raised := fun _ _ => False
        cut := fun _ => True } d := by
    apply wp_runApp (fun _ _ _ _ hx => hx) hnone rfl hdir
    · exact fun _ => trivial
    · rfl
  apply hruns.restrict (issues_runApp path)
  intro c x d' hc hx
  have hfails : failing.fails c = false := by
    cases c with
    | runcCreate bundle_path id =>
        obtain rfl : id = name := hc
        exact Bool.eq_false_iff.mpr hcreate
    | runcStart id =>
        obtain rfl : id = name := hc
        exact Bool.eq_false_iff.mpr hstart
    | _ => rfl
  rw [hx, hfails]
  rfl

/-- An application that is refused does not run. -/
theorem wp_runApp_of_refused (h : StartRefused failing d name) (path : FilePath) :
  wp machine (AsFailing failing) (runApp name path) (Post.ifReturned fun _ _ => False) d
  := by
  rcases h with hsome | hfails
  · apply wp_ifReturned_mono (wp_runApp_ifReturned path)
    exact fun _ _ hran => hsome hran.1
  · exact wp_runApp_fails hfails path

/-! ### What is kept of the other applications -/

/-- Nothing has changed for the other applications. -/
structure OthersKept (name : Text) (before after : Device) : Prop where
  containers : ∀ id, id ≠ name → after.containers id = before.containers id
  disk : ∀ p, ¬ APPS_PATH ++ [name] <+: p → after.fs.node p = before.fs.node p
  names : after.fs.names = before.fs.names

theorem OthersKept.refl (name : Text) (d : Device) :
  OthersKept name d d
  := ⟨fun _ _ => rfl, fun _ _ => rfl, rfl⟩

theorem OthersKept.setContainer {before : Device} (h : OthersKept name before d)
    (k : Option Container) :
  OthersKept name before (d.setContainer name k)
  := by
  constructor
  · intro id hid
    rw [Device.setContainer_of_ne d k hid, h.containers id hid]
  · exact h.disk
  · exact h.names

theorem OthersKept.remove {before : Device} (h : OthersKept name before d) {path : FilePath}
    (hpath : APPS_PATH ++ [name] <+: path) :
  OthersKept name before { d with fs := d.fs.remove path }
  := by
  constructor
  · exact h.containers
  · intro p hp
    change (d.fs.remove path).node p = _
    rw [node_remove_elsewhere _ fun hbelow => hp (hpath.trans hbelow), h.disk p hp]
  · exact h.names

/-- The commands on a container leave the other applications. -/
theorem wp_othersKept {p : Py Unit} {adm : Call → Choice → Device → Prop}
    (hp : Issues (ContainerCall name) p) :
  wp machine adm p (Post.always (OthersKept name d)) d
  := wp_of_containerCalls _ hp (fun _ k h => h.setContainer k) (OthersKept.refl name d)

/-- So does the removal of versions. -/
theorem wp_rmtree_othersKept {adm : Call → Choice → Device → Prop} {before : Device}
    {paths : List FilePath} (hpaths : ∀ path ∈ paths, APPS_PATH ++ [name] <+: path)
    (hd : OthersKept name before d) {k : Option Container} (hk : d.containers name = k) :
  wp machine adm (forEach paths rmtree)
    (Post.always fun d' => OthersKept name before d' ∧ d'.containers name = k) d
  := by
  apply wp_always_forEach _ ⟨hd, hk⟩
  intro path hpath d' hd'
  apply wp_rmtree hd'
  · exact fun _ => ⟨hd'.1.remove (hpaths path hpath), hd'.2⟩
  · exact fun _ => hd'

/-! ### What an application depends on -/

/-- Nothing has changed for the application. -/
structure SameApp (name : Text) (before after : Device) : Prop where
  containers : after.containers name = before.containers name
  disk : ∀ p, APPS_PATH ++ [name] <+: p → after.fs.node p = before.fs.node p
  names : after.fs.names = before.fs.names

theorem SameApp.refl (name : Text) (d : Device) :
  SameApp name d d
  := ⟨rfl, fun _ _ => rfl, rfl⟩

theorem SameApp.trans {d₁ d₂ d₃ : Device} (h : SameApp name d₁ d₂) (h' : SameApp name d₂ d₃) :
  SameApp name d₁ d₃
  := by
  constructor
  · rw [h'.containers, h.containers]
  · intro p hp
    rw [h'.disk p hp, h.disk p hp]
  · rw [h'.names, h.names]

theorem OthersKept.sameApp {other : Text} {before after : Device} (h : OthersKept name before after)
    (hne : other ≠ name) :
  SameApp other before after
  := by
  constructor
  · exact h.containers other hne
  · intro p hp
    apply h.disk
    intro hbelow
    exact (apart_of_names_ne hne List.prefix_rfl hbelow).1 hp
  · exact h.names

section

variable {before after : Device} (h : SameApp name before after)

include h

theorem SameApp.subdirs {p : FilePath} (hp : APPS_PATH ++ [name] <+: p) :
  subdirs after.fs p = subdirs before.fs p
  := by
  have hnode (n : Text) : after.fs.node (p ++ [n]) = before.fs.node (p ++ [n]) :=
    h.disk _ (hp.trans ( List.prefix_append p [n]))
  rw [App.subdirs, App.subdirs, children_congr h.names hnode]
  apply List.filter_congr
  intro n _
  rw [isDir, isDir, hnode]

theorem SameApp.walkEntry {p : FilePath} (hp : APPS_PATH ++ [name] <+: p) :
  walkEntry after.fs p = walkEntry before.fs p
  := by
  rw [App.walkEntry, App.walkEntry, h.subdirs hp,
    h.disk _ (hp.trans ( List.prefix_append p ["config.json".toList]))]

/-- A scan comes by the same directories, in the same order. -/
theorem SameApp.walk :
  walk after.fs (APPS_PATH ++ [name]) = walk before.fs (APPS_PATH ++ [name])
  := by
  have hisDir (p : FilePath) (hp : APPS_PATH ++ [name] <+: p) :
      after.fs.isDir p = before.fs.isDir p := by
    rw [isDir, isDir, h.disk p hp]
  rw [App.walk, App.walk, hisDir _ List.prefix_rfl, h.walkEntry List.prefix_rfl,
    below_congr h.names h.disk]
  congr 2
  have hfilter : ((before.fs.below (APPS_PATH ++ [name])).filter fun dir =>
        after.fs.isDir dir && dir != APPS_PATH ++ [name])
      = (before.fs.below (APPS_PATH ++ [name])).filter fun dir =>
        before.fs.isDir dir && dir != APPS_PATH ++ [name] := by
    apply List.filter_congr
    intro dir hdir
    rw [hisDir dir (mem_below.mp hdir).1]
  rw [hfilter]
  apply List.map_congr_left
  intro dir hdir
  exact h.walkEntry (mem_below.mp (List.mem_filter.mp hdir).1).1

theorem SameApp.foundBundles :
  foundBundles after.fs name = foundBundles before.fs name
  := by
  rw [App.foundBundles, App.foundBundles, h.walk]

theorem SameApp.bundleOf {path : FilePath} :
  BundleOf after.fs name path ↔ BundleOf before.fs name path
  := by
  apply and_congr_right
  intro hpath
  exact isBundle_congr fun q hq => h.disk q (hpath.trans hq)

theorem SameApp.unparsable :
  Unparsable after.fs name ↔ Unparsable before.fs name
  := by
  have hnode {p : FilePath} (hp : APPS_PATH ++ [name] <+: p) :
      after.fs.node (configPath p) = before.fs.node (configPath p) :=
    h.disk _ (hp.trans ( List.prefix_append p _))
  constructor
  · rintro ⟨p, content, e, hp, hfile, hload⟩
    exact ⟨p, content, e, hp, (hnode hp).symm.trans hfile, hload⟩
  · rintro ⟨p, content, e, hp, hfile, hload⟩
    exact ⟨p, content, e, hp, (hnode hp).trans hfile, hload⟩

theorem SameApp.startRefused :
  StartRefused failing after name ↔ StartRefused failing before name
  := by
  rw [StartRefused, StartRefused, h.containers]

theorem SameApp.good :
  Good failing after name ↔ Good failing before name
  := by
  simp only [Good, CannotStart, h.unparsable, h.startRefused, h.bundleOf]

theorem SameApp.searchFails :
  SearchFails after.fs name ↔ SearchFails before.fs name
  := by
  rw [SearchFails, SearchFails, h.foundBundles]

theorem SameApp.stops :
  Stops failing after name ↔ Stops failing before name
  := by
  simp only [Stops, CleanupFails, h.foundBundles, h.searchFails, h.bundleOf, h.startRefused]

end

/-! ### Starting an application -/

/-- A good application whose bundles are found runs from one of them. -/
def RunsIfGood (failing : Failing) (name : Text) (before after : Device) : Prop :=
  Good failing before name → ¬ SearchFails before.fs name →
    ∃ path, BundleOf before.fs name path ∧ after.containers name = some ⟨path, .running⟩

/-- The application runs if it can be started, nothing is done when its bundles are not found, and
nothing has changed for the others. -/
structure Tried (failing : Failing) (name : Text) (before after : Device) : Prop where
  runs : RunsIfGood failing name before after
  idle : SearchFails before.fs name → after.containers name = before.containers name
  others : OthersKept name before after

/-- What is found are the bundles of the application. -/
theorem mem_foundBundles {sorted : List FilePath} {path : FilePath}
    (hfound : foundBundles d.fs name = .ok sorted) :
  path ∈ sorted ↔ BundleOf d.fs name path
  := mem_sortedBundles hfound

theorem not_searchFails {fs : Files} {sorted : List FilePath}
    (hfound : foundBundles fs name = .ok sorted) :
  ¬ SearchFails fs name
  := by
  rintro ⟨e, he⟩
  rw [hfound] at he
  contradiction

theorem cleanupFails_iff {rest : List FilePath} {first : FilePath}
    (hfound : foundBundles d.fs name = .ok (first :: rest)) :
  CleanupFails d.fs name ↔ ¬ rest.Pairwise fun p q => ¬ p <+: q
  := by
  constructor
  · rintro ⟨first', rest', hfound', h⟩
    rw [hfound, Except.ok.injEq, List.cons.injEq] at hfound'
    rw [hfound'.2]
    exact h
  · intro h
    exact ⟨first, rest, hfound, h⟩

/-- What a run of an application leaves when it goes to its end, and when there is an exception. -/
def triedPost (failing : Failing) (name : Text) (d : Device) : Post Device PyException Unit where
  returned _ d' := ¬ Stops failing d name ∧ Tried failing name d d'
  raised _ d' := Stops failing d name ∧ Tried failing name d d'
  cut _ := True

/-- An application without a bundle is not started. -/
theorem tried_of_nil (hfound : foundBundles d.fs name = .ok []) :
  ¬ Stops failing d name ∧ Tried failing name d d
  := by
  have hnone (path : FilePath) : ¬ BundleOf d.fs name path := by
    rw [← mem_foundBundles hfound]
    exact List.not_mem_nil
  constructor
  · rintro (hfails | ⟨⟨path, hpath⟩, -⟩ | ⟨first, rest, hfound', -⟩)
    · exact not_searchFails hfound hfails
    · exact hnone path hpath
    · rw [hfound] at hfound'
      cases hfound'
  · constructor
    · rintro ⟨-, path, hpath⟩ -
      exact absurd hpath (hnone path)
    · exact fun _ => rfl
    · exact OthersKept.refl name d

section

variable {rest : List FilePath} {first : FilePath}
  (hfound : foundBundles d.fs name = .ok (first :: rest))

include hfound

/-- An application that is refused ends `run-all`. -/
theorem wp_runApp_tried_of_refused (hrefused : StartRefused failing d name) :
  wp machine (AsFailing failing) (runApp name first)
    { returned := fun _ _ => False, raised := (triedPost failing name d).raised
      cut := fun _ => True } d
  := by
  have hfirst := (mem_foundBundles hfound).mp (List.mem_cons_self (a := first))
  apply (wp_and (wp_runApp_of_refused hrefused first) (wp_othersKept (issues_runApp first))).mono
  · exact fun _ _ h => h.1
  · rintro _ d' ⟨-, hothers⟩
    have hstops : Stops failing d name := .inr (.inl ⟨⟨first, hfirst⟩, hrefused⟩)
    exact ⟨hstops, fun hgood => absurd (.inr hrefused) hgood.1,
      fun hfails => absurd hfails (not_searchFails hfound), hothers⟩
  · exact fun _ _ => trivial

/-- When the first version runs, `run-all` goes on if the other ones can be removed. -/
theorem wp_rmtree_tried (hrefused : ¬ StartRefused failing d name) :
  wp machine (AsFailing failing) (forEach rest rmtree) (triedPost failing name d)
    (d.setContainer name (some ⟨first, .running⟩))
  := by
  have hbundle {path : FilePath} (hpath : path ∈ first :: rest) := (mem_foundBundles hfound).mp hpath
  have hrest (path : FilePath) (hpath : path ∈ rest) := hbundle (List.mem_cons_of_mem first hpath)
  have hremovable := removable_iff fun path hpath => (hrest path hpath).2.1
  have hcleanup := cleanupFails_iff hfound
  have htried {d' : Device} (hothers : OthersKept name d d')
      (hruns : d'.containers name = some ⟨first, .running⟩) : Tried failing name d d' := by
    constructor
    · intro _ _
      exact ⟨first, hbundle List.mem_cons_self, hruns⟩
    · exact fun hfails => absurd hfails (not_searchFails hfound)
    · exact hothers
  apply (wp_and (wp_rmtree_removable rest)
    (wp_rmtree_othersKept (fun path hpath => (hrest path hpath).1)
      ((OthersKept.refl name d).setContainer _) (Device.setContainer_same _ _ _))).mono
  · rintro _ d' ⟨hall, hothers, hruns⟩
    refine ⟨?_, htried hothers hruns⟩
    rintro (hfails | ⟨-, hrefused'⟩ | hfails)
    · exact not_searchFails hfound hfails
    · exact hrefused hrefused'
    · exact hcleanup.mp hfails (hremovable.mp hall)
  · rintro _ d' ⟨hall, hothers, hruns⟩
    refine ⟨?_, htried hothers hruns⟩
    right; right
    apply hcleanup.mpr
    exact fun h => hall (hremovable.mpr h)
  · exact fun _ _ => trivial

end

/-- The first bundle is started and the others are removed, or there is an exception. -/
theorem wp_runFirstOf {sorted : List FilePath} (hfound : foundBundles d.fs name = .ok sorted) :
  wp machine (AsFailing failing) (runFirstOf name sorted) (triedPost failing name d) d
  := by
  cases sorted with
  | nil => exact tried_of_nil hfound
  | cons first rest =>
      rw [runFirstOf, wp_bind]
      by_cases hrefused : StartRefused failing d name
      · apply (wp_runApp_tried_of_refused hfound hrefused).of_returned
        exact fun _ _ h => h.elim
      · have hdir := ((mem_foundBundles hfound).mp List.mem_cons_self).2.1
        apply (wp_runApp_of_not_refused hrefused hdir).mono
        · rintro _ _ rfl
          exact wp_rmtree_tried hfound hrefused
        · exact fun _ _ h => h.elim
        · exact fun _ h => h

theorem wp_runAppFromParentDir_tried (hname : PlainName name)
    (hdir : d.fs.isDir (APPS_PATH ++ [name]) = true) :
  wp machine (AsFailing failing) (runAppFromParentDir name) (triedPost failing name d) d
  := by
  rw [runAppFromParentDir_eq, joinPath_of_plain _ hname, wp_bind, wp_issue]
  refine ⟨trivial, fun x _ => ?_⟩
  change wp machine _ (if d.fs.isDir (APPS_PATH ++ [name]) then _ else _) _ d
  rw [if_pos hdir, wp_bind, wp_issue]
  refine ⟨trivial, fun x _ => ?_⟩
  change wp machine _ (ofExcept (foundBundles d.fs name) >>= _) _ d
  cases hfound : foundBundles d.fs name with
  | ok sorted => exact wp_runFirstOf hfound
  | error e =>
      have hfails : SearchFails d.fs name := ⟨e, hfound⟩
      exact ⟨.inl hfails, fun _ hnot => absurd hfails hnot, fun _ => rfl, OthersKept.refl name d⟩

/-! ### Starting all applications -/

/-- The applications that are done have not ended `run-all`, and run if they can be started. -/
structure AllTried (failing : Failing) (done : List Text) (before d : Device) : Prop where
  stops : ∀ name ∈ done, ¬ Stops failing before name
  runs : ∀ name ∈ done, RunsIfGood failing name before d
  others : ∀ name, name ∉ done → SameApp name before d

/-- One more application has been tried. -/
theorem AllTried.runs_concat {done : List Text} {before d' : Device}
    (h : AllTried failing done before d) (hnew : name ∉ done) (htried : Tried failing name d d') :
  ∀ app ∈ done ++ [name], RunsIfGood failing app before d'
  := by
  have hsame := h.others name hnew
  intro app happ hgood hfound
  rcases List.mem_append.mp happ with hmem | hmem
  · have hne : app ≠ name := by
      rintro rfl
      exact hnew hmem
    rw [htried.others.containers app hne]
    exact h.runs app hmem hgood hfound
  · obtain rfl := List.mem_singleton.mp hmem
    rw [← hsame.good] at hgood
    rw [← hsame.searchFails] at hfound
    obtain ⟨path, hpath, hruns⟩ := htried.runs hgood hfound
    exact ⟨path, hsame.bundleOf.mp hpath, hruns⟩

theorem AllTried.concat {done : List Text} {before d' : Device}
    (h : AllTried failing done before d) (hnew : name ∉ done) (hstops : ¬ Stops failing d name)
    (htried : Tried failing name d d') :
  AllTried failing (done ++ [name]) before d'
  := by
  constructor
  · intro name' hname'
    rcases List.mem_append.mp hname' with hmem | hmem
    · exact h.stops name' hmem
    · obtain rfl := List.mem_singleton.mp hmem
      rwa [← (h.others name' hnew).stops]
  · exact h.runs_concat hnew htried
  · intro name' hname'
    rw [List.mem_append, List.mem_singleton, not_or] at hname'
    exact (h.others name' hname'.1).trans (htried.others.sameApp hname'.2)

/-- `run-all` has ended with the exception of one of the applications. -/
def EndedBy (failing : Failing) (apps : List Text) (before after : Device) : Prop :=
  ∃ done name todo, apps = done ++ name :: todo ∧
    (∀ app ∈ done, ¬ Stops failing before app) ∧ Stops failing before name ∧
    (∀ app ∈ done ++ [name], RunsIfGood failing app before after) ∧
    (SearchFails before.fs name → after.containers name = before.containers name) ∧
    ∀ app ∈ todo, after.containers app = before.containers app

/-- What an application that ends `run-all` leaves. -/
theorem AllTried.endedBy {done todo apps : List Text} {before d' : Device}
    (h : AllTried failing done before d) (hsplit : apps = done ++ name :: todo) (hnodup : apps.Nodup)
    (hstops : Stops failing d name) (htried : Tried failing name d d') :
  EndedBy failing apps before d'
  := by
  rw [hsplit, List.nodup_append, List.nodup_cons] at hnodup
  obtain ⟨-, ⟨hname, -⟩, hdisjoint⟩ := hnodup
  have hnew : name ∉ done := fun hmem => hdisjoint name hmem name List.mem_cons_self rfl
  have hsame := h.others name hnew
  refine ⟨done, name, todo, hsplit, h.stops, hsame.stops.mp hstops, h.runs_concat hnew htried, ?_, ?_⟩
  · intro hfails
    rw [htried.idle (hsame.searchFails.mpr hfails), hsame.containers]
  · intro app happ
    have hne : app ≠ name := by
      rintro rfl
      exact hname happ
    have hold : app ∉ done := fun hmem =>
      hdisjoint app hmem app (List.mem_cons_of_mem _ happ) rfl
    rw [htried.others.containers app hne, (h.others app hold).containers]

/-- All applications are tried, or one of them ends `run-all`. -/
theorem wp_runAllAction_tried (hnames : ∀ name ∈ subdirs d.fs APPS_PATH, PlainName name) :
  wp machine (AsFailing failing) (forEach (subdirs d.fs APPS_PATH) runAppFromParentDir)
    { returned := fun _ => AllTried failing (subdirs d.fs APPS_PATH) d
      raised := fun _ => EndedBy failing (subdirs d.fs APPS_PATH) d
      cut := fun _ => True } d
  := by
  apply wp_forEach fun done _ => AllTried failing done d
  · intro done name todo d' hsplit hd'
    have hnodup := nodup_subdirs d.fs APPS_PATH
    have hmem : name ∈ subdirs d.fs APPS_PATH := by simp [hsplit]
    have hnew : name ∉ done := by
      rw [hsplit, List.nodup_append] at hnodup
      exact fun hold => hnodup.2.2 name hold name List.mem_cons_self rfl
    have hdir : d'.fs.isDir (APPS_PATH ++ [name]) = true := by
      rw [isDir_eq_true, (hd'.others name hnew).disk _ List.prefix_rfl, ← mem_subdirs]
      exact hmem
    apply (wp_runAppFromParentDir_tried (hnames name hmem) hdir).mono
    · exact fun _ _ h => hd'.concat hnew h.1 h.2
    · exact fun _ _ h => hd'.endedBy hsplit hnodup h.1 h.2
    · exact fun _ h => h
  · exact fun _ h => h
  · exact ⟨List.forall_mem_nil _, List.forall_mem_nil _, fun name _ => SameApp.refl name d⟩

/-- A good application has no container. -/
theorem Good.containers_eq_none (h : Good failing d name) :
  d.containers name = none
  := by
  by_contra hsome
  exact h.1 (.inr (.inl hsome))

/-- An application that is listed after the one that has ended `run-all` is not started. -/
theorem EndedBy.started_iff {d' : Device}
    (h : EndedBy failing (subdirs d.fs APPS_PATH) d d') :
  GoodAppsRun failing d d' ↔ NoneKeptFromStarting failing d
  := by
  obtain ⟨done, name, todo, hsplit, hdone, hstops, hruns, hidle, htodo⟩ := h
  constructor
  · intro hgoods other hother hgood
    obtain ⟨path, -, hrunning⟩ := hgoods other hother hgood
    have hstarted : d'.containers other ≠ d.containers other := by
      rw [hrunning, hgood.containers_eq_none]
      exact Option.some_ne_none _
    have hnew : other ∉ todo := fun hmem => hstarted (htodo other hmem)
    constructor
    · rw [hsplit, List.mem_append, List.mem_cons] at hother
      rcases hother with hmem | rfl | hmem
      · exact fun hfails => hdone other hmem (.inl hfails)
      · exact fun hfails => hstarted (hidle hfails)
      · exact absurd hmem hnew
    · intro app hpair
      rw [hsplit] at hpair
      by_cases hmem : app ∈ done
      · exact hdone app hmem
      · exact absurd (mem_of_pair_sublist hpair hmem) hnew
  · intro hnone app happ hgood
    obtain ⟨hfound, hbefore⟩ := hnone app happ hgood
    rw [hsplit, List.append_cons, List.mem_append] at happ
    rcases happ with hmem | hmem
    · exact hruns app hmem hgood hfound
    · have hpair : [name, app].Sublist (subdirs d.fs APPS_PATH) := by
        rw [hsplit]
        apply List.Sublist.trans _ (List.sublist_append_right _ _)
        exact (List.singleton_sublist.mpr hmem).cons_cons name
      exact absurd hstops (hbefore name hpair)

/-- When no application ends `run-all`, all of them are tried. -/
theorem AllTried.started_iff {d' : Device}
    (h : AllTried failing (subdirs d.fs APPS_PATH) d d') :
  GoodAppsRun failing d d' ↔ NoneKeptFromStarting failing d
  := by
  have hfound {name : Text} (hname : name ∈ subdirs d.fs APPS_PATH) : ¬ SearchFails d.fs name :=
    fun hfails => h.stops name hname (.inl hfails)
  constructor
  · intro _ other hother _
    exact ⟨hfound hother, fun app hpair => h.stops app (hpair.subset List.mem_cons_self)⟩
  · exact fun _ name hname hgood => h.runs name hname hgood (hfound hname)

theorem subdirs_of_not_isDir {fs : Files} {dir : FilePath} (h : ¬ fs.isDir dir = true) :
  subdirs fs dir = []
  := by
  apply List.eq_nil_iff_forall_not_mem.mpr
  intro name hname
  rw [mem_subdirs] at hname
  apply h
  rw [isDir_eq_true]
  apply fs.parent_dir (n := name)
  simp [hname]

/-- The search for the bundles has parsed every `config.json`. -/
theorem not_unparsable {sorted : List FilePath} (hfound : foundBundles d.fs name = .ok sorted) :
  ¬ Unparsable d.fs name
  := by
  rintro ⟨p, content, e, hp, hfile, hload⟩
  obtain ⟨bundles, hbundles, -⟩ := sortedBundles_eq_ok.mp hfound
  have hdir : d.fs.isDir p = true := by
    rw [isDir_eq_true]
    apply d.fs.parent_dir (n := "config.json".toList)
    change d.fs.node (configPath p) ≠ none
    simp [hfile]
  obtain ⟨found, hentry⟩ :=
    isOciBundle_of_ociBundles hbundles _ (mem_walk.mpr ⟨p, hp, hdir, rfl⟩)
  have hfile' : d.fs.node (p ++ ["config.json".toList]) = some (.file content) := hfile
  have hconfig : (walkEntry d.fs p).config = some content := by
    simp only [walkEntry, hfile']
  simp only [isOciBundle, hconfig, hload, bind, Except.bind] at hentry
  contradiction

/-- An application without a container has not been started. -/
theorem not_goodAppsRun_of_none {d' : Device} (happ : name ∈ subdirs d.fs APPS_PATH)
    (hgood : Good failing d name) (hnone : d'.containers name = none) :
  ¬ GoodAppsRun failing d d'
  := by
  intro hgoods
  obtain ⟨path, -, hrunning⟩ := hgoods name happ hgood
  rw [hnone] at hrunning
  contradiction

/-- A device with two applications, each with one version. -/
def deviceWithTwoApps : Device :=
  deviceWithBundles [bundlePath ['a'] 0, bundlePath ['b'] 0]

/-- No container of the application can be created. -/
def brokenApp (name : Text) : Failing where
  create id := decide (id = name)
  start _ := false

/-- A run of the two applications, in which the command after a number of others fails. -/
def runFailingAfter (n : ℕ) : Outcome PyException Unit × List Choice × Device :=
  run machine runAllAction (List.replicate n truthfully ++ [{ kind := .fails }]) deviceWithTwoApps

theorem subdirs_deviceWithTwoApps :
  subdirs deviceWithTwoApps.fs APPS_PATH = [['b'], ['a']]
  := by decide

end App
