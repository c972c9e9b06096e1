import MblCore.Lib.Breach
import MblCore.Lib.Keeps
import MblCore.App.Calls
import MblCore.App.Scan

/-!
# An update touches only its own applications

The name of an application comes from the control data of its package and is joined to
`/home/app` as it is.  Everything an update installs or removes is in the directories of its own
applications just if every application it installs has a name that is the name of a directory.
-/

namespace App

open FileTree
open Prog hiding pure throw bind

/-! ### What is the update's own -/

/-- A path in the directory of an application. -/
def Inside (app_name : Text) (path : FilePath) : Prop :=
  PlainName app_name ∧ APPS_PATH ++ [app_name] <+: path

/-- The packages in an update package. -/
def ipksOf (update_pkg : UpdatePkg) : List Text :=
  match update_pkg.members with
  | none => []
  | some tar_file =>
      match getIpksFromPkg update_pkg.path tar_file with
      | .ok members => members.map TarInfo.name
      | .error _ => []

/-- The name of an application in the package, by what `opkg info` prints. -/
def AppOf (info : Text → CmdResult) (update_pkg : UpdatePkg) (app_name : Text) : Prop :=
  ∃ ipk ∈ ipksOf update_pkg,
    appNameOf (joinText IPKS_EXTRACTION_PATH ipk) (info (joinText IPKS_EXTRACTION_PATH ipk))
      = .ok app_name

/-- `opkg info` prints what it prints for a package whenever it is asked. -/
def Prints (info : Text → CmdResult) : Call → Choice → Device → Prop
  | .opkgInfo app_pkg, x, _ => opkgInfo x = info app_pkg
  | _, _, _ => True

/-- What is installed or removed is in the directory of an application of the package. -/
def Within (info : Text → CmdResult) (own : Text → Prop) : Call → Prop
  | .opkgInstall app_name path app_pkg =>
      own app_name ∧ appNameOf app_pkg (info app_pkg) = .ok app_name ∧ Inside app_name path
  | .opkgRemove app_name path => own app_name ∧ Inside app_name path
  | .rmtree path => ∃ app_name, own app_name ∧ Inside app_name path
  | _ => True

/-- An application is installed when its name is the name of a directory. -/
def InstallsPlain : Call → Choice → Device → Prop
  | .opkgInstall app_name _ _, _, _ => PlainName app_name
  | _, _, _ => True

instance decidableInstallsPlain : ∀ (c : Call) (x : Choice) (d : Device),
    Decidable (InstallsPlain c x d)
  | .opkgInstall _ _ _, _, _ => inferInstanceAs (Decidable (PlainName _))
  | .extractall _ _, _, _ | .opkgInfo _, _, _ | .opkgRemove _ _, _, _ | .runcState _, _, _
  | .runcKill _ _, _, _ | .runcDelete _, _, _ | .runcCreate _ _, _, _ | .runcStart _, _, _
  | .isdir _, _, _ | .exists_ _, _, _ | .walk _ _, _, _ | .listdir _, _, _ | .rmtree _, _, _
  | .endtimeReached, _, _ | .log _, _, _ => isTrue trivial

/-- The record of an application of the package. -/
structure Own (own : Text → Prop) (app : AppRecord) : Prop where
  name : own app.name
  new : Inside app.name app.new_bundle_path
  cur : ∀ p, app.cur_bundle_path = some p → Inside app.name p

variable {info : Text → CmdResult} {own : Text → Prop} {adm : Call → Choice → Device → Prop}
  {d : Device}

/-! ### Removals -/

/-- The directory above a path in the directory of an application, unless it is that of all
applications. -/
theorem Inside.dropLast {app_name : Text} {path : FilePath} (h : Inside app_name path)
    (hne : path.dropLast ≠ APPS_PATH) :
  Inside app_name path.dropLast
  := by
  obtain ⟨hname, rest, rfl⟩ := h
  use hname
  cases rest using List.reverseRecOn with
  | nil => simp at hne
  | append_singleton rest name =>
      rw [← List.append_assoc, List.dropLast_concat]
      apply List.prefix_append

theorem Inside.removes {app_name : Text} {path : FilePath} (hown : own app_name)
    (h : Inside app_name path) :
  Removes (Within info own) app_name path
  where
  opkgRemove := ⟨hown, h⟩
  rmtree := ⟨app_name, hown, h⟩
  parent := fun hne => ⟨app_name, hown, h.dropLast hne⟩

theorem Own.removesNew {app : AppRecord} (h : Own own app) :
  Removes (Within info own) app.name app.new_bundle_path
  := h.new.removes h.name

/-- What neither installs nor removes anything is allowed. -/
theorem Quiet.within (c : Call) (hc : Quiet c) :
  Within info own c
  := by
  cases c with
  | opkgInstall _ _ _ | opkgRemove _ _ | rmtree _ => exact hc.elim
  | _ => trivial

/-! ### Installing -/

/-- The paths of an application are in the directory its name leads to. -/
theorem wp_getAppBundlePaths_below (app_name : Text) :
  wp machine adm (getAppBundlePaths app_name)
    (Post.ifReturned fun paths _ => ∀ cur new, paths = some (cur, new) →
      joinPath APPS_INSTALLATION_PATH app_name <+: new ∧
      ∀ p, cur = some p → joinPath APPS_INSTALLATION_PATH app_name <+: p) d
  := by
  rw [getAppBundlePaths_eq, wp_bind, wp_issue]
  refine ⟨trivial, fun x _ => ?_⟩
  dsimp only
  split
  · rw [wp_bind, wp_issue]
    refine ⟨trivial, fun x _ => ?_⟩
    dsimp only
    rw [wp_ofExcept]
    split
    · rename_i paths hpaths
      rintro cur new rfl
      apply prefix_of_bundlePathsOf hpaths
    · trivial
  · rintro cur new heq
    cases heq
    constructor
    · rw [joinPath_of_plain _ (show PlainName "0".toList by decide)]
      apply List.prefix_append
    · rintro p ⟨⟩

section

variable (hinfo : ∀ c x d, adm c x d → Prints info c x d)
  (hplain : ∀ c x d, adm c x d → InstallsPlain c x d)

include hinfo in
theorem wp_getAppName_prints (app_pkg : Text) :
  wp machine adm (getAppName app_pkg)
    (Post.ifReturned fun app_name _ => appNameOf app_pkg (info app_pkg) = .ok app_name) d
  := by
  apply wp_getAppName
  · trivial
  · intro x app_name hx hname
    rw [← hinfo _ _ _ hx]
    exact hname
  · intros
    trivial

include hplain in
/-- When `opkg` is called to install an application, its name is plain. -/
theorem wp_opkgInstall_plain (app_name app_pkg : Text) (path : FilePath) :
  wp machine adm (issue (.opkgInstall app_name path app_pkg))
    (Post.ifReturned fun _ _ => PlainName app_name) d
  := by
  rw [wp_issue]
  exact ⟨trivial, fun x hx => hplain _ _ _ hx⟩

include hinfo hplain in
/-- A package is installed at a path in the directory of its application, and what is left when
that fails is removed. -/
theorem keeps_installApp {app_pkg app_name : Text} {path : FilePath} (hown : own app_name)
    (hname : appNameOf app_pkg (info app_pkg) = .ok app_name)
    (hpath : PlainName app_name → APPS_PATH ++ [app_name] <+: path) :
  Keeps machine adm (fun c _ _ => Within info own c) (installApp app_pkg path) d
  := by
  apply keeps_bind_of_ifReturned
  · apply keeps_of_issues (issues_getAppName Quiet.within app_pkg) fun _ _ _ h _ => h
  · apply wp_getAppName_prints hinfo
  · intro app_name' d' hname'
    obtain rfl := Except.ok.inj (hname.symm.trans hname')
    apply keeps_bind_of_ifReturned
    · apply keeps_issue.mpr
      intro x hx
      have hplainName : PlainName app_name := hplain _ _ _ hx
      exact ⟨hown, hname, hplainName, hpath hplainName⟩
    · apply wp_opkgInstall_plain hplain
    · intro result d'' hplainName
      split
      · trivial
      · have hremoves : Removes (Within info own) app_name path :=
          Inside.removes hown ⟨hplainName, hpath hplainName⟩
        exact keeps_of_issues (issues_afterInstallFails Quiet.within hremoves) fun _ _ _ h _ => h

include hinfo hplain in
/-- An application that was installed has a plain name. -/
theorem wp_installApp_plain {app_pkg app_name : Text} {path : FilePath}
    (hname : appNameOf app_pkg (info app_pkg) = .ok app_name) :
  wp machine adm (installApp app_pkg path) (Post.ifReturned fun _ _ => PlainName app_name) d
  := by
  apply wp_ifReturned_bind (wp_getAppName_prints hinfo app_pkg)
  intro app_name' d' hname'
  obtain rfl := Except.ok.inj (hname.symm.trans hname')
  apply wp_ifReturned_bind (wp_opkgInstall_plain hplain _ _ _)
  intro result d'' hplainName
  apply wp_ifReturned_of_forall
  intro _ _
  exact hplainName

include hinfo hplain in
theorem keeps_manageAppInstallation {ipk_path : Text}
    (hown : ∀ app_name, appNameOf ipk_path (info ipk_path) = .ok app_name → own app_name) :
  Keeps machine adm (fun c _ _ => Within info own c) (manageAppInstallation ipk_path) d
  := by
  apply keeps_bind_of_ifReturned
  · apply keeps_of_issues (issues_getAppName Quiet.within ipk_path) fun _ _ _ h _ => h
  · apply wp_getAppName_prints hinfo
  · intro app_name d' hname
    apply keeps_bind_of_ifReturned
    · apply keeps_of_issues (issues_getAppBundlePaths Quiet.within app_name) fun _ _ _ h _ => h
    · apply wp_getAppBundlePaths_below
    · rintro (_ | ⟨cur, new⟩) d'' hpaths
      · trivial
      · apply keeps_bind_of_ifReturned
        · apply keeps_installApp hinfo hplain (hown app_name hname) hname
          intro hplainName
          rw [← joinPath_of_plain _ hplainName]
          exact (hpaths cur new rfl).1
        · apply wp_ifReturned_of_forall (Q := fun _ _ => True)
          exact fun _ _ => trivial
        · intro _ _ _
          trivial

include hinfo hplain in
theorem wp_manageAppInstallation_own {ipk_path : Text}
    (hown : ∀ app_name, appNameOf ipk_path (info ipk_path) = .ok app_name → own app_name) :
  wp machine adm (manageAppInstallation ipk_path) (Post.ifReturned fun app _ => Own own app) d
  := by
  apply wp_ifReturned_bind (wp_getAppName_prints hinfo ipk_path)
  intro app_name d' hname
  apply wp_ifReturned_bind (wp_getAppBundlePaths_below app_name)
  rintro (_ | ⟨cur, new⟩) d'' hpaths
  · trivial
  · apply wp_ifReturned_bind (wp_installApp_plain hinfo hplain hname)
    intro _ _ hplainName
    obtain ⟨hnew, hcur⟩ := hpaths cur new rfl
    rw [joinPath_of_plain _ hplainName] at hnew
    constructor
    · apply hown app_name hname
    · exact ⟨hplainName, hnew⟩
    · intro p hp
      use hplainName
      rw [← joinPath_of_plain _ hplainName]
      apply hcur p hp

/-- What is known of a value that is returned, where exceptions are caught. -/
theorem wp_catching_ifReturned {α : Type} {p : Py α} {classes : List ExceptionClass}
    {P : α → Device → Prop} (hp : wp machine adm p (Post.ifReturned P) d) :
  wp machine adm (catching p classes)
    (Post.ifReturned fun result d' => ∀ a, result = .ok a → P a d') d
  := by
  rw [wp_catching]
  apply hp.mono
  · rintro a d' ha _ ⟨⟩
    exact ha
  · intro e d' _
    dsimp only
    split
    · rintro a ⟨⟩
    · trivial
  · exact fun _ h => h

/-- There is always an exception after an error of an installation. -/
theorem wp_removeAfterInstallError_ifReturned {α : Type} (apps : List AppRecord)
    (e : PyException) {Q : α → Device → Prop} :
  wp machine adm (removeAfterInstallError apps e) (Post.ifReturned Q) d
  := by
  apply wp_ifReturned_bind_of_forall
  rintro (uninstall_error | _) d' <;> trivial

theorem keeps_catching {α : Type} {p : Py α} {classes : List ExceptionClass}
    {ok : Call → Choice → Device → Prop} (hp : Keeps machine adm ok p d) :
  Keeps machine adm ok (catching p classes) d
  := by
  apply keeps_bind_of_ifReturned (keeps_attempt.mpr hp)
  · exact wp_ifReturned_of_forall fun _ _ => trivial
  · rintro (e | a) d' -
    · dsimp only
      split <;> trivial
    · trivial

include hinfo hplain in
theorem keeps_installAppsFrom {ipks : List Text} {installed_apps : List AppRecord}
    (hinstalled : ∀ app ∈ installed_apps, Own own app)
    (hown : ∀ ipk ∈ ipks, ∀ app_name,
      appNameOf (joinText IPKS_EXTRACTION_PATH ipk) (info (joinText IPKS_EXTRACTION_PATH ipk))
        = .ok app_name → own app_name) :
  Keeps machine adm (fun c _ _ => Within info own c) (installAppsFrom installed_apps ipks) d
    ∧ wp machine adm (installAppsFrom installed_apps ipks)
      (Post.ifReturned fun apps _ => ∀ app ∈ apps, Own own app) d
  := by
  induction ipks generalizing installed_apps d with
  | nil => exact ⟨trivial, hinstalled⟩
  | cons ipk ipks ih =>
      have hipk := hown ipk List.mem_cons_self
      have hmore {app : AppRecord} (happ : Own own app) :
          ∀ app' ∈ installed_apps ++ [app], Own own app' := by
        simpa [or_imp, forall_and, happ] using hinstalled
      have hrest (app : AppRecord) (happ : Own own app) (d : Device) :=
        ih (d := d) (hmore happ) fun ipk' hipk' => hown ipk' (List.mem_cons_of_mem ipk hipk')
      constructor
      · apply keeps_bind_of_ifReturned
        · apply keeps_catching (keeps_manageAppInstallation hinfo hplain hipk)
        · apply wp_catching_ifReturned (wp_manageAppInstallation_own hinfo hplain hipk)
        · rintro (e | app) d' happ
          · have hremoves : ∀ app ∈ installed_apps,
                Removes (Within info own) app.name app.new_bundle_path :=
              fun app happ => (hinstalled app happ).removesNew
            exact keeps_of_issues (issues_removeAfterInstallError Quiet.within hremoves e)
              fun _ _ _ h _ => h
          · exact (hrest app (happ app rfl) d').1
      · apply wp_ifReturned_bind
          (wp_catching_ifReturned (wp_manageAppInstallation_own hinfo hplain hipk))
        rintro (e | app) d' happ
        · apply wp_removeAfterInstallError_ifReturned
        · exact (hrest app (happ app rfl) d').2

/-! ### Unpacking -/

/-- What is unpacked are the packages of the update package. -/
theorem wp_unpack (update_pkg : UpdatePkg) :
  wp machine adm (unpack update_pkg)
    (Post.ifReturned fun ipks d' => ipks = ipksOf update_pkg ∧ d' = d) d
  := by
  obtain ⟨path, _ | tar_file⟩ := update_pkg
  · trivial
  · cases hipks : getIpksFromPkg path tar_file with
    | error e =>
        simp only [unpack, hipks]
        trivial
    | ok members =>
        have hipksOf : ipksOf ⟨path, some tar_file⟩ = members.map TarInfo.name := by
          simp only [ipksOf, hipks]
        simp only [unpack, hipks, hipksOf]
        change wp machine adm (if members = [] then _ else _) _ d
        split
        · trivial
        · rw [wp_bind, wp_issue]
          refine ⟨trivial, fun x _ => ?_⟩
          dsimp only
          split <;> trivial

include hinfo hplain in
/-- An update whose applications have plain names touches nothing but their directories. -/
theorem keeps_runMblAppUpdateManager (update_pkg : UpdatePkg) :
  Keeps machine adm (fun c _ _ => Within info (AppOf info update_pkg) c)
    (runMblAppUpdateManager update_pkg) d
  := by
  apply keeps_bind_of_ifReturned
  · apply keeps_of_issues (issues_unpack Quiet.within update_pkg) fun _ _ _ h _ => h
  · apply wp_unpack
  · rintro _ d' ⟨rfl, -⟩
    have hown : ∀ ipk ∈ ipksOf update_pkg, ∀ app_name,
        appNameOf (joinText IPKS_EXTRACTION_PATH ipk) (info (joinText IPKS_EXTRACTION_PATH ipk))
          = .ok app_name → AppOf info update_pkg app_name :=
      fun ipk hipk app_name hname => ⟨ipk, hipk, hname⟩
    obtain ⟨hkeeps, hreturns⟩ :=
      keeps_installAppsFrom (d := d') hinfo hplain (List.forall_mem_nil _) hown
    apply keeps_bind_of_ifReturned hkeeps hreturns
    intro apps d'' happs
    apply keeps_bind_of_ifReturned
    · refine keeps_of_issues ?_ fun _ _ _ h _ => h
      apply issues_startInstalledApps Quiet.within
      · exact fun app happ => (happs app happ).removesNew
      · intro app happ path hpath
        exact Inside.removes (happs app happ).name ((happs app happ).cur path hpath)
    · apply wp_ifReturned_of_forall (Q := fun _ _ => True) fun _ _ => trivial
    · intro _ _ _
      trivial

end

/-! ### The other applications -/

/-- `opkg install` changes what is below its path. -/
theorem node_opkgInstall {x : Choice} {path p : FilePath} (h : Apart path p) :
  (opkgInstall x d path).2.fs.node p = d.fs.node p
  := by
  rcases opkgInstall_cases x d path with ⟨tree, -, -, heq⟩ | ⟨fs, rfl | ⟨tree, -, rfl⟩, heq⟩ <;>
    rw [heq]
  · exact node_graft_elsewhere _ _ h.1 h.2
  · exact node_graft_elsewhere _ _ h.1 h.2

/-- `opkg remove` changes what is below its path. -/
theorem node_opkgRemove {x : Choice} {path p : FilePath} (h : Apart path p) :
  (opkgRemove x d path).2.fs.node p = d.fs.node p
  := by
  by_cases hkind : x.kind = .fails
  · obtain ⟨fs, rfl | ⟨tree, -, rfl⟩, heq⟩ := opkgRemove_fails hkind d path <;> rw [heq]
    exact node_graft_elsewhere _ _ h.1 h.2
  · simp only [opkgRemove, if_neg hkind]
    split
    · exact node_graft_elsewhere _ _ h.1 h.2
    · rfl

/-- A call that stays within the directories of the update's own applications leaves those of
all others. -/
theorem node_perform_of_within {c : Call} {x : Choice} {other : Text} {p : FilePath}
    (hc : Within info own c) (hother : ¬ own other) (hp : APPS_PATH ++ [other] <+: p) :
  (perform c x d).2.fs.node p = d.fs.node p
  := by
  have hcontainer {id : Text} (hid : ContainerCall id c) :
      (perform c x d).2.fs.node p = d.fs.node p := by
    obtain ⟨k, hk⟩ := perform_containerCall (d := d) (x := x) hid
    rw [hk]
    rfl
  have hne {app_name : Text} (hown : own app_name) : app_name ≠ other := by
    rintro rfl
    exact hother hown
  cases c with
  | opkgInstall app_name path app_pkg =>
      obtain ⟨hown, -, hinside⟩ := hc
      exact node_opkgInstall (apart_of_names_ne (hne hown) hinside.2 hp)
  | opkgRemove app_name path =>
      obtain ⟨hown, hinside⟩ := hc
      exact node_opkgRemove (apart_of_names_ne (hne hown) hinside.2 hp)
  | rmtree path =>
      obtain ⟨app_name, hown, hinside⟩ := hc
      simp only [perform]
      split
      · exact node_remove_elsewhere _ (apart_of_names_ne (hne hown) hinside.2 hp).1
      · rfl
  | runcState id | runcKill id signal | runcDelete id | runcCreate bundle_path id
  | runcStart id => exact hcontainer (show ContainerCall id _ from rfl)
  | log line => cases line <;> rfl
  | _ => rfl

theorem Within.installsPlain {c : Call} {x : Choice} (h : Within info own c) :
  InstallsPlain c x d
  := by
  cases c with
  | opkgInstall app_name path app_pkg => exact h.2.2.1
  | _ => trivial

/-- Everything an update installs or removes is in the directories of its own applications, and
nothing in the directories of other applications changes, exactly when every application is
installed under a plain name. -/
theorem touches_own_apps_iff
    {update_pkg : UpdatePkg} {xs : List Choice}
    (hinfo : Obeys machine (Prints info) (runMblAppUpdateManager update_pkg) xs d) :
  (Obeys machine (fun c _ _ => Within info (AppOf info update_pkg) c)
      (runMblAppUpdateManager update_pkg) xs d ∧
    ∀ other, ¬ AppOf info update_pkg other → ∀ p, APPS_PATH ++ [other] <+: p →
      (run machine (runMblAppUpdateManager update_pkg) xs d).2.2.fs.node p = d.fs.node p)
    ↔ Obeys machine InstallsPlain (runMblAppUpdateManager update_pkg) xs d
  := by
  constructor
  · rintro ⟨hwithin, -⟩
    apply hwithin.mono
    exact fun c x d => Within.installsPlain
  · intro hplain
    have hkeeps : Keeps machine (Both (Prints info) InstallsPlain)
        (fun c _ _ => Within info (AppOf info update_pkg) c)
        (runMblAppUpdateManager update_pkg) d :=
      keeps_runMblAppUpdateManager (fun _ _ _ h => h.1) (fun _ _ _ h => h.2) update_pkg
    have hwithin := hkeeps.obeys (hinfo.and hplain)
    use hwithin
    intro other hother p hp
    apply hwithin.invariant fun d' => d'.fs.node p = d.fs.node p
    · intro c x d' hc heq
      rw [← heq]
      exact node_perform_of_within hc hother hp
    · rfl

/-! ### A name that leads out of `/home/app` -/

/-- An update package with one package. -/
def onePackage : UpdatePkg :=
  ⟨"update.tar".toList, some [⟨"a.ipk".toList, true⟩]⟩

/-- The package is unpacked, named, and installed. -/
def installing (app_name : Text) : List Choice :=
  [truthfully, { truthfully with stdout := infoOf app_name, returncode := 0 }, truthfully,
    { truthfully with stdout := infoOf app_name, returncode := 0 }, truthfully]

/-- An update of an application called `tool` touches nothing but `/home/app/tool`. -/
theorem touches_own_apps_tool :
  Obeys machine (fun c _ _ => Within (fun _ => success (infoOf "tool".toList))
      (AppOf (fun _ => success (infoOf "tool".toList)) onePackage) c)
    (runMblAppUpdateManager onePackage) (installing "tool".toList) bareDevice
  := by
  have hinfo : Obeys machine (Prints fun _ => success (infoOf "tool".toList))
      (runMblAppUpdateManager onePackage) (installing "tool".toList) bareDevice :=
    And.intro trivial (And.intro rfl (And.intro trivial (And.intro rfl (And.intro trivial trivial))))
  exact ((touches_own_apps_iff hinfo).mpr (by decide)).1

/-- An application called `../../opt/tool` is installed outside `/home/app`. -/
theorem installs_outside_home_app :
  Obeys machine (Prints fun _ => success (infoOf "../../opt/tool".toList))
      (runMblAppUpdateManager onePackage) (installing "../../opt/tool".toList) bareDevice ∧
    ¬ Obeys machine (fun c _ _ => Within (fun _ => success (infoOf "../../opt/tool".toList))
        (AppOf (fun _ => success (infoOf "../../opt/tool".toList)) onePackage) c)
      (runMblAppUpdateManager onePackage) (installing "../../opt/tool".toList) bareDevice ∧
    (run machine (runMblAppUpdateManager onePackage) (installing "../../opt/tool".toList)
      bareDevice).2.2.fs.isDir ["opt".toList, "tool".toList, "0".toList] = true
  := by
  refine ⟨?_, ?_, by decide⟩
  · exact And.intro trivial (And.intro rfl (And.intro trivial (And.intro rfl
      (And.intro trivial trivial))))
  · intro hwithin
    have hplain : Obeys machine InstallsPlain (runMblAppUpdateManager onePackage)
        (installing "../../opt/tool".toList) bareDevice :=
      hwithin.mono fun c x d => Within.installsPlain
    revert hplain
    decide

end App
