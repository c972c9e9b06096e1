import MblCore.App.Update

/-!
# What `unpack` extracts

A member of the archive whose name ends in `.ipk` is a package.  The packages are extracted when
there is one and all of them are regular files without a directory in their names, and nothing is
extracted otherwise.
-/

namespace App

open FileTree
open Prog hiding pure throw bind

/-! ### The name of a member -/

theorem rdropWhile_eq_nil_iff {t : Text} :
  t.rdropWhile (· != '/') = [] ↔ '/' ∉ t
  := by
  rw [List.rdropWhile_eq_nil_iff]
  simp only [bne_iff_ne, ne_eq]
  constructor
  · intro h hmem
    exact h '/' hmem rfl
  · rintro h c hc rfl
    exact h hc

/-- What is before the last slash of a name is nothing just if there is no slash. -/
theorem dirname_eq_nil_iff {t : Text} :
  dirname t = [] ↔ '/' ∉ t
  := by
  unfold dirname
  dsimp only
  split
  · exact rdropWhile_eq_nil_iff
  · rename_i hall
    rw [← rdropWhile_eq_nil_iff]
    constructor
    · intro hnil
      rw [List.rdropWhile_eq_nil_iff] at hnil
      exact absurd (List.all_eq_true.mpr hnil) hall
    · intro hnil
      simp [hnil] at hall

/-! ### The members of an archive -/

/-- The name of a member ends in `.ipk`, in letters of either case. -/
def IsIpk (tar_info : TarInfo) : Prop :=
  ".ipk".toList <:+ tar_info.name.map lower

instance : DecidablePred IsIpk :=
  fun _ => inferInstanceAs (Decidable (_ <:+ _))

/-- A regular file with no directory in its name. -/
def PlainMember (tar_info : TarInfo) : Prop :=
  tar_info.isfile = true ∧ '/' ∉ tar_info.name

instance : DecidablePred PlainMember :=
  fun _ => inferInstanceAs (Decidable (_ ∧ _))

/-- The packages of an archive. -/
def ipkMembers (tar_file : List TarInfo) : List TarInfo :=
  tar_file.filter IsIpk

/-- There is no package in the archive, or one that is not a plain file. -/
def Refused (tar_file : List TarInfo) : Prop :=
  ipkMembers tar_file = [] ∨ ∃ tar_info ∈ ipkMembers tar_file, ¬ PlainMember tar_info

instance : DecidablePred Refused :=
  fun _ => inferInstanceAs (Decidable (_ ∨ _))

variable {update_pkg : Text} {tar_info : TarInfo} {tar_file : List TarInfo}

theorem validateArchiveMember_other (h : ¬ IsIpk tar_info) :
  validateArchiveMember update_pkg tar_info = .ok false
  := by
  rw [IsIpk] at h
  rw [validateArchiveMember, if_pos h]

theorem validateArchiveMember_plain (h : IsIpk tar_info) (hplain : PlainMember tar_info) :
  validateArchiveMember update_pkg tar_info = .ok true
  := by
  rw [IsIpk] at h
  rw [validateArchiveMember, if_neg (not_not.mpr h), if_neg (not_not.mpr hplain.1),
    if_neg (not_not.mpr (dirname_eq_nil_iff.mpr hplain.2))]

theorem validateArchiveMember_bad (h : IsIpk tar_info) (hbad : ¬ PlainMember tar_info) :
  ∃ msg, validateArchiveMember update_pkg tar_info = .error ⟨.IllegalPackage, msg⟩
  := by
  rw [IsIpk] at h
  rw [validateArchiveMember, if_neg (not_not.mpr h)]
  split
  · exact ⟨_, rfl⟩
  · rename_i hfile
    rw [if_pos]
    · exact ⟨_, rfl⟩
    · intro hdir
      exact hbad ⟨not_not.mp hfile, dirname_eq_nil_iff.mp hdir⟩

/-- When all packages are plain, they are the members that are found. -/
theorem getIpksFromPkg_plain (h : ∀ tar_info ∈ ipkMembers tar_file, PlainMember tar_info) :
  getIpksFromPkg update_pkg tar_file = .ok (ipkMembers tar_file)
  := by
  induction tar_file with
  | nil => rfl
  | cons tar_info tar_file ih =>
      have hrest : getIpksFromPkg update_pkg tar_file = .ok (ipkMembers tar_file) := by
        apply ih
        intro tar_info' hmem
        apply h
        rw [ipkMembers, List.mem_filter] at hmem ⊢
        exact ⟨List.mem_cons_of_mem _ hmem.1, hmem.2⟩
      by_cases hipk : IsIpk tar_info
      · have hplain : PlainMember tar_info := by
          apply h
          simp [ipkMembers, hipk]
        simp [getIpksFromPkg, validateArchiveMember_plain hipk hplain, hrest, ipkMembers, hipk,
          bind, Except.bind, pure, Except.pure]
      · simp [getIpksFromPkg, validateArchiveMember_other hipk, hrest, ipkMembers, hipk, bind,
          Except.bind, pure, Except.pure]

/-- A package that is not plain is refused, wherever it is in the archive. -/
theorem getIpksFromPkg_bad (h : ∃ tar_info ∈ ipkMembers tar_file, ¬ PlainMember tar_info) :
  ∃ msg, getIpksFromPkg update_pkg tar_file = .error ⟨.IllegalPackage, msg⟩
  := by
  induction tar_file with
  | nil => simp [ipkMembers] at h
  | cons tar_info tar_file ih =>
      obtain ⟨bad, hmem, hbad⟩ := h
      rw [ipkMembers, List.mem_filter, List.mem_cons, decide_eq_true_eq] at hmem
      by_cases hfirst : IsIpk tar_info ∧ ¬ PlainMember tar_info
      · obtain ⟨msg, hmsg⟩ : ∃ msg, validateArchiveMember update_pkg tar_info
            = .error ⟨.IllegalPackage, msg⟩ := validateArchiveMember_bad hfirst.1 hfirst.2
        use msg
        rw [getIpksFromPkg, hmsg]
        rfl
      · have hrest : ∃ msg, getIpksFromPkg update_pkg tar_file = .error ⟨.IllegalPackage, msg⟩ := by
          apply ih
          obtain ⟨rfl | hmem, hipk⟩ := hmem
          · exact absurd ⟨hipk, hbad⟩ hfirst
          · exact ⟨bad, by simp [ipkMembers, hmem, hipk], hbad⟩
        obtain ⟨msg, hmsg⟩ := hrest
        use msg
        rw [getIpksFromPkg]
        by_cases hipk : IsIpk tar_info
        · have hplain : PlainMember tar_info := by
            by_contra hnot
            exact hfirst ⟨hipk, hnot⟩
          rw [validateArchiveMember_plain hipk hplain, hmsg]
          rfl
        · rw [validateArchiveMember_other hipk, hmsg]
          rfl

/-! ### Where the packages are extracted -/

/-- `IPKS_EXTRACTION_PATH`, as a path. -/
def extractionDir : FilePath :=
  ["mnt".toList, "cache".toList, "opkg".toList, "src_ipk".toList]

example : pathText extractionDir = IPKS_EXTRACTION_PATH := rfl

/-- A package without a directory in its name has the name of an entry of a directory. -/
theorem plainName_of_isIpk (h : IsIpk tar_info) (hslash : '/' ∉ tar_info.name) :
  PlainName tar_info.name
  := by
  have hlength : 4 ≤ tar_info.name.length := by
    simpa using h.length_le
  refine ⟨?_, hslash, ?_, ?_⟩ <;>
  · intro hname
    rw [hname] at hlength
    contradiction

/-- An archive is refused before anything is extracted. -/
theorem unpack_of_refused {path : Text} (h : Refused tar_file) :
  ∃ msg, unpack ⟨path, some tar_file⟩ = raise .IllegalPackage msg
  := by
  by_cases hbad : ∃ tar_info ∈ ipkMembers tar_file, ¬ PlainMember tar_info
  · obtain ⟨msg, hmsg⟩ : ∃ msg, getIpksFromPkg path tar_file = .error ⟨.IllegalPackage, msg⟩ :=
      getIpksFromPkg_bad hbad
    use msg
    simp only [unpack, hmsg]
    rfl
  · have hempty : ipkMembers tar_file = [] := h.resolve_right hbad
    have hnone : getIpksFromPkg path tar_file = .ok [] := by
      rw [getIpksFromPkg_plain, hempty]
      simp [hempty]
    simp only [unpack, hnone]
    exact ⟨_, rfl⟩

/-- The packages are extracted, and nothing else. -/
theorem run_unpack_of_not_refused {path : Text} (h : ¬ Refused tar_file) {x : Choice}
    (xs : List Choice) (d : Device) (hx : x.tarError = none) :
  run machine.traced (unpack ⟨path, some tar_file⟩) (x :: xs) (d, [])
    = (.returned ((ipkMembers tar_file).map TarInfo.name), xs, d,
        [⟨.extractall IPKS_EXTRACTION_PATH (ipkMembers tar_file), none⟩])
  := by
  rw [Refused, not_or] at h
  obtain ⟨hne, hplain⟩ := h
  have hmembers : getIpksFromPkg path tar_file = .ok (ipkMembers tar_file) := by
    apply getIpksFromPkg_plain
    simpa using hplain
  simp only [unpack, hmembers]
  change run machine.traced (if ipkMembers tar_file = [] then _ else _) _ _ = _
  rw [if_neg hne, run_bind]
  simp only [Prog.issue, run, Machine.traced, machine, perform, hx]
  rfl

/-- `unpack` refuses an archive before anything is extracted, or it extracts the packages of the
archive, in order, each of them a regular file right in the extraction directory, and returns their
names. -/
theorem unpack_extracts_plain_ipks (path : Text) (tar_file : List TarInfo) :
  ((∃ msg, unpack ⟨path, some tar_file⟩ = raise .IllegalPackage msg) ↔ Refused tar_file) ∧
    (¬ Refused tar_file →
      (∀ tar_info ∈ ipkMembers tar_file, tar_info.isfile = true ∧
        joinPath extractionDir tar_info.name = extractionDir ++ [tar_info.name]) ∧
      ∀ (x : Choice) (xs : List Choice) (d : Device), x.tarError = none →
        run machine.traced (unpack ⟨path, some tar_file⟩) (x :: xs) (d, [])
          = (.returned ((ipkMembers tar_file).map TarInfo.name), xs, d,
              [⟨.extractall IPKS_EXTRACTION_PATH (ipkMembers tar_file), none⟩]))
  := by
  constructor
  · constructor
    · rintro ⟨msg, hraises⟩
      by_contra hnot
      have hrun : run machine.traced (unpack ⟨path, some tar_file⟩) [truthfully]
          (⟨root, fun _ => none, .install, []⟩, []) = _ := run_unpack_of_not_refused hnot [] _ rfl
      rw [hraises] at hrun
      cases hrun
    · exact unpack_of_refused
  · intro hnot
    constructor
    · rw [Refused, not_or] at hnot
      intro tar_info hmem
      have hplain : PlainMember tar_info := by
        by_contra hbad
        exact hnot.2 ⟨tar_info, hmem, hbad⟩
      have hipk : IsIpk tar_info := by
        rw [ipkMembers, List.mem_filter, decide_eq_true_eq] at hmem
        exact hmem.2
      exact ⟨hplain.1, joinPath_of_plain _ (plainName_of_isIpk hipk hplain.2)⟩
    · intro x xs d hx
      exact run_unpack_of_not_refused hnot xs d hx

/-- An archive with a package and a note. -/
def packageAndNote : List TarInfo :=
  [⟨"app.IPK".toList, true⟩, ⟨"doc/note".toList, true⟩]

theorem unpack_packageAndNote :
  run machine.traced (unpack ⟨"update.tar".toList, some packageAndNote⟩) [truthfully]
      (⟨root, fun _ => none, .install, []⟩, [])
    = (.returned ["app.IPK".toList], [], ⟨root, fun _ => none, .install, []⟩,
        [⟨.extractall IPKS_EXTRACTION_PATH [⟨"app.IPK".toList, true⟩], none⟩])
  := by
  have hnot : ¬ Refused packageAndNote := by decide
  obtain ⟨-, hextracts⟩ := unpack_extracts_plain_ipks "update.tar".toList packageAndNote
  exact (hextracts hnot).2 truthfully [] _ rfl

end App
