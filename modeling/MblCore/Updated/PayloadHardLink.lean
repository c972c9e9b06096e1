import MblCore.Lib.Lookup
import MblCore.Lib.Method

/-!
# `PayloadHardLink`

The object that holds a hard link to an update payload, in the directory `updated` next to the
payload.  The constructor removes what is at `updated`, makes the directory and links the payload
into it; the destructor removes the directory.  They work on paths and disks of any kind: a path
may go through links, `.` and `..`, and every call of `std::filesystem` may fail.  A file of the
tree is the number of its inode, so a hard link to a file is a further path with the same content.
-/

open FileTree

namespace Updated

/-- The number of an inode. -/
abbrev Ino := Nat

/-- The name of the directory the links are made in. -/
def updatedName : Text :=
  "updated".toList

namespace PayloadHardLink

/-- The nodes of a disk. -/
abbrev Nodes := LinkTree Ino

/-- A disk: its root is a directory. -/
structure Disk where
  nodes : Nodes
  root : nodes.node [] = some .dir

/-- `std::filesystem::filesystem_error`, the one exception the calls raise. -/
inductive FilesystemError
  | filesystem_error
deriving DecidableEq

/-- What the operating system does in the calls that the nodes of the disk do not decide. -/
structure Os where
  /-- Whether the status of a path can be read. -/
  status : List Text → Bool
  /-- What a removal removes before it fails, if it fails. -/
  remove_all : Option (List FilePath)
  mkdir : List Text → Bool
  link : Bool

/-- A system that refuses nothing. -/
def willing : Os where
  status _ := true
  remove_all := none
  mkdir _ := true
  link := true

/-- A call of `std::filesystem`. -/
abbrev Call := Method FilesystemError Nodes

variable (os : Os) (limit : Nat)

/-- `std::filesystem::exists`, which follows links. -/
def existsAt (path : List Text) : Call Bool := do
  let t ← get
  if os.status path = false then throw .filesystem_error
  else
    match t.resolve limit path with
    | .found _ => pure true
    | .noEntry => pure false
    | .tooManyLinks => throw .filesystem_error

/-- Where a removal starts: at the entry the path names, or, for a path with a separator at its
end, where the path leads to. -/
def removedAt (t : Nodes) (path : List Text) : Option FilePath :=
  match t.entryOf limit path, t.resolve limit path with
  | some (dir, name), _ => some (dir ++ [name])
  | none, .found p => some p
  | none, _ => none

/-- `std::filesystem::remove_all`. -/
def removeAll (path : List Text) : Call Unit := do
  let t ← get
  match removedAt limit t path, os.remove_all with
  | none, _ => pure ()
  | some p, none => set (t.remove p)
  | some p, some removed => do
      set (t.removeAmong p removed)
      throw .filesystem_error

/-- The call `mkdir` for one directory.  It is no error that there is a directory already. -/
def mkdir (path : List Text) : Call Unit := do
  let t ← get
  match t.entryOf limit path, t.resolve limit path with
  | none, _ => throw .filesystem_error
  | some (dir, name), resolved =>
      if t.has (dir ++ [name]) = false then
        if os.mkdir path then set (t.mkdirs (dir ++ [name]))
        else throw .filesystem_error
      else
        match resolved with
        | .found p => if t.isDir p then pure () else throw .filesystem_error
        | _ => throw .filesystem_error

/-- `std::filesystem::create_directories`, on the names of a path from the last one up. -/
def createUp : List Text → Call Unit
  | [] => pure ()
  | name :: above => do
      let t ← get
      if os.status (name :: above).reverse = false then throw .filesystem_error
      else
        match t.resolve limit (name :: above).reverse with
        | .found p => if t.isDir p then pure () else throw .filesystem_error
        | .tooManyLinks => throw .filesystem_error
        | .noEntry => do
            createUp above
            if Plain name then mkdir os limit (name :: above).reverse else pure ()

/-- `std::filesystem::create_directories`. -/
def createDirectories (path : List Text) : Call Unit :=
  createUp os limit path.reverse

/-- `std::filesystem::create_hard_link`, which links a symbolic link itself. -/
def createHardLink (source_path payload_path : List Text) : Call Unit := do
  let t ← get
  match t.entryOf limit source_path, t.entryOf limit payload_path with
  | some (sourceDir, source), some (dir, name) =>
      match t.node (sourceDir ++ [source]) with
      | some (.file leaf) =>
          if h : os.link = true ∧ t.node dir = some .dir ∧ t.node (dir ++ [name]) = none then
            set (t.addFile dir name leaf h.2.1 h.2.2)
          else throw .filesystem_error
      | _ => throw .filesystem_error
  | _, _ => throw .filesystem_error

/-- Remove the path `removed` if there is something at the path `tested`. -/
def removeIfThere (tested removed : List Text) : Call Unit := do
  if ← existsAt os limit tested then removeAll os limit removed

/-- The constructor, which returns the path of the link. -/
def construct (source_path : List Text) : Call (List Text) := do
  let payload_path := source_path.dropLast ++ [updatedName]
  removeIfThere os limit payload_path payload_path
  createDirectories os limit payload_path
  let payload_path := payload_path ++ source_path.getLast?.toList
  createHardLink os limit source_path payload_path
  return payload_path

/-- The destructor.  It ends the process when one of its calls raises an exception. -/
def destruct (payload_path : List Text) : Call Unit :=
  removeIfThere os limit payload_path.dropLast (payload_path.dropLast ++ [[]])

/-- The path of the link to a payload: the name of the payload in the directory `updated`. -/
def linkPath (source_path : List Text) : List Text :=
  source_path.dropLast ++ [updatedName] ++ source_path.getLast?.toList

/-! ### What the calls leave -/

/-- A directory is not at or below an entry of it. -/
theorem not_prefix_concat (dir : FilePath) (name : Text) :
  ¬ dir ++ [name] <+: dir
  := by
  intro h
  have hlength := h.length_le
  rw [List.length_append, List.length_singleton] at hlength
  omega

variable {os : Os} {limit : Nat}

/-- The nodes `t'` are those of `t`, except at and below `u`. -/
def SameOutside (t : Nodes) (u : FilePath) (t' : Nodes) : Prop :=
  ∀ q, ¬ u <+: q → t'.node q = t.node q

theorem sameOutside_refl (t : Nodes) (u : FilePath) :
  SameOutside t u t
  := fun _ _ => rfl

theorem SameOutside.trans {t t' t'' : Nodes} {u : FilePath} (h : SameOutside t u t')
    (h' : SameOutside t' u t'') :
  SameOutside t u t''
  := fun q hq => (h' q hq).trans (h q hq)

/-- A path whose lookup looks at nothing at or below `u` leads where it has led. -/
theorem SameOutside.lookup_eq {t t' : Nodes} {u : FilePath} (h : SameOutside t u t')
    {path : List Text} (hpath : ∀ q ∈ t.visited limit path, ¬ u <+: q) :
  t'.lookup limit [] path = t.lookup limit [] path
  := LinkTree.lookup_congr t t' limit [] path fun q hq => h q (hpath q hq)

/-- A path that leads to a directory and looks at nothing at or below an entry of it still leads
there. -/
theorem SameOutside.resolve_dir {t t' : Nodes} {dir : FilePath} {path : List Text} {name : Text}
    (h : SameOutside t (dir ++ [name]) t') (hpath : t.resolve limit path = .found dir)
    (hdir : t.node dir = some .dir)
    (hvisited : ∀ q ∈ t.visited limit path, ¬ dir ++ [name] <+: q) :
  t'.resolve limit path = .found dir ∧ t'.node dir = some .dir
  := by
  constructor
  · rw [LinkTree.resolve, h.lookup_eq hvisited]
    exact hpath
  · rw [h dir (not_prefix_concat dir name)]
    exact hdir

/-- A path that is not looked up through `u`, and names no entry at or below it, still names what
it has named. -/
theorem SameOutside.nodeAt_eq {t t' : Nodes} {u dir : FilePath} {parts : List Text} {name : Text}
    (h : SameOutside t u t') (hentry : t.entryOf limit parts = some (dir, name))
    (hvisited : ∀ q ∈ t.visited limit parts.dropLast, ¬ u <+: q) (hout : ¬ u <+: dir ++ [name]) :
  t'.entryOf limit parts = some (dir, name) ∧ t'.nodeAt limit parts = t.nodeAt limit parts
  := by
  obtain ⟨path, rfl, hname, hpath, hdir⟩ := t.eq_concat_of_entryOf hentry
  rw [List.dropLast_concat] at hvisited
  have hdir' : t'.node dir = some .dir := by
    rw [h dir fun habove => hout (habove.trans (List.prefix_append dir [name]))]
    exact hdir
  have hentry' : t'.entryOf limit (path ++ [name]) = some (dir, name) :=
    LinkTree.entryOf_congr t t' hname hpath (fun q hq => h q (hvisited q hq)) hdir'
  use hentry'
  rw [LinkTree.nodeAt, LinkTree.nodeAt, hentry, hentry']
  exact h _ hout

/-- The status of a path is read and nothing is changed. -/
theorem existsAt_ends (t : Nodes) (path : List Text) :
  (existsAt os limit path).Ends t
    (fun there t' => t' = t ∧ (there = true → ∃ p, t.resolve limit path = .found p)
      ∧ (there = false → t.resolve limit path = .noEntry))
    (fun t' => t' = t)
  := by
  apply Method.ends_get_bind
  split
  · exact Method.ends_throw rfl
  · split
    · rename_i p hp
      exact Method.ends_pure ⟨rfl, fun _ => ⟨p, hp⟩, fun h => by contradiction⟩
    · rename_i hnone
      exact Method.ends_pure ⟨rfl, fun h => by contradiction, fun _ => hnone⟩
    · exact Method.ends_throw rfl

/-- A removal changes nothing but what is at and below where it starts, and removes all of it
unless it fails. -/
theorem removeAll_ends {t : Nodes} {path : List Text} {u : FilePath}
    (h : removedAt limit t path = some u) :
  (removeAll os limit path).Ends t
    (fun _ t' => SameOutside t u t' ∧ t'.node u = none) (SameOutside t u)
  := by
  apply Method.ends_get_bind
  rw [h]
  cases os.remove_all with
  | none =>
      apply Method.ends_set
      use fun q hq => node_remove_elsewhere t hq
      exact node_remove_below t (List.prefix_refl u)
  | some removed =>
      apply Method.ends_set_bind
      apply Method.ends_throw
      exact fun q hq => node_removeAmong_elsewhere t removed hq

/-- No directories are created for a path that leads to a directory. -/
theorem createUp_ends_of_dir {t : Nodes} {path : List Text} {dir : FilePath}
    (hpath : t.resolve limit path = .found dir) (hdir : t.node dir = some .dir) :
  (createUp os limit path.reverse).Ends t (fun _ t' => t' = t) (fun t' => t' = t)
  := by
  cases hreverse : path.reverse with
  | nil => exact Method.ends_pure rfl
  | cons name above =>
      apply Method.ends_get_bind
      rw [← hreverse, List.reverse_reverse, hpath]
      dsimp only
      split
      · exact Method.ends_throw rfl
      · rw [if_pos (isDir_eq_true.mpr hdir)]
        exact Method.ends_pure rfl

theorem plain_updatedName :
  Plain updatedName
  := by decide

section

variable {t : Nodes} {path : List Text} {dir : FilePath}

/-- The directory `updated` is made in a directory where that name leads to nothing, or else
nothing is. -/
theorem mkdir_ends (hpath : t.resolve limit path = .found dir) (hdir : t.node dir = some .dir)
    (hnone : t.resolve limit (path ++ [updatedName]) = .noEntry) :
  (mkdir os limit (path ++ [updatedName])).Ends t
    (fun _ t' => t.node (dir ++ [updatedName]) = none ∧ SameOutside t (dir ++ [updatedName]) t'
      ∧ t'.node (dir ++ [updatedName]) = some .dir)
    (fun t' => t' = t)
  := by
  apply Method.ends_get_bind
  rw [t.entryOf_concat plain_updatedName hpath hdir, hnone]
  dsimp only
  split
  · rename_i hnew
    split
    · apply Method.ends_set
      use has_eq_false.mp hnew
      constructor
      · intro q hq
        rw [node_mkdirs]
        split
        · rename_i hq'
          rw [prefix_concat_iff] at hq'
          cases hq' with
          | inl heq => exact absurd (heq ▸ List.prefix_refl q) hq
          | inr hq' =>
              by_cases heq : q = dir
              · rw [heq, hdir]
              · rw [dir_above (by simp [hdir]) hq' heq]
        · rfl
      · rw [node_mkdirs, if_pos (List.prefix_refl _)]
    · exact Method.ends_throw rfl
  · exact Method.ends_throw rfl

/-- `create_directories` makes no directory but `updated` in a directory that is there. -/
theorem createDirectories_ends (hpath : t.resolve limit path = .found dir)
    (hdir : t.node dir = some .dir)
    (hnone : t.resolve limit (path ++ [updatedName]) = .noEntry) :
  (createDirectories os limit (path ++ [updatedName])).Ends t
    (fun _ t' => t.node (dir ++ [updatedName]) = none ∧ SameOutside t (dir ++ [updatedName]) t'
      ∧ t'.node (dir ++ [updatedName]) = some .dir)
    (fun t' => t' = t)
  := by
  unfold createDirectories
  rw [List.reverse_concat]
  apply Method.ends_get_bind
  rw [List.reverse_cons, List.reverse_reverse, hnone]
  split
  · exact Method.ends_throw rfl
  · apply Method.Ends.bind (createUp_ends_of_dir hpath hdir)
    rintro - t' rfl
    rw [if_pos plain_updatedName]
    exact mkdir_ends hpath hdir hnone

/-- A file added where nothing was is found at a path that names this entry. -/
theorem nodeAt_addFile {leaf : Leaf Ino} {name : Text} (hname : Plain name)
    (hpath : t.resolve limit path = .found dir) (hdir : t.node dir = some .dir)
    (hnew : t.node (dir ++ [name]) = none) :
  LinkTree.nodeAt (t.addFile dir name leaf hdir hnew) limit (path ++ [name]) = some (.file leaf)
  := by
  have hentry : LinkTree.entryOf (t.addFile dir name leaf hdir hnew) limit (path ++ [name])
      = some (dir, name) := by
    apply LinkTree.entryOf_congr t _ hname hpath
    · -- the entries the directory was found through are there
      intro q hq
      rw [node_addFile, if_neg]
      rintro rfl
      exact t.node_ne_none_of_visited path hpath hq hnew
    · rw [node_addFile, if_neg (by simp)]
      exact hdir
  rw [LinkTree.nodeAt, hentry]
  simp only [Option.bind_some]
  rw [node_addFile, if_pos rfl]

/-- `create_hard_link` returns only when there is a file at the path of the source, and this file
is then at the path of the link as well. -/
theorem createHardLink_links (source_path payload_path : List Text) :
  (createHardLink os limit source_path payload_path).Ends t
    (fun _ t' => ∃ leaf, t.nodeAt limit source_path = some (.file leaf)
      ∧ t'.nodeAt limit payload_path = some (.file leaf))
    (fun t' => t' = t)
  := by
  apply Method.ends_get_bind
  split
  · rename_i sourceDir source dir name hsource hentry
    split
    · rename_i leaf hleaf
      split
      · rename_i hmade
        apply Method.ends_set
        obtain ⟨path, rfl, hname, hpath, hdir⟩ := t.eq_concat_of_entryOf hentry
        use leaf
        constructor
        · rw [LinkTree.nodeAt, hsource]
          exact hleaf
        · exact nodeAt_addFile hname hpath hdir hmade.2.2
      · exact Method.ends_throw rfl
    · exact Method.ends_throw rfl
  · exact Method.ends_throw rfl

/-- A link is added below the directory it is made in. -/
theorem createHardLink_ends {source_path : List Text} {name : Text} {u : FilePath}
    (hpath : t.resolve limit path = .found u) (hu : t.node u = some .dir) :
  (createHardLink os limit source_path (path ++ [name])).Ends t
    (fun _ t' => SameOutside t u t' ∧ t'.node u = some .dir) (fun t' => t' = t)
  := by
  apply Method.ends_get_bind
  split
  · rename_i sourceDir source p name' hsource hentry
    have hp : p = u := by
      have hdir := t.resolve_dropLast_of_entryOf hentry
      rw [List.dropLast_concat, hpath] at hdir
      exact (Lookup.found.inj hdir).symm
    obtain rfl := hp
    split
    · split
      · apply Method.ends_set
        constructor
        · intro q hq
          rw [node_addFile, if_neg]
          intro heq
          exact hq (heq ▸ List.prefix_append p [name'])
        · rw [node_addFile, if_neg (by simp)]
          exact hu
      · exact Method.ends_throw rfl
    · exact Method.ends_throw rfl
  · exact Method.ends_throw rfl

/-- Nothing is removed, or what is at and below `u`, and then all of it unless the removal
fails. -/
theorem removeIfThere_ends {tested removed : List Text} {u : FilePath}
    (h : removedAt limit t removed = some u) :
  (removeIfThere os limit tested removed).Ends t
    (fun _ t' => SameOutside t u t'
      ∧ (t'.node u = none ∨ t' = t ∧ t.resolve limit tested = .noEntry))
    (SameOutside t u)
  := by
  apply Method.Ends.bind
  · apply (existsAt_ends t tested).mono (fun _ _ h => h)
    rintro t' rfl
    exact sameOutside_refl t' u
  rintro there t' ⟨rfl, -, hnone⟩
  cases there with
  | true =>
      apply (removeAll_ends h).mono
      · exact fun _ t'' h' => ⟨h'.1, Or.inl h'.2⟩
      · exact fun _ h' => h'
  | false => exact Method.ends_pure ⟨sameOutside_refl t' u, Or.inr ⟨rfl, hnone rfl⟩⟩

/-- Where nothing leads through `updated`, the constructor changes nothing outside, and what it
links is what the path has named. -/
theorem construct_ends {name : Text} (hpath : t.resolve limit path = .found dir)
    (hdir : t.node dir = some .dir)
    (hvisited : ∀ q ∈ t.visited limit path, ¬ dir ++ [updatedName] <+: q) :
  (construct os limit (path ++ [name])).Ends t
    (fun payload_path t' => payload_path = path ++ [updatedName] ++ [name]
      ∧ SameOutside t (dir ++ [updatedName]) t' ∧ t'.node (dir ++ [updatedName]) = some .dir
      ∧ (t.entryOf limit (path ++ [name]) = some (dir, name) → name ≠ updatedName →
          t'.nodeAt limit payload_path = t.nodeAt limit (path ++ [name])))
    (SameOutside t (dir ++ [updatedName]))
  := by
  unfold construct
  rw [List.dropLast_concat, List.getLast?_concat]
  have hremoved : removedAt limit t (path ++ [updatedName]) = some (dir ++ [updatedName]) := by
    rw [removedAt, t.entryOf_concat plain_updatedName hpath hdir]
  apply Method.Ends.bind (removeIfThere_ends hremoved)
  rintro - t₁ ⟨hsame₁, hgone⟩
  obtain ⟨hpath₁, hdir₁⟩ := hsame₁.resolve_dir hpath hdir hvisited
  have hnone : t₁.resolve limit (path ++ [updatedName]) = .noEntry := by
    cases hgone with
    | inl hgone => exact t₁.resolve_concat_missing plain_updatedName hpath₁ hdir₁ hgone
    | inr h =>
        rw [h.1]
        exact h.2
  apply Method.Ends.bind
  · apply (createDirectories_ends hpath₁ hdir₁ hnone).mono (fun _ _ h => h)
    rintro t₂ rfl
    exact hsame₁
  rintro - t₂ ⟨-, hsame₂, hupdated⟩
  have hsame₂ := hsame₁.trans hsame₂
  have hlink : t₂.resolve limit (path ++ [updatedName]) = .found (dir ++ [updatedName]) :=
    t₂.resolve_concat_dir plain_updatedName (hsame₂.resolve_dir hpath hdir hvisited).1 hupdated
  apply Method.Ends.bind
  · apply ((createHardLink_ends hlink hupdated).and (createHardLink_links _ _)).mono
      (fun _ _ h => h)
    rintro t₃ ⟨rfl, -⟩
    exact hsame₂
  rintro - t₃ ⟨⟨hsame₃, hupdated⟩, leaf, hsource, hlinked⟩
  apply Method.ends_pure
  use rfl, hsame₂.trans hsame₃, hupdated
  intro hentry hname
  have hout : ¬ dir ++ [updatedName] <+: dir ++ [name] := by
    rw [List.prefix_append_right_inj, List.singleton_prefix_cons_iff]
    exact Ne.symm hname
  have hsource₂ := (hsame₂.nodeAt_eq hentry (by rwa [List.dropLast_concat]) hout).2
  rw [← hsource₂, hsource]
  exact hlinked

/-- Whatever the path, the constructor returns only when it has made a link to a file, and the
file is at the path of the link. -/
theorem construct_links (t : Nodes) (source_path : List Text) :
  (construct os limit source_path).Ends t
    (fun payload_path t' => payload_path = linkPath source_path
      ∧ ∃ leaf, t'.nodeAt limit payload_path = some (.file leaf))
    (fun _ => True)
  := by
  unfold construct
  apply Method.Ends.bind (Method.ends_trivial _)
  intro _ t₁ _
  apply Method.Ends.bind (Method.ends_trivial _)
  intro _ t₂ _
  apply Method.Ends.bind
  · exact (createHardLink_links _ _).mono (fun _ _ h => h) fun _ _ => trivial
  rintro - t₃ ⟨leaf, -, hlinked⟩
  exact Method.ends_pure ⟨rfl, leaf, hlinked⟩

/-- A removal at a path with a separator at its end starts where the path leads to. -/
theorem found_of_removedAt {u : FilePath} (h : removedAt limit t (path ++ [[]]) = some u) :
  t.resolve limit path = .found u
  := by
  rw [removedAt, t.entryOf_concat_stays (Or.inl rfl)] at h
  split at h
  · contradiction
  · rename_i p _ hp
    obtain rfl := Option.some.inj h
    exact t.found_of_concat_stays (Or.inl rfl) path hp
  · contradiction

theorem removedAt_dir {u : FilePath} (hpath : t.resolve limit path = .found u)
    (hu : t.node u = some .dir) :
  removedAt limit t (path ++ [[]]) = some u
  := by
  rw [removedAt, t.entryOf_concat_stays (Or.inl rfl),
    t.resolve_concat_stays (Or.inl rfl) hpath hu]

/-- What the removal of the directory at `path` can change: nothing, or what is at and below the
directory the path leads to. -/
def Removed (limit : Nat) (t : Nodes) (path : List Text) (t' : Nodes) : Prop :=
  t' = t ∨ ∃ u, t.resolve limit path = .found u ∧ SameOutside t u t'

/-- The destructor removes the directory of the link, and is done with it when it returns. -/
theorem destruct_removes (t : Nodes) (payload_path : List Text) :
  (destruct os limit payload_path).Ends t
    (fun _ t' => Removed limit t payload_path.dropLast t'
      ∧ ∀ u, t.resolve limit payload_path.dropLast = .found u → t.node u = some .dir →
          t'.node u = none)
    (Removed limit t payload_path.dropLast)
  := by
  unfold destruct
  apply Method.Ends.bind
  · apply (existsAt_ends t payload_path.dropLast).mono (fun _ _ h => h)
    rintro t' rfl
    exact Or.inl rfl
  rintro there t' ⟨rfl, -, hnone⟩
  cases there with
  | false =>
      apply Method.ends_pure
      use Or.inl rfl
      intro u hu
      rw [hnone rfl] at hu
      contradiction
  | true =>
      cases hremoved : removedAt limit t' (payload_path.dropLast ++ [[]]) with
      | none =>
          apply Method.ends_get_bind
          rw [hremoved]
          apply Method.ends_pure
          use Or.inl rfl
          intro u hu hdir
          rw [removedAt_dir hu hdir] at hremoved
          contradiction
      | some u =>
          have hu := found_of_removedAt hremoved
          apply (removeAll_ends hremoved).mono
          · rintro - t'' ⟨hsame, hgone⟩
            use Or.inr ⟨u, hu, hsame⟩
            intro u' hu' _
            rw [hu] at hu'
            obtain rfl := Lookup.found.inj hu'
            exact hgone
          · exact fun t'' hsame => Or.inr ⟨u, hu, hsame⟩

/-- The destructor of a link in the directory `updated` changes nothing outside. -/
theorem destruct_ends {name : Text} {u : FilePath} (hpath : t.resolve limit path = .found u)
    (hu : t.node u = some .dir) :
  (destruct os limit (path ++ [name])).Ends t (fun _ t' => SameOutside t u t') (SameOutside t u)
  := by
  have hremoved : ∀ t', Removed limit t path t' → SameOutside t u t' := by
    rintro t' (rfl | ⟨u', hu', hsame⟩)
    · exact sameOutside_refl t' u
    · rw [hpath] at hu'
      obtain rfl := Lookup.found.inj hu'
      exact hsame
  have hends : (destruct os limit (path ++ [name])).Ends t _ _ := destruct_removes t (path ++ [name])
  rw [List.dropLast_concat] at hends
  exact hends.mono (fun _ t' h => hremoved t' h.1) hremoved

/-- Where `updated` is there but leads to nothing, the constructor raises an exception and
changes nothing. -/
theorem construct_ends_of_not_found {name : Text} (hpath : t.resolve limit path = .found dir)
    (hdir : t.node dir = some .dir) (hthere : t.node (dir ++ [updatedName]) ≠ none)
    (hlost : ∀ p, t.resolve limit (path ++ [updatedName]) ≠ .found p) :
  (construct os limit (path ++ [name])).Ends t (fun _ _ => False) (fun t' => t' = t)
  := by
  unfold construct
  rw [List.dropLast_concat]
  have htested : (removeIfThere os limit (path ++ [updatedName]) (path ++ [updatedName])).Ends t
      (fun _ t' => t' = t ∧ t.resolve limit (path ++ [updatedName]) = .noEntry)
      (fun t' => t' = t) := by
    apply Method.Ends.bind (existsAt_ends t (path ++ [updatedName]))
    rintro there t' ⟨rfl, hfound, hnone⟩
    cases there with
    | true =>
        obtain ⟨p, hp⟩ := hfound rfl
        exact absurd hp (hlost p)
    | false => exact Method.ends_pure ⟨rfl, hnone rfl⟩
  apply Method.Ends.bind htested
  rintro - t' ⟨rfl, hnone⟩
  apply Method.Ends.bind (createDirectories_ends hpath hdir hnone)
  rintro - t₁ ⟨hnew, -⟩
  exact absurd hnew hthere

end

end PayloadHardLink

end Updated
