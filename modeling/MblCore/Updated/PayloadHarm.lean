import MblCore.Updated.PayloadHardLink

/-!
# What `PayloadHardLink` leaves of the payload

The constructor removes what is at `updated` next to the payload, and the destructor does so
again.  The payload survives on every disk and whatever the operating system refuses, unless the
path it is given by leads through `updated` itself: it has that name, or reaches its directory or
its file through that entry.
-/

open FileTree

namespace Updated

namespace PayloadHardLink

/-! ### The payload and the rest of the disk -/

/-- The payload at `source_path` is what it was on `t`, and so is everything outside the
directory `updated` next to it. -/
structure Unharmed (limit : Nat) (t : Nodes) (source_path : List Text) (t' : Nodes) : Prop where
  payload : t'.read limit source_path = t.read limit source_path
  outside : ∀ dir, t.resolve limit source_path.dropLast = .found dir →
    SameOutside t (dir ++ [updatedName]) t'

/-- The constructor leaves the payload and the rest of the disk as they were, however it ends,
and when it returns so does the destructor. -/
def Harmless (limit : Nat) (t : Nodes) (source_path : List Text) : Prop :=
  ∀ os os' : Os, Unharmed limit t source_path ((construct os limit source_path).call t).2
    ∧ ∀ payload_path t', (construct os limit source_path).call t = (.ok payload_path, t') →
      Unharmed limit t source_path ((destruct os' limit payload_path).call t').2

/-- The path of the payload leads through the entry `updated` of the directory it is in. -/
def LeadsThroughUpdated (limit : Nat) (t : Nodes) (source_path : List Text) : Prop :=
  ∃ dir, t.resolve limit source_path.dropLast = .found dir
    ∧ ∃ q ∈ t.visited limit source_path, dir ++ [updatedName] <+: q

/-- The name `updated` in the directory of the payload leads to something. -/
def UpdatedIsThere (limit : Nat) (t : Nodes) (source_path : List Text) : Prop :=
  ∃ p, t.resolve limit (source_path.dropLast ++ [updatedName]) = .found p

theorem unharmed_refl (limit : Nat) (t : Nodes) (source_path : List Text) :
  Unharmed limit t source_path t
  := ⟨rfl, fun _ _ => sameOutside_refl t _⟩

variable {limit : Nat} {disk : Disk} {source_path : List Text}

/-- A path to a regular file has a last name, and a directory before it. -/
theorem exists_concat_of_read (h : disk.nodes.read limit source_path ≠ none) :
  ∃ path name dir, source_path = path ++ [name]
    ∧ disk.nodes.resolve limit path = .found dir ∧ disk.nodes.node dir = some .dir
  := by
  obtain ⟨p, hp⟩ := disk.nodes.found_of_read h
  obtain rfl | ⟨path, name, rfl⟩ := List.eq_nil_or_concat' source_path
  · rw [LinkTree.read, LinkTree.resolve, LinkTree.lookup_nil] at h
    dsimp only at h
    rw [disk.root] at h
    contradiction
  · obtain ⟨dir, hdir⟩ :=
      disk.nodes.found_dir_of_append (List.cons_ne_nil name []) disk.root path hp
    exact ⟨path, name, dir, rfl, hdir⟩

/-- What is read at a path that does not lead through `u` depends on what is outside. -/
theorem SameOutside.read_eq {t' : Nodes} {u : FilePath} (h : SameOutside disk.nodes u t')
    (hvisited : ∀ q ∈ disk.nodes.visited limit source_path, ¬ u <+: q)
    (hread : disk.nodes.read limit source_path ≠ none) :
  t'.read limit source_path = disk.nodes.read limit source_path
  := by
  have hresolve : t'.resolve limit source_path = disk.nodes.resolve limit source_path := by
    rw [LinkTree.resolve, h.lookup_eq hvisited, LinkTree.resolve]
  unfold LinkTree.read at hread ⊢
  rw [hresolve]
  cases hfound : disk.nodes.resolve limit source_path with
  | noEntry => rfl
  | tooManyLinks => rfl
  | found p =>
      rw [hfound] at hread
      cases disk.nodes.mem_visited_of_found disk.root source_path hfound with
      | inl hdir => simp [hdir] at hread
      | inr hp =>
          dsimp only
          rw [h p (hvisited p hp)]

/-- A change at and below `updated` does no harm to a payload whose path does not lead
there. -/
theorem SameOutside.unharmed {t' : Nodes} {dir : FilePath}
    (h : SameOutside disk.nodes (dir ++ [updatedName]) t')
    (hdir : disk.nodes.resolve limit source_path.dropLast = .found dir)
    (hread : disk.nodes.read limit source_path ≠ none)
    (hvisited : ∀ q ∈ disk.nodes.visited limit source_path, ¬ dir ++ [updatedName] <+: q) :
  Unharmed limit disk.nodes source_path t'
  := by
  use h.read_eq hvisited hread
  intro dir' hdir'
  rw [hdir] at hdir'
  obtain rfl := Lookup.found.inj hdir'
  exact h

section

variable {path : List Text} {name : Text} {dir : FilePath}

/-- A payload whose path does not lead through `updated` is not harmed. -/
theorem harmless_of_not_through (hread : disk.nodes.read limit (path ++ [name]) ≠ none)
    (hpath : disk.nodes.resolve limit path = .found dir)
    (hdir : disk.nodes.node dir = some .dir)
    (hvisited : ∀ q ∈ disk.nodes.visited limit (path ++ [name]), ¬ dir ++ [updatedName] <+: q) :
  Harmless limit disk.nodes (path ++ [name])
  := by
  have hvisitedPath : ∀ q ∈ disk.nodes.visited limit path, ¬ dir ++ [updatedName] <+: q :=
    fun q hq => hvisited q (disk.nodes.mem_visited_append hpath hdir hq [name])
  have unharmed : ∀ {t'}, SameOutside disk.nodes (dir ++ [updatedName]) t' →
      Unharmed limit disk.nodes (path ++ [name]) t' := by
    intro t' hsame
    apply hsame.unharmed _ hread hvisited
    rw [List.dropLast_concat]
    exact hpath
  intro os os'
  have hends : (construct os limit (path ++ [name])).Ends disk.nodes _ _ :=
    construct_ends hpath hdir hvisitedPath
  constructor
  · apply unharmed
    apply Method.Ends.after
    exact hends.mono (fun _ _ h => h.2.1) fun _ h => h
  · intro payload_path t' hcall
    obtain ⟨rfl, hsame, hupdated, -⟩ := hends.of_ok hcall
    obtain ⟨hpath', -⟩ := hsame.resolve_dir hpath hdir hvisitedPath
    have hlink := t'.resolve_concat_dir plain_updatedName hpath' hupdated
    apply unharmed
    apply hsame.trans
    exact (destruct_ends hlink hupdated).after

/-- A payload next to which `updated` leads to nothing is not harmed. -/
theorem harmless_of_not_there (hread : disk.nodes.read limit (path ++ [name]) ≠ none)
    (hpath : disk.nodes.resolve limit path = .found dir)
    (hdir : disk.nodes.node dir = some .dir)
    (hlost : ∀ p, disk.nodes.resolve limit (path ++ [updatedName]) ≠ .found p) :
  Harmless limit disk.nodes (path ++ [name])
  := by
  by_cases hthere : disk.nodes.node (dir ++ [updatedName]) = none
  · -- the entry is not there, so no path leads through it
    apply harmless_of_not_through hread hpath hdir
    intro q hq hbelow
    obtain ⟨p, hp⟩ := disk.nodes.found_of_read hread
    have hq := disk.nodes.node_ne_none_of_visited (path ++ [name]) hp hq
    by_cases heq : dir ++ [updatedName] = q
    · exact hq (heq ▸ hthere)
    · rw [dir_above hq hbelow heq] at hthere
      contradiction
  · intro os os'
    have hends : (construct os limit (path ++ [name])).Ends disk.nodes _ _ :=
      construct_ends_of_not_found hpath hdir hthere hlost
    constructor
    · have hsame : ((construct os limit (path ++ [name])).call disk.nodes).2 = disk.nodes :=
        (hends.mono (fun _ _ h => h.elim) fun _ h => h).after
      rw [hsame]
      exact unharmed_refl limit disk.nodes _
    · intro payload_path t' hcall
      exact (hends.of_ok hcall).elim

/-! ### A system that refuses to make what has been removed -/

/-- The removal succeeds, but no directory and no link can be made. -/
def refusing : Os where
  status _ := true
  remove_all := none
  mkdir _ := false
  link := false

/-- `create_directories` changes nothing when no directory can be made. -/
theorem createUp_refusing (t : Nodes) (above : List Text) :
  (createUp refusing limit above).Ends t (fun _ t' => t' = t) (fun t' => t' = t)
  := by
  induction above with
  | nil => exact Method.ends_pure rfl
  | cons name above ih =>
      apply Method.ends_get_bind
      rw [if_neg (by simp [refusing])]
      split
      · split
        · exact Method.ends_pure rfl
        · exact Method.ends_throw rfl
      · exact Method.ends_throw rfl
      · apply Method.Ends.bind ih
        rintro - t' rfl
        split
        · apply Method.ends_get_bind
          split
          · exact Method.ends_throw rfl
          · split
            · rw [if_neg (by simp [refusing])]
              exact Method.ends_throw rfl
            · split
              · split
                · exact Method.ends_pure rfl
                · exact Method.ends_throw rfl
              · exact Method.ends_throw rfl
        · exact Method.ends_pure rfl

/-- `create_hard_link` raises an exception when no link can be made. -/
theorem createHardLink_refusing (t : Nodes) (source_path payload_path : List Text) :
  (createHardLink refusing limit source_path payload_path).Ends t
    (fun _ _ => False) (fun t' => t' = t)
  := by
  apply Method.ends_get_bind
  split
  · split
    · rw [dif_neg (by simp [refusing])]
      exact Method.ends_throw rfl
    · exact Method.ends_throw rfl
  · exact Method.ends_throw rfl

/-- On such a system the constructor leaves the disk without what has been at `updated`. -/
theorem construct_refusing {p : FilePath} (hpath : disk.nodes.resolve limit path = .found dir)
    (hdir : disk.nodes.node dir = some .dir)
    (hthere : disk.nodes.resolve limit (path ++ [updatedName]) = .found p) :
  ((construct refusing limit (path ++ [name])).call disk.nodes).2
    = disk.nodes.remove (dir ++ [updatedName])
  := by
  have hremoved : removedAt limit disk.nodes (path ++ [updatedName])
      = some (dir ++ [updatedName]) := by
    rw [removedAt, disk.nodes.entryOf_concat plain_updatedName hpath hdir]
  have hexists : (existsAt refusing limit (path ++ [updatedName])).Ends disk.nodes
      (fun there t' => there = true ∧ t' = disk.nodes) (fun _ => False) := by
    apply Method.ends_get_bind
    rw [if_neg (by simp [refusing]), hthere]
    exact Method.ends_pure ⟨rfl, rfl⟩
  have hremove : (removeIfThere refusing limit (path ++ [updatedName])
      (path ++ [updatedName])).Ends disk.nodes
      (fun _ t' => t' = disk.nodes.remove (dir ++ [updatedName])) (fun _ => False) := by
    apply Method.Ends.bind hexists
    rintro there t' ⟨rfl, rfl⟩
    apply Method.ends_get_bind
    rw [hremoved]
    exact Method.ends_set rfl
  have hends : (construct refusing limit (path ++ [name])).Ends disk.nodes (fun _ _ => False)
      (fun t' => t' = disk.nodes.remove (dir ++ [updatedName])) := by
    unfold construct
    rw [List.dropLast_concat]
    apply Method.Ends.bind (hremove.mono (fun _ _ h => h) fun _ h => h.elim)
    rintro - t' rfl
    apply Method.Ends.bind (createUp_refusing _ _)
    rintro - t' rfl
    apply Method.Ends.bind (createHardLink_refusing _ _ _)
    exact fun _ _ h => h.elim
  exact (hends.mono (fun _ _ h => h.elim) fun _ h => h).after

end

/-- The constructor and the destructor never harm a payload just when the name `updated` in its
directory leads to nothing or its path does not lead through that entry. -/
theorem harmless_iff (disk : Disk) (hread : disk.nodes.read limit source_path ≠ none) :
  Harmless limit disk.nodes source_path
    ↔ (UpdatedIsThere limit disk.nodes source_path →
        ¬ LeadsThroughUpdated limit disk.nodes source_path)
  := by
  obtain ⟨path, name, dir, rfl, hpath, hdir⟩ := exists_concat_of_read hread
  unfold UpdatedIsThere LeadsThroughUpdated
  rw [List.dropLast_concat]
  constructor
  · rintro hharmless ⟨p, hthere⟩ ⟨dir', hdir', q, hq, hbelow⟩
    rw [hpath] at hdir'
    obtain rfl := Lookup.found.inj hdir'
    have hread' := (hharmless refusing refusing).1.payload
    rw [construct_refusing hpath hdir hthere] at hread'
    apply hread
    rw [← hread', LinkTree.read, LinkTree.resolve]
    rw [disk.nodes.noEntry_of_remove (by simp) (by simp) (path ++ [name]) hq hbelow]
  · intro h
    by_cases hthere : ∃ p, disk.nodes.resolve limit (path ++ [updatedName]) = .found p
    · apply harmless_of_not_through hread hpath hdir
      intro q hq hbelow
      exact h hthere ⟨dir, hpath, q, hq, hbelow⟩
    · exact harmless_of_not_there hread hpath hdir (not_exists.mp hthere)

/-- The disk with the directory `x` and a payload in it that has the name `updated`. -/
def namedUpdated : Disk where
  nodes := (root.mkdirs ["x".toList]).addFile ["x".toList] updatedName (.regular 7) rfl rfl
  root := rfl

/-- The constructor removes a payload that has the name `updated`. -/
theorem not_harmless_namedUpdated :
  namedUpdated.nodes.read 40 ["x".toList, updatedName] = some 7
    ∧ ¬ Harmless 40 namedUpdated.nodes ["x".toList, updatedName]
  := by
  constructor
  · decide
  · intro h
    have hpayload := (h willing willing).1.payload
    revert hpayload
    decide

/-- A payload with another name, next to a directory `updated`, is not harmed. -/
theorem harmless_besideUpdated :
  Harmless 40 ((root.mkdirs ["x".toList, updatedName]).addFile ["x".toList] "p".toList
    (.regular 7) rfl rfl) ["x".toList, "p".toList]
  := by
  apply (harmless_iff ⟨_, rfl⟩ (by decide)).mpr
  rintro - ⟨dir, hdir, q, hq, hbelow⟩
  obtain rfl := Lookup.found.inj hdir
  revert q
  decide

end PayloadHardLink

end Updated
