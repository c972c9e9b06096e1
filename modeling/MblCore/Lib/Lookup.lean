import MblCore.Lib.FileTree

/-!
# Path lookup

The files of a tree here are regular files and symbolic links, and a path is written with the
names `.` and `..` as well.  A lookup goes through the names of a path one by one, follows the
links it meets up to a limit, and records every entry it looks at.  What it finds depends on
these entries alone.
-/

universe u

namespace FileTree

/-- A path as it is written: whether it starts at the root, and its names.  A separator at the
end of a path, or one that is repeated, leaves an empty name. -/
structure Route where
  is_absolute : Bool
  parts : List Text
deriving DecidableEq

/-- The path without a root and without names. -/
def Route.empty (p : Route) : Bool :=
  !p.is_absolute && p.parts.isEmpty

/-- What is not a directory: a regular file, or a symbolic link. -/
inductive Leaf (F : Type u)
  | regular (content : F)
  | link (target : Route)
deriving DecidableEq

/-- How a lookup ends. -/
inductive Lookup
  | found (p : FilePath)
  | noEntry
  | tooManyLinks
deriving DecidableEq

/-- What a lookup has found, if anything. -/
def Lookup.path : Lookup → Option FilePath
  | .found p => some p
  | .noEntry => none
  | .tooManyLinks => none

@[simp]
theorem Lookup.path_eq_some {result : Lookup} {p : FilePath} :
  result.path = some p ↔ result = .found p
  := by cases result <;> simp [Lookup.path]

/-- The entries a lookup looks at, and how it ends. -/
structure Trace where
  visited : List FilePath
  result : Lookup
deriving DecidableEq

/-- The trace of a lookup that looks at an entry first. -/
def Trace.visiting (entry : FilePath) (trace : Trace) : Trace :=
  { trace with visited := entry :: trace.visited }

/-- The trace of a lookup after the entries of another one. -/
def Trace.after (entries : List FilePath) (trace : Trace) : Trace :=
  { trace with visited := entries ++ trace.visited }

/-- The name of the directory above. -/
def parentName : Text :=
  "..".toList

/-- The names that lead from a directory to itself. -/
def Stays (name : Text) : Prop :=
  name = [] ∨ name = ".".toList

instance (name : Text) : Decidable (Stays name) :=
  inferInstanceAs (Decidable (_ ∨ _))

/-- The names of entries of a directory. -/
def Plain (name : Text) : Prop :=
  ¬ Stays name ∧ name ≠ parentName

instance (name : Text) : Decidable (Plain name) :=
  inferInstanceAs (Decidable (_ ∧ _))

theorem not_stays_parentName :
  ¬ Stays parentName
  := by decide

/-- The directory the target of a link in the directory `loc` starts from. -/
def Route.base (target : Route) (loc : FilePath) : FilePath :=
  if target.is_absolute then [] else loc

end FileTree

open FileTree

/-- A file tree with symbolic links. -/
abbrev LinkTree (F : Type u) := FileTree (Leaf F)

namespace LinkTree

variable {F : Type u} {t t' : LinkTree F} {limit : Nat} {loc : FilePath} {name : Text}
  {rest : List Text}

/-- Go through the names of a path from the directory `loc`, where `follow` goes on after a
link. -/
def walk (t : LinkTree F) (follow : FilePath → List Text → Trace) :
    FilePath → List Text → Trace
  | loc, [] => ⟨[], .found loc⟩
  | loc, name :: rest =>
      if Stays name then t.walk follow loc rest
      else if name = parentName then t.walk follow loc.dropLast rest
      else
        match t.node (loc ++ [name]) with
        | none => ⟨[loc ++ [name]], .noEntry⟩
        | some .dir => (t.walk follow (loc ++ [name]) rest).visiting (loc ++ [name])
        | some (.file (.regular _)) =>
            ⟨[loc ++ [name]], if rest = [] then .found (loc ++ [name]) else .noEntry⟩
        | some (.file (.link target)) =>
            (follow (target.base loc) (target.parts ++ rest)).visiting (loc ++ [name])

/-- Look up a path from the directory `loc`, following at most `limit` links. -/
def lookup (t : LinkTree F) : (limit : Nat) → FilePath → List Text → Trace
  | 0 => t.walk fun _ _ => ⟨[], .tooManyLinks⟩
  | limit + 1 => t.walk (t.lookup limit)

/-- Where an absolute path leads to. -/
def resolve (t : LinkTree F) (limit : Nat) (parts : List Text) : Lookup :=
  (t.lookup limit [] parts).result

/-- The entries the lookup of an absolute path looks at. -/
def visited (t : LinkTree F) (limit : Nat) (parts : List Text) : List FilePath :=
  (t.lookup limit [] parts).visited

/-- The content of the regular file an absolute path leads to. -/
def read (t : LinkTree F) (limit : Nat) (parts : List Text) : Option F :=
  match t.resolve limit parts with
  | .found p =>
      match t.node p with
      | some (.file (.regular content)) => some content
      | _ => none
  | _ => none

/-- There is a regular file at `p`. -/
def isRegular (t : LinkTree F) (p : FilePath) : Bool :=
  match t.node p with
  | some (.file (.regular _)) => true
  | _ => false

/-- The entry an absolute path names, by its directory and its name.  A link at the end of the
path is the entry itself. -/
def entryOf (t : LinkTree F) (limit : Nat) (parts : List Text) : Option (FilePath × Text) :=
  match parts.getLast?, t.resolve limit parts.dropLast with
  | some name, .found p => if Plain name ∧ t.isDir p = true then some (p, name) else none
  | _, _ => none

/-- What is at an absolute path.  A link at the end of the path is not followed. -/
def nodeAt (t : LinkTree F) (limit : Nat) (parts : List Text) : Option (Node (Leaf F)) :=
  (t.entryOf limit parts).bind fun (dir, name) => t.node (dir ++ [name])

theorem isRegular_eq_true {p : FilePath} :
  t.isRegular p = true ↔ ∃ content, t.node p = some (.file (.regular content))
  := by
  unfold isRegular
  split <;> simp_all

/-- A regular file that is read has been found. -/
theorem found_of_read (t : LinkTree F) {parts : List Text} (h : t.read limit parts ≠ none) :
  ∃ p, t.resolve limit parts = .found p
  := by
  unfold read at h
  split at h
  · rename_i p hp
    exact ⟨p, hp⟩
  · contradiction

/-! ### A lookup, name by name -/

@[simp]
theorem lookup_nil :
  t.lookup limit loc [] = ⟨[], .found loc⟩
  := by cases limit <;> rfl

theorem lookup_stays (h : Stays name) :
  t.lookup limit loc (name :: rest) = t.lookup limit loc rest
  := by cases limit <;> exact if_pos h

theorem lookup_parent :
  t.lookup limit loc (parentName :: rest) = t.lookup limit loc.dropLast rest
  := by cases limit <;> simp only [lookup, walk, if_neg not_stays_parentName, if_true]

theorem lookup_missing (h : Plain name) (hnode : t.node (loc ++ [name]) = none) :
  t.lookup limit loc (name :: rest) = ⟨[loc ++ [name]], .noEntry⟩
  := by cases limit <;> simp only [lookup, walk, if_neg h.1, if_neg h.2, hnode]

theorem lookup_dir (h : Plain name) (hnode : t.node (loc ++ [name]) = some .dir) :
  t.lookup limit loc (name :: rest)
    = (t.lookup limit (loc ++ [name]) rest).visiting (loc ++ [name])
  := by cases limit <;> simp only [lookup, walk, if_neg h.1, if_neg h.2, hnode]

theorem lookup_regular {content : F} (h : Plain name)
    (hnode : t.node (loc ++ [name]) = some (.file (.regular content))) :
  t.lookup limit loc (name :: rest)
    = ⟨[loc ++ [name]], if rest = [] then .found (loc ++ [name]) else .noEntry⟩
  := by cases limit <;> simp only [lookup, walk, if_neg h.1, if_neg h.2, hnode]

theorem lookup_link_zero {target : Route} (h : Plain name)
    (hnode : t.node (loc ++ [name]) = some (.file (.link target))) :
  t.lookup 0 loc (name :: rest) = ⟨[loc ++ [name]], .tooManyLinks⟩
  := by
  simp only [lookup, walk, if_neg h.1, if_neg h.2, hnode]
  rfl

theorem lookup_link {target : Route} (h : Plain name)
    (hnode : t.node (loc ++ [name]) = some (.file (.link target))) :
  t.lookup (limit + 1) loc (name :: rest)
    = (t.lookup limit (target.base loc) (target.parts ++ rest)).visiting (loc ++ [name])
  := by simp only [lookup, walk, if_neg h.1, if_neg h.2, hnode]

/-- Induction on the names of a path, by what a lookup meets at the first of them. -/
theorem names_induction (t : LinkTree F) {motive : FilePath → List Text → Prop}
    (nil : ∀ loc, motive loc [])
    (stays : ∀ loc name rest, Stays name → motive loc rest → motive loc (name :: rest))
    (parent : ∀ loc rest, motive loc.dropLast rest → motive loc (parentName :: rest))
    (missing : ∀ loc name rest, Plain name → t.node (loc ++ [name]) = none →
      motive loc (name :: rest))
    (dir : ∀ loc name rest, Plain name → t.node (loc ++ [name]) = some .dir →
      motive (loc ++ [name]) rest → motive loc (name :: rest))
    (regular : ∀ loc name rest content, Plain name →
      t.node (loc ++ [name]) = some (.file (.regular content)) → motive loc (name :: rest))
    (link : ∀ loc name rest target, Plain name →
      t.node (loc ++ [name]) = some (.file (.link target)) → motive loc (name :: rest))
    (loc : FilePath) (parts : List Text) :
  motive loc parts
  := by
  induction parts generalizing loc with
  | nil => exact nil loc
  | cons name rest ih =>
      by_cases hstays : Stays name
      · exact stays loc name rest hstays (ih loc)
      by_cases hparent : name = parentName
      · rw [hparent]
        exact parent loc rest (ih loc.dropLast)
      have hplain : Plain name := ⟨hstays, hparent⟩
      match hnode : t.node (loc ++ [name]) with
      | none => exact missing loc name rest hplain hnode
      | some .dir => exact dir loc name rest hplain hnode (ih _)
      | some (.file (.regular content)) => exact regular loc name rest content hplain hnode
      | some (.file (.link target)) => exact link loc name rest target hplain hnode

/-- Induction over a lookup: on the links that may still be followed, and between two links on
the names that remain. -/
@[elab_as_elim]
theorem lookup_induction (t : LinkTree F) {motive : Nat → FilePath → List Text → Prop}
    (nil : ∀ limit loc, motive limit loc [])
    (stays : ∀ limit loc name rest, Stays name →
      motive limit loc rest → motive limit loc (name :: rest))
    (parent : ∀ limit loc rest,
      motive limit loc.dropLast rest → motive limit loc (parentName :: rest))
    (missing : ∀ limit loc name rest, Plain name → t.node (loc ++ [name]) = none →
      motive limit loc (name :: rest))
    (dir : ∀ limit loc name rest, Plain name → t.node (loc ++ [name]) = some .dir →
      motive limit (loc ++ [name]) rest → motive limit loc (name :: rest))
    (regular : ∀ limit loc name rest content, Plain name →
      t.node (loc ++ [name]) = some (.file (.regular content)) →
      motive limit loc (name :: rest))
    (link_zero : ∀ loc name rest target, Plain name →
      t.node (loc ++ [name]) = some (.file (.link target)) → motive 0 loc (name :: rest))
    (link : ∀ limit loc name rest target, Plain name →
      t.node (loc ++ [name]) = some (.file (.link target)) →
      motive limit (target.base loc) (target.parts ++ rest) →
      motive (limit + 1) loc (name :: rest))
    (limit : Nat) (loc : FilePath) (parts : List Text) :
  motive limit loc parts
  := by
  induction limit generalizing loc parts with
  | zero =>
      apply t.names_induction (nil 0) (stays 0) (parent 0) (missing 0) (dir 0) (regular 0)
      exact link_zero
  | succ limit ih =>
      apply t.names_induction (nil _) (stays _) (parent _) (missing _) (dir _) (regular _)
      intro loc name rest target hplain hnode
      exact link limit loc name rest target hplain hnode (ih _ _)

/-! ### What a lookup depends on -/

/-- The directory above a directory is one, and so is the root above the root. -/
theorem dir_dropLast (h : t.node loc = some .dir) :
  t.node loc.dropLast = some .dir
  := by
  by_cases hroot : loc = []
  · rw [hroot] at h ⊢
    exact h
  · apply dir_above (q := loc)
    · simp [h]
    · exact List.dropLast_prefix loc
    · exact dropLast_ne_self hroot

/-- A link leads on from a directory. -/
theorem dir_base (target : Route) (h : t.node loc = some .dir) :
  t.node (target.base loc) = some .dir
  := by
  unfold Route.base
  split
  · by_cases hroot : loc = []
    · rwa [hroot] at h
    · apply dir_above (q := loc)
      · simp [h]
      · exact List.nil_prefix
      · exact Ne.symm hroot
  · exact h

/-- A lookup depends on the entries it looks at alone. -/
theorem lookup_congr (t t' : LinkTree F) (limit : Nat) (loc : FilePath) (parts : List Text)
    (h : ∀ p ∈ (t.lookup limit loc parts).visited, t'.node p = t.node p) :
  t'.lookup limit loc parts = t.lookup limit loc parts
  := by
  induction limit, loc, parts using lookup_induction t with
  | nil limit loc => rw [lookup_nil, lookup_nil]
  | stays limit loc name rest hstays ih =>
      rw [lookup_stays hstays] at h ⊢
      rw [lookup_stays hstays]
      exact ih h
  | parent limit loc rest ih =>
      rw [lookup_parent] at h ⊢
      rw [lookup_parent]
      exact ih h
  | missing limit loc name rest hplain hnode =>
      rw [lookup_missing hplain hnode] at h ⊢
      have hnode' := h _ (List.mem_singleton_self _)
      exact lookup_missing hplain (hnode'.trans hnode)
  | dir limit loc name rest hplain hnode ih =>
      rw [lookup_dir hplain hnode] at h ⊢
      have hnode' := h _ List.mem_cons_self
      rw [lookup_dir hplain (hnode'.trans hnode)]
      rw [ih fun p hp => h p (List.mem_cons_of_mem _ hp)]
  | regular limit loc name rest content hplain hnode =>
      rw [lookup_regular hplain hnode] at h ⊢
      have hnode' := h _ (List.mem_singleton_self _)
      exact lookup_regular hplain (hnode'.trans hnode)
  | link_zero loc name rest target hplain hnode =>
      rw [lookup_link_zero hplain hnode] at h ⊢
      have hnode' := h _ (List.mem_singleton_self _)
      exact lookup_link_zero hplain (hnode'.trans hnode)
  | link limit loc name rest target hplain hnode ih =>
      rw [lookup_link hplain hnode] at h ⊢
      have hnode' := h _ List.mem_cons_self
      rw [lookup_link hplain (hnode'.trans hnode)]
      rw [ih fun p hp => h p (List.mem_cons_of_mem _ hp)]

/-- A lookup that finds something other than a directory has looked at it. -/
theorem mem_visited_of_found (t : LinkTree F) {p : FilePath} (hloc : t.node loc = some .dir)
    (parts : List Text) (h : (t.lookup limit loc parts).result = .found p) :
  t.node p = some .dir ∨ p ∈ (t.lookup limit loc parts).visited
  := by
  induction limit, loc, parts using lookup_induction t with
  | nil limit loc =>
      rw [lookup_nil] at h
      obtain rfl := Lookup.found.inj h
      exact Or.inl hloc
  | stays limit loc name rest hstays ih =>
      rw [lookup_stays hstays] at h ⊢
      exact ih hloc h
  | parent limit loc rest ih =>
      rw [lookup_parent] at h ⊢
      exact ih (dir_dropLast hloc) h
  | missing limit loc name rest hplain hnode =>
      rw [lookup_missing hplain hnode] at h
      contradiction
  | dir limit loc name rest hplain hnode ih =>
      rw [lookup_dir hplain hnode] at h ⊢
      exact (ih hnode h).imp_right (List.mem_cons_of_mem _)
  | regular limit loc name rest content hplain hnode =>
      rw [lookup_regular hplain hnode] at h ⊢
      dsimp only at h
      split at h
      · obtain rfl := Lookup.found.inj h
        exact Or.inr (List.mem_singleton_self _)
      · contradiction
  | link_zero loc name rest target hplain hnode =>
      rw [lookup_link_zero hplain hnode] at h
      contradiction
  | link limit loc name rest target hplain hnode ih =>
      rw [lookup_link hplain hnode] at h ⊢
      exact (ih (dir_base target hloc) h).imp_right (List.mem_cons_of_mem _)

/-- The entries a lookup that finds something has looked at are all there. -/
theorem node_ne_none_of_visited (t : LinkTree F) {p q : FilePath} (parts : List Text)
    (h : (t.lookup limit loc parts).result = .found p)
    (hq : q ∈ (t.lookup limit loc parts).visited) :
  t.node q ≠ none
  := by
  induction limit, loc, parts using lookup_induction t with
  | nil limit loc =>
      rw [lookup_nil] at hq
      exact absurd hq List.not_mem_nil
  | stays limit loc name rest hstays ih =>
      rw [lookup_stays hstays] at h hq
      exact ih h hq
  | parent limit loc rest ih =>
      rw [lookup_parent] at h hq
      exact ih h hq
  | missing limit loc name rest hplain hnode =>
      rw [lookup_missing hplain hnode] at h
      contradiction
  | dir limit loc name rest hplain hnode ih =>
      rw [lookup_dir hplain hnode] at h hq
      cases List.mem_cons.mp hq with
      | inl heq => simp [heq, hnode]
      | inr hq => exact ih h hq
  | regular limit loc name rest content hplain hnode =>
      rw [lookup_regular hplain hnode] at hq
      simp [List.mem_singleton.mp hq, hnode]
  | link_zero loc name rest target hplain hnode =>
      rw [lookup_link_zero hplain hnode] at h
      contradiction
  | link limit loc name rest target hplain hnode ih =>
      rw [lookup_link hplain hnode] at h hq
      cases List.mem_cons.mp hq with
      | inl heq => simp [heq, hnode]
      | inr hq => exact ih h hq

/-! ### Longer paths -/

/-- The lookup of a longer path goes on where the lookup of the shorter one has found a
directory. -/
theorem lookup_append (t : LinkTree F) {p : FilePath} (hp : t.node p = some .dir)
    (parts : List Text) (h : (t.lookup limit loc parts).result = .found p) :
  ∃ left, ∀ more, t.lookup limit loc (parts ++ more)
    = (t.lookup left p more).after (t.lookup limit loc parts).visited
  := by
  induction limit, loc, parts using lookup_induction t with
  | nil limit loc =>
      rw [lookup_nil] at h ⊢
      obtain rfl := Lookup.found.inj h
      exact ⟨limit, fun more => rfl⟩
  | stays limit loc name rest hstays ih =>
      rw [lookup_stays hstays] at h ⊢
      obtain ⟨left, hleft⟩ := ih h
      use left
      intro more
      rw [List.cons_append, lookup_stays hstays, hleft]
  | parent limit loc rest ih =>
      rw [lookup_parent] at h ⊢
      obtain ⟨left, hleft⟩ := ih h
      use left
      intro more
      rw [List.cons_append, lookup_parent, hleft]
  | missing limit loc name rest hplain hnode =>
      rw [lookup_missing hplain hnode] at h
      contradiction
  | dir limit loc name rest hplain hnode ih =>
      rw [lookup_dir hplain hnode] at h ⊢
      obtain ⟨left, hleft⟩ := ih h
      use left
      intro more
      rw [List.cons_append, lookup_dir hplain hnode, hleft]
      rfl
  | regular limit loc name rest content hplain hnode =>
      rw [lookup_regular hplain hnode] at h
      dsimp only at h
      split at h
      · obtain rfl := Lookup.found.inj h
        rw [hnode] at hp
        simp at hp
      · contradiction
  | link_zero loc name rest target hplain hnode =>
      rw [lookup_link_zero hplain hnode] at h
      contradiction
  | link limit loc name rest target hplain hnode ih =>
      rw [lookup_link hplain hnode] at h ⊢
      obtain ⟨left, hleft⟩ := ih h
      use left
      intro more
      rw [List.cons_append, lookup_link hplain hnode, ← List.append_assoc, hleft]
      rfl

/-- When something is found at a longer path, the shorter one leads to a directory. -/
theorem found_dir_of_append (t : LinkTree F) {p : FilePath} {more : List Text}
    (hmore : more ≠ []) (hloc : t.node loc = some .dir) (parts : List Text)
    (h : (t.lookup limit loc (parts ++ more)).result = .found p) :
  ∃ q, (t.lookup limit loc parts).result = .found q ∧ t.node q = some .dir
  := by
  induction limit, loc, parts using lookup_induction t with
  | nil limit loc => exact ⟨loc, by rw [lookup_nil], hloc⟩
  | stays limit loc name rest hstays ih =>
      rw [List.cons_append, lookup_stays hstays] at h
      rw [lookup_stays hstays]
      exact ih hloc h
  | parent limit loc rest ih =>
      rw [List.cons_append, lookup_parent] at h
      rw [lookup_parent]
      exact ih (dir_dropLast hloc) h
  | missing limit loc name rest hplain hnode =>
      rw [List.cons_append, lookup_missing hplain hnode] at h
      contradiction
  | dir limit loc name rest hplain hnode ih =>
      rw [List.cons_append, lookup_dir hplain hnode] at h
      rw [lookup_dir hplain hnode]
      exact ih hnode h
  | regular limit loc name rest content hplain hnode =>
      rw [List.cons_append, lookup_regular hplain hnode] at h
      simp [hmore] at h
  | link_zero loc name rest target hplain hnode =>
      rw [List.cons_append, lookup_link_zero hplain hnode] at h
      contradiction
  | link limit loc name rest target hplain hnode ih =>
      rw [List.cons_append, lookup_link hplain hnode, ← List.append_assoc] at h
      rw [lookup_link hplain hnode]
      exact ih (dir_base target hloc) h

/-- The entry of a name in a directory that a path leads to. -/
theorem entryOf_concat (t : LinkTree F) {p : FilePath} {parts : List Text} (h : Plain name)
    (hparts : t.resolve limit parts = .found p) (hp : t.node p = some .dir) :
  t.entryOf limit (parts ++ [name]) = some (p, name)
  := by
  unfold entryOf
  rw [List.getLast?_concat, List.dropLast_concat, hparts]
  exact if_pos ⟨h, isDir_eq_true.mpr hp⟩

/-- The directory of the entry a path names is where the path without its last name leads. -/
theorem resolve_dropLast_of_entryOf (t : LinkTree F) {p : FilePath} {parts : List Text}
    (h : t.entryOf limit parts = some (p, name)) :
  t.resolve limit parts.dropLast = .found p
  := by
  unfold entryOf at h
  split at h
  · rename_i hresolve
    rw [Option.ite_none_right_eq_some] at h
    rw [hresolve, (Prod.mk.inj (Option.some.inj h.2)).1]
  · contradiction

/-- A path that names an entry ends with its name, and leads to its directory without it. -/
theorem eq_concat_of_entryOf (t : LinkTree F) {p : FilePath} {parts : List Text}
    (h : t.entryOf limit parts = some (p, name)) :
  ∃ path, parts = path ++ [name] ∧ Plain name ∧ t.resolve limit path = .found p
    ∧ t.node p = some .dir
  := by
  have hresolve := t.resolve_dropLast_of_entryOf h
  obtain rfl | ⟨path, last, rfl⟩ := List.eq_nil_or_concat' parts
  · cases h
  · rw [List.dropLast_concat] at hresolve
    rw [entryOf, List.getLast?_concat, List.dropLast_concat, hresolve] at h
    dsimp only at h
    rw [Option.ite_none_right_eq_some] at h
    obtain ⟨⟨hplain, hdir⟩, heq⟩ := h
    cases heq
    exact ⟨path, rfl, hplain, hresolve, isDir_eq_true.mp hdir⟩

/-- A path that names a regular file leads to it. -/
theorem read_of_entryOf (t : LinkTree F) {p : FilePath} {parts : List Text} {content : F}
    (h : t.entryOf limit parts = some (p, name))
    (hnode : t.node (p ++ [name]) = some (.file (.regular content))) :
  t.read limit parts = some content
  := by
  obtain ⟨path, rfl, hname, hpath, hp⟩ := t.eq_concat_of_entryOf h
  obtain ⟨left, hleft⟩ := t.lookup_append hp path hpath
  rw [read, resolve, hleft, lookup_regular hname hnode]
  simp only [Trace.after, if_true]
  rw [hnode]

/-- A path with a separator at its end names no entry. -/
theorem entryOf_concat_stays (t : LinkTree F) (h : Stays name) (parts : List Text) :
  t.entryOf limit (parts ++ [name]) = none
  := by
  unfold entryOf
  split
  · rename_i hlast _
    rw [List.getLast?_concat] at hlast
    obtain rfl := Option.some.inj hlast
    exact if_neg fun hplain => hplain.1.1 h
  · rfl

/-- A path names the same entry in another tree that agrees on the entries its directory is
looked up through. -/
theorem entryOf_congr (t t' : LinkTree F) {p : FilePath} {path : List Text} (h : Plain name)
    (hpath : t.resolve limit path = .found p)
    (hsame : ∀ q ∈ t.visited limit path, t'.node q = t.node q) (hp : t'.node p = some .dir) :
  t'.entryOf limit (path ++ [name]) = some (p, name)
  := by
  apply t'.entryOf_concat h _ hp
  rw [resolve, lookup_congr t t' limit [] path hsame]
  exact hpath

/-- Where a path leads to with one more name, that of a directory. -/
theorem resolve_concat_dir (t : LinkTree F) {p : FilePath} {parts : List Text} (h : Plain name)
    (hparts : t.resolve limit parts = .found p) (hnode : t.node (p ++ [name]) = some .dir) :
  t.resolve limit (parts ++ [name]) = .found (p ++ [name])
  := by
  have hp : t.node p = some .dir := by
    apply t.parent_dir (n := name)
    simp [hnode]
  obtain ⟨left, hleft⟩ := t.lookup_append hp parts hparts
  rw [resolve, hleft, lookup_dir h hnode, lookup_nil]
  rfl

/-- A longer path is looked up through the entries of the shorter one. -/
theorem mem_visited_append (t : LinkTree F) {p q : FilePath} {parts : List Text}
    (hparts : t.resolve limit parts = .found p) (hp : t.node p = some .dir)
    (hq : q ∈ t.visited limit parts) (more : List Text) :
  q ∈ t.visited limit (parts ++ more)
  := by
  obtain ⟨left, hleft⟩ := t.lookup_append hp parts hparts
  rw [visited, hleft]
  exact List.mem_append_left _ hq

/-- A path with one more name is looked up through the entry of that name. -/
theorem mem_visited_concat (t : LinkTree F) {p : FilePath} {parts : List Text} (h : Plain name)
    (hparts : t.resolve limit parts = .found p) (hp : t.node p = some .dir) :
  p ++ [name] ∈ t.visited limit (parts ++ [name])
  := by
  obtain ⟨left, hleft⟩ := t.lookup_append hp parts hparts
  rw [visited, hleft]
  apply List.mem_append_right
  match hnode : t.node (p ++ [name]) with
  | none => simp [lookup_missing h hnode]
  | some .dir => simp [lookup_dir h hnode, Trace.visiting]
  | some (.file (.regular content)) => simp [lookup_regular h hnode]
  | some (.file (.link target)) =>
      cases left with
      | zero => simp [lookup_link_zero h hnode]
      | succ left => simp [lookup_link h hnode, Trace.visiting]

/-- The entries a path with one more name is looked up through, when that leads to a directory. -/
theorem visited_concat_dir (t : LinkTree F) {p : FilePath} {parts : List Text} (h : Plain name)
    (hparts : t.resolve limit parts = .found p) (hnode : t.node (p ++ [name]) = some .dir) :
  t.visited limit (parts ++ [name]) = t.visited limit parts ++ [p ++ [name]]
  := by
  have hp : t.node p = some .dir := by
    apply t.parent_dir (n := name)
    simp [hnode]
  obtain ⟨left, hleft⟩ := t.lookup_append hp parts hparts
  rw [visited, hleft, lookup_dir h hnode, lookup_nil]
  rfl

/-- A path with one more name leads to nothing when there is no such entry. -/
theorem resolve_concat_missing (t : LinkTree F) {p : FilePath} {parts : List Text}
    (h : Plain name) (hparts : t.resolve limit parts = .found p) (hp : t.node p = some .dir)
    (hnode : t.node (p ++ [name]) = none) :
  t.resolve limit (parts ++ [name]) = .noEntry
  := by
  obtain ⟨left, hleft⟩ := t.lookup_append hp parts hparts
  rw [resolve, hleft, lookup_missing h hnode]
  rfl

/-- A separator at the end of a path to a directory changes nothing. -/
theorem resolve_concat_stays (t : LinkTree F) {p : FilePath} {parts : List Text}
    (h : Stays name) (hparts : t.resolve limit parts = .found p) (hp : t.node p = some .dir) :
  t.resolve limit (parts ++ [name]) = .found p
  := by
  obtain ⟨left, hleft⟩ := t.lookup_append hp parts hparts
  rw [resolve, hleft, lookup_stays h, lookup_nil]
  rfl

/-- What a path with a separator at its end leads to, it leads to without it. -/
theorem found_of_concat_stays (t : LinkTree F) {p : FilePath} (hlast : Stays name)
    (parts : List Text) (h : (t.lookup limit loc (parts ++ [name])).result = .found p) :
  (t.lookup limit loc parts).result = .found p
  := by
  induction limit, loc, parts using lookup_induction t with
  | nil limit loc =>
      rw [List.nil_append, lookup_stays hlast] at h
      exact h
  | stays limit loc name rest hstays ih =>
      rw [List.cons_append, lookup_stays hstays] at h
      rw [lookup_stays hstays]
      exact ih h
  | parent limit loc rest ih =>
      rw [List.cons_append, lookup_parent] at h
      rw [lookup_parent]
      exact ih h
  | missing limit loc name rest hplain hnode =>
      rw [List.cons_append, lookup_missing hplain hnode] at h
      contradiction
  | dir limit loc name rest hplain hnode ih =>
      rw [List.cons_append, lookup_dir hplain hnode] at h
      rw [lookup_dir hplain hnode]
      exact ih h
  | regular limit loc name rest content hplain hnode =>
      rw [List.cons_append, lookup_regular hplain hnode] at h
      simp at h
  | link_zero loc name rest target hplain hnode =>
      rw [List.cons_append, lookup_link_zero hplain hnode] at h
      contradiction
  | link limit loc name rest target hplain hnode ih =>
      rw [List.cons_append, lookup_link hplain hnode, ← List.append_assoc] at h
      rw [lookup_link hplain hnode]
      exact ih h

/-! ### Removal -/

/-- A path that leads through an entry leads nowhere once that entry has been removed. -/
theorem noEntry_of_remove (t : LinkTree F) {p q : FilePath} (hp : p ≠ []) (hloc : ¬ p <+: loc)
    (parts : List Text) (hq : q ∈ (t.lookup limit loc parts).visited) (hbelow : p <+: q) :
  (LinkTree.lookup (t.remove p) limit loc parts).result = .noEntry
  := by
  induction limit, loc, parts using lookup_induction t with
  | nil limit loc =>
      rw [lookup_nil] at hq
      exact absurd hq List.not_mem_nil
  | stays limit loc name rest hstays ih =>
      rw [lookup_stays hstays] at hq ⊢
      exact ih hloc hq
  | parent limit loc rest ih =>
      rw [lookup_parent] at hq ⊢
      exact ih (fun h => hloc (h.trans (List.dropLast_prefix loc))) hq
  | missing limit loc name rest hplain hnode =>
      rw [lookup_missing hplain]
      rw [node_remove, hnode, ite_self]
  | dir limit loc name rest hplain hnode ih =>
      rw [lookup_dir hplain hnode] at hq
      by_cases hentry : p <+: loc ++ [name]
      · rw [lookup_missing hplain (node_remove_below t hentry)]
      · rw [lookup_dir hplain ((node_remove_elsewhere t hentry).trans hnode)]
        cases List.mem_cons.mp hq with
        | inl heq => exact absurd (heq ▸ hbelow) hentry
        | inr hq => exact ih hentry hq
  | regular limit loc name rest content hplain hnode =>
      rw [lookup_regular hplain hnode] at hq
      obtain rfl := List.mem_singleton.mp hq
      rw [lookup_missing hplain (node_remove_below t hbelow)]
  | link_zero loc name rest target hplain hnode =>
      rw [lookup_link_zero hplain hnode] at hq
      obtain rfl := List.mem_singleton.mp hq
      rw [lookup_missing hplain (node_remove_below t hbelow)]
  | link limit loc name rest target hplain hnode ih =>
      rw [lookup_link hplain hnode] at hq
      by_cases hentry : p <+: loc ++ [name]
      · rw [lookup_missing hplain (node_remove_below t hentry)]
      · rw [lookup_link hplain ((node_remove_elsewhere t hentry).trans hnode)]
        cases List.mem_cons.mp hq with
        | inl heq => exact absurd (heq ▸ hbelow) hentry
        | inr hq =>
            apply ih _ hq
            unfold Route.base
            split
            · rwa [List.prefix_nil]
            · exact hloc

end LinkTree

/-! ### Paths without a tree -/

namespace FileTree

/-- Where a path leads from the directory `loc` if it goes through directories only. -/
def lexical : FilePath → List Text → FilePath
  | loc, [] => loc
  | loc, name :: rest =>
      if Stays name then lexical loc rest
      else if name = parentName then lexical loc.dropLast rest
      else lexical (loc ++ [name]) rest

/-- The names of a path written as a text. -/
def partsOf (path : Text) : List Text :=
  path.splitOn '/'

/-- The normal form of the names of a path: how often it leads up, and the names that follow.  A
name and the `..` after it cancel. -/
def normalFrom : Nat × FilePath → List Text → Nat × FilePath
  | form, [] => form
  | form, name :: rest =>
      if Stays name then normalFrom form rest
      else if name = parentName then
        if form.2 = [] then normalFrom (form.1 + 1, []) rest
        else normalFrom (form.1, form.2.dropLast) rest
      else normalFrom (form.1, form.2 ++ [name]) rest

def normal (parts : List Text) : Nat × FilePath :=
  normalFrom (0, []) parts

/-- The directory that is some steps up from another one. -/
def climb (loc : FilePath) (ups : Nat) : FilePath :=
  loc.take (loc.length - ups)

theorem climb_dropLast (loc : FilePath) (ups : Nat) :
  (climb loc ups).dropLast = climb loc (ups + 1)
  := by
  rw [climb, climb, List.dropLast_eq_take, List.take_take, List.length_take]
  congr 1
  omega

theorem lexical_append (loc : FilePath) (parts more : List Text) :
  lexical loc (parts ++ more) = lexical (lexical loc parts) more
  := by
  induction parts generalizing loc with
  | nil => rfl
  | cons name rest ih =>
      simp only [List.cons_append, lexical]
      split
      · exact ih loc
      · split
        · exact ih loc.dropLast
        · exact ih (loc ++ [name])

/-- A path leads where its normal form does. -/
theorem lexical_eq_climb (loc : FilePath) (form : Nat × FilePath) (parts : List Text) :
  lexical (climb loc form.1 ++ form.2) parts
    = climb loc (normalFrom form parts).1 ++ (normalFrom form parts).2
  := by
  induction parts generalizing form with
  | nil => rfl
  | cons name rest ih =>
      simp only [lexical, normalFrom]
      split
      · exact ih form
      · split
        · split
          · rename_i hnames
            rw [← ih (form.1 + 1, [])]
            congr 1
            rw [hnames, List.append_nil, List.append_nil, climb_dropLast]
          · rename_i hnames
            rw [← ih (form.1, form.2.dropLast), List.dropLast_append_of_ne_nil hnames]
        · rw [← ih (form.1, form.2 ++ [name]), List.append_assoc]

/-- A path leads to an entry of the directory it starts from just when its normal form leads up
some steps and comes back the same way, with one more name. -/
theorem exists_lexical_concat_iff {loc : FilePath} {parts : List Text} :
  (∃ name, lexical loc parts = loc ++ [name])
    ↔ ∃ name, (normal parts).2 = loc.drop (loc.length - (normal parts).1) ++ [name]
  := by
  have hform := lexical_eq_climb loc (0, []) parts
  have hclimb : climb loc 0 = loc := by simp [climb]
  rw [hclimb, List.append_nil] at hform
  have hsplit (name : Text) : loc ++ [name]
      = climb loc (normal parts).1 ++ (loc.drop (loc.length - (normal parts).1) ++ [name]) := by
    rw [← List.append_assoc, climb, List.take_append_drop]
  rw [hform]
  constructor
  · rintro ⟨name, h⟩
    rw [hsplit name] at h
    exact ⟨name, List.append_cancel_left h⟩
  · rintro ⟨name, h⟩
    use name
    rw [hsplit name, ← h]
    rfl

end FileTree
