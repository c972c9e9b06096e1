import MblCore.Lib.Text
import Mathlib.Data.List.Infix
import Mathlib.Data.List.Dedup

/-!
# File trees

A path is the list of the names from the root down.  A file tree over `F` maps paths to
nodes: a node is a directory or a file with a content in `F`.  A tree carries the proof that
it has finitely many nodes and that the parent of every node is a directory, so a tree that
is not well formed cannot be built.  The operations make directories, add a file, remove
everything at and below a path, and replace everything at and below a path by another tree.
-/

universe u

/-- A path: the names from the root down. -/
abbrev FilePath := List Text

namespace FileTree

/-- A node of a file tree. -/
inductive Node (F : Type u)
  | dir
  | file (content : F)
deriving DecidableEq

end FileTree

open FileTree

/-- A file tree whose files have contents in `F`. -/
structure FileTree (F : Type u) where
  node : FilePath → Option (Node F)
  /-- A list of paths among which all nodes are. -/
  names : List FilePath
  mem_names : ∀ {p : FilePath}, node p ≠ none → p ∈ names
  parent_dir : ∀ {p : FilePath} {n : Text}, node (p ++ [n]) ≠ none → node p = some .dir

namespace FileTree

variable {F : Type u}

/-! ### Paths -/

/-- A path below `p ++ [n]` is below `p`. -/
theorem prefix_left_of_concat {p q : FilePath} {n : Text} (h : p ++ [n] <+: q) :
  p <+: q
  := (List.prefix_append p [n]).trans h

/-- Below a path are the paths that extend it by the names that remain. -/
theorem append_drop_below {p q : FilePath} (h : p <+: q) :
  p ++ q.drop p.length = q
  := by
  obtain ⟨r, rfl⟩ := h
  simp

/-- A path extended by one name is below `p` only when it is `p` or the path itself is. -/
theorem prefix_concat_iff {p q : FilePath} {n : Text} :
  p <+: q ++ [n] ↔ p = q ++ [n] ∨ p <+: q
  := List.prefix_concat_iff

/-- A path is not at or above the directory it is in. -/
theorem not_prefix_dropLast {p : FilePath} (h : p ≠ []) :
  ¬ p <+: p.dropLast
  := by
  intro hp
  have hlength := hp.length_le
  have hpos := List.length_pos_iff.mpr h
  rw [List.length_dropLast] at hlength
  omega

theorem dropLast_ne_self {p : FilePath} (h : p ≠ []) :
  p.dropLast ≠ p
  := by
  intro heq
  apply not_prefix_dropLast h
  rw [heq]

/-! ### Queries -/

/-- The path leads to a directory. -/
def isDir (t : FileTree F) (p : FilePath) : Bool :=
  match t.node p with
  | some .dir => true
  | _ => false

/-- The path leads to a directory or a file. -/
def has (t : FileTree F) (p : FilePath) : Bool :=
  (t.node p).isSome

/-- The names in the directory `p`. -/
def children (t : FileTree F) (p : FilePath) : List Text :=
  (t.names.filterMap fun q =>
    match q.getLast? with
    | some n => if q = p ++ [n] ∧ (t.has q = true) then some n else none
    | none => none).dedup

/-- The paths of the nodes at and below `p`. -/
def below (t : FileTree F) (p : FilePath) : List FilePath :=
  (t.names.filter fun q => decide (p <+: q) && t.has q).dedup

@[simp]
theorem isDir_eq_true {t : FileTree F} {p : FilePath} :
  t.isDir p = true ↔ t.node p = some .dir
  := by
  unfold isDir
  split <;> simp_all

@[simp]
theorem has_eq_true {t : FileTree F} {p : FilePath} :
  t.has p = true ↔ t.node p ≠ none
  := Option.isSome_iff_ne_none

theorem has_eq_false {t : FileTree F} {p : FilePath} :
  t.has p = false ↔ t.node p = none
  := by
  rw [Bool.eq_false_iff, Ne, has_eq_true, not_not]

theorem isDir_of_has_eq_false {t : FileTree F} {p : FilePath} (h : t.has p = false) :
  t.isDir p = false
  := by
  rw [Bool.eq_false_iff, Ne, isDir_eq_true, has_eq_false.mp h]
  exact (Option.some_ne_none _).symm

@[simp]
theorem mem_children {t : FileTree F} {p : FilePath} {n : Text} :
  n ∈ t.children p ↔ t.node (p ++ [n]) ≠ none
  := by
  simp only [children, List.mem_dedup, List.mem_filterMap]
  constructor
  · rintro ⟨q, -, hq⟩
    split at hq
    · rename_i m hm
      split at hq
      · rename_i hcond
        obtain rfl := Option.some.inj hq
        rw [← hcond.1]
        exact has_eq_true.mp hcond.2
      · contradiction
    · contradiction
  · intro hn
    use p ++ [n], t.mem_names hn
    simp only [List.getLast?_concat, true_and]
    rw [if_pos (has_eq_true.mpr hn)]

theorem children_eq_nil {t : FileTree F} {p : FilePath} :
  t.children p = [] ↔ ∀ name, t.node (p ++ [name]) = none
  := by
  rw [List.eq_nil_iff_forall_not_mem]
  simp only [mem_children, not_not]

@[simp]
theorem mem_below {t : FileTree F} {p q : FilePath} :
  q ∈ t.below p ↔ p <+: q ∧ t.node q ≠ none
  := by
  simp only [below, List.mem_dedup, List.mem_filter, Bool.and_eq_true, decide_eq_true_eq,
    has_eq_true]
  constructor
  · rintro ⟨-, h⟩
    exact h
  · intro h
    exact ⟨t.mem_names h.2, h⟩

/-- The names in a directory depend on what is in it. -/
theorem children_congr {t t' : FileTree F} {p : FilePath} (hnames : t'.names = t.names)
    (h : ∀ n, t'.node (p ++ [n]) = t.node (p ++ [n])) :
  t'.children p = t.children p
  := by
  rw [children, children, hnames]
  congr 1
  apply List.filterMap_congr
  intro q _
  cases q.getLast? with
  | none => rfl
  | some n =>
      by_cases heq : q = p ++ [n]
      · simp only [heq, has, h]
      · simp only [heq, false_and, if_false]

/-- The paths below a path depend on what is below it. -/
theorem below_congr {t t' : FileTree F} {p : FilePath} (hnames : t'.names = t.names)
    (h : ∀ q, p <+: q → t'.node q = t.node q) :
  t'.below p = t.below p
  := by
  rw [below, below, hnames]
  congr 1
  apply List.filter_congr
  intro q _
  by_cases hbelow : p <+: q
  · simp only [has, h q hbelow]
  · simp only [hbelow, decide_false, Bool.false_and]

/-- Every proper prefix of the path of a node is a directory. -/
theorem dir_above {t : FileTree F} {p q : FilePath} (hq : t.node q ≠ none) (h : p <+: q)
    (hne : p ≠ q) :
  t.node p = some .dir
  := by
  obtain ⟨r, rfl⟩ := h
  induction r using List.reverseRecOn with
  | nil => simp at hne
  | append_singleton r n ih =>
      rw [← List.append_assoc] at hq
      have hdir := t.parent_dir hq
      by_cases hr : r = []
      · simpa [hr] using hdir
      · apply ih
        · simp [hdir]
        · simpa using hr

/-- Nothing is below a path where there is no directory. -/
theorem node_eq_none_below {t : FileTree F} {p q : FilePath} (hp : t.node p ≠ some .dir)
    (h : p <+: q) (hne : p ≠ q) :
  t.node q = none
  := by
  by_contra hq
  exact hp (dir_above hq h hne)

/-! ### Operations -/

/-- The tree that consists of the root directory. -/
def root : FileTree F where
  node p := if p = [] then some .dir else none
  names := [[]]
  mem_names := by
    intro p hp
    by_contra hne
    simp only [List.mem_singleton] at hne
    simp [hne] at hp
  parent_dir := by
    intro p n hp
    simp at hp

/-- Make a directory of `p` and of every path above it. -/
def mkdirs (t : FileTree F) (p : FilePath) : FileTree F where
  node q := if q <+: p then some .dir else t.node q
  names := p.inits ++ t.names
  mem_names := by
    intro q hq
    rw [List.mem_append, List.mem_inits]
    by_cases h : q <+: p
    · exact Or.inl h
    · rw [if_neg h] at hq
      exact Or.inr (t.mem_names hq)
  parent_dir := by
    intro q n hq
    by_cases h : q <+: p
    · rw [if_pos h]
    · rw [if_neg (fun h' => h (prefix_left_of_concat h'))] at hq
      rw [if_neg h]
      exact t.parent_dir hq

/-- Remove everything at and below `p`. -/
def remove (t : FileTree F) (p : FilePath) : FileTree F where
  node q := if p <+: q then none else t.node q
  names := t.names
  mem_names := by
    intro q hq
    by_cases h : p <+: q
    · simp [h] at hq
    · rw [if_neg h] at hq
      exact t.mem_names hq
  parent_dir := by
    intro q n hq
    by_cases h : p <+: q ++ [n]
    · simp [h] at hq
    · rw [if_neg h] at hq
      rw [if_neg (fun h' => h (h'.trans (List.prefix_append q [n])))]
      exact t.parent_dir hq

/-- Remove of what is at and below `p` what is at or below one of the paths `removed`. -/
def removeAmong (t : FileTree F) (p : FilePath) (removed : List FilePath) : FileTree F where
  node q := if p <+: q ∧ (∃ r ∈ removed, r <+: q) then none else t.node q
  names := t.names
  mem_names := by
    intro q hq
    by_cases h : p <+: q ∧ ∃ r ∈ removed, r <+: q
    · simp [h] at hq
    · rw [if_neg h] at hq
      exact t.mem_names hq
  parent_dir := by
    intro q n hq
    have above : ∀ r, r <+: q → r <+: q ++ [n] := fun r h => h.trans (List.prefix_append q [n])
    by_cases h : p <+: q ++ [n] ∧ ∃ r ∈ removed, r <+: q ++ [n]
    · simp [h] at hq
    · rw [if_neg h] at hq
      rw [if_neg]
      · exact t.parent_dir hq
      · rintro ⟨hp, r, hr, hrq⟩
        exact h ⟨above p hp, r, hr, above r hrq⟩

/-- Add the file `n` to the directory `p`, in which there is no such name. -/
def addFile (t : FileTree F) (p : FilePath) (n : Text) (content : F)
    (hdir : t.node p = some .dir) (hnew : t.node (p ++ [n]) = none) : FileTree F where
  node q := if q = p ++ [n] then some (.file content) else t.node q
  names := (p ++ [n]) :: t.names
  mem_names := by
    intro q hq
    by_cases h : q = p ++ [n]
    · simp [h]
    · rw [if_neg h] at hq
      exact List.mem_cons_of_mem _ (t.mem_names hq)
  parent_dir := by
    intro q m hq
    by_cases h : q ++ [m] = p ++ [n]
    · obtain ⟨rfl, -⟩ := List.append_inj' h rfl
      rw [if_neg (by simp)]
      exact hdir
    · rw [if_neg h] at hq
      by_cases hqn : q = p ++ [n]
      · subst hqn
        rw [t.parent_dir hq] at hnew
        contradiction
      · rw [if_neg hqn]
        exact t.parent_dir hq

/-- Replace everything at and below `p` by the tree `s`, and make directories of the paths
above `p`. -/
def graft (t : FileTree F) (p : FilePath) (s : FileTree F) : FileTree F where
  node q :=
    if p <+: q then s.node (q.drop p.length)
    else if q <+: p then some .dir
    else t.node q
  names := s.names.map (p ++ ·) ++ (p.inits ++ t.names)
  mem_names := by
    intro q hq
    by_cases h : p <+: q
    · rw [if_pos h] at hq
      apply List.mem_append_left
      rw [← append_drop_below h]
      exact List.mem_map_of_mem (s.mem_names hq)
    · rw [if_neg h] at hq
      apply List.mem_append_right
      rw [List.mem_append, List.mem_inits]
      by_cases h' : q <+: p
      · exact Or.inl h'
      · rw [if_neg h'] at hq
        exact Or.inr (t.mem_names hq)
  parent_dir := by
    intro q n hq
    by_cases h : p <+: q
    · rw [if_pos (h.trans (List.prefix_append q [n])), List.drop_append_of_le_length h.length_le]
        at hq
      rw [if_pos h]
      exact s.parent_dir hq
    · rw [if_neg h]
      by_cases h' : q <+: p
      · rw [if_pos h']
      · have hq' : ¬ p <+: q ++ [n] := by
          rw [prefix_concat_iff]
          rintro (rfl | hp)
          · exact h' (List.prefix_append q [n])
          · exact h hp
        rw [if_neg hq', if_neg (fun hp => h' (prefix_left_of_concat hp))] at hq
        rw [if_neg h']
        exact t.parent_dir hq

/-! ### The nodes after each operation -/

theorem node_root (p : FilePath) :
  (root : FileTree F).node p = if p = [] then some .dir else none
  := rfl

theorem node_mkdirs (t : FileTree F) (p q : FilePath) :
  (t.mkdirs p).node q = if q <+: p then some .dir else t.node q
  := rfl

theorem node_remove (t : FileTree F) (p q : FilePath) :
  (t.remove p).node q = if p <+: q then none else t.node q
  := rfl

/-- Removing part of what is at and below a path leaves what is not below it. -/
theorem node_removeAmong_elsewhere (t : FileTree F) {p q : FilePath} (removed : List FilePath)
    (h : ¬ p <+: q) :
  (t.removeAmong p removed).node q = t.node q
  := if_neg fun h' => h h'.1

theorem node_addFile (t : FileTree F) (p : FilePath) (n : Text) (content : F) (hdir hnew)
    (q : FilePath) :
  (t.addFile p n content hdir hnew).node q
    = if q = p ++ [n] then some (.file content) else t.node q
  := rfl

theorem node_graft (t : FileTree F) (p : FilePath) (s : FileTree F) (q : FilePath) :
  (t.graft p s).node q
    = if p <+: q then s.node (q.drop p.length) else if q <+: p then some .dir else t.node q
  := rfl

/-- Nothing is left at or below a path that was removed. -/
theorem node_remove_below (t : FileTree F) {p q : FilePath} (h : p <+: q) :
  (t.remove p).node q = none
  := if_pos h

/-- Removing a path leaves what is not below it. -/
theorem node_remove_elsewhere (t : FileTree F) {p q : FilePath} (h : ¬ p <+: q) :
  (t.remove p).node q = t.node q
  := if_neg h

/-- Below the path of a graft is the grafted tree. -/
theorem node_graft_append (t : FileTree F) (p : FilePath) (s : FileTree F) (q : FilePath) :
  (t.graft p s).node (p ++ q) = s.node q
  := by
  rw [node_graft, if_pos (List.prefix_append p q)]
  simp

/-- A graft leaves what is neither below nor above its path. -/
theorem node_graft_elsewhere (t : FileTree F) {p : FilePath} (s : FileTree F) {q : FilePath}
    (h : ¬ p <+: q) (h' : ¬ q <+: p) :
  (t.graft p s).node q = t.node q
  := by
  rw [node_graft, if_neg h, if_neg h']

end FileTree
