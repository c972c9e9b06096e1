import MblCore.Lib.Text
import Mathlib.Logic.Function.Basic

/-!
# A flat directory shared by processes

A directory maps names to files.  A file has an inode number, which a process that has
opened the file keeps as its descriptor, and a content.  The operations are those a shell
script performs one at a time: test, remove, touch and read a file, open it for writing
with truncation, and write through the descriptor.  A write through a descriptor whose
file has since been removed reaches no file of the directory.
-/

universe u

namespace FlatDir

/-- A file: its inode number and its content. -/
structure File where
  ino : Nat
  content : Text
deriving DecidableEq

/-- A directory with names in `N`. -/
structure Dir (N : Type u) where
  entry : N → Option File
  /-- The inode number the next new file gets. -/
  nextIno : Nat

namespace Dir

variable {N : Type u}

/-- The directory without files. -/
def empty : Dir N where
  entry _ := none
  nextIno := 0

/-- `[ -e n ]` -/
def has (d : Dir N) (n : N) : Bool :=
  (d.entry n).isSome

/-- The output of `cat n`, which is empty when there is no such file. -/
def cat (d : Dir N) (n : N) : Text :=
  match d.entry n with
  | some f => f.content
  | none => []

/-- Files with the same entry are both there or both absent. -/
theorem has_congr {d d' : Dir N} {n : N} (h : d'.entry n = d.entry n) :
  d'.has n = d.has n
  := by
  rw [has, has, h]

/-- Files with the same entry have the same content. -/
theorem cat_congr {d d' : Dir N} {n : N} (h : d'.entry n = d.entry n) :
  d'.cat n = d.cat n
  := by
  rw [cat, cat, h]

variable [DecidableEq N]

/-- `rm n` -/
def rm (d : Dir N) (n : N) : Dir N :=
  { d with entry := Function.update d.entry n none }

/-- `touch n` -/
def touch (d : Dir N) (n : N) : Dir N :=
  match d.entry n with
  | some _ => d
  | none =>
      { entry := Function.update d.entry n (some ⟨d.nextIno, []⟩)
        nextIno := d.nextIno + 1 }

/-- The inode number a process gets as its descriptor when it opens `n`. -/
def inoFor (d : Dir N) (n : N) : Nat :=
  match d.entry n with
  | some f => f.ino
  | none => d.nextIno

/-- Open `n` for writing, as the redirection `> n` does: the file is truncated, or created
when there is none. -/
def creat (d : Dir N) (n : N) : Dir N where
  entry := Function.update d.entry n (some ⟨d.inoFor n, []⟩)
  nextIno := d.nextIno + 1

/-- Write `t` at the start of the file opened as `ino` under the name `n`. -/
def write (d : Dir N) (n : N) (ino : Nat) (t : Text) : Dir N :=
  match d.entry n with
  | some f =>
      if f.ino = ino then
        let written : File := ⟨ino, t ++ f.content.drop t.length⟩
        { d with entry := Function.update d.entry n (some written) }
      else d
  | none => d

/-! ### What each operation does to a file, and that it leaves the others alone -/

@[simp]
theorem has_rm (d : Dir N) (n : N) :
  (d.rm n).has n = false
  := by
  simp [rm, has]

@[simp]
theorem entry_rm_of_ne (d : Dir N) {n m : N} (h : m ≠ n) :
  (d.rm n).entry m = d.entry m
  := by
  simp [rm, h]

theorem has_rm_of_ne (d : Dir N) {n m : N} (h : m ≠ n) :
  (d.rm n).has m = d.has m
  := has_congr (d.entry_rm_of_ne h)

@[simp]
theorem has_touch (d : Dir N) (n : N) :
  (d.touch n).has n = true
  := by
  cases hn : d.entry n <;> simp [touch, hn, has]

@[simp]
theorem entry_touch_of_ne (d : Dir N) {n m : N} (h : m ≠ n) :
  (d.touch n).entry m = d.entry m
  := by
  cases hn : d.entry n <;> simp [touch, hn, h]

theorem has_touch_of_ne (d : Dir N) {n m : N} (h : m ≠ n) :
  (d.touch n).has m = d.has m
  := has_congr (d.entry_touch_of_ne h)

@[simp]
theorem entry_creat (d : Dir N) (n : N) :
  (d.creat n).entry n = some ⟨d.inoFor n, []⟩
  := by
  simp [creat]

@[simp]
theorem entry_creat_of_ne (d : Dir N) {n m : N} (h : m ≠ n) :
  (d.creat n).entry m = d.entry m
  := by
  simp [creat, h]

/-- A write through the descriptor of an empty file gives the file its content. -/
theorem cat_write {d : Dir N} {n : N} {ino : Nat} (h : d.entry n = some ⟨ino, []⟩) (t : Text) :
  (d.write n ino t).cat n = t
  := by
  simp [write, h, cat]

@[simp]
theorem entry_write_of_ne (d : Dir N) {n m : N} (h : m ≠ n) (ino : Nat) (t : Text) :
  (d.write n ino t).entry m = d.entry m
  := by
  unfold write
  cases d.entry n with
  | none => rfl
  | some f =>
      by_cases hf : f.ino = ino <;> simp [hf, h]

end Dir

end FlatDir
