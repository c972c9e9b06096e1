import Mathlib.Data.List.TakeWhile
import Mathlib.Logic.Function.Basic

/-!
# Memory in blocks

A memory consists of blocks of cells, which are obtained, written and released.  A cell is
indeterminate until it is written.  An access to a block that is not there, to a place outside its
block or to an indeterminate cell is undefined.  A string is a run of cells up to a terminator.  Over
any type of cells.
-/

variable {α : Type}

/-! ### Cells -/

/-- The cells of a block; there is nothing in a cell that has not been written. -/
abbrev Cells (α : Type) := List (Option α)

namespace Cells

/-- The cells with data written over those from a place on. -/
def overwrite (cells : Cells α) (offset : ℕ) (data : List α) : Cells α :=
  cells.take offset ++ data.map some ++ cells.drop (offset + data.length)

@[simp]
theorem length_overwrite {cells : Cells α} {offset : ℕ} {data : List α}
    (h : offset + data.length ≤ cells.length) :
  (cells.overwrite offset data).length = cells.length
  := by
  simp only [overwrite, List.length_append, List.length_take, List.length_map, List.length_drop]
  omega

theorem overwrite_zero (cells : Cells α) (data : List α) :
  cells.overwrite 0 data = data.map some ++ cells.drop data.length
  := by simp [overwrite]

/-- All cells are written over. -/
theorem overwrite_of_length {cells : Cells α} {data : List α} (h : data.length = cells.length) :
  cells.overwrite 0 data = data.map some
  := by rw [overwrite_zero, h, List.drop_length, List.append_nil]

/-- Data that is written behind other data. -/
theorem overwrite_overwrite {cells : Cells α} {data data' : List α} :
  (cells.overwrite 0 data).overwrite data.length data' = cells.overwrite 0 (data ++ data')
  := by
  rw [overwrite_zero, overwrite_zero, overwrite]
  simp [List.drop_append, List.drop_drop]

variable [DecidableEq α] (nul : α)

/-- The string at the start of some cells: it is undefined when it runs into an indeterminate cell
or beyond the last cell. -/
def string : Cells α → Option (List α)
  | [] | none :: _ => none
  | some c :: cells => if c = nul then some [] else (string cells).map (c :: ·)

variable {nul}

theorem string_eq_some {cells : Cells α} {s : List α} :
  string nul cells = some s ↔ nul ∉ s ∧ ∃ rest, cells = s.map some ++ some nul :: rest
  := by
  induction cells generalizing s with
  | nil => simp [string]
  | cons cell cells ih =>
      cases cell with
      | none => cases s <;> simp [string]
      | some c =>
          rw [string]
          split
          · next h =>
              subst h
              cases s with
              | nil => simp
              | cons c' s =>
                  simp only [Option.some.injEq, List.nil_eq, reduceCtorEq, false_iff]
                  rintro ⟨hs, rest, heq⟩
                  obtain rfl := Option.some.inj (List.cons.inj heq).1
                  simp at hs
          · next h =>
              cases s with
              | nil => simp [h]
              | cons c' s =>
                  simp only [Option.map_eq_some_iff, List.cons.injEq, List.mem_cons, not_or,
                    List.map_cons, List.cons_append, Option.some.injEq, ih]
                  constructor
                  · rintro ⟨s, ⟨hs, rest, rfl⟩, rfl, rfl⟩
                    exact ⟨⟨Ne.symm h, hs⟩, rest, rfl, rfl⟩
                  · rintro ⟨⟨hc, hs⟩, rest, rfl, rfl⟩
                    exact ⟨s, ⟨hs, rest, rfl⟩, rfl, rfl⟩

/-- A text with a terminator behind it: the string ends at the first terminator. -/
theorem string_append (s : List α) (rest : Cells α) :
  string nul (s.map some ++ some nul :: rest) = some (s.takeWhile (· ≠ nul))
  := by
  induction s with
  | nil => simp [string]
  | cons c s ih =>
      rw [List.map_cons, List.cons_append, string, ih]
      by_cases h : c = nul
      · simp [h]
      · simp [h]

/-- Without a terminator there is no string. -/
theorem string_map_some {s : List α} (h : nul ∉ s) :
  string nul (s.map some) = none
  := by
  induction s with
  | nil => rfl
  | cons c s ih =>
      obtain ⟨hc, hs⟩ := not_or.mp (mt List.mem_cons.mpr h)
      rw [List.map_cons, string, if_neg (Ne.symm hc), ih hs]
      rfl

/-- Nothing can be read of what has not been written. -/
theorem string_replicate_none (n : ℕ) :
  string nul (List.replicate n none) = none
  := by cases n <;> rfl

/-- The end of a string. -/
theorem string_drop {cells : Cells α} {s : List α} (h : string nul cells = some s) {n : ℕ}
    (hn : n ≤ s.length) :
  string nul (cells.drop n) = some (s.drop n)
  := by
  obtain ⟨hs, rest, rfl⟩ := string_eq_some.mp h
  rw [string_eq_some]
  refine ⟨fun hmem => hs (List.mem_of_mem_drop hmem), rest, ?_⟩
  rw [List.drop_append_of_le_length (by simpa using hn), List.map_drop]

/-- A string is shorter than its cells. -/
theorem length_lt_of_string {cells : Cells α} {s : List α} (h : string nul cells = some s) :
  s.length < cells.length
  := by
  obtain ⟨-, rest, rfl⟩ := string_eq_some.mp h
  simp

/-- What is written with a terminator is there as a string. -/
theorem string_overwrite (cells : Cells α) (s data : List α) :
  string nul (cells.overwrite 0 (s ++ nul :: data)) = some (s.takeWhile (· ≠ nul))
  := by
  rw [overwrite_zero, List.map_append, List.map_cons, List.append_assoc, List.cons_append]
  apply string_append

/-- A terminator that is written into a string cuts it there. -/
theorem string_overwrite_nul {cells : Cells α} {offset n : ℕ} {s : List α}
    (h : string nul (cells.drop offset) = some s) (hn : n ≤ s.length) :
  string nul ((cells.overwrite (offset + n) [nul]).drop offset) = some (s.take n)
  := by
  obtain ⟨hs, rest, hcells⟩ := string_eq_some.mp h
  have hoffset : offset ≤ cells.length := by
    by_contra hlt
    rw [List.drop_eq_nil_of_le (by omega)] at hcells
    simp at hcells
  have hlength : (cells.take offset).length = offset := by rw [List.length_take]; omega
  have hdrop : (cells.overwrite (offset + n) [nul]).drop offset
      = (s.take n).map some ++ some nul :: (cells.drop (offset + n + 1)) := by
    rw [overwrite, List.take_add, hcells, List.append_assoc, List.append_assoc,
      List.drop_append_of_le_length (by omega), List.drop_eq_nil_of_le (by omega), List.nil_append,
      List.take_append_of_le_length (by simpa using hn), List.map_take]
    rfl
  rw [hdrop, string_append, List.takeWhile_eq_self_iff.mpr]
  intro c hc
  simp only [ne_eq, decide_eq_true_eq]
  rintro rfl
  apply hs (List.mem_of_mem_take hc)

end Cells

/-! ### Memories -/

/-- A memory: the blocks that there are. -/
structure Memory (α : Type) where
  /-- The blocks from here on have not been obtained yet. -/
  unused : ℕ
  block : ℕ → Option (Cells α)
  block_of_unused : ∀ {b}, unused ≤ b → block b = none

/-- A place in a block. -/
structure Ptr where
  block : ℕ
  offset : ℕ
deriving DecidableEq

def Ptr.add (p : Ptr) (n : ℕ) : Ptr :=
  { p with offset := p.offset + n }

namespace Memory

/-- The memory with the cells of a block put there. -/
def put (m : Memory α) (b : ℕ) (cells : Cells α) : Memory α where
  unused := max m.unused (b + 1)
  block := Function.update m.block b (some cells)
  block_of_unused := by
    intro b' hb'
    rw [Function.update_of_ne (by omega)]
    apply m.block_of_unused (by omega)

/-- The memory without a block. -/
def erase (m : Memory α) (b : ℕ) : Memory α where
  unused := m.unused
  block := Function.update m.block b none
  block_of_unused := by
    intro b' hb'
    by_cases h : b' = b
    · rw [h, Function.update_self]
    · rw [Function.update_of_ne h]
      apply m.block_of_unused hb'

variable {m : Memory α} {b b' : ℕ} {cells cells' : Cells α} {p : Ptr}

@[simp]
theorem block_put (m : Memory α) (b : ℕ) (cells : Cells α) :
  (m.put b cells).block = Function.update m.block b (some cells)
  := rfl

@[simp]
theorem block_erase (m : Memory α) (b : ℕ) :
  (m.erase b).block = Function.update m.block b none
  := rfl

/-- A block that is there has been obtained. -/
theorem lt_unused (h : m.block b = some cells) :
  b < m.unused
  := by
  by_contra hle
  rw [m.block_of_unused (by omega)] at h
  contradiction

@[ext]
theorem ext {m m' : Memory α} (hunused : m.unused = m'.unused) (hblock : m.block = m'.block) :
  m = m'
  := by
  cases m
  cases m'
  simp only [mk.injEq]
  exact ⟨hunused, hblock⟩

theorem put_self (h : m.block b = some cells) :
  m.put b cells = m
  := by
  apply ext
  · exact Nat.max_eq_left (lt_unused h)
  · rw [block_put, ← h, Function.update_eq_self]

/-- A write of data into a block. -/
def write (m : Memory α) (p : Ptr) (data : List α) : Option (Memory α) :=
  match m.block p.block with
  | none => none
  | some cells =>
      if p.offset + data.length ≤ cells.length then
        some (m.put p.block (cells.overwrite p.offset data))
      else none

/-- The content of one cell. -/
def load (m : Memory α) (p : Ptr) : Option α :=
  ((m.block p.block).bind fun cells => cells[p.offset]?).join

/-- The string at a place. -/
def string [DecidableEq α] (nul : α) (m : Memory α) (p : Ptr) : Option (List α) :=
  (m.block p.block).bind fun cells => Cells.string nul (cells.drop p.offset)

theorem write_of_le {offset : ℕ} {data : List α} (h : m.block b = some cells)
    (hfits : offset + data.length ≤ cells.length) :
  m.write ⟨b, offset⟩ data = some (m.put b (cells.overwrite offset data))
  := by simp only [write, h, if_pos hfits]

theorem write_of_lt {offset : ℕ} {data : List α} (h : m.block b = some cells)
    (hfits : cells.length < offset + data.length) :
  m.write ⟨b, offset⟩ data = none
  := by simp only [write, h, if_neg (Nat.not_le.mpr hfits)]

variable [DecidableEq α] {nul : α}

theorem string_of_block {offset : ℕ} (h : m.block b = some cells) :
  m.string nul ⟨b, offset⟩ = Cells.string nul (cells.drop offset)
  := by simp only [string, h, Option.bind_some]

/-- A string can only be read from a block that is there. -/
theorem exists_of_string {s : List α} (h : m.string nul p = some s) :
  ∃ cells, m.block p.block = some cells ∧ Cells.string nul (cells.drop p.offset) = some s
  := Option.bind_eq_some_iff.mp h

/-- The string at a place is that of its block. -/
theorem string_congr {m' : Memory α} (h : m'.block p.block = m.block p.block) :
  m'.string nul p = m.string nul p
  := by rw [string, string, h]

end Memory
