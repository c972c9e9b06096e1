import Mathlib.Data.List.Basic

/-!
# Strings in buffers

A string in memory is a run of cells without the terminator, and the terminator after it.  What
follows the terminator in a buffer does not belong to the string.  Over any type of cells.
-/

namespace CString

variable {α : Type} (nul : α)

/-- A buffer holds a string: its cells, and the terminator after them. -/
def Holds (buffer s : List α) : Prop :=
  nul ∉ s ∧ ∃ rest, buffer = s ++ nul :: rest

/-- The cells before the first terminator. -/
def string [DecidableEq α] (buffer : List α) : List α :=
  buffer.takeWhile (· ≠ nul)

/-- `strncpy`: the cells of a string, at most so many of them, are written over those of a buffer,
and terminators once the string has ended. -/
def strncpy : List α → List α → ℕ → List α
  | dst, _, 0 => dst
  | [], _, _ + 1 => []
  | _ :: dst, [], n + 1 => nul :: strncpy dst [] n
  | _ :: dst, c :: src, n + 1 => c :: strncpy dst src n

variable {nul}

theorem Holds.string_eq [DecidableEq α] {buffer s : List α} (h : Holds nul buffer s) :
  string nul buffer = s
  := by
  obtain ⟨hs, rest, rfl⟩ := h
  have hplain : ∀ c ∈ s, decide (c ≠ nul) = true := by
    intro c hc
    simp only [decide_eq_true_eq]
    rintro rfl
    apply hs hc
  rw [string, List.takeWhile_append_of_pos hplain]
  simp

/-- A buffer holds one string at most. -/
theorem Holds.unique {buffer s t : List α} (hs : Holds nul buffer s) (ht : Holds nul buffer t) :
  s = t
  := by
  classical
  rw [← hs.string_eq, ht.string_eq]

theorem strncpy_nil (dst : List α) :
  strncpy nul dst [] dst.length = List.replicate dst.length nul
  := by
  induction dst with
  | nil => rfl
  | cons _ dst ih => rw [List.length_cons, strncpy, ih, List.replicate_succ]

/-- A buffer that is written over as a whole has the start of the string, padded with terminators:
nothing of what it held before. -/
theorem strncpy_length (dst src : List α) :
  strncpy nul dst src dst.length
    = src.take dst.length ++ List.replicate (dst.length - src.length) nul
  := by
  induction dst generalizing src with
  | nil => simp [strncpy]
  | cons _ dst ih =>
      cases src with
      | nil => exact strncpy_nil _
      | cons c src => simp [strncpy, ih]

/-- The whole string fits when it is shorter than the buffer. -/
theorem holds_strncpy {dst src : List α} (hsrc : nul ∉ src) (h : src.length < dst.length) :
  Holds nul (strncpy nul dst src dst.length) src
  := by
  obtain ⟨room, hroom⟩ := Nat.exists_eq_add_of_lt h
  have hpad : dst.length - src.length = room + 1 := by omega
  use hsrc, List.replicate room nul
  rw [strncpy_length, List.take_of_length_le (by omega), hpad, List.replicate_succ]

/-- The last cell has the terminator just when the whole string fits. -/
theorem strncpy_last {dst src : List α} (hsrc : nul ∉ src) (hdst : 0 < dst.length) :
  (strncpy nul dst src dst.length)[dst.length - 1]? = some nul ↔ src.length < dst.length
  := by
  rw [strncpy_length]
  by_cases h : src.length < dst.length
  · have hpad : dst.length - 1 - src.length < dst.length - src.length := by omega
    rw [List.take_of_length_le (by omega), List.getElem?_append_right (by omega),
      List.getElem?_replicate_of_lt hpad]
    simp only [h]
  · rw [List.getElem?_append_left (by rw [List.length_take]; omega)]
    simp only [h, iff_false]
    intro hlast
    apply hsrc (List.mem_of_mem_take (List.mem_of_getElem? hlast))

end CString
