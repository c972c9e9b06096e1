import MblCore.Lib.Loops
import MblCore.Lib.Strtol

/-!
# `mbl-watchdog-init.c`

The timeout of the watchdog is read from the command line.  It ought to be a string of digits, but
`strtol` is left to find the base by itself, and to skip what it skips.
-/

namespace Watchdog

open Loops Strtol

def INT_MAX : ℕ := 2 ^ 31 - 1

/-- `numeric_string_to_positive_int`, which logs an error where it exits. -/
def numericStringToPositiveInt (long : Long) (str : List Char) : Except String ℤ :=
  let res := strtol long str 0
  if (res.erange ∧ (res.value = long.max ∨ res.value = -(long.max + 1)))
      ∨ (res.erange ∧ res.value = 0) then
    throw "strtol failed"
  else if res.endptr ≠ [] ∨ res.endptr = str then
    throw "String must contain digits only."
  else if res.value ≤ 0 ∨ res.value > INT_MAX then
    throw "Integer not in valid range. Expecting a positive integer with maximum size INT_MAX"
  else
    return res.value

/-- An `int` that is positive. -/
def InRange (n : ℕ) : Prop :=
  0 < n ∧ n ≤ INT_MAX

/-- A string of digits is read as the decimal number that it denotes, when that is in range, and no
other string is read. -/
def ReadsDecimal (long : Long) (str : List Char) : Prop :=
  ∀ n : ℤ, numericStringToPositiveInt long str = .ok n
    ↔ ∃ m : ℕ, Spells 10 str m ∧ InRange m ∧ n = m

/-- The strings that are not read as they ought to be. -/
inductive Misread (str : List Char) : Prop
  /-- A constant after white space or a plus sign. -/
  | led {blanks plus text : List Char} {n : ℕ} (hleads : Leads blanks plus)
    (hled : blanks ++ plus ≠ []) (hstr : str = blanks ++ plus ++ text) (h : Constant text n)
    (hn : InRange n)
  /-- A hexadecimal constant. -/
  | hexadecimal {x : Char} {digits : List Char} {n : ℕ} (hx : x = 'x' ∨ x = 'X')
    (hstr : str = '0' :: x :: digits) (h : Spells 16 digits n) (hn : InRange n)
  /-- An octal constant of more than a digit. -/
  | octal {n : ℕ} (hhead : str.head? = some '0') (h : Spells 8 str n) (hlarge : 8 ≤ n)
    (hn : InRange n)
  /-- A number with zeros before it that is no octal constant. -/
  | notOctal {c : Char} {n : ℕ} (hhead : str.head? = some '0') (hc : c ∈ str)
    (hlarge : isDigit 8 c = false) (h : Spells 10 str n) (hn : InRange n)

/-! ### What is read -/

theorem INT_MAX_le (long : Long) :
  INT_MAX ≤ long.max
  := by
  cases long with
  | long32 => decide
  | long64 => decide

theorem numericStringToPositiveInt_eq_ok {long : Long} {str : List Char} {n : ℤ} :
  numericStringToPositiveInt long str = .ok n ↔ ∃ m : ℕ, Written str m ∧ InRange m ∧ n = m
  := by
  simp only [numericStringToPositiveInt, check_eq_ok]
  constructor
  · rintro ⟨herrno, hend, hrange, heq⟩
    obtain rfl := Except.ok.inj heq
    have herange : (strtol long str 0).erange = false := by
      by_contra hset
      rw [Bool.not_eq_false] at hset
      apply herrno (Or.inl ⟨hset, value_of_erange hset⟩)
    obtain ⟨m, hm⟩ := Int.eq_ofNat_of_zero_le (a := (strtol long str 0).value) (by omega)
    have hres : strtol long str 0 = ⟨m, [], false⟩ := by
      rw [← hm, ← herange, ← not_ne_iff.mp fun hne => hend (Or.inl hne)]
    have hpos : 0 < m := by omega
    exact ⟨m, ((strtol_eq_iff hpos).mp hres).1, ⟨hpos, by omega⟩, hm⟩
  · rintro ⟨m, hwritten, ⟨hpos, hmax⟩, rfl⟩
    have hres := (strtol_eq_iff hpos).mpr ⟨hwritten, hmax.trans (INT_MAX_le long)⟩
    rw [hres]
    refine ⟨by simp, ?_, by dsimp only; omega, rfl⟩
    rintro (hend | hstr)
    · apply hend rfl
    · apply hwritten.ne_nil hstr.symm

/-- What stands before a constant is not part of a decimal number. -/
theorem not_spells_of_leads {blanks plus text : List Char} {n : ℕ} (hleads : Leads blanks plus)
    (hled : blanks ++ plus ≠ []) :
  ¬ Spells 10 (blanks ++ plus ++ text) n
  := by
  intro h
  obtain ⟨c, rest, hc⟩ := List.exists_cons_of_ne_nil hled
  have hmem : c ∈ blanks ++ plus := by simp [hc]
  have hdigit := h.digit c (List.mem_append_left _ hmem)
  rw [hleads.not_isDigit hmem] at hdigit
  contradiction

theorem not_isDigit_of_mark {x : Char} (hx : x = 'x' ∨ x = 'X') :
  isDigit 10 x = false
  := by
  rcases hx with rfl | rfl
  · decide
  · decide

/-- Of a string of decimal digits, only the whole can be a constant. -/
theorem constant_of_written {str : List Char} {n m : ℕ} (h : Written str m) (hstr : Spells 10 str n) :
  Constant str m
  := by
  obtain ⟨blanks, plus, text, hleads, rfl, htext⟩ := h
  by_cases hled : blanks ++ plus = []
  · rwa [hled]
  · exact absurd hstr (not_spells_of_leads hleads hled)

/-- Octal digits denote the same in base ten just when there is one that counts. -/
theorem spells_ten_iff {str : List Char} {n : ℕ} (h : Spells 8 str n) :
  Spells 10 str n ↔ n < 8
  := by
  have hvalue := (value_le_value (by decide) (by decide : 8 < 10) h.digit).2
  rw [h.denotes] at hvalue
  rw [← hvalue]
  constructor
  · intro hten
    exact hten.denotes.symm
  · intro heq
    exact ⟨h.nonempty, fun c hc => isDigit_of_le (h.digit c hc) (by decide), heq.symm⟩

theorem not_misread_of_readsDecimal {long : Long} {str : List Char}
    (hreads : ReadsDecimal long str) :
  ¬ Misread str
  := by
  -- what is read is a decimal number
  have hten {n : ℕ} (hwritten : Written str n) (hn : InRange n) : Spells 10 str n := by
    obtain ⟨m, hm, -, heq⟩ :=
      (hreads n).mp (numericStringToPositiveInt_eq_ok.mpr ⟨n, hwritten, hn, rfl⟩)
    rwa [Int.natCast_inj.mp heq]
  intro hmisread
  cases hmisread with
  | led hleads hled hstr h hn =>
      have hspells := hten ⟨_, _, _, hleads, hstr, h⟩ hn
      rw [hstr] at hspells
      apply not_spells_of_leads hleads hled hspells
  | hexadecimal hx hstr h hn =>
      subst hstr
      have hspells := hten (.of_constant (.hexadecimal hx h)) hn
      have hdigit := hspells.digit _ (List.mem_cons_of_mem _ List.mem_cons_self)
      rw [not_isDigit_of_mark hx] at hdigit
      contradiction
  | octal hhead h hlarge hn =>
      have hsmall := (spells_ten_iff h).mp (hten (.of_constant (.octal hhead h)) hn)
      omega
  | notOctal hhead hc hlarge hspells hn =>
      obtain ⟨m, hwritten, -, heq⟩ :=
        numericStringToPositiveInt_eq_ok.mp ((hreads _).mpr ⟨_, hspells, hn, rfl⟩)
      cases constant_of_written hwritten hspells with
      | decimal hnot _ => exact hnot hhead
      | octal _ h =>
          rw [h.digit _ hc] at hlarge
          contradiction
      | hexadecimal hx _ =>
          have hdigit := hspells.digit _ (List.mem_cons_of_mem _ List.mem_cons_self)
          rw [not_isDigit_of_mark hx] at hdigit
          contradiction

/-- What is read is a decimal number, unless it is misread. -/
theorem spells_of_written {str : List Char} {n : ℕ} (hnot : ¬ Misread str) (h : Written str n)
    (hn : InRange n) :
  Spells 10 str n
  := by
  obtain ⟨blanks, plus, text, hleads, hstr, htext⟩ := h
  by_cases hled : blanks ++ plus = []
  · rw [hled, List.nil_append] at hstr
    subst hstr
    cases htext with
    | decimal _ h => exact h
    | octal hhead h =>
        by_contra hten
        apply hnot (.octal hhead h (Nat.not_lt.mp (mt (spells_ten_iff h).mpr hten)) hn)
    | hexadecimal hx h => exact absurd (.hexadecimal hx rfl h hn) hnot
  · exact absurd (.led hleads hled hstr htext hn) hnot

/-- A decimal number is a constant, unless it is misread. -/
theorem constant_of_spells {str : List Char} {n : ℕ} (hnot : ¬ Misread str) (h : Spells 10 str n)
    (hn : InRange n) :
  Constant str n
  := by
  by_cases hhead : str.head? = some '0'
  · have hoctal : ∀ c ∈ str, isDigit 8 c = true := by
      intro c hc
      by_contra hlarge
      apply hnot (.notOctal hhead hc (Bool.not_eq_true _ ▸ hlarge) h hn)
    have height : Spells 8 str (value 8 str) := ⟨h.nonempty, hoctal, rfl⟩
    obtain ⟨hle, hiff⟩ := value_le_value (by decide) (by decide : 8 < 10) hoctal
    rw [h.denotes] at hle hiff
    have hsmall : value 8 str < 8 := by
      by_contra hlarge
      have hrange : InRange (value 8 str) := ⟨by omega, hle.trans hn.2⟩
      apply hnot (.octal hhead height (Nat.not_lt.mp hlarge) hrange)
    rw [← hiff.mpr hsmall]
    exact .octal hhead height
  · exact .decimal hhead h

/-- Every string is read as it ought to be but for those that are misread. -/
theorem readsDecimal_iff (long : Long) (str : List Char) :
  ReadsDecimal long str ↔ ¬ Misread str
  := by
  constructor
  · exact not_misread_of_readsDecimal
  · intro hnot n
    rw [numericStringToPositiveInt_eq_ok]
    constructor
    · rintro ⟨m, hwritten, hm, rfl⟩
      exact ⟨m, spells_of_written hnot hwritten hm, hm, rfl⟩
    · rintro ⟨m, hspells, hm, rfl⟩
      exact ⟨m, .of_constant (constant_of_spells hnot hspells hm), hm, rfl⟩

/-- A timeout of ten seconds, written with a zero before it, is one of eight seconds. -/
theorem not_readsDecimal_octal :
  ¬ ReadsDecimal .long32 "010".toList
  := by
  intro h
  obtain ⟨m, hm, -, heq⟩ := (h 8).mp (by decide)
  have hten : value 10 "010".toList = 10 := by decide
  rw [hm.denotes] at hten
  omega

end Watchdog
