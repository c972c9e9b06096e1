import Mathlib.Data.List.DropRight
import Mathlib.Data.List.Infix

/-!
# Texts and decimal numerals

A text is a list of characters.  `decimal n` is the decimal numeral of `n`, and
`decimalValue?` reads a text that consists of decimal digits only.  `chomp` removes the
newlines at the end of a text, as a shell does with the output of a command it
substitutes.
-/

/-- A text, as the list of its characters. -/
abbrev Text := List Char

/-- All definitions decide equality of texts by this instance. -/
instance : LawfulBEq Text := inferInstance

namespace Text

/-- The decimal numeral of `n`, without leading zeros. -/
def decimal (n : Nat) : Text :=
  Nat.toDigits 10 n

/-- Whether `t` consists of one or more decimal digits. -/
def isNumeral (t : Text) : Bool :=
  !t.isEmpty && t.all Char.isDigit

/-- The number a numeral denotes in base ten. -/
def decimalValue? (t : Text) : Option Nat :=
  if t.isNumeral then some (Nat.ofDigitChars 10 t 0) else none

theorem isNumeral_decimal (n : Nat) :
  (decimal n).isNumeral = true
  := by
  simp only [isNumeral, decimal, Bool.and_eq_true, Bool.not_eq_true', List.isEmpty_eq_false_iff,
    List.all_eq_true]
  constructor
  · apply Nat.toDigits_ne_nil
  · intro c hc
    apply Nat.isDigit_of_mem_toDigits (by decide) (by decide) hc

/-- Reading a decimal numeral gives back the number. -/
@[simp]
theorem decimalValue?_decimal (n : Nat) :
  decimalValue? (decimal n) = some n
  := by
  rw [decimalValue?, if_pos (isNumeral_decimal n), decimal, Nat.ofDigitChars_ten_toDigits]

/-- A decimal numeral, perhaps with zeros at its beginning. -/
structure Numeral where
  text : Text
  isNumeral : text.isNumeral = true

/-- The number a numeral denotes. -/
def Numeral.value (n : Numeral) : Nat :=
  Nat.ofDigitChars 10 n.text 0

theorem Numeral.text_ne_nil (n : Numeral) :
  n.text ≠ []
  := by
  intro hnil
  have h := n.isNumeral
  rw [hnil] at h
  contradiction

theorem Numeral.isDigit (n : Numeral) {c : Char} (hc : c ∈ n.text) :
  c.isDigit = true
  := by
  have h := n.isNumeral
  simp only [Text.isNumeral, Bool.and_eq_true, List.all_eq_true] at h
  exact h.2 c hc

@[simp]
theorem Numeral.decimalValue?_text (n : Numeral) :
  decimalValue? n.text = some n.value
  := if_pos n.isNumeral

/-- The numeral of a number. -/
def Numeral.ofNat (n : Nat) : Numeral :=
  ⟨decimal n, isNumeral_decimal n⟩

@[simp]
theorem Numeral.value_ofNat (n : Nat) :
  (ofNat n).value = n
  := Nat.ofDigitChars_ten_toDigits

/-- Different numbers have different numerals. -/
theorem decimal_injective :
  Function.Injective decimal
  := by
  intro m n h
  have hv := congrArg decimalValue? h
  simpa using hv

/-- Every character of a decimal numeral is a digit. -/
theorem isDigit_of_mem_decimal {n : Nat} {c : Char} (hc : c ∈ decimal n) :
  c.isDigit = true
  := Nat.isDigit_of_mem_toDigits (by decide) (by decide) hc

/-- `t` without the newlines at its end. -/
def chomp (t : Text) : Text :=
  t.rdropWhile (· == '\n')

/-- A newline at the end is removed. -/
@[simp]
theorem chomp_concat_newline (t : Text) :
  chomp (t ++ ['\n']) = chomp t
  := by
  rw [chomp, List.rdropWhile_concat_pos _ _ _ (by decide)]
  rfl

/-- A text without a newline is left as it is. -/
theorem chomp_eq_self {t : Text} (h : '\n' ∉ t) :
  chomp t = t
  := by
  apply List.rdropWhile_eq_self_iff.mpr
  intro hne heq
  apply h
  rw [← beq_iff_eq.mp heq]
  apply List.getLast_mem

/-- A numeral is left as it is. -/
@[simp]
theorem chomp_decimal (n : Nat) :
  chomp (decimal n) = decimal n
  := by
  apply chomp_eq_self
  intro h
  have hdigit := isDigit_of_mem_decimal h
  contradiction

/-- A text that lacks a character occurs on one side of it. -/
theorem infix_append_cons_iff {phrase a b : Text} {c : Char} (hc : c ∉ phrase) :
  phrase <:+: a ++ c :: b ↔ phrase <:+: a ∨ phrase <:+: b
  := by
  have hstarts (a : Text) (h : phrase <+: a ++ c :: b) : phrase <+: a := by
    rcases Nat.lt_or_ge a.length phrase.length with hlt | hle
    · have hshort : a ++ [c] <+: phrase := by
        apply List.prefix_of_prefix_length_le _ h (by simpa using Nat.succ_le_of_lt hlt)
        use b
        simp
      exact absurd (hshort.subset (by simp)) hc
    · exact List.prefix_of_prefix_length_le h (List.prefix_append _ _) hle
  constructor
  · intro h
    induction a with
    | nil =>
        rcases List.infix_cons_iff.mp h with h | h
        · exact Or.inl (hstarts [] h).isInfix
        · exact Or.inr h
    | cons x a ih =>
        rcases List.infix_cons_iff.mp h with h | h
        · exact Or.inl (hstarts (x :: a) h).isInfix
        · exact (ih h).imp_left fun h => List.infix_cons h
  · rintro (h | h)
    · exact h.trans (List.infix_append' [] a _)
    · exact h.trans (List.infix_append' (a ++ [c]) b [] |>.trans (by simp))

end Text
