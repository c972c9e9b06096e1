import MblCore.Lib.Text

/-!
# Digits

A character can be a digit without being one of `0` to `9`.  The decimal digits of all scripts have
values and can be part of a number; other digits, as superscripts, cannot.  The tables are those of
Unicode 14.
-/

namespace Text

/-- The characters that are digits, and the numbers that texts of digits denote.  Nothing is told of
characters that are not ASCII. -/
structure Digits where
  isdigit : Char → Bool
  int : Text → Option ℕ
  isdigit_ascii : ∀ c : Char, c.toNat < 128 → isdigit c = c.isDigit
  int_numeral : ∀ t : Text, t.isNumeral = true → int t = t.decimalValue?

/-- The code points of the zeros other than `0`.  Each has the other decimal digits of its script
behind it. -/
def otherZeros : List ℕ :=
  [0x660, 0x6F0, 0x7C0, 0x966, 0x9E6, 0xA66, 0xAE6, 0xB66, 0xBE6, 0xC66, 0xCE6, 0xD66, 0xDE6, 0xE50,
    0xED0, 0xF20, 0x1040, 0x1090, 0x17E0, 0x1810, 0x1946, 0x19D0, 0x1A80, 0x1A90, 0x1B50, 0x1BB0,
    0x1C40, 0x1C50, 0xA620, 0xA8D0, 0xA900, 0xA9D0, 0xA9F0, 0xAA50, 0xABF0, 0xFF10, 0x104A0, 0x10D30,
    0x11066, 0x110F0, 0x11136, 0x111D0, 0x112F0, 0x11450, 0x114D0, 0x11650, 0x116C0, 0x11730, 0x118E0,
    0x11950, 0x11C50, 0x11D50, 0x11DA0, 0x16A60, 0x16AC0, 0x16B50, 0x1D7CE, 0x1D7D8, 0x1D7E2, 0x1D7EC,
    0x1D7F6, 0x1E140, 0x1E2F0, 0x1E950, 0x1FBF0]

/-- The first and the last code points of the digits that are not decimal. -/
def otherDigits : List (ℕ × ℕ) :=
  [(0xB2, 0xB3), (0xB9, 0xB9), (0x1369, 0x1371), (0x19DA, 0x19DA), (0x2070, 0x2070), (0x2074, 0x2079),
    (0x2080, 0x2089), (0x2460, 0x2468), (0x2474, 0x247C), (0x2488, 0x2490), (0x24EA, 0x24EA),
    (0x24F5, 0x24FD), (0x24FF, 0x24FF), (0x2776, 0x277E), (0x2780, 0x2788), (0x278A, 0x2792),
    (0x10A40, 0x10A43), (0x10E60, 0x10E68), (0x11052, 0x1105A), (0x1F100, 0x1F10A)]

/-- The value of a decimal digit. -/
def digitValue? (c : Char) : Option ℕ :=
  if c.toNat < 128 then if c.isDigit then some (c.toNat - '0'.toNat) else none
  else (otherZeros.find? fun z => z ≤ c.toNat ∧ c.toNat < z + 10).map fun z => c.toNat - z

/-- `str.isdigit` of one character. -/
def isUnicodeDigit (c : Char) : Bool :=
  (digitValue? c).isSome
    || otherDigits.any fun range => range.1 ≤ c.toNat ∧ c.toNat ≤ range.2

/-- The number that decimal digits denote behind a number. -/
def appendDigits? : ℕ → Text → Option ℕ
  | n, [] => some n
  | n, c :: t =>
      match digitValue? c with
      | some value => appendDigits? (10 * n + value) t
      | none => none

/-- The number that decimal digits denote. -/
def digitsValue? (t : Text) : Option ℕ :=
  if t = [] then none else appendDigits? 0 t

theorem digitValue?_of_isDigit {c : Char} (h : c.isDigit = true) :
  digitValue? c = some (c.toNat - '0'.toNat)
  := by
  have hrange := h
  simp only [Char.isDigit, Bool.and_eq_true, decide_eq_true_eq] at hrange
  have hsmall : c.toNat < 128 := lt_of_le_of_lt hrange.2 (by decide)
  rw [digitValue?, if_pos hsmall, if_pos h]

theorem isUnicodeDigit_ascii {c : Char} (h : c.toNat < 128) :
  isUnicodeDigit c = c.isDigit
  := by
  have hother : otherDigits.any (fun range => range.1 ≤ c.toNat ∧ c.toNat ≤ range.2) = false := by
    have hlow : ∀ range ∈ otherDigits, 128 ≤ range.1 := by decide
    rw [List.any_eq_false]
    intro range hrange hmem
    rw [decide_eq_true_eq] at hmem
    exact absurd (hlow range hrange) (Nat.not_le.mpr (hmem.1.trans_lt h))
  rw [isUnicodeDigit, hother, Bool.or_false, digitValue?, if_pos h]
  cases c.isDigit with
  | true => rfl
  | false => rfl

theorem appendDigits?_of_digits {t : Text} (h : ∀ c ∈ t, c.isDigit = true) (n : ℕ) :
  appendDigits? n t = some (Nat.ofDigitChars 10 t n)
  := by
  induction t generalizing n with
  | nil => rw [Nat.ofDigitChars_nil, appendDigits?]
  | cons c t ih =>
      rw [Nat.ofDigitChars_cons, appendDigits?, digitValue?_of_isDigit (h c List.mem_cons_self)]
      exact ih (fun d hd => h d (List.mem_cons_of_mem c hd)) _

theorem digitsValue?_of_isNumeral {t : Text} (h : t.isNumeral = true) :
  digitsValue? t = t.decimalValue?
  := by
  have hne := ( Numeral.mk t h).text_ne_nil
  rw [digitsValue?, if_neg hne, decimalValue?, if_pos h,
    appendDigits?_of_digits fun c => ( Numeral.mk t h).isDigit]

/-- The digits that Python knows. -/
def Digits.unicode : Digits where
  isdigit := isUnicodeDigit
  int := digitsValue?
  isdigit_ascii := fun _ => isUnicodeDigit_ascii
  int_numeral := fun _ => digitsValue?_of_isNumeral

/-- The superscript two is a digit, and not a number. -/
example : isUnicodeDigit '²' = true ∧ digitsValue? ['²'] = none ∧ digitsValue? ['٣', '7'] = some 37 := by
  decide

end Text
