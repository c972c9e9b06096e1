import Mathlib.Data.List.Induction
import Mathlib.Data.List.TakeWhile
import Mathlib.Algebra.Order.Ring.Int

/-!
# Reading numbers as `strtol` does

`strtol` skips white space, takes a sign and a prefix, reads the digits that follow, and tells where
it has stopped.  When it is not told the base, the prefix tells it.  What it reads then as a positive
number, to the end of the text, is a constant of the language C, perhaps with white space and a plus
sign before it.
-/

namespace Strtol

/-! ### Digits -/

/-- The characters of `isspace`. -/
def isSpace (c : Char) : Bool :=
  c == ' ' || (9 ≤ c.toNat && c.toNat ≤ 13)

/-- The value of a digit, or of a letter that stands for one. -/
def digit? (c : Char) : Option ℕ :=
  if '0' ≤ c ∧ c ≤ '9' then some (c.toNat - '0'.toNat)
  else if 'a' ≤ c ∧ c ≤ 'z' then some (c.toNat - 'a'.toNat + 10)
  else if 'A' ≤ c ∧ c ≤ 'Z' then some (c.toNat - 'A'.toNat + 10)
  else none

def isDigit (base : ℕ) (c : Char) : Bool :=
  (digit? c).any (· < base)

/-- The number that digits denote. -/
def value (base : ℕ) (digits : List Char) : ℕ :=
  digits.foldl (fun n c => n * base + (digit? c).getD 0) 0

/-- Some digits of a base, and the number that they denote. -/
structure Spells (base : ℕ) (digits : List Char) (n : ℕ) : Prop where
  nonempty : digits ≠ []
  digit : ∀ c ∈ digits, isDigit base c = true
  denotes : value base digits = n

/-- The integer constants of C: those that start with 0 are octal or hexadecimal. -/
inductive Constant : List Char → ℕ → Prop
  | decimal {text : List Char} {n : ℕ} (hhead : text.head? ≠ some '0') (h : Spells 10 text n) :
    Constant text n
  | octal {text : List Char} {n : ℕ} (hhead : text.head? = some '0') (h : Spells 8 text n) :
    Constant text n
  | hexadecimal {x : Char} {digits : List Char} {n : ℕ} (hx : x = 'x' ∨ x = 'X')
      (h : Spells 16 digits n) :
    Constant ('0' :: x :: digits) n

/-! ### The function -/

/-- The widths of `long`. -/
inductive Long
  | long32
  | long64
deriving DecidableEq

/-- `LONG_MAX`. -/
def Long.max : Long → ℕ
  | .long32 => 2 ^ 31 - 1
  | .long64 => 2 ^ 63 - 1

/-- What `strtol` returns: the number, what it has left of the text, and whether it has set `errno`
to `ERANGE`. -/
structure Result where
  value : ℤ
  endptr : List Char
  erange : Bool
deriving DecidableEq

/-- Whether there is a minus sign, and what comes after the sign. -/
def sign : List Char → Bool × List Char
  | '-' :: text => (true, text)
  | '+' :: text => (false, text)
  | text => (false, text)

/-- The base of a numeral, and its digits with what comes after them.  A prefix is one only when a
digit follows it. -/
def numeral (base : ℕ) : List Char → ℕ × List Char
  | '0' :: x :: c :: rest =>
      if (base = 0 ∨ base = 16) ∧ (x = 'x' ∨ x = 'X') ∧ isDigit 16 c then (16, c :: rest)
      else (if base = 0 then 8 else base, '0' :: x :: c :: rest)
  | '0' :: rest => (if base = 0 then 8 else base, '0' :: rest)
  | text => (if base = 0 then 10 else base, text)

/-- A number that is too large for its type is replaced by the largest or the least one. -/
def clamp (long : Long) (negative : Bool) (magnitude : ℕ) (endptr : List Char) : Result :=
  if negative then
    if magnitude ≤ long.max + 1 then ⟨-magnitude, endptr, false⟩
    else ⟨-(long.max + 1), endptr, true⟩
  else
    if magnitude ≤ long.max then ⟨magnitude, endptr, false⟩
    else ⟨long.max, endptr, true⟩

/-- `strtol`.  Without any digit to read, nothing is taken of the text. -/
def strtol (long : Long) (str : List Char) (base : ℕ) : Result :=
  let (negative, text) := sign (str.dropWhile isSpace)
  let (base, text) := numeral base text
  let digits := text.takeWhile (isDigit base)
  if digits = [] then ⟨0, str, false⟩
  else clamp long negative (value base digits) (text.dropWhile (isDigit base))

/-! ### Digits and other characters -/

theorem isDigit_iff {base : ℕ} {c : Char} :
  isDigit base c = true ↔ ∃ d, digit? c = some d ∧ d < base
  := by
  cases h : digit? c with
  | none => simp [isDigit, h]
  | some d => simp [isDigit, h]

theorem isDigit_of_le {base base' : ℕ} {c : Char} (h : isDigit base c = true)
    (hle : base ≤ base') :
  isDigit base' c = true
  := by
  obtain ⟨d, hd, hlt⟩ := isDigit_iff.mp h
  apply isDigit_iff.mpr ⟨d, hd, by omega⟩

theorem toNat_of_isDigit {c : Char} (h : isDigit 10 c = true) :
  48 ≤ c.toNat ∧ c.toNat ≤ 57
  := by
  obtain ⟨d, hd, hlt⟩ := isDigit_iff.mp h
  unfold digit? at hd
  split at hd
  · rename_i hrange
    exact hrange
  · split at hd
    · have := Option.some.inj hd
      omega
    · split at hd
      · have := Option.some.inj hd
        omega
      · contradiction

/-- A decimal digit is neither white space nor a sign. -/
theorem plain_of_isDigit {c : Char} (h : isDigit 10 c = true) :
  isSpace c = false ∧ c ≠ '+' ∧ c ≠ '-'
  := by
  have hrange := toNat_of_isDigit h
  refine ⟨?_, ?_, ?_⟩
  · have hblank : c ≠ ' ' := by
      rintro rfl
      exact absurd h (by decide)
    simp [isSpace, hblank]
    omega
  · rintro rfl
    exact absurd h (by decide)
  · rintro rfl
    exact absurd h (by decide)

/-! ### Constants -/

/-- The constants are the numerals whose base is told by their prefix. -/
theorem constant_iff {text : List Char} {n : ℕ} :
  Constant text n ↔ Spells (numeral 0 text).1 (numeral 0 text).2 n
  := by
  unfold numeral
  split
  · rename_i x c rest
    by_cases hmark : (x = 'x' ∨ x = 'X') ∧ isDigit 16 c = true
    · rw [if_pos ⟨Or.inl rfl, hmark⟩]
      constructor
      · intro h
        cases h with
        | decimal hhead _ => simp at hhead
        | octal _ h =>
            have hx := h.digit x (by simp)
            rcases hmark.1 with rfl | rfl
            · exact absurd hx (by decide)
            · exact absurd hx (by decide)
        | hexadecimal _ h => exact h
      · apply Constant.hexadecimal hmark.1
    · rw [if_neg fun h => hmark h.2]
      constructor
      · intro h
        cases h with
        | decimal hhead _ => simp at hhead
        | octal _ h => exact h
        | hexadecimal hx h => exact absurd ⟨hx, h.digit c List.mem_cons_self⟩ hmark
      · apply Constant.octal rfl
  · rename_i rest hshort
    constructor
    · intro h
      cases h with
      | decimal hhead _ => simp at hhead
      | octal _ h => exact h
      | hexadecimal hx h =>
          rename_i x digits
          obtain ⟨c, rest, rfl⟩ := List.exists_cons_of_ne_nil h.nonempty
          exact absurd rfl (hshort x c rest)
    · apply Constant.octal rfl
  · rename_i hlong hshort
    have hhead : text.head? ≠ some '0' := by
      intro hhead
      obtain ⟨rest, hrest⟩ := List.head?_eq_some_iff.mp hhead
      apply hshort rest hrest
    constructor
    · intro h
      cases h with
      | decimal _ h => exact h
      | octal hzero _ => exact absurd hzero hhead
      | hexadecimal hx h => simp at hhead
    · apply Constant.decimal hhead

theorem Constant.exists_digit {text : List Char} {n : ℕ} (h : Constant text n) :
  ∃ c rest, text = c :: rest ∧ isDigit 10 c = true
  := by
  cases h with
  | decimal _ h =>
      obtain ⟨c, rest, rfl⟩ := List.exists_cons_of_ne_nil h.nonempty
      exact ⟨c, rest, rfl, h.digit c List.mem_cons_self⟩
  | octal hhead _ =>
      obtain ⟨rest, hrest⟩ := List.head?_eq_some_iff.mp hhead
      exact ⟨'0', rest, hrest, by decide⟩
  | hexadecimal _ _ => exact ⟨'0', _, rfl, by decide⟩

/-! ### Reading a positive number -/

/-- What may come before a constant. -/
structure Leads (blanks plus : List Char) : Prop where
  blank : ∀ c ∈ blanks, isSpace c = true
  plus : plus = [] ∨ plus = ['+']

/-- A constant after white space and perhaps a plus sign. -/
def Written (str : List Char) (n : ℕ) : Prop :=
  ∃ blanks plus text, Leads blanks plus ∧ str = blanks ++ plus ++ text ∧ Constant text n

/-- A constant, with nothing before it. -/
theorem Written.of_constant {text : List Char} {n : ℕ} (h : Constant text n) :
  Written text n
  := ⟨[], [], text, ⟨by simp, Or.inl rfl⟩, rfl, h⟩

theorem Written.ne_nil {str : List Char} {n : ℕ} (h : Written str n) :
  str ≠ []
  := by
  obtain ⟨blanks, plus, text, -, rfl, htext⟩ := h
  obtain ⟨c, rest, rfl, -⟩ := htext.exists_digit
  simp

/-- What comes before a constant is no digit. -/
theorem Leads.not_isDigit {blanks plus : List Char} (h : Leads blanks plus) {c : Char}
    (hc : c ∈ blanks ++ plus) :
  isDigit 10 c = false
  := by
  by_contra hdigit
  rw [Bool.not_eq_false] at hdigit
  obtain ⟨hspace, hplus, -⟩ := plain_of_isDigit hdigit
  rcases List.mem_append.mp hc with hc | hc
  · simp [h.blank c hc] at hspace
  · rcases h.plus with rfl | rfl
    · simp at hc
    · apply hplus (List.mem_singleton.mp hc)

theorem sign_of_constant {plus text : List Char} {n : ℕ} (hplus : plus = [] ∨ plus = ['+'])
    (h : Constant text n) :
  sign (plus ++ text) = (false, text)
  := by
  obtain ⟨c, rest, rfl, hc⟩ := h.exists_digit
  obtain ⟨-, hnotPlus, hnotMinus⟩ := plain_of_isDigit hc
  rcases hplus with rfl | rfl
  · rw [List.nil_append, sign]
    · rintro _ ⟨⟩
      apply hnotMinus rfl
    · rintro _ ⟨⟩
      apply hnotPlus rfl
  · rfl

theorem dropWhile_of_constant {blanks plus text : List Char} {n : ℕ} (hleads : Leads blanks plus)
    (h : Constant text n) :
  (blanks ++ plus ++ text).dropWhile isSpace = plus ++ text
  := by
  rw [List.append_assoc, List.dropWhile_append_of_pos hleads.blank]
  rcases hleads.plus with rfl | rfl
  · obtain ⟨c, rest, rfl, hc⟩ := h.exists_digit
    have hplain := (plain_of_isDigit hc).1
    apply List.dropWhile_cons_of_neg (by simp [hplain])
  · apply List.dropWhile_cons_of_neg (by decide)

theorem written_iff {str : List Char} {n : ℕ} :
  Written str n ↔ ∃ text, sign (str.dropWhile isSpace) = (false, text) ∧ Constant text n
  := by
  constructor
  · rintro ⟨blanks, plus, text, hleads, rfl, htext⟩
    use text
    rw [dropWhile_of_constant hleads htext, sign_of_constant hleads.plus htext]
    exact ⟨rfl, htext⟩
  · rintro ⟨text, hsign, htext⟩
    have hblank : ∀ c ∈ str.takeWhile isSpace, isSpace c = true := by
      intro c hc
      apply List.mem_takeWhile_imp hc
    have hstr := List.takeWhile_append_dropWhile (p := isSpace) (l := str)
    unfold sign at hsign
    split at hsign
    · simp at hsign
    · rename_i rest hrest
      obtain rfl := (Prod.mk.inj hsign).2
      refine ⟨str.takeWhile isSpace, ['+'], rest, ⟨hblank, Or.inr rfl⟩, ?_, htext⟩
      rw [List.append_assoc, List.singleton_append, ← hrest, hstr]
    · obtain rfl := (Prod.mk.inj hsign).2
      refine ⟨str.takeWhile isSpace, [], _, ⟨hblank, Or.inl rfl⟩, ?_, htext⟩
      rw [List.append_nil, hstr]

/-- A number that is in the range of its type, and whose digits take the whole text. -/
theorem clamp_eq_iff {long : Long} {negative : Bool} {magnitude n : ℕ} {endptr : List Char}
    (hn : 0 < n) :
  clamp long negative magnitude endptr = ⟨n, [], false⟩
    ↔ negative = false ∧ magnitude = n ∧ endptr = [] ∧ n ≤ long.max
  := by
  unfold clamp
  cases negative with
  | true =>
      simp only [if_true, Bool.true_eq_false, false_and, iff_false]
      split
      · intro h
        have hvalue := congrArg Result.value h
        dsimp only at hvalue
        omega
      · intro h
        apply Bool.noConfusion (congrArg Result.erange h)
  | false =>
      simp only [Bool.false_eq_true, if_false, true_and]
      split
      · rename_i hle
        simp only [Result.mk.injEq, Int.natCast_inj, and_true]
        constructor
        · rintro ⟨rfl, rfl⟩
          exact ⟨rfl, rfl, hle⟩
        · rintro ⟨rfl, rfl, -⟩
          exact ⟨rfl, rfl⟩
      · rename_i hgt
        simp only [Result.mk.injEq, Bool.true_eq_false, and_false, false_iff]
        rintro ⟨rfl, -, hle⟩
        apply hgt hle

/-- A text consists of digits just when all of it is taken. -/
theorem spells_iff {base n : ℕ} {text : List Char} :
  Spells base text n ↔ text.takeWhile (isDigit base) ≠ []
    ∧ value base (text.takeWhile (isDigit base)) = n ∧ text.dropWhile (isDigit base) = []
  := by
  rw [List.dropWhile_eq_nil_iff]
  constructor
  · rintro ⟨hnonempty, hdigit, hvalue⟩
    rw [List.takeWhile_eq_self_iff.mpr hdigit]
    exact ⟨hnonempty, hvalue, hdigit⟩
  · rintro ⟨hnonempty, hvalue, hdigit⟩
    rw [List.takeWhile_eq_self_iff.mpr hdigit] at hnonempty hvalue
    exact ⟨hnonempty, hdigit, hvalue⟩

/-- The whole text is read as a positive number just when it is a constant that is in range, after
white space and perhaps a plus sign. -/
theorem strtol_eq_iff {long : Long} {str : List Char} {n : ℕ} (hn : 0 < n) :
  strtol long str 0 = ⟨n, [], false⟩ ↔ Written str n ∧ n ≤ long.max
  := by
  rw [written_iff, strtol]
  obtain ⟨negative, text⟩ := sign (str.dropWhile isSpace)
  simp only [Prod.mk.injEq, constant_iff, spells_iff]
  split
  · rename_i hnone
    constructor
    · intro h
      have hvalue := congrArg Result.value h
      dsimp only at hvalue
      omega
    · rintro ⟨⟨_, ⟨rfl, rfl⟩, hsome, -⟩, -⟩
      exact absurd hnone hsome
  · rename_i hsome
    rw [clamp_eq_iff hn]
    constructor
    · rintro ⟨rfl, hvalue, hend, hle⟩
      exact ⟨⟨text, ⟨rfl, rfl⟩, hsome, hvalue, hend⟩, hle⟩
    · rintro ⟨⟨_, ⟨rfl, rfl⟩, -, hvalue, hend⟩, hle⟩
      exact ⟨rfl, hvalue, hend, hle⟩

theorem value_clamp {long : Long} {negative : Bool} {magnitude : ℕ} {endptr : List Char}
    (h : (clamp long negative magnitude endptr).erange = true) :
  (clamp long negative magnitude endptr).value = long.max
    ∨ (clamp long negative magnitude endptr).value = -(long.max + 1)
  := by
  unfold clamp at h ⊢
  split at h
  · rename_i hnegative
    rw [if_pos hnegative]
    split at h
    · contradiction
    · rename_i hgt
      rw [if_neg hgt]
      exact Or.inr rfl
  · rename_i hpositive
    rw [if_neg hpositive]
    split at h
    · contradiction
    · rename_i hgt
      rw [if_neg hgt]
      exact Or.inl rfl

/-- When `errno` is set, the number has been replaced by the largest or the least one. -/
theorem value_of_erange {long : Long} {str : List Char} {base : ℕ}
    (h : (strtol long str base).erange = true) :
  (strtol long str base).value = long.max ∨ (strtol long str base).value = -(long.max + 1)
  := by
  rw [strtol] at h ⊢
  dsimp only at h ⊢
  split at h
  · contradiction
  · rename_i hsome
    rw [if_neg hsome]
    apply value_clamp h

/-! ### The same digits in two bases -/

theorem value_concat (base : ℕ) (digits : List Char) (c : Char) :
  value base (digits ++ [c]) = value base digits * base + (digit? c).getD 0
  := by
  rw [value, List.foldl_append]
  rfl

/-- Digits denote no less in a larger base, and more unless they denote a digit. -/
theorem value_le_value {base base' : ℕ} (hpos : 0 < base) (hlt : base < base') {digits : List Char}
    (hdigits : ∀ c ∈ digits, isDigit base c = true) :
  value base digits ≤ value base' digits
    ∧ (value base digits = value base' digits ↔ value base digits < base)
  := by
  induction digits using List.reverseRecOn with
  | nil => exact ⟨le_rfl, iff_of_true rfl hpos⟩
  | append_singleton digits c ih =>
      obtain ⟨hle, hiff⟩ := ih fun c hc => hdigits c (List.mem_append_left _ hc)
      obtain ⟨d, hd, hdigit⟩ := isDigit_iff.mp (hdigits c (by simp))
      have hbase := Nat.mul_le_mul_right base hle
      have hgrow := Nat.mul_le_mul_left (value base' digits) hlt.le
      rw [value_concat, value_concat, hd, Option.getD_some]
      refine ⟨by omega, ?_, ?_⟩
      · intro heq
        -- only zero is the same multiple of both bases
        have hzero : value base' digits = 0 := by
          by_contra hne
          have := Nat.mul_lt_mul_of_pos_left hlt (Nat.pos_of_ne_zero hne)
          omega
        have hzero' : value base digits = 0 := by omega
        rwa [hzero', Nat.zero_mul, Nat.zero_add]
      · intro hsmall
        have hzero : value base digits = 0 := by
          by_contra hne
          have := Nat.le_mul_of_pos_left base (Nat.pos_of_ne_zero hne)
          omega
        have heq := hiff.mpr (by omega)
        rw [← heq, hzero, Nat.zero_mul, Nat.zero_mul]

end Strtol
