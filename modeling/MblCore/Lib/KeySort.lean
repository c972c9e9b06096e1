import Mathlib.Data.List.Lex
import Mathlib.Data.List.Sort
import MblCore.Lib.Digits
import MblCore.Lib.HumanSort
import MblCore.Lib.Loops

/-!
# Sorts that can raise

Python computes the keys of all elements of a list before it sorts the list.  It compares two keys,
which are lists, at the first place where they differ, and it does not compare a text with a number.
So a sort can raise.  When it does not, all elements can be compared: a sort compares the elements that
come next to each other in the end, and the comparisons chain.
-/

namespace Text

open Loops (bind_eq_ok)

/-- Why a list of texts cannot be sorted. -/
inductive SortError
  /-- A text of digits is not a number. -/
  | value
  /-- A text is compared with a number. -/
  | type

/-- The characters are ASCII. -/
def IsAscii (t : Text) : Prop :=
  ∀ c ∈ t, c.toNat < 128

instance : DecidablePred IsAscii :=
  List.decidableBAll _

/-! ### Keys and comparisons -/

/-- A piece of a text: what is between two numerals, or the number that digits denote. -/
inductive Piece
  | text (t : Text)
  | number (n : ℕ)
deriving DecidableEq

/-- A text of digits counts as its number, if it is one. -/
def convert? (digits : Digits) (text : Text) : Except SortError Piece :=
  if text ≠ [] ∧ text.all digits.isdigit then
    match digits.int text with
    | some n => .ok (.number n)
    | none => .error .value
  else .ok (.text text)

def convertAll? (digits : Digits) : List Text → Except SortError (List Piece)
  | [] => .ok []
  | piece :: pieces => do
      let c ← convert? digits piece
      let cs ← convertAll? digits pieces
      return c :: cs

def alphanumKey? (digits : Digits) (key : Text) : Except SortError (List Piece) :=
  convertAll? digits (splitNumerals key)

def pieceLt? : Piece → Piece → Except SortError Bool
  | .text s, .text t => .ok (decide (s < t))
  | .number m, .number n => .ok (decide (m < n))
  | _, _ => .error .type

/-- Lists are compared at the first place where they differ. -/
def keyLt? : List Piece → List Piece → Except SortError Bool
  | _, [] => .ok false
  | [], _ :: _ => .ok true
  | a :: k, b :: k' => if a = b then keyLt? k k' else pieceLt? a b

/-! ### Sorting -/

section Sorting

variable {α β ε : Type}

/-- Insert an element into a sorted list. -/
def insert? (lt? : α → α → Except ε Bool) (a : α) : List α → Except ε (List α)
  | [] => .ok [a]
  | b :: l => do
      if ← lt? b a then
        let l ← insert? lt? a l
        return b :: l
      else return a :: b :: l

def sort? (lt? : α → α → Except ε Bool) : List α → Except ε (List α)
  | [] => .ok []
  | a :: l => do
      let l ← sort? lt? l
      insert? lt? a l

/-- The elements with their keys. -/
def keyed? (digits : Digits) (text : α → Text) : List α → Except SortError (List (List Piece × α))
  | [] => .ok []
  | a :: l => do
      let key ← alphanumKey? digits (text a)
      let l ← keyed? digits text l
      return (key, a) :: l

/-- Sort a list by the keys of the texts of its elements.  The sort is stable. -/
def humanSort? (digits : Digits) (text : α → Text) (l : List α) : Except SortError (List α) := do
  let l ← keyed? digits text l
  let l ← sort? (fun a b => keyLt? a.1 b.1) l
  return l.map Prod.snd

variable {lt? : α → α → Except ε Bool} {a b : α} {l l' : List α}

/-- What an insertion that does not raise has done. -/
theorem insert?_cons_eq_ok :
  insert? lt? a (b :: l) = .ok l'
    ↔ (lt? b a = .ok true ∧ ∃ rest, insert? lt? a l = .ok rest ∧ l' = b :: rest)
      ∨ lt? b a = .ok false ∧ l' = a :: b :: l
  := by
  rw [insert?]
  cases hlt : lt? b a with
  | error e => simp [bind, Except.bind]
  | ok less =>
      cases less with
      | false => simp [bind, Except.bind, pure, Except.pure, eq_comm]
      | true =>
          cases insert? lt? a l with
          | error e => simp [bind, Except.bind]
          | ok rest => simp [bind, Except.bind, pure, Except.pure, eq_comm]

theorem insert?_perm (h : insert? lt? a l = .ok l') :
  l'.Perm (a :: l)
  := by
  induction l generalizing l' with
  | nil =>
      obtain rfl := Except.ok.inj h
      rfl
  | cons b l ih =>
      rcases insert?_cons_eq_ok.mp h with ⟨-, rest, hrest, rfl⟩ | ⟨-, rfl⟩
      · exact ((ih hrest).cons b).trans (List.Perm.swap a b l)
      · rfl

theorem sort?_perm (h : sort? lt? l = .ok l') :
  l'.Perm l
  := by
  induction l generalizing l' with
  | nil =>
      obtain rfl := Except.ok.inj h
      rfl
  | cons a l ih =>
      obtain ⟨rest, hrest, hinsert⟩ := bind_eq_ok.mp h
      exact (insert?_perm hinsert).trans ((ih hrest).cons a)

/-- The first of two elements may come before the second one. -/
def Le (lt? : α → α → Except ε Bool) (a b : α) : Prop :=
  lt? b a = .ok false

section Order

variable (hlt : ∀ a b, lt? a b = .ok true → Le lt? a b)
  (htrans : ∀ a b c, Le lt? a b → Le lt? b c → Le lt? a c)
include hlt htrans

theorem insert?_pairwise (hl : l.Pairwise (Le lt?)) (h : insert? lt? a l = .ok l') :
  l'.Pairwise (Le lt?)
  := by
  induction l generalizing l' with
  | nil =>
      obtain rfl := Except.ok.inj h
      exact List.pairwise_singleton _ _
  | cons b l ih =>
      obtain ⟨hb, hrest⟩ := List.pairwise_cons.mp hl
      rcases insert?_cons_eq_ok.mp h with ⟨hless, rest, hinsert, rfl⟩ | ⟨hle, rfl⟩
      · refine List.pairwise_cons.mpr ⟨?_, ih hrest hinsert⟩
        intro c hc
        rcases List.mem_cons.mp ((insert?_perm hinsert).mem_iff.mp hc) with rfl | hc
        · exact hlt b c hless
        · exact hb c hc
      · refine List.pairwise_cons.mpr ⟨?_, hl⟩
        intro c hc
        rcases List.mem_cons.mp hc with rfl | hc
        · exact hle
        · exact htrans a b c hle (hb c hc)

/-- A list that is sorted without an exception is in order. -/
theorem sort?_pairwise (h : sort? lt? l = .ok l') :
  l'.Pairwise (Le lt?)
  := by
  induction l generalizing l' with
  | nil =>
      obtain rfl := Except.ok.inj h
      exact List.Pairwise.nil
  | cons a l ih =>
      obtain ⟨rest, hrest, hinsert⟩ := bind_eq_ok.mp h
      exact insert?_pairwise hlt htrans (ih hrest) hinsert

end Order

/-- A sort whose comparisons do not fail does not fail. -/
theorem sort?_map_eq {f : β → α} {r : β → β → Prop} [DecidableRel r] {bs : List β}
    (h : ∀ a b, lt? (f b) (f a) = .ok (!decide (r a b))) :
  sort? lt? (bs.map f) = .ok ((bs.insertionSort r).map f)
  := by
  have hinsert (a : β) (l : List β) :
      insert? lt? (f a) (l.map f) = .ok ((l.orderedInsert r a).map f) := by
    induction l with
    | nil => rfl
    | cons b l ih =>
        rw [List.map_cons, insert?, h a b, ih, List.orderedInsert]
        by_cases hr : r a b
        · simp [hr, bind, Except.bind, pure, Except.pure]
        · simp [hr, bind, Except.bind, pure, Except.pure]
  induction bs with
  | nil => rfl
  | cons a bs ih =>
      rw [List.map_cons, sort?, ih, List.insertionSort_cons]
      exact hinsert a _

end Sorting

/-! ### The order of keys -/

theorem pieceLt?_asymm {a b : Piece} (h : pieceLt? a b = .ok true) :
  pieceLt? b a = .ok false
  := by
  cases a with
  | text s =>
      cases b with
      | text t =>
          simp only [pieceLt?, Except.ok.injEq, decide_eq_true_eq, decide_eq_false_iff_not] at h ⊢
          exact not_lt_of_gt h
      | number n => contradiction
  | number m =>
      cases b with
      | text t => contradiction
      | number n =>
          simp only [pieceLt?, Except.ok.injEq, decide_eq_true_eq, decide_eq_false_iff_not] at h ⊢
          exact not_lt_of_gt h

theorem pieceLt?_trans {a b c : Piece} (h : pieceLt? b a = .ok false) (h' : pieceLt? c b = .ok false) :
  pieceLt? c a = .ok false
  := by
  cases a with
  | text s =>
      cases b with
      | number n => contradiction
      | text t =>
          cases c with
          | number n => contradiction
          | text u =>
              simp only [pieceLt?, Except.ok.injEq, decide_eq_false_iff_not, not_lt] at h h' ⊢
              exact h.trans h'
  | number m =>
      cases b with
      | text t => contradiction
      | number n =>
          cases c with
          | text t => contradiction
          | number k =>
              simp only [pieceLt?, Except.ok.injEq, decide_eq_false_iff_not, not_lt] at h h' ⊢
              exact h.trans h'

/-- Different pieces that are in order are in no other order. -/
theorem pieceLt?_antisymm {a b : Piece} (h : pieceLt? b a = .ok false) (h' : pieceLt? a b = .ok false) :
  a = b
  := by
  cases a with
  | text s =>
      cases b with
      | number n => contradiction
      | text t =>
          simp only [pieceLt?, Except.ok.injEq, decide_eq_false_iff_not, not_lt] at h h'
          rw [le_antisymm h h']
  | number m =>
      cases b with
      | text t => contradiction
      | number n =>
          simp only [pieceLt?, Except.ok.injEq, decide_eq_false_iff_not, not_lt] at h h'
          rw [le_antisymm h h']

theorem keyLt?_asymm {k k' : List Piece} (h : keyLt? k k' = .ok true) :
  keyLt? k' k = .ok false
  := by
  induction k generalizing k' with
  | nil => cases k' <;> rfl
  | cons a k ih =>
      cases k' with
      | nil => simp [keyLt?] at h
      | cons b k' =>
          rw [keyLt?] at h ⊢
          by_cases heq : a = b
          · rw [if_pos heq] at h
            rw [if_pos heq.symm]
            exact ih h
          · rw [if_neg heq] at h
            rw [if_neg (Ne.symm heq)]
            exact pieceLt?_asymm h

theorem keyLt?_trans {k₁ k₂ k₃ : List Piece} (h : keyLt? k₂ k₁ = .ok false)
    (h' : keyLt? k₃ k₂ = .ok false) :
  keyLt? k₃ k₁ = .ok false
  := by
  induction k₁ generalizing k₂ k₃ with
  | nil => cases k₃ <;> rfl
  | cons a k₁ ih =>
      cases k₂ with
      | nil => simp [keyLt?] at h
      | cons b k₂ =>
          cases k₃ with
          | nil => simp [keyLt?] at h'
          | cons c k₃ =>
              rw [keyLt?] at h h' ⊢
              by_cases hab : b = a
              · subst hab
                rw [if_pos rfl] at h
                by_cases hbc : c = b
                · rw [if_pos hbc] at h' ⊢
                  exact ih h h'
                · rw [if_neg hbc] at h' ⊢
                  exact h'
              · rw [if_neg hab] at h
                by_cases hbc : c = b
                · subst hbc
                  rwa [if_neg hab]
                · rw [if_neg hbc] at h'
                  rw [if_neg]
                  · exact pieceLt?_trans h h'
                  · rintro rfl
                    exact hab (pieceLt?_antisymm h' h)

/-- What keys have in common at their beginning does not matter. -/
theorem keyLt?_append (key k k' : List Piece) :
  keyLt? (key ++ k) (key ++ k') = keyLt? k k'
  := by
  induction key with
  | nil => rfl
  | cons a key ih => rw [List.cons_append, List.cons_append, keyLt?, if_pos rfl, ih]

/-! ### The sorted list -/

variable {digits : Digits} {α : Type} {text : α → Text} {l l' : List α}

/-- The first of two texts may come before the second one. -/
def KeyLe (digits : Digits) (s t : Text) : Prop :=
  ∃ k k', alphanumKey? digits s = .ok k ∧ alphanumKey? digits t = .ok k' ∧ keyLt? k' k = .ok false

theorem keyed?_eq_ok {keyed : List (List Piece × α)} (h : keyed? digits text l = .ok keyed) :
  keyed.map Prod.snd = l ∧ ∀ a ∈ keyed, alphanumKey? digits (text a.2) = .ok a.1
  := by
  induction l generalizing keyed with
  | nil =>
      obtain rfl := Except.ok.inj h
      simp
  | cons a l ih =>
      obtain ⟨key, hkey, hrest⟩ := bind_eq_ok.mp h
      obtain ⟨rest, hkeyed, heq⟩ := bind_eq_ok.mp hrest
      obtain rfl := Except.ok.inj heq
      obtain ⟨hmap, hkeys⟩ := ih hkeyed
      rw [List.map_cons, hmap, List.forall_mem_cons]
      exact ⟨rfl, hkey, hkeys⟩

theorem humanSort?_perm (h : humanSort? digits text l = .ok l') :
  l'.Perm l
  := by
  obtain ⟨keyed, hkeyed, hrest⟩ := bind_eq_ok.mp h
  obtain ⟨sorted, hsorted, heq⟩ := bind_eq_ok.mp hrest
  obtain rfl := Except.ok.inj heq
  rw [← (keyed?_eq_ok hkeyed).1]
  exact (sort?_perm hsorted).map Prod.snd

/-- All elements of a list that is sorted have keys. -/
theorem exists_key_of_humanSort? {a : α} (h : humanSort? digits text l = .ok l') (ha : a ∈ l) :
  ∃ key, alphanumKey? digits (text a) = .ok key
  := by
  obtain ⟨keyed, hkeyed, -⟩ := bind_eq_ok.mp h
  obtain ⟨hmap, hkeys⟩ := keyed?_eq_ok hkeyed
  rw [← hmap, List.mem_map] at ha
  obtain ⟨b, hb, rfl⟩ := ha
  exact ⟨b.1, hkeys b hb⟩

/-- The keys of a sorted list go up. -/
theorem humanSort?_pairwise (h : humanSort? digits text l = .ok l') :
  l'.Pairwise fun a b => KeyLe digits (text a) (text b)
  := by
  obtain ⟨keyed, hkeyed, hrest⟩ := bind_eq_ok.mp h
  obtain ⟨sorted, hsorted, heq⟩ := bind_eq_ok.mp hrest
  obtain rfl := Except.ok.inj heq
  obtain ⟨-, hkeys⟩ := keyed?_eq_ok hkeyed
  rw [List.pairwise_map]
  have hpairwise : sorted.Pairwise (Le fun a b => keyLt? a.1 b.1) := by
    apply sort?_pairwise ?_ ?_ hsorted
    · intro a b
      exact keyLt?_asymm
    · intro a b c
      exact keyLt?_trans
  apply hpairwise.imp_of_mem
  intro a b ha hb hle
  have hmem := (sort?_perm hsorted).mem_iff (a := a)
  exact ⟨a.1, b.1, hkeys a (hmem.mp ha), hkeys b ((sort?_perm hsorted).mem_iff.mp hb), hle⟩

/-! ### Texts that differ in a numeral at their end -/

theorem convert?_of_not_digits {t : Text} {c : Char} (hmem : c ∈ t) (hc : digits.isdigit c = false) :
  convert? digits t = .ok (.text t)
  := by
  rw [convert?, if_neg]
  rintro ⟨-, hall⟩
  rw [List.all_eq_true.mp hall c hmem] at hc
  contradiction

theorem convert?_numeral (n : Numeral) :
  convert? digits n.text = .ok (.number n.value)
  := by
  have hall : n.text.all digits.isdigit = true := by
    rw [List.all_eq_true]
    intro c hc
    have hdigit := n.isDigit hc
    have hrange := hdigit
    simp only [Char.isDigit, Bool.and_eq_true, decide_eq_true_eq] at hrange
    rw [digits.isdigit_ascii c (lt_of_le_of_lt hrange.2 (by decide)), hdigit]
  rw [convert?, if_pos ⟨n.text_ne_nil, hall⟩, digits.int_numeral _ n.isNumeral, n.decimalValue?_text]

theorem convertAll?_append (pieces pieces' : List Text) :
  convertAll? digits (pieces ++ pieces') = do
    let cs ← convertAll? digits pieces
    let cs' ← convertAll? digits pieces'
    return cs ++ cs'
  := by
  induction pieces with
  | nil =>
      rw [List.nil_append]
      cases convertAll? digits pieces' <;> rfl
  | cons piece pieces ih =>
      rw [List.cons_append, convertAll?, ih, convertAll?]
      cases convert? digits piece with
      | error e => rfl
      | ok c =>
          cases convertAll? digits pieces with
          | error e => rfl
          | ok cs => cases convertAll? digits pieces' <;> rfl

/-- The key of a text that ends in a slash and a numeral ends in the number, and whether it can be
computed depends on what comes before. -/
theorem alphanumKey?_slash_numeral (digits : Digits) (p : Text) :
  ∃ key?, ∀ n : Numeral, alphanumKey? digits (p ++ '/' :: n.text)
    = (key? : Except SortError (List Piece)).map (· ++ [.number n.value, .text []])
  := by
  obtain ⟨ini, last, -, h⟩ := splitNumerals_append_slash p
  use convertAll? digits (ini ++ [last])
  intro n
  have hcut : ini ++ [last, n.text, []] = (ini ++ [last]) ++ [n.text, []] := by simp
  have hend : convertAll? digits [n.text, []] = .ok [.number n.value, .text []] := by
    rw [convertAll?, convert?_numeral]
    rfl
  rw [alphanumKey?, h _ n.text_ne_nil (fun c => n.isDigit), hcut, convertAll?_append, hend]
  cases convertAll? digits (ini ++ [last]) <;> rfl

theorem keyLt?_numbers (key : List Piece) (m n : ℕ) :
  keyLt? (key ++ [.number m, .text []]) (key ++ [.number n, .text []]) = .ok (decide (m < n))
  := by
  rw [keyLt?_append, keyLt?]
  by_cases heq : m = n
  · simp [heq, keyLt?]
  · simp [heq, pieceLt?]

/-- Texts that differ only in the numeral after the last slash are sorted by the number. -/
theorem KeyLe.value_le {p : Text} {m n : Numeral}
    (h : KeyLe digits (p ++ '/' :: m.text) (p ++ '/' :: n.text)) :
  m.value ≤ n.value
  := by
  obtain ⟨k, k', hk, hk', hle⟩ := h
  obtain ⟨key?, hkey⟩ := alphanumKey?_slash_numeral digits p
  rw [hkey] at hk hk'
  cases key? with
  | error e => contradiction
  | ok key =>
      obtain rfl := Except.ok.inj hk
      obtain rfl := Except.ok.inj hk'
      rw [keyLt?_numbers] at hle
      simpa using hle

/-- A sort of such texts does not raise when the key of one of them can be computed. -/
theorem humanSort?_numerals {p : Text} {f : Numeral → α} (hf : ∀ n, text (f n) = p ++ '/' :: n.text)
    {m : Numeral} {key : List Piece} (hkey : alphanumKey? digits (text (f m)) = .ok key)
    (ns : List Numeral) :
  humanSort? digits text (ns.map f)
    = .ok ((ns.insertionSort fun m n => m.value ≤ n.value).map f)
  := by
  obtain ⟨key?, hkeys⟩ := alphanumKey?_slash_numeral digits p
  rw [hf, hkeys] at hkey
  cases key? with
  | error e => contradiction
  | ok key =>
      have hkeyed : keyed? digits text (ns.map f)
          = .ok (ns.map fun n => (key ++ [.number n.value, .text []], f n)) := by
        induction ns with
        | nil => rfl
        | cons n ns ih =>
            rw [List.map_cons, keyed?, hf, hkeys, ih]
            rfl
      have hlt (m n : Numeral) :
          keyLt? (key ++ [.number n.value, .text []]) (key ++ [.number m.value, .text []])
            = .ok (!decide (m.value ≤ n.value)) := by
        rw [keyLt?_numbers, ← decide_not]
        simp
      have hsort := @sort?_map_eq _ _ _ (fun a b : List Piece × α => keyLt? a.1 b.1)
        (fun n : Numeral => (key ++ [.number n.value, .text []], f n))
        (fun m n => m.value ≤ n.value) _ ns hlt
      rw [humanSort?, hkeyed]
      change (sort? (fun a b : List Piece × α => keyLt? a.1 b.1) _ >>= _) = _
      rw [hsort]
      change Except.ok (List.map Prod.snd _) = _
      rw [List.map_map]
      rfl

/-! ### Texts that go on -/

theorem convertAll?_cons_eq_ok {piece : Text} {pieces : List Text} {cs : List Piece} :
  convertAll? digits (piece :: pieces) = .ok cs
    ↔ ∃ c cs', convert? digits piece = .ok c ∧ convertAll? digits pieces = .ok cs' ∧ cs = c :: cs'
  := by
  rw [convertAll?]
  cases convert? digits piece with
  | error e => simp [bind, Except.bind]
  | ok c =>
      cases convertAll? digits pieces with
      | error e => simp [bind, Except.bind]
      | ok cs' => simp [bind, Except.bind, pure, Except.pure, eq_comm]

theorem convertAll?_append_eq_ok {pieces pieces' : List Text} {cs : List Piece} :
  convertAll? digits (pieces ++ pieces') = .ok cs
    ↔ ∃ cs₁ cs₂, convertAll? digits pieces = .ok cs₁ ∧ convertAll? digits pieces' = .ok cs₂ ∧
        cs = cs₁ ++ cs₂
  := by
  rw [convertAll?_append]
  cases convertAll? digits pieces with
  | error e => simp [bind, Except.bind]
  | ok cs₁ =>
      cases convertAll? digits pieces' with
      | error e => simp [bind, Except.bind]
      | ok cs₂ => simp [bind, Except.bind, pure, Except.pure, eq_comm]

/-- A text that goes on after a slash does not come before its beginning. -/
theorem not_keyLe_append_slash (s t : Text) :
  ¬ KeyLe digits (s ++ '/' :: t) s
  := by
  rintro ⟨k, k', hk, hk', hle⟩
  obtain ⟨ini, last, -, -, hs, hrest⟩ := splitNumerals_slash s
  obtain ⟨u, rest, ht⟩ := hrest t
  rw [alphanumKey?, ht, convertAll?_append_eq_ok] at hk
  rw [alphanumKey?, hs, convertAll?_append_eq_ok] at hk'
  obtain ⟨cs, longer, hcs, hlonger, rfl⟩ := hk
  obtain ⟨cs', shorter, hcs', hshorter, rfl⟩ := hk'
  obtain rfl : cs = cs' := Except.ok.inj (hcs.symm.trans hcs')
  obtain ⟨c, longer, hc, -, rfl⟩ := convertAll?_cons_eq_ok.mp hlonger
  obtain ⟨c', shorter, hc', hnil, rfl⟩ := convertAll?_cons_eq_ok.mp hshorter
  have hslash : digits.isdigit '/' = false := digits.isdigit_ascii '/' (by decide)
  rw [convert?_of_not_digits (c := '/') (by simp) hslash] at hc
  obtain rfl := Except.ok.inj hc
  rw [keyLt?_append] at hle
  have hlt : last < last ++ '/' :: u := by
    have h : last ++ [] < last ++ '/' :: u := List.append_left_lt ( List.nil_lt_cons '/' u)
    rwa [List.append_nil] at h
  -- the end of the shorter text is a text, as two pieces that are compared are of one kind
  cases c' with
  | number n => contradiction
  | text last' =>
      obtain rfl : last = last' := by
        rw [convert?] at hc'
        split at hc'
        · split at hc' <;> simp at hc'
        · exact Piece.text.inj (Except.ok.inj hc')
      have hne : Piece.text last ≠ .text (last ++ '/' :: u) := by
        intro heq
        rw [← Piece.text.inj heq] at hlt
        exact lt_irrefl _ hlt
      rw [keyLt?, if_neg hne] at hle
      simp only [pieceLt?, Except.ok.injEq, decide_eq_false_iff_not] at hle
      exact hle hlt

/-! ### The keys of ASCII texts -/

/-- The pieces are the text again. -/
theorem flatten_splitNumerals (t : Text) :
  (splitNumerals t).flatten = t
  := by
  induction t with
  | nil => rfl
  | cons c t ih =>
      rw [splitNumerals]
      revert ih
      cases splitNumerals t with
      | nil => simp_all
      | cons p ps =>
          intro ih
          dsimp only
          split
          · split <;> simp_all
          · simp_all

/-- The key of an ASCII text can be computed. -/
theorem alphanumKey?_of_ascii {t : Text} (h : IsAscii t) :
  ∃ key, alphanumKey? digits t = .ok key
  := by
  have hpieces : ∀ piece ∈ splitNumerals t, IsAscii piece := by
    intro piece hpiece c hc
    apply h
    rw [← flatten_splitNumerals t]
    exact List.mem_flatten.mpr ⟨piece, hpiece, hc⟩
  rw [alphanumKey?]
  generalize splitNumerals t = pieces at hpieces
  induction pieces with
  | nil => exact ⟨[], rfl⟩
  | cons piece pieces ih =>
      rw [List.forall_mem_cons] at hpieces
      obtain ⟨hpiece, hrest⟩ := hpieces
      obtain ⟨cs, hcs⟩ := ih hrest
      obtain ⟨c, hc⟩ : ∃ c, convert? digits piece = .ok c := by
        by_cases hdigits : piece ≠ [] ∧ piece.all digits.isdigit = true
        · have hnumeral : piece.isNumeral = true := by
            simp only [isNumeral, Bool.and_eq_true, Bool.not_eq_true', List.isEmpty_eq_false_iff,
              List.all_eq_true]
            refine ⟨hdigits.1, fun c hc => ?_⟩
            rw [← digits.isdigit_ascii c (hpiece c hc)]
            exact List.all_eq_true.mp hdigits.2 c hc
          exact ⟨_, convert?_numeral ⟨piece, hnumeral⟩⟩
        · exact ⟨_, if_neg hdigits⟩
      use c :: cs
      rw [convertAll?, hc, hcs]
      rfl

end Text
