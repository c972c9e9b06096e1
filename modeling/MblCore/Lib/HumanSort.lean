import MblCore.Lib.Text
import Mathlib.Data.Char

/-!
# Texts cut at their numerals

A text is cut into the pieces between its numerals and the numerals, so that texts can be sorted by
the numbers in them.
-/

namespace Text

/-- The pieces of a text, in turn a piece without digits and a numeral, of which the first and
the last have no digits. -/
def splitNumerals : Text → List Text
  | [] => [[]]
  | c :: t =>
      match splitNumerals t with
      | [] => [[c]]
      | p :: ps =>
          if c.isDigit then
            match p, ps with
            | [], d :: ps => [] :: (c :: d) :: ps
            | p, ps => [] :: [c] :: p :: ps
          else (c :: p) :: ps

/-! ### Texts that end in a numeral -/

/-- A text of digits is cut into an empty piece, itself, and an empty piece. -/
theorem splitNumerals_of_digits {t : Text} (hne : t ≠ []) (h : ∀ c ∈ t, c.isDigit = true) :
  splitNumerals t = [[], t, []]
  := by
  induction t with
  | nil => exact absurd rfl hne
  | cons c t ih =>
      have hc : c.isDigit = true := h c List.mem_cons_self
      by_cases ht : t = []
      · subst ht
        simp [splitNumerals, hc]
      · have hih := ih ht fun d hd => h d (List.mem_cons_of_mem c hd)
        simp [splitNumerals, hih, hc]

/-- What comes before a slash and a numeral is cut the same way whatever the numeral. -/
theorem splitNumerals_append_slash (p : Text) :
  ∃ ini last, last ≠ [] ∧ ∀ t : Text, t ≠ [] → (∀ c ∈ t, c.isDigit = true) →
    splitNumerals (p ++ '/' :: t) = ini ++ [last, t, []]
  := by
  induction p with
  | nil =>
      use [], ['/'], by simp
      intro t hne ht
      simp [splitNumerals, splitNumerals_of_digits hne ht, show ('/' : Char).isDigit = false by decide]
  | cons c p ih =>
      obtain ⟨ini, last, hlast, h⟩ := ih
      by_cases hc : c.isDigit = true
      · -- a digit joins the numeral it stands before, or is one of its own
        cases ini with
        | nil =>
            use [[], [c]], last, hlast
            intro t hne ht
            cases last with
            | nil => contradiction
            | cons d ds => simp [splitNumerals, h t hne ht, hc]
        | cons i is =>
            cases i with
            | cons d ds =>
                use [] :: [c] :: (d :: ds) :: is, last, hlast
                intro t hne ht
                simp [splitNumerals, h t hne ht, hc]
            | nil =>
                cases is with
                | nil =>
                    use [[]], c :: last, by simp
                    intro t hne ht
                    simp [splitNumerals, h t hne ht, hc]
                | cons j js =>
                    use [] :: (c :: j) :: js, last, hlast
                    intro t hne ht
                    simp [splitNumerals, h t hne ht, hc]
      · cases ini with
        | nil =>
            use [], c :: last, by simp
            intro t hne ht
            simp [splitNumerals, h t hne ht, hc]
        | cons i is =>
            use (c :: i) :: is, last, hlast
            intro t hne ht
            simp [splitNumerals, h t hne ht, hc]

/-! ### Texts that go on -/

/-- The pieces of a text are `ini` and `last`, and when the text goes on after a slash, so does the
last one of them. -/
def GoesOn (s : Text) (ini : List Text) (last : Text) : Prop :=
  splitNumerals s = ini ++ [last] ∧
    ∀ t, ∃ u rest, splitNumerals (s ++ '/' :: t) = ini ++ (last ++ '/' :: u) :: rest

/-- What a character does to the pieces of the text after it, it does when that text goes on. -/
theorem GoesOn.cons {c : Char} {s : Text} {ini ini' : List Text} {last last' : Text}
    (h : GoesOn s ini last)
    (hcons : ∀ t u rest, (u = [] → rest = []) → splitNumerals t = ini ++ (last ++ u) :: rest →
      splitNumerals (c :: t) = ini' ++ (last' ++ u) :: rest) :
  GoesOn (c :: s) ini' last'
  := by
  obtain ⟨hs, hrest⟩ := h
  constructor
  · have hcut := hcons s [] [] (fun _ => rfl) (by simp [hs])
    simpa using hcut
  · intro t
    obtain ⟨u, rest, ht⟩ := hrest t
    use u, rest
    exact hcons _ _ rest (by simp) ht

/-- The pieces of a text, but for the last one, do not change when the text goes on after a slash.
The last one has no digits, and there are pairs of pieces before it. -/
theorem splitNumerals_slash (s : Text) :
  ∃ ini last, ini.length % 2 = 0 ∧ (∀ c ∈ last, c.isDigit = false) ∧ GoesOn s ini last
  := by
  induction s with
  | nil =>
      use [], [], rfl, by simp, rfl
      intro t
      simp only [List.nil_append, splitNumerals, show ('/' : Char).isDigit = false by decide]
      cases splitNumerals t with
      | nil => exact ⟨[], [], rfl⟩
      | cons p ps => exact ⟨p, ps, rfl⟩
  | cons c s ih =>
      obtain ⟨ini, last, heven, hlast, hs⟩ := ih
      by_cases hc : c.isDigit = true
      · -- a digit joins the numeral it stands before, or is one of its own
        cases ini with
        | nil =>
            use [[], [c]], last, by simp, hlast
            apply hs.cons
            intro t u rest hrest ht
            cases hu : last ++ u with
            | nil =>
                obtain rfl := hrest (List.append_eq_nil_iff.mp hu).2
                simp [splitNumerals, ht, hc, hu]
            | cons d ds => simp [splitNumerals, ht, hc, hu]
        | cons i is =>
            cases i with
            | cons d ds =>
                use [] :: [c] :: (d :: ds) :: is, last, by simp at heven ⊢; omega, hlast
                apply hs.cons
                intro t u rest _ ht
                simp [splitNumerals, ht, hc]
            | nil =>
                cases is with
                | nil =>
                    contradiction
                | cons j js =>
                    use [] :: (c :: j) :: js, last, by simpa using heven, hlast
                    apply hs.cons
                    intro t u rest _ ht
                    simp [splitNumerals, ht, hc]
      · have hc := Bool.eq_false_iff.mpr hc
        cases ini with
        | nil =>
            use [], c :: last, rfl
            constructor
            · intro d hd
              rcases List.mem_cons.mp hd with rfl | hd
              · exact hc
              · exact hlast d hd
            · apply hs.cons
              intro t u rest _ ht
              simp [splitNumerals, ht, hc]
        | cons i is =>
            use (c :: i) :: is, last, by simpa using heven, hlast
            apply hs.cons
            intro t u rest _ ht
            simp [splitNumerals, ht, hc]

end Text
