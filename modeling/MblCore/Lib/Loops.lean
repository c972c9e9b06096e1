import Mathlib.Data.List.Basic

/-!
# Loops over a list whose body may raise

`collect f xs` is the loop that appends what `f` gives for each element to a list; it stops at
the first element that `f` raises an error for.  `List.anyM` is the loop that breaks at the first
element that passes a test.
-/

namespace Loops

variable {ε α β : Type}

theorem bind_eq_ok {x : Except ε α} {f : α → Except ε β} {b : β} :
  (x >>= f) = .ok b ↔ ∃ a, x = .ok a ∧ f a = .ok b
  := by
  cases x with
  | error e => simp [bind, Except.bind]
  | ok a => simp [bind, Except.bind]

theorem bind_eq_error {x : Except ε α} {f : α → Except ε β} {e : ε} :
  (x >>= f) = .error e ↔ x = .error e ∨ ∃ a, x = .ok a ∧ f a = .error e
  := by
  cases x with
  | error e' => simp [bind, Except.bind]
  | ok a => simp [bind, Except.bind]

/-- A check that raises an error has been passed. -/
theorem check_eq_ok {p : Prop} [Decidable p] {e : ε} {x : Except ε α} {a : α} :
  (if p then throw e else x) = .ok a ↔ ¬ p ∧ x = .ok a
  := by
  by_cases hp : p
  · simp [hp, throw, throwThe, MonadExceptOf.throw]
  · simp [hp]

/-- What `f` gives for the elements of a list, appended. -/
def collect (f : α → Except ε (List β)) : List α → Except ε (List β)
  | [] => .ok []
  | x :: xs => do
      let ys ← f x
      let rest ← collect f xs
      return ys ++ rest

/-- The loop ends when its body does for every element. -/
theorem collect_isOk_iff {f : α → Except ε (List β)} {xs : List α} :
  (∃ r, collect f xs = .ok r) ↔ ∀ x ∈ xs, ∃ ys, f x = .ok ys
  := by
  induction xs with
  | nil => simp [collect]
  | cons x xs ih =>
      simp only [List.forall_mem_cons, ← ih, collect]
      constructor
      · rintro ⟨r, h⟩
        obtain ⟨ys, hys, h⟩ := bind_eq_ok.mp h
        obtain ⟨rest, hrest, -⟩ := bind_eq_ok.mp h
        use ⟨ys, hys⟩, rest
      · rintro ⟨⟨ys, hys⟩, rest, hrest⟩
        use ys ++ rest
        rw [hys, hrest]
        rfl

/-- What the loop collects. -/
theorem mem_collect {f : α → Except ε (List β)} {xs : List α} {r : List β}
    (h : collect f xs = .ok r) (y : β) :
  y ∈ r ↔ ∃ x ∈ xs, ∃ ys, f x = .ok ys ∧ y ∈ ys
  := by
  induction xs generalizing r with
  | nil =>
      cases h
      simp
  | cons x xs ih =>
      obtain ⟨ys, hys, h⟩ := bind_eq_ok.mp h
      obtain ⟨rest, hrest, h⟩ := bind_eq_ok.mp h
      cases h
      rw [List.mem_append, ih hrest]
      simp [hys]

/-- The search finds an element that passes the test. -/
theorem exists_of_anyM {test : α → Except ε Bool} {xs : List α} (h : xs.anyM test = .ok true) :
  ∃ x ∈ xs, test x = .ok true
  := by
  induction xs with
  | nil => cases h
  | cons x xs ih =>
      rw [List.anyM_cons] at h
      obtain ⟨b, hb, h⟩ := bind_eq_ok.mp h
      cases b with
      | true => use x, List.mem_cons_self
      | false =>
          obtain ⟨y, hy, htest⟩ := ih h
          use y, List.mem_cons_of_mem x hy

/-- Every element fails the test when the search finds none. -/
theorem forall_of_anyM {test : α → Except ε Bool} {xs : List α} (h : xs.anyM test = .ok false) :
  ∀ x ∈ xs, test x = .ok false
  := by
  induction xs with
  | nil => simp
  | cons x xs ih =>
      rw [List.anyM_cons] at h
      obtain ⟨b, hb, h⟩ := bind_eq_ok.mp h
      cases b with
      | true => cases h
      | false => simpa [hb] using ih h

/-- A search that ends tells whether there is an element that passes the test. -/
theorem eq_true_iff_of_anyM {test : α → Except ε Bool} {xs : List α} {b : Bool}
    (h : xs.anyM test = .ok b) :
  b = true ↔ ∃ x ∈ xs, test x = .ok true
  := by
  constructor
  · rintro rfl
    apply exists_of_anyM h
  · rintro ⟨x, hx, htest⟩
    by_contra hb
    rw [Bool.not_eq_true] at hb
    subst hb
    have hfalse := forall_of_anyM h x hx
    rw [htest] at hfalse
    cases hfalse

end Loops
