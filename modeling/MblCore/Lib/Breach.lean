import MblCore.Lib.Prog

/-!
# Runs in which a choice is not as it should be

Of the runs whose choices are admitted, a guard `ok` sets apart those in which every choice is
as it should be.  `wp m (ok-choices)` speaks about these; `wpBreach` speaks about the others:
every run in which some choice breaches the guard ends as asked, whatever comes after the
breach.  The two together tell exactly when a program does what is asked of it: `wpVerdict` asks
something of the end of a run that depends on whether the run keeps to the guard.
-/

namespace Prog

variable {C : Type} {R : C → Type} {ε α β A X W : Type}

/-- Every run with admitted choices, some of which is not `ok`, ends as asked. -/
def wpBreach (m : Machine C R X W) (adm ok : C → X → W → Prop) :
    Prog C R ε α → Post W ε α → W → Prop
  | pure _, _, _ => True
  | throw _, _, _ => True
  | call c k, Q, w =>
      ∀ x, adm c x w →
        (ok c x w → wpBreach m adm ok (k (m.perform c x w).1) Q (m.perform c x w).2)
        ∧ (¬ ok c x w → wp m adm (k (m.perform c x w).1) Q (m.perform c x w).2)

/-- The choice is admitted, and it is as it should be. -/
def Both (adm ok : C → X → W → Prop) (c : C) (x : X) (w : W) : Prop :=
  adm c x w ∧ ok c x w

variable {m : Machine C R X W} {adm ok : C → X → W → Prop}

/-- A run with admitted choices that does not keep to the guard ends as a breach is asked to
end. -/
theorem holds_of_wpBreach {p : Prog C R ε α} {Q : Post W ε α} {xs : List X} {w : W}
    (h : wpBreach m adm ok p Q w) (hadm : Obeys m adm p xs w) (hok : ¬ Obeys m ok p xs w) :
  Q.Holds (run m p xs w).1 (run m p xs w).2.2
  := by
  induction p generalizing xs w with
  | pure a => exact absurd trivial hok
  | throw e => exact absurd trivial hok
  | call c k ih =>
      cases xs with
      | nil => exact absurd trivial hok
      | cons x xs =>
          obtain ⟨hthrough, hbreach⟩ := h x hadm.1
          by_cases hx : ok c x w
          · apply ih _ (hthrough hx) hadm.2
            intro hrest
            exact hok ⟨hx, hrest⟩
          · have hends := holds_of_wp (hbreach hx) hadm.2
            exact hends

/-- What every breach ends in holds at the end of a run that does not keep to the guard. -/
theorem of_wpBreach_always {p : Prog C R ε α} {Inv : W → Prop} {xs : List X} {w : W}
    (h : wpBreach m adm ok p (Post.always Inv) w) (hadm : Obeys m adm p xs w)
    (hok : ¬ Obeys m ok p xs w) :
  Inv (run m p xs w).2.2
  := by
  have hends := holds_of_wpBreach h hadm hok
  revert hends
  generalize run m p xs w = result
  obtain ⟨outcome, rest, w'⟩ := result
  cases outcome <;> exact id

/-- A run that keeps to two guards keeps to both. -/
theorem Obeys.and {p : Prog C R ε α} {xs : List X} {w : W} (hadm : Obeys m adm p xs w)
    (hok : Obeys m ok p xs w) :
  Obeys m (Both adm ok) p xs w
  := by
  induction p generalizing xs w with
  | pure a => trivial
  | throw e => trivial
  | call c k ih =>
      cases xs with
      | nil => trivial
      | cons x xs => exact ⟨⟨hadm.1, hok.1⟩, ih _ hadm.2 hok.2⟩

/-! ### The rules -/

@[simp]
theorem wpBreach_pure {a : α} {Q : Post W ε α} {w : W} :
  wpBreach m adm ok (Pure.pure a : Prog C R ε α) Q w
  := trivial

@[simp]
theorem wpBreach_throw {e : ε} {Q : Post W ε α} {w : W} :
  wpBreach m adm ok (throw e : Prog C R ε α) Q w
  := trivial

@[simp]
theorem wpBreach_issue {c : C} {Q : Post W ε (R c)} {w : W} :
  wpBreach m adm ok (issue c) Q w
    ↔ ∀ x, adm c x w → ¬ ok c x w → Q.returned (m.perform c x w).1 (m.perform c x w).2
  := by
  constructor
  · intro h x hx hno
    exact (h x hx).2 hno
  · intro h x hx
    exact ⟨fun _ => trivial, h x hx⟩

/-- The breach is in `p`, and the rest runs on, or `p` keeps to the guard and the breach is in
the rest. -/
theorem wpBreach_bind {p : Prog C R ε α} {f : α → Prog C R ε β} {Q : Post W ε β} {w : W}
    (hfirst : wpBreach m adm ok p
      { returned := fun a => wp m adm (f a) Q, raised := Q.raised, cut := Q.cut } w)
    (hrest : wp m (Both adm ok) p
      { returned := fun a => wpBreach m adm ok (f a) Q
        raised := fun _ _ => True
        cut := fun _ => True } w) :
  wpBreach m adm ok (p >>= f) Q w
  := by
  change wpBreach m adm ok (p.bind f) Q w
  induction p generalizing w with
  | pure a => exact hrest
  | throw e => trivial
  | call c k ih =>
      intro x hx
      constructor
      · intro hxok
        exact ih _ ((hfirst x hx).1 hxok) (hrest.2 x ⟨hx, hxok⟩)
      · intro hno
        exact wp_bind.mpr ((hfirst x hx).2 hno)

/-- The breach is at the first call, or after it. -/
theorem wpBreach_issue_bind {c : C} {f : R c → Prog C R ε β} {Q : Post W ε β} {w : W} :
  wpBreach m adm ok (issue c >>= f) Q w
    ↔ ∀ x, adm c x w →
        (ok c x w → wpBreach m adm ok (f (m.perform c x w).1) Q (m.perform c x w).2)
        ∧ (¬ ok c x w → wp m adm (f (m.perform c x w).1) Q (m.perform c x w).2)
  := Iff.rfl

@[simp]
theorem wpBreach_attempt {p : Prog C R ε α} {Q : Post W ε (Except ε α)} {w : W} :
  wpBreach m adm ok p.attempt Q w
    ↔ wpBreach m adm ok p
        { returned := fun a => Q.returned (.ok a)
          raised := fun e => Q.returned (.error e)
          cut := Q.cut } w
  := by
  induction p generalizing w with
  | pure a => exact Iff.rfl
  | throw e => exact Iff.rfl
  | call c k ih => simp only [attempt, wpBreach, ih, wp_attempt]

/-- The rule of consequence. -/
theorem wpBreach.mono {p : Prog C R ε α} {Q Q' : Post W ε α} {w : W}
    (h : wpBreach m adm ok p Q w) (hreturned : ∀ a w, Q.returned a w → Q'.returned a w)
    (hraised : ∀ e w, Q.raised e w → Q'.raised e w) (hcut : ∀ w, Q.cut w → Q'.cut w) :
  wpBreach m adm ok p Q' w
  := by
  induction p generalizing w with
  | pure a => trivial
  | throw e => trivial
  | call c k ih =>
      intro x hx
      constructor
      · intro hxok
        exact ih _ ((h x hx).1 hxok)
      · intro hno
        exact ((h x hx).2 hno).mono hreturned hraised hcut

/-- The rule of consequence where only less is asked of a run that returns. -/
theorem wpBreach.of_returned {P P' : α → W → Prop} {raised : ε → W → Prop} {cut : W → Prop}
    {p : Prog C R ε α} {w : W}
    (h : wpBreach m adm ok p { returned := P, raised := raised, cut := cut } w)
    (hreturned : ∀ a w, P a w → P' a w) :
  wpBreach m adm ok p { returned := P', raised := raised, cut := cut } w
  := h.mono hreturned (fun _ _ h => h) (fun _ h => h)

/-- A program breaches no guard that all its calls keep in the worlds they are issued in. -/
theorem wpBreach_of_issues {calls : C → Prop} (Inv : W → Prop) {p : Prog C R ε α}
    {Q : Post W ε α} {w : W} (hp : Issues calls p)
    (hok : ∀ c x w, calls c → adm c x w → Inv w → ok c x w)
    (hkeep : ∀ c x w, calls c → adm c x w → Inv w → Inv (m.perform c x w).2) (hw : Inv w) :
  wpBreach m adm ok p Q w
  := by
  induction p generalizing w with
  | pure a => trivial
  | throw e => trivial
  | call c k ih =>
      intro x hx
      constructor
      · intro _
        exact ih _ (hp.2 _) (hkeep c x w hp.1 hx hw)
      · intro hno
        exact absurd (hok c x w hp.1 hx hw) hno

/-- A program that issues no calls breaches no guard. -/
theorem wpBreach_of_no_calls {p : Prog C R ε α} {Q : Post W ε α} {w : W}
    (hp : Issues (fun _ => False) p) :
  wpBreach m adm ok p Q w
  := by
  apply wpBreach_of_issues (fun _ => True) hp
  · exact fun _ _ _ h => h.elim
  · exact fun _ _ _ _ _ _ => trivial
  · trivial

/-- The breach is in `p` when what follows breaches no guard. -/
theorem wpBreach_bind_left {p : Prog C R ε α} {f : α → Prog C R ε β} {Q : Post W ε β} {w : W}
    (hf : ∀ a w, wpBreach m adm ok (f a) Q w)
    (hfirst : wpBreach m adm ok p
      { returned := fun a => wp m adm (f a) Q, raised := Q.raised, cut := Q.cut } w) :
  wpBreach m adm ok (p >>= f) Q w
  := by
  change wpBreach m adm ok (p.bind f) Q w
  induction p generalizing w with
  | pure a => exact hf a w
  | throw e => trivial
  | call c k ih =>
      intro x hx
      constructor
      · intro hxok
        exact ih _ ((hfirst x hx).1 hxok)
      · intro hno
        exact wp_bind.mpr ((hfirst x hx).2 hno)

theorem wpBreach_bind_of_no_calls {p : Prog C R ε α} {f : α → Prog C R ε β} {Q : Post W ε β}
    {w : W} (hf : ∀ a, Issues (fun _ => False) (f a))
    (hfirst : wpBreach m adm ok p
      { returned := fun a => wp m adm (f a) Q, raised := Q.raised, cut := Q.cut } w) :
  wpBreach m adm ok (p >>= f) Q w
  := wpBreach_bind_left (fun a _ => wpBreach_of_no_calls (hf a)) hfirst

/-- The rule for loops that a breach ends. -/
theorem wpBreach_forEach {as : List A} {f : A → Prog C R ε Unit} {Q : Post W ε Unit} {w : W}
    (Inv : W → Prop)
    (hbreach : ∀ a w, a ∈ as → Inv w → wpBreach m adm ok (f a)
      { returned := fun _ _ => False, raised := Q.raised, cut := Q.cut } w)
    (hkeep : ∀ a w, a ∈ as → Inv w → wp m (Both adm ok) (f a)
      { returned := fun _ => Inv, raised := fun _ _ => True, cut := fun _ => True } w)
    (hw : Inv w) :
  wpBreach m adm ok (forEach as f) Q w
  := by
  induction as generalizing w with
  | nil => trivial
  | cons a as ih =>
      apply wpBreach_bind
      · apply (hbreach a w List.mem_cons_self hw).of_returned
        exact fun _ _ h => h.elim
      · apply (hkeep a w List.mem_cons_self hw).mono
        · intro _ w' hw'
          apply ih _ _ hw'
          · exact fun b w hb => hbreach b w (List.mem_cons_of_mem a hb)
          · exact fun b w hb => hkeep b w (List.mem_cons_of_mem a hb)
        · exact fun _ _ _ => trivial
        · exact fun _ _ => trivial

/-! ### Whether a run keeps to the guard -/

/-- Every run with admitted choices ends as asked by whether it keeps to the guard. -/
def wpVerdict (m : Machine C R X W) (adm ok : C → X → W → Prop) (p : Prog C R ε α)
    (Q : Prop → Post W ε α) (w : W) : Prop :=
  wp m (Both adm ok) p (Q True) w ∧ wpBreach m adm ok p (Q False) w

theorem holds_of_wpVerdict {p : Prog C R ε α} {Q : Prop → Post W ε α} {xs : List X} {w : W}
    (h : wpVerdict m adm ok p Q w) (hadm : Obeys m adm p xs w) :
  (Q (Obeys m ok p xs w)).Holds (run m p xs w).1 (run m p xs w).2.2
  := by
  by_cases hok : Obeys m ok p xs w
  · rw [eq_true hok]
    exact holds_of_wp h.1 (hadm.and hok)
  · rw [eq_false hok]
    exact holds_of_wpBreach h.2 hadm hok

theorem wpVerdict.mono {p : Prog C R ε α} {Q Q' : Prop → Post W ε α} {w : W}
    (h : wpVerdict m adm ok p Q w)
    (hreturned : ∀ v a w, (Q v).returned a w → (Q' v).returned a w)
    (hraised : ∀ v e w, (Q v).raised e w → (Q' v).raised e w)
    (hcut : ∀ v w, (Q v).cut w → (Q' v).cut w) :
  wpVerdict m adm ok p Q' w
  := ⟨h.1.mono (hreturned _) (hraised _) (hcut _), h.2.mono (hreturned _) (hraised _) (hcut _)⟩

theorem wpVerdict_pure {a : α} {Q : Prop → Post W ε α} {w : W} (h : (Q True).returned a w) :
  wpVerdict m adm ok (Pure.pure a : Prog C R ε α) Q w
  := ⟨h, trivial⟩

theorem wpVerdict_throw {e : ε} {Q : Prop → Post W ε α} {w : W} (h : (Q True).raised e w) :
  wpVerdict m adm ok (throw e : Prog C R ε α) Q w
  := ⟨h, trivial⟩

/-- The first call keeps to the guard and the rest may breach it, or the first call is the breach. -/
theorem wpVerdict_issue_bind {c : C} {f : R c → Prog C R ε β} {Q : Prop → Post W ε β} {w : W}
    (hcut : (Q True).cut w)
    (hkeeps : ∀ x, adm c x w → ok c x w →
      wpVerdict m adm ok (f (m.perform c x w).1) Q (m.perform c x w).2)
    (hbreach : ∀ x, adm c x w → ¬ ok c x w →
      wp m adm (f (m.perform c x w).1) (Q False) (m.perform c x w).2) :
  wpVerdict m adm ok (issue c >>= f) Q w
  := by
  constructor
  · rw [wp_bind, wp_issue]
    exact ⟨hcut, fun x hx => (hkeeps x hx.1 hx.2).1⟩
  · rw [wpBreach_issue_bind]
    exact fun x hx => ⟨fun hok => (hkeeps x hx hok).2, hbreach x hx⟩

/-- A program all of whose calls keep to the guard. -/
theorem wpVerdict_of_unguarded {calls : C → Prop} {p : Prog C R ε α} {Q : Prop → Post W ε α} {w : W}
    (hp : Issues calls p) (hok : ∀ c x w, calls c → ok c x w) (h : wp m adm p (Q True) w) :
  wpVerdict m adm ok p Q w
  := by
  constructor
  · exact h.restrict hp fun _ _ _ _ hx => hx.1
  · apply wpBreach_of_issues (fun _ => True) hp
    · exact fun c x w hc _ _ => hok c x w hc
    · exact fun _ _ _ _ _ _ => trivial
    · trivial

/-- Only the first call may breach the guard. -/
theorem wpVerdict_issue {calls : C → Prop} {c : C} {f : R c → Prog C R ε β}
    {Q : Prop → Post W ε β} {w : W} (hf : ∀ r, Issues calls (f r))
    (hok : ∀ c x w, calls c → ok c x w) (hcut : (Q True).cut w)
    (h : ∀ x, adm c x w → wp m adm (f (m.perform c x w).1) (Q (ok c x w)) (m.perform c x w).2) :
  wpVerdict m adm ok (issue c >>= f) Q w
  := by
  apply wpVerdict_issue_bind hcut
  · intro x hx hkeeps
    have hrest := h x hx
    rw [eq_true hkeeps] at hrest
    exact wpVerdict_of_unguarded (hf _) hok hrest
  · intro x hx hbreach
    have hrest := h x hx
    rwa [eq_false hbreach] at hrest

/-- The first part returns what the rest does with it by whether the first part has kept to the
guard. -/
theorem wpVerdict_bind {p : Prog C R ε α} {f : α → Prog C R ε β} {Q : Prop → Post W ε β} {w : W}
    (h : wpVerdict m adm ok p
      (fun v =>
        { returned := fun a w => (v → wpVerdict m adm ok (f a) Q w) ∧ (¬ v → wp m adm (f a) (Q False) w)
          raised := (Q v).raised
          cut := (Q v).cut }) w) :
  wpVerdict m adm ok (p >>= f) Q w
  := by
  constructor
  · rw [wp_bind]
    exact h.1.mono (fun _ _ hrest => (hrest.1 trivial).1) (fun _ _ h => h) fun _ h => h
  · apply wpBreach_bind
    · exact h.2.mono (fun _ _ hrest => hrest.2 id) (fun _ _ h => h) fun _ h => h
    · exact h.1.mono (fun _ _ hrest => (hrest.1 trivial).2) (fun _ _ _ => trivial) fun _ _ => trivial

/-- The rule for loops whose turns keep to the guard when they return. -/
theorem wpVerdict_forEach {as : List A} {f : A → Prog C R ε Unit} {Q : Prop → Post W ε Unit} {w : W}
    (Inv : List A → List A → W → Prop)
    (hstep : ∀ done a todo w, as = done ++ a :: todo → Inv done (a :: todo) w →
      wpVerdict m adm ok (f a)
        (fun v =>
          { returned := fun _ w => v ∧ Inv (done ++ [a]) todo w
            raised := (Q v).raised
            cut := (Q v).cut }) w)
    (hend : ∀ w, Inv as [] w → (Q True).returned () w) (hstart : Inv [] as w) :
  wpVerdict m adm ok (forEach as f) Q w
  := by
  suffices h : ∀ todo done w, as = done ++ todo → Inv done todo w →
      wpVerdict m adm ok (forEach todo f) Q w from h as [] w rfl hstart
  intro todo
  induction todo with
  | nil =>
      intro done w has hinv
      apply wpVerdict_pure
      apply hend
      rwa [has, List.append_nil]
  | cons a todo ih =>
      intro done w has hinv
      apply wpVerdict_bind
      apply (hstep done a todo w has hinv).mono
      · rintro v _ w' ⟨hv, hinv'⟩
        exact ⟨fun _ => ih (done ++ [a]) w' (by simpa using has) hinv', fun hnot => absurd hv hnot⟩
      · exact fun _ _ _ h => h
      · exact fun _ _ h => h

end Prog
