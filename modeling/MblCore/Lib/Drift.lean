import Mathlib.Data.List.Perm.Subperm
import Mathlib.Logic.Function.Basic

/-!
# Stores that are rewritten piece by piece

A party that rewrites entries of a store, and that may stop at any point, leaves the store different
in three ways only: entries it has not been told to write are as before, an entry that has new data
has data it was told to write, and a bounded number of entries are gone.  Parties that come one
after the other add up.
-/

universe u v

section Touched

variable {K : Type u} {V : Type v} [DecidableEq K] {key : K} {data : Option V}
  {store store' store'' : K → Option V}

/-- No entry but this one has changed.  It is as it was, or has these data, or is gone. -/
def Touched (key : K) (data : Option V) (store store' : K → Option V) : Prop :=
  ∃ data', (data' = store key ∨ data' = data ∨ data' = none) ∧
    store' = Function.update store key data'

namespace Touched

theorem refl (key : K) (data : Option V) (store : K → Option V) :
  Touched key data store store
  := ⟨store key, Or.inl rfl, (Function.update_eq_self key store).symm⟩

theorem done (key : K) (data : Option V) (store : K → Option V) :
  Touched key data store (Function.update store key data)
  := ⟨data, Or.inr (Or.inl rfl), rfl⟩

/-- An entry may also be touched in order to write other data. -/
theorem of_gone (h : Touched key none store store') :
  Touched key data store store'
  := by
  obtain ⟨data', hdata', rfl⟩ := h
  refine ⟨data', ?_, rfl⟩
  obtain hold | hgone := hdata'
  · exact Or.inl hold
  · exact Or.inr (Or.inr (or_self_iff.mp hgone))

theorem trans (h : Touched key data store store') (h' : Touched key data store' store'') :
  Touched key data store store''
  := by
  obtain ⟨data₁, hdata₁, rfl⟩ := h
  obtain ⟨data₂, hdata₂, rfl⟩ := h'
  rw [Function.update_self] at hdata₂
  refine ⟨data₂, ?_, ?_⟩
  · obtain rfl | hnew | hgone := hdata₂
    · exact hdata₁
    · exact Or.inr (Or.inl hnew)
    · exact Or.inr (Or.inr hgone)
  · apply Function.update_idem

/-- What is written over the entry hides what has become of it. -/
theorem update_eq (h : Touched key data store store') (data' : Option V) :
  Function.update store' key data' = Function.update store key data'
  := by
  obtain ⟨data₁, -, rfl⟩ := h
  apply Function.update_idem

end Touched

end Touched

/-- What has become of a store when some of the `listed` data have been written to it and at most
`n` of its entries have been lost. -/
structure Drift {K : Type u} {V : Type v} (listed : K → V → Prop) (n : ℕ)
    (store store' : K → Option V) : Prop where
  others : ∀ key, (∀ data, ¬ listed key data) → store' key = store key
  own : ∀ key data, store' key = some data → store key = some data ∨ listed key data
  lost : ∃ lost : List K, lost.length ≤ n ∧
    ∀ key, store key ≠ none → store' key = none → key ∈ lost

namespace Drift

variable {K : Type u} {V : Type v} {listed : K → V → Prop} {m n : ℕ}
  {store store' store'' : K → Option V}

theorem refl (n : ℕ) :
  Drift listed n store store
  := by
  constructor
  · exact fun _ _ => rfl
  · exact fun _ _ h => Or.inl h
  · exact ⟨[], Nat.zero_le n, fun _ hbefore hafter => absurd hafter hbefore⟩

theorem trans (h : Drift listed m store store') (h' : Drift listed n store' store'') :
  Drift listed (m + n) store store''
  := by
  constructor
  · intro key hkey
    rw [h'.others key hkey, h.others key hkey]
  · intro key data hdata
    obtain hold | hnew := h'.own key data hdata
    · exact h.own key data hold
    · exact Or.inr hnew
  · obtain ⟨lost, hlength, hlost⟩ := h.lost
    obtain ⟨lost', hlength', hlost'⟩ := h'.lost
    refine ⟨lost ++ lost', ?_, ?_⟩
    · rw [List.length_append]
      omega
    · intro key hbefore hafter
      rw [List.mem_append]
      by_cases hbetween : store' key = none
      · exact Or.inl (hlost key hbefore hbetween)
      · exact Or.inr (hlost' key hbetween hafter)

/-- More data may be listed, and more entries may be lost. -/
theorem mono {listed' : K → V → Prop} (h : Drift listed m store store')
    (hlisted : ∀ key data, listed key data → listed' key data) (hle : m ≤ n) :
  Drift listed' n store store'
  := by
  constructor
  · intro key hkey
    exact h.others key fun data hdata => hkey data (hlisted key data hdata)
  · intro key data hdata
    exact (h.own key data hdata).imp_right (hlisted key data)
  · obtain ⟨lost, hlength, hlost⟩ := h.lost
    exact ⟨lost, Nat.le_trans hlength hle, hlost⟩

section Update

variable [DecidableEq K] {key : K} {data : V}

/-- Listed data are written. -/
theorem write (hlisted : listed key data) :
  Drift listed 0 store (Function.update store key (some data))
  := by
  constructor
  · intro other hother
    rw [Function.update_of_ne]
    rintro rfl
    exact hother data hlisted
  · intro other data' hdata'
    by_cases hkey : other = key
    · subst hkey
      rw [Function.update_self] at hdata'
      cases hdata'
      exact Or.inr hlisted
    · rw [Function.update_of_ne hkey] at hdata'
      exact Or.inl hdata'
  · refine ⟨[], Nat.le_refl 0, ?_⟩
    intro other hbefore hafter
    by_cases hkey : other = key
    · subst hkey
      rw [Function.update_self] at hafter
      contradiction
    · rw [Function.update_of_ne hkey] at hafter
      contradiction

/-- An entry that has listed data is touched. -/
theorem of_touched (hlisted : listed key data) (h : Touched key (some data) store store') :
  Drift listed 1 store store'
  := by
  obtain ⟨data', hdata', rfl⟩ := h
  constructor
  · intro other hother
    rw [Function.update_of_ne]
    rintro rfl
    exact hother data hlisted
  · intro other data'' hdata''
    by_cases hkey : other = key
    · subst hkey
      rw [Function.update_self] at hdata''
      subst hdata''
      obtain hold | hnew | hgone := hdata'
      · exact Or.inl hold.symm
      · cases hnew
        exact Or.inr hlisted
      · contradiction
    · rw [Function.update_of_ne hkey] at hdata''
      exact Or.inl hdata''
  · refine ⟨[key], Nat.le_refl 1, ?_⟩
    intro other hbefore hafter
    rw [List.mem_singleton]
    by_contra hkey
    rw [Function.update_of_ne hkey] at hafter
    contradiction

end Update

/-- Of different entries that were all there, at most so many are missing. -/
theorem length_missing_le {keys : List K} (h : Drift listed n store store') (hnodup : keys.Nodup)
    (hthere : ∀ key ∈ keys, store key ≠ none) :
  (keys.filter fun key => (store' key).isNone).length ≤ n
  := by
  obtain ⟨lost, hlength, hlost⟩ := h.lost
  refine Nat.le_trans ?_ hlength
  apply List.Subperm.length_le
  apply List.Nodup.subperm (hnodup.filter _)
  intro key hkey
  rw [List.mem_filter, Option.isNone_iff_eq_none] at hkey
  exact hlost key (hthere key hkey.1) hkey.2

end Drift
