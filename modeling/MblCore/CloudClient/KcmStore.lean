import MblCore.CloudClient.Provisioning
import MblCore.Lib.Drift

/-!
# What is relied on of the KCM

The KCM belongs to the cloud client.  Here it is anything that answers the calls, and what is relied
on are its laws.  A call that succeeds has taken effect for good.  A call that fails may have taken
effect or not, or may have lost the item that it names, and so may a call in which the power is lost.
No call touches another item.
-/

namespace Provisioning

open Prog hiding pure throw bind

/-- The item that a call names. -/
def Call.key : Call → Key
  | .kcmItemDelete key => key
  | .kcmItemStore key _ _ => key

/-- What a call makes of its item. -/
def Call.result : Call → Option Bytes
  | .kcmItemDelete _ => none
  | .kcmItemStore _ _ data => some data

/-- A KCM with its states, the items that it holds in each, and what a call returns and leaves for an
outcome chosen by the environment. -/
structure KcmStore (σ ω : Type) where
  items : σ → Kcm
  perform : Call → ω → σ → KcmStatus × σ

namespace KcmStore

variable {σ ω : Type}

/-- What is relied on of a call, by whether it succeeds. -/
structure Laws (db : KcmStore σ ω) : Prop where
  succeeds : ∀ c x s, (db.perform c x s).1 = .KCM_STATUS_SUCCESS →
    db.items (db.perform c x s).2 = Function.update (db.items s) c.key c.result
  fails : ∀ c x s, (db.perform c x s).1 ≠ .KCM_STATUS_SUCCESS →
    Touched c.key c.result (db.items s) (db.items (db.perform c x s).2)

def machine (db : KcmStore σ ω) : Machine Call Reply ω σ where
  perform := db.perform

variable {db : KcmStore σ ω} {adm : Call → ω → σ → Prop} {c : Call} {s : σ}
  {Q : Post σ Empty KcmStatus}

/-- The rule for a call of any KCM that obeys the laws. -/
theorem wp_issue (hlaws : db.Laws) (hcut : Q.cut s)
    (hsucceeds : ∀ s', db.items s' = Function.update (db.items s) c.key c.result →
      Q.returned .KCM_STATUS_SUCCESS s')
    (hfails : ∀ status s', status ≠ .KCM_STATUS_SUCCESS →
      Touched c.key c.result (db.items s) (db.items s') → Q.returned status s') :
  wp db.machine adm (issue c) Q s
  := by
  refine ⟨hcut, ?_⟩
  intro x _
  by_cases hstatus : (db.perform c x s).1 = .KCM_STATUS_SUCCESS
  · have h := hsucceeds _ (hlaws.succeeds c x s hstatus)
    rw [← hstatus] at h
    exact h
  · exact hfails _ _ hstatus (hlaws.fails c x s hstatus)

/-- The KCM in which a call that fails changes nothing. -/
def allOrNothing : KcmStore Kcm KcmStatus where
  items kcm := kcm
  perform c status kcm := Provisioning.perform c status kcm

theorem laws_allOrNothing :
  allOrNothing.Laws
  := by
  constructor
  · rintro (key | ⟨key, _, data⟩) status kcm hstatus
    · exact if_pos hstatus
    · exact if_pos hstatus
  · rintro (key | ⟨key, _, data⟩) status kcm hstatus
    · rw [show (allOrNothing.perform (.kcmItemDelete key) status kcm).2 = kcm from if_neg hstatus]
      exact Touched.refl _ _ _
    · rw [show (allOrNothing.perform (.kcmItemStore key _ data) status kcm).2 = kcm
        from if_neg hstatus]
      exact Touched.refl _ _ _

end KcmStore

end Provisioning
