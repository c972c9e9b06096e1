import MblCore.CloudClient.Provisioning
import MblCore.Lib.Bounded

/-!
# What provisioning leaves in the KCM

`store` replaces an item by deleting it and storing it again.  A credential is lost when the second
of these calls fails after the first one has succeeded, and never otherwise.
-/

namespace Provisioning

open Prog hiding pure throw bind

variable {items : List KCMItem} {kcm : Kcm}

/-! ### What is listed -/

/-- The data of the last item of the list with this name and type. -/
def lastListed (items : List KCMItem) (key : Key) : Option Bytes :=
  (items.reverse.find? fun item => item.key = key).map KCMItem.data_blob

/-- The KCM when all items of the list have been stored. -/
def Kcm.putAll (kcm : Kcm) (items : List KCMItem) : Kcm :=
  fun key => (lastListed items key).or (kcm key)

@[simp]
theorem putAll_nil :
  kcm.putAll [] = kcm
  := rfl

theorem putAll_cons (item : KCMItem) :
  kcm.putAll (item :: items)
    = Kcm.putAll (Function.update kcm item.key (some item.data_blob)) items
  := by
  funext key
  unfold Kcm.putAll lastListed
  rw [List.reverse_cons, List.find?_append]
  cases items.reverse.find? fun item => item.key = key with
  | some last => rfl
  | none =>
      by_cases hkey : item.key = key
      · subst hkey
        simp
      · simp [hkey, Function.update_of_ne (Ne.symm hkey)]

theorem putAll_append (done todo : List KCMItem) :
  kcm.putAll (done ++ todo) = (kcm.putAll done).putAll todo
  := by
  induction done generalizing kcm with
  | nil => rfl
  | cons item done ih => rw [List.cons_append, putAll_cons, putAll_cons, ih]

theorem mem_of_lastListed {key : Key} {data : Bytes} (h : lastListed items key = some data) :
  ∃ item ∈ items, item.key = key ∧ item.data_blob = data
  := by
  obtain ⟨item, hfind, rfl⟩ := Option.map_eq_some_iff.mp h
  have hkey := List.find?_some hfind
  rw [decide_eq_true_eq] at hkey
  exact ⟨item, List.mem_reverse.mp (List.mem_of_find?_eq_some hfind), hkey, rfl⟩

theorem lastListed_eq_none {key : Key} (h : ∀ item ∈ items, item.key ≠ key) :
  lastListed items key = none
  := by
  rw [lastListed, Option.map_eq_none_iff, List.find?_eq_none]
  intro item hitem
  simpa using h item (List.mem_reverse.mp hitem)

/-! ### How `store` ends -/

/-- The last two calls have deleted an item and have not stored it again. -/
def DeletedOnly (key : Key) (calls : Record) : Prop :=
  ∃ before data status, status ≠ .KCM_STATUS_SUCCESS ∧ calls = before
    ++ [⟨.kcmItemDelete key, .KCM_STATUS_SUCCESS⟩, ⟨.kcmItemStore key true data, status⟩]

/-- What becomes of the KCM: either all items are stored, or those before one that is not, and
perhaps this one has been deleted. -/
inductive StoreEnds (items : List KCMItem) (kcm : Kcm) :
    ProvisionedStatusCode → Kcm × Record → Prop
  | stored (calls : Record) : StoreEnds items kcm .success (kcm.putAll items, calls)
  | failed (done : List KCMItem) (item : KCMItem) (todo : List KCMItem) (calls : Record)
      (hitems : items = done ++ item :: todo) : StoreEnds items kcm .failure (kcm.putAll done, calls)
  | lost (done : List KCMItem) (item : KCMItem) (todo : List KCMItem) (calls : Record)
      (hitems : items = done ++ item :: todo) (hdeleted : DeletedOnly item.key calls) :
      StoreEnds items kcm .failure (Function.update (kcm.putAll done) item.key none, calls)

/-- The rest of the list is stored when the first item has been. -/
theorem StoreEnds.cons {item : KCMItem} {status : ProvisionedStatusCode} {w : Kcm × Record}
    (h : StoreEnds items (Function.update kcm item.key (some item.data_blob)) status w) :
  StoreEnds (item :: items) kcm status w
  := by
  cases h with
  | stored calls =>
      rw [← putAll_cons]
      exact .stored calls
  | failed done next todo calls hitems =>
      rw [← putAll_cons]
      apply StoreEnds.failed (item :: done) next todo calls
      rw [hitems, List.cons_append]
  | lost done next todo calls hitems hdeleted =>
      rw [← putAll_cons]
      apply StoreEnds.lost (item :: done) next todo calls _ hdeleted
      rw [hitems, List.cons_append]

section Calls

variable {adm : Call → KcmStatus → Kcm × Record → Prop} {calls : Record} {key : Key}
  {Q : Post (Kcm × Record) Empty KcmStatus}

theorem wp_kcmItemDelete (hcut : Q.cut (kcm, calls))
    (h : ∀ status, Q.returned status
      (if status = .KCM_STATUS_SUCCESS then Function.update kcm key none else kcm,
        calls ++ [⟨.kcmItemDelete key, status⟩])) :
  wp machine adm (issue (.kcmItemDelete key)) Q (kcm, calls)
  := ⟨hcut, fun status _ => h status⟩

theorem wp_kcmItemStore {is_factory : Bool} {data : Bytes} (hcut : Q.cut (kcm, calls))
    (h : ∀ status, Q.returned status
      (if status = .KCM_STATUS_SUCCESS then Function.update kcm key (some data) else kcm,
        calls ++ [⟨.kcmItemStore key is_factory data, status⟩])) :
  wp machine adm (issue (.kcmItemStore key is_factory data)) Q (kcm, calls)
  := ⟨hcut, fun status _ => h status⟩

end Calls

/-- How `store` ends, by induction on the list: an item is stored over what its deletion has left,
or the loop ends with it. -/
theorem wp_store {adm : Call → KcmStatus → Kcm × Record → Prop} (items : List KCMItem) (kcm : Kcm)
    (calls : Record) :
  wp machine adm (store items)
    { returned := StoreEnds items kcm, raised := fun _ _ => True, cut := fun _ => True }
    (kcm, calls)
  := by
  induction items generalizing kcm calls with
  | nil => exact .stored calls
  | cons item items ih =>
      rw [store, wp_bind]
      apply wp_kcmItemDelete trivial
      intro deleted
      dsimp only
      split
      · -- the item was not deleted
        rename_i hdeleted
        rw [if_neg hdeleted.1]
        exact .failed [] item items _ rfl
      · rw [wp_bind]
        apply wp_kcmItemStore trivial
        intro stored
        dsimp only
        split
        · rename_i hstored
          split
          · -- it was deleted, and not stored
            subst deleted
            apply StoreEnds.lost [] item items _ rfl
            exact ⟨calls, item.data_blob, stored, hstored, List.append_assoc _ _ _⟩
          · exact .failed [] item items _ rfl
        · rename_i hstored
          have hreplaced : Function.update
              (if deleted = .KCM_STATUS_SUCCESS then Function.update kcm item.key none else kcm)
              item.key (some item.data_blob)
              = Function.update kcm item.key (some item.data_blob) := by
            split
            · apply Function.update_idem _ _ _
            · rfl
          rw [not_not] at hstored
          rw [if_pos hstored, hreplaced]
          apply (ih _ _).mono
          · exact fun _ _ h => h.cons
          · exact fun _ _ h => h
          · exact fun _ h => h

/-- Two calls for each item. -/
theorem atMost_store :
  (store items).AtMost (items.length * 2)
  := by
  induction items with
  | nil => trivial
  | cons item items ih =>
      rw [store, List.length_cons, show (items.length + 1) * 2 = 1 + (1 + items.length * 2) by omega]
      apply AtMost.bind (atMost_issue _)
      intro deleted
      split
      · trivial
      · apply AtMost.bind (atMost_issue _)
        intro stored
        split
        · trivial
        · exact ih

/-! ### Credentials -/

/-- An item that was in the KCM is there, with its old data or with data that are listed for it. -/
def Kept (items : List KCMItem) (before after : Kcm) (key : Key) : Prop :=
  ∀ data, before key = some data → ∃ data', after key = some data' ∧
    (data' = data ∨ ∃ item ∈ items, item.key = key ∧ item.data_blob = data')

/-- Every listed item is in the KCM with the data listed last, and no other item has changed. -/
structure Provisioned (items : List KCMItem) (before after : Kcm) : Prop where
  listed : ∀ key data, lastListed items key = some data → after key = some data
  others : ∀ key, (∀ item ∈ items, item.key ≠ key) → after key = before key

/-- No credential is lost. -/
structure NeverLoses (items : List KCMItem) (before : Kcm) (status : ProvisionedStatusCode)
    (after : Kcm) : Prop where
  kept : ∀ key, Kept items before after key
  provisioned : status = .success → Provisioned items before after

theorem provisioned_putAll :
  Provisioned items kcm (kcm.putAll items)
  := by
  constructor
  · intro key data hlast
    rw [Kcm.putAll, hlast, Option.some_or]
  · intro key hkey
    rw [Kcm.putAll, lastListed_eq_none hkey, Option.none_or]

/-- What has been stored before a failure is listed. -/
theorem kept_putAll {done todo : List KCMItem} (hitems : items = done ++ todo) (key : Key) :
  Kept items kcm (kcm.putAll done) key
  := by
  intro data hdata
  rw [Kcm.putAll, hdata]
  cases hlast : lastListed done key with
  | none => exact ⟨data, rfl, Or.inl rfl⟩
  | some data' =>
      obtain ⟨item, hitem, hkey, hblob⟩ := mem_of_lastListed hlast
      refine ⟨data', rfl, Or.inr ⟨item, ?_, hkey, hblob⟩⟩
      rw [hitems]
      apply List.mem_append_left todo hitem

/-- When `store` has returned, an item that was in the KCM is still there, except that a failure
may lose one item of the list: that which was deleted when the last call did not store it.  When it
has returned success, all of the list is in the KCM. -/
theorem store_keeps {calls calls' : Record} {xs rest : List KcmStatus}
    {status : ProvisionedStatusCode} {kcm' : Kcm}
    (hrun : run machine (store items) xs (kcm, calls) = (.returned status, rest, (kcm', calls'))) :
  (∀ key, Kept items kcm kcm' key
      ∨ status = .failure ∧ (∃ item ∈ items, item.key = key) ∧ DeletedOnly key calls')
    ∧ (status = .success → Provisioned items kcm kcm')
  := by
  have hobeys : Obeys machine (fun _ _ _ => True) (store items) xs (kcm, calls) := obeys_true
  have hends := holds_of_wp (wp_store items kcm calls) hobeys
  rw [hrun] at hends
  replace hends : StoreEnds items kcm status (kcm', calls') := hends
  cases hends with
  | stored calls' =>
      constructor
      · intro key
        exact Or.inl (kept_putAll (List.append_nil items).symm key)
      · exact fun _ => provisioned_putAll
  | failed done item todo calls' hitems =>
      constructor
      · intro key
        exact Or.inl (kept_putAll hitems key)
      · nofun
  | lost done item todo calls' hitems hdeleted =>
      constructor
      · intro key
        by_cases hkey : item.key = key
        · right
          refine ⟨rfl, ⟨item, ?_, hkey⟩, hkey ▸ hdeleted⟩
          rw [hitems]
          apply List.mem_append_right done List.mem_cons_self
        · left
          unfold Kept
          rw [Function.update_of_ne (Ne.symm hkey)]
          apply kept_putAll hitems key
      · nofun

/-- A certificate that is to be replaced. -/
def newCertificate : KCMItem :=
  ⟨[99], .KCM_CERTIFICATE_ITEM, [2]⟩

/-- The KCM of a device that has such a certificate. -/
def certifiedKcm : Kcm :=
  fun key => if key = newCertificate.key then some [1] else none

theorem store_keeps_replaced :
  Provisioned [newCertificate, newCertificate] certifiedKcm
    (Function.update certifiedKcm newCertificate.key (some [2]))
  := by
  obtain ⟨kcm', calls', hrun, hkcm⟩ : ∃ kcm' calls',
      run machine (store [newCertificate, newCertificate])
        [.KCM_STATUS_SUCCESS, .KCM_STATUS_SUCCESS, .KCM_STATUS_ITEM_NOT_FOUND, .KCM_STATUS_SUCCESS]
        (certifiedKcm, []) = (.returned .success, [], (kcm', calls'))
      ∧ kcm' = Function.update certifiedKcm newCertificate.key (some [2]) := by
    refine ⟨_, _, rfl, ?_⟩
    simp [newCertificate, KCMItem.key, machine, Machine.traced, perform]
  rw [← hkcm]
  exact (store_keeps hrun).2 rfl

/-- The certificate is deleted, and then it cannot be stored: the device has none any more. -/
theorem not_neverLoses_deletedOnly :
  ∃ kcm' calls', run machine (store [newCertificate]) [.KCM_STATUS_SUCCESS, .error 1]
      (certifiedKcm, []) = (.returned .failure, [], (kcm', calls'))
    ∧ ¬ NeverLoses [newCertificate] certifiedKcm .failure kcm'
  := by
  refine ⟨_, _, rfl, ?_⟩
  intro hkeeps
  obtain ⟨data, hdata, -⟩ := hkeeps.kept newCertificate.key [1] (if_pos rfl)
  change Function.update certifiedKcm newCertificate.key none newCertificate.key = some data at hdata
  rw [Function.update_self] at hdata
  contradiction

/-! ### The command -/

/-- A device for which the command has succeeded has all credentials of both tables. -/
theorem handleStoreCommand_success {init_status : ProvisionedStatusCode}
    {dev_cert_table update_cert_table : List KCMItem × ProvisionedStatusCode}
    {calls calls' : Record} {xs rest : List KcmStatus} {kcm' : Kcm}
    (hrun : run machine (handleStoreCommand init_status dev_cert_table update_cert_table) xs
      (kcm, calls) = (.returned .success, rest, (kcm', calls'))) :
  Provisioned (dev_cert_table.1 ++ update_cert_table.1) kcm kcm'
  := by
  have hwp : wp machine (fun _ _ _ => True)
      (handleStoreCommand init_status dev_cert_table update_cert_table)
      { returned := fun code w => code = .success →
          Provisioned (dev_cert_table.1 ++ update_cert_table.1) kcm w.1
        raised := fun _ _ => True
        cut := fun _ => True } (kcm, calls) := by
    unfold handleStoreCommand
    split
    · nofun
    · split
      · nofun
      · rw [wp_bind]
        apply (wp_store _ kcm calls).mono
        · rintro dev_ret_val ⟨kcm₁, calls₁⟩ hdev
          dsimp only at hdev ⊢
          rw [wp_bind]
          apply (wp_store _ kcm₁ calls₁).mono
          · rintro uc_ret_val ⟨kcm₂, calls₂⟩ huc
            dsimp only at huc ⊢
            split
            · nofun
            · split
              · nofun
              · rename_i hdev_ret huc_ret
                intro _
                rw [not_not] at hdev_ret huc_ret
                subst hdev_ret huc_ret
                cases hdev
                cases huc
                rw [← putAll_append]
                exact provisioned_putAll
          · exact fun _ _ h => h
          · exact fun _ h => h
        · exact fun _ _ h => h
        · exact fun _ h => h
  have hobeys : Obeys machine (fun _ _ _ => True)
      (handleStoreCommand init_status dev_cert_table update_cert_table) xs (kcm, calls) := obeys_true
  have hends := holds_of_wp hwp hobeys
  rw [hrun] at hends
  apply hends rfl

end Provisioning
