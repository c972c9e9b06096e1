import MblCore.CloudClient.KcmStore
import MblCore.CloudClient.ProvisioningUtil
import Mathlib.Data.List.Forall2
import Mathlib.Data.List.Nodup

/-!
# Provisioning again and again

After a run of the tool that has succeeded, the KCM has the content of each file as the data of its
item.  Runs that come later and fail, or are cut off, may each lose two of the items: the tool goes
on with the second table when the first has failed.  They mix up nothing, and they touch no other item.
This is so for any KCM that obeys its laws.
-/

namespace Provisioning

open Prog hiding pure throw bind

open Loops

/-! ### What is read -/

namespace FccNames

variable (names : FccNames)

/-- The item of the flag. -/
def useBootstrap : KCMItem :=
  ⟨names.g_fcc_use_bootstrap_parameter_name, .KCM_CONFIG_ITEM, bootstrap_mode_flag⟩

/-- The files of the developer credentials, each with the key of its item. -/
def cloudFiles : List (Key × Text) := [
  (⟨names.g_fcc_endpoint_parameter_name, .KCM_CONFIG_ITEM⟩,
    "MBED_CLOUD_DEV_BOOTSTRAP_ENDPOINT_NAME.bin".toList),
  (⟨names.g_fcc_bootstrap_device_certificate_name, .KCM_CERTIFICATE_ITEM⟩,
    "MBED_CLOUD_DEV_BOOTSTRAP_DEVICE_CERTIFICATE.bin".toList),
  (⟨names.g_fcc_bootstrap_server_ca_certificate_name, .KCM_CERTIFICATE_ITEM⟩,
    "MBED_CLOUD_DEV_BOOTSTRAP_SERVER_ROOT_CA_CERTIFICATE.bin".toList),
  (⟨names.g_fcc_bootstrap_device_private_key_name, .KCM_PRIVATE_KEY_ITEM⟩,
    "MBED_CLOUD_DEV_BOOTSTRAP_DEVICE_PRIVATE_KEY.bin".toList),
  (⟨names.g_fcc_bootstrap_server_uri_name, .KCM_CONFIG_ITEM⟩,
    "MBED_CLOUD_DEV_BOOTSTRAP_SERVER_URI.bin".toList),
  (⟨names.g_fcc_manufacturer_parameter_name, .KCM_CONFIG_ITEM⟩,
    "MBED_CLOUD_DEV_MANUFACTURER.bin".toList),
  (⟨names.g_fcc_model_number_parameter_name, .KCM_CONFIG_ITEM⟩,
    "MBED_CLOUD_DEV_MODEL_NUMBER.bin".toList),
  (⟨names.g_fcc_device_serial_number_parameter_name, .KCM_CONFIG_ITEM⟩,
    "MBED_CLOUD_DEV_SERIAL_NUMBER.bin".toList),
  (⟨names.g_fcc_device_type_parameter_name, .KCM_CONFIG_ITEM⟩,
    "MBED_CLOUD_DEV_DEVICE_TYPE.bin".toList),
  (⟨names.g_fcc_hardware_version_parameter_name, .KCM_CONFIG_ITEM⟩,
    "MBED_CLOUD_DEV_HARDWARE_VERSION.bin".toList),
  (⟨names.g_fcc_memory_size_parameter_name, .KCM_CONFIG_ITEM⟩,
    "MBED_CLOUD_DEV_MEMORY_TOTAL_KB.bin".toList)]

/-- The files of the update certificate, each with the key of its item. -/
def updateFiles : List (Key × Text) := [
  (⟨names.g_fcc_update_authentication_certificate_name, .KCM_CERTIFICATE_ITEM⟩,
    "arm_uc_default_certificate.bin".toList),
  (⟨names.g_fcc_vendor_id_name, .KCM_CONFIG_ITEM⟩, "arm_uc_vendor_id.bin".toList),
  (⟨names.g_fcc_class_id_name, .KCM_CONFIG_ITEM⟩, "arm_uc_class_id.bin".toList)]

def files : List (Key × Text) :=
  names.cloudFiles ++ names.updateFiles

/-- The keys of all items that the tool stores. -/
def keys : List Key :=
  names.useBootstrap.key :: names.files.map Prod.fst

end FccNames

variable {names : FccNames} {file : Text → Stream} {items : List KCMItem} {kcm : Kcm}

/-- The item has the key that goes with the file and the content of the file. -/
def FromFile (file : Text → Stream) (f : Key × Text) (item : KCMItem) : Prop :=
  item.key = f.1 ∧ file (certificatePath f.2) = .read item.data_blob

theorem map_key_of_fromFile {fs : List (Key × Text)} (h : List.Forall₂ (FromFile file) fs items) :
  items.map KCMItem.key = fs.map Prod.fst
  := by
  induction h with
  | nil => rfl
  | cons hitem _ ih => rw [List.map_cons, List.map_cons, ih, hitem.1]

theorem exists_fromFile {fs : List (Key × Text)} (h : List.Forall₂ (FromFile file) fs items)
    {item : KCMItem} (hitem : item ∈ items) :
  ∃ f ∈ fs, FromFile file f item
  := by
  induction h with
  | nil => contradiction
  | cons hfirst _ ih =>
      obtain rfl | hitem := List.mem_cons.mp hitem
      · exact ⟨_, List.mem_cons_self, hfirst⟩
      · obtain ⟨f, hf, hitem'⟩ := ih hitem
        exact ⟨f, List.mem_cons_of_mem _ hf, hitem'⟩

theorem fromFile_update (h : loadDeveloperUpdateCertificate names file = .ok (items, .success)) :
  List.Forall₂ (FromFile file) names.updateFiles items
  := by
  unfold loadDeveloperUpdateCertificate at h
  obtain ⟨⟨_, _⟩, hcert, h⟩ := bind_eq_ok.mp h
  obtain ⟨⟨_, _⟩, hvendor, h⟩ := bind_eq_ok.mp h
  obtain ⟨⟨_, _⟩, hclass, h⟩ := bind_eq_ok.mp h
  split at h
  · cases h
  · rename_i hread
    obtain ⟨rfl, rfl, rfl⟩ := not_not.mp hread
    cases h
    rw [binaryFileToBytes_eq_ok] at hcert hvendor hclass
    exact .cons ⟨rfl, hcert⟩ (.cons ⟨rfl, hvendor⟩ (.cons ⟨rfl, hclass⟩ .nil))

theorem fromFile_cloud (h : loadDeveloperCloudCredentials names file = .ok (items, .success)) :
  ∃ rest, items = names.useBootstrap :: rest
    ∧ List.Forall₂ (FromFile file) names.cloudFiles rest
  := by
  unfold loadDeveloperCloudCredentials at h
  obtain ⟨⟨_, _⟩, hendpoint, h⟩ := bind_eq_ok.mp h
  obtain ⟨⟨_, _⟩, hcert, h⟩ := bind_eq_ok.mp h
  obtain ⟨⟨_, _⟩, hca, h⟩ := bind_eq_ok.mp h
  obtain ⟨⟨_, _⟩, hkey, h⟩ := bind_eq_ok.mp h
  obtain ⟨⟨_, _⟩, huri, h⟩ := bind_eq_ok.mp h
  obtain ⟨⟨_, _⟩, hmanufacturer, h⟩ := bind_eq_ok.mp h
  obtain ⟨⟨_, _⟩, hmodel, h⟩ := bind_eq_ok.mp h
  obtain ⟨⟨_, _⟩, hserial, h⟩ := bind_eq_ok.mp h
  obtain ⟨⟨_, _⟩, htype, h⟩ := bind_eq_ok.mp h
  obtain ⟨⟨_, _⟩, hhardware, h⟩ := bind_eq_ok.mp h
  obtain ⟨⟨_, _⟩, hmemory, h⟩ := bind_eq_ok.mp h
  split at h
  · cases h
  · rename_i hread
    obtain ⟨rfl, rfl, rfl, rfl, rfl, rfl, rfl, rfl, rfl, rfl, rfl⟩ := not_not.mp hread
    cases h
    rw [binaryFileToBytes_eq_ok] at hendpoint hcert hca hkey huri hmanufacturer
    rw [binaryFileToBytes_eq_ok] at hmodel hserial htype hhardware hmemory
    refine ⟨_, rfl, ?_⟩
    exact .cons ⟨rfl, hendpoint⟩ (.cons ⟨rfl, hcert⟩ (.cons ⟨rfl, hca⟩ (.cons ⟨rfl, hkey⟩
      (.cons ⟨rfl, huri⟩ (.cons ⟨rfl, hmanufacturer⟩ (.cons ⟨rfl, hmodel⟩ (.cons ⟨rfl, hserial⟩
      (.cons ⟨rfl, htype⟩ (.cons ⟨rfl, hhardware⟩ (.cons ⟨rfl, hmemory⟩ .nil))))))))))

/-- The items of the flag and of all files. -/
def Loaded (names : FccNames) (file : Text → Stream) (items : List KCMItem) : Prop :=
  ∃ rest, items = names.useBootstrap :: rest ∧ List.Forall₂ (FromFile file) names.files rest

theorem loaded_append {dev_items update_items : List KCMItem}
    (hdev : loadDeveloperCloudCredentials names file = .ok (dev_items, .success))
    (hupdate : loadDeveloperUpdateCertificate names file = .ok (update_items, .success)) :
  Loaded names file (dev_items ++ update_items)
  := by
  obtain ⟨rest, rfl, hrest⟩ := fromFile_cloud hdev
  refine ⟨rest ++ update_items, rfl, ?_⟩
  exact List.rel_append hrest (fromFile_update hupdate)

theorem Loaded.map_key (h : Loaded names file items) :
  items.map KCMItem.key = names.keys
  := by
  obtain ⟨rest, rfl, hrest⟩ := h
  rw [FccNames.keys, List.map_cons, map_key_of_fromFile hrest]

/-- The item with the key of a file has the content of this file. -/
theorem Loaded.read (h : Loaded names file items) (hnodup : names.keys.Nodup) {item : KCMItem}
    (hitem : item ∈ items) {f : Key × Text} (hf : f ∈ names.files) (hkey : item.key = f.1) :
  file (certificatePath f.2) = .read item.data_blob
  := by
  obtain ⟨rest, rfl, hrest⟩ := h
  rw [FccNames.keys, List.nodup_cons] at hnodup
  obtain rfl | hitem := List.mem_cons.mp hitem
  · -- the flag has no file
    exfalso
    apply hnodup.1
    rw [hkey]
    exact List.mem_map_of_mem hf
  · obtain ⟨f', hf', hitem'⟩ := exists_fromFile hrest hitem
    have hsame : f' = f := by
      apply List.inj_on_of_nodup_map hnodup.2 hf' hf
      rw [← hitem'.1, hkey]
    rw [← hsame]
    exact hitem'.2

/-! ### What `store` leaves at any point -/

/-- The data that are listed for a key. -/
def Listed (items : List KCMItem) (key : Key) (data : Bytes) : Prop :=
  ∃ item ∈ items, item.key = key ∧ item.data_blob = data

section Calls

variable {σ ω : Type} {db : KcmStore σ ω} {adm : Call → ω → σ → Prop}

/-- What may be left of the KCM, at the end and at every point before. -/
def drifting (db : KcmStore σ ω) (listed : Key → Bytes → Prop) (n : ℕ) (kcm : Kcm) {α : Type}
    (Q : α → σ → Prop) : Post σ Empty α where
  returned a s := Q a s ∧ Drift listed n kcm (db.items s)
  raised _ _ := True
  cut s := Drift listed n kcm (db.items s)

/-- At any point at most the item is missing that is being replaced. -/
theorem wp_store_drift (hlaws : db.Laws) (items : List KCMItem) (s : σ) :
  wp db.machine adm (store items)
    (drifting db (Listed items) 1 (db.items s) fun status s' =>
      status = .success → db.items s' = (db.items s).putAll items)
    s
  := by
  induction items generalizing s with
  | nil => exact ⟨fun _ => rfl, Drift.refl 1⟩
  | cons item items ih =>
      have hlisted : Listed (item :: items) item.key item.data_blob :=
        ⟨item, List.mem_cons_self, rfl, rfl⟩
      -- it is stored over what its deletion has left
      have hreplace (s₁ : σ)
          (htouched : Touched item.key (some item.data_blob) (db.items s) (db.items s₁)) :
          wp db.machine adm
            (do
              let kcm_store_status ← issue (.kcmItemStore item.key true item.data_blob)
              if kcm_store_status ≠ .KCM_STATUS_SUCCESS then pure .failure
              else store items : Tool ProvisionedStatusCode)
            (drifting db (Listed (item :: items)) 1 (db.items s) fun status s' =>
              status = .success → db.items s' = (db.items s).putAll (item :: items))
            s₁ := by
        rw [wp_bind]
        apply KcmStore.wp_issue hlaws
        · exact Drift.of_touched hlisted htouched
        · intro s₂ hstored
          rw [Call.key, Call.result, htouched.update_eq] at hstored
          have hdrift {kcm' : Kcm} (h : Drift (Listed items) 1 (db.items s₂) kcm') :
              Drift (Listed (item :: items)) 1 (db.items s) kcm' := by
            rw [hstored] at h
            apply (Drift.write hlisted).trans (h.mono _ (Nat.le_refl 1))
            rintro key data ⟨next, hnext, hkey⟩
            exact ⟨next, List.mem_cons_of_mem item hnext, hkey⟩
          apply (ih s₂).mono
          · rintro status s' ⟨hsuccess, h⟩
            rw [hstored, ← putAll_cons] at hsuccess
            exact ⟨hsuccess, hdrift h⟩
          · exact fun _ _ h => h
          · exact fun _ h => hdrift h
        · intro status s₂ hstatus h
          dsimp only
          rw [if_pos hstatus]
          exact ⟨nofun, Drift.of_touched hlisted (htouched.trans h)⟩
      rw [store, wp_bind]
      apply KcmStore.wp_issue hlaws
      · exact Drift.refl 1
      · intro s₁ hdeleted
        apply hreplace s₁
        rw [hdeleted]
        exact (Touched.done _ _ _).of_gone
      · intro status s₁ hstatus h
        dsimp only
        split
        · exact ⟨nofun, Drift.of_touched hlisted (Touched.of_gone h)⟩
        · exact hreplace s₁ (Touched.of_gone h)

/-- The command may lose an item of each table. -/
theorem wp_handleStoreCommand_drift (hlaws : db.Laws) {init_status : ProvisionedStatusCode}
    {dev_cert_table update_cert_table : List KCMItem × ProvisionedStatusCode} {s : σ} :
  wp db.machine adm (handleStoreCommand init_status dev_cert_table update_cert_table)
    (drifting db (Listed (dev_cert_table.1 ++ update_cert_table.1)) 2 (db.items s) fun code s' =>
      code = .success →
        db.items s' = (db.items s).putAll (dev_cert_table.1 ++ update_cert_table.1))
    s
  := by
  have hdev_listed (key : Key) (data : Bytes) (h : Listed dev_cert_table.1 key data) :
      Listed (dev_cert_table.1 ++ update_cert_table.1) key data := by
    obtain ⟨item, hitem, hkey⟩ := h
    exact ⟨item, List.mem_append_left _ hitem, hkey⟩
  have hupdate_listed (key : Key) (data : Bytes) (h : Listed update_cert_table.1 key data) :
      Listed (dev_cert_table.1 ++ update_cert_table.1) key data := by
    obtain ⟨item, hitem, hkey⟩ := h
    exact ⟨item, List.mem_append_right _ hitem, hkey⟩
  unfold handleStoreCommand
  split
  · exact ⟨nofun, Drift.refl 2⟩
  · split
    · exact ⟨nofun, Drift.refl 2⟩
    · rw [wp_bind]
      apply (wp_store_drift hlaws _ s).mono
      · rintro dev_ret_val s₁ ⟨hdev, hdev_drift⟩
        dsimp only
        rw [wp_bind]
        apply (wp_store_drift hlaws _ s₁).mono
        · rintro uc_ret_val s₂ ⟨huc, huc_drift⟩
          dsimp only
          have hboth : Drift (Listed (dev_cert_table.1 ++ update_cert_table.1)) 2 (db.items s)
              (db.items s₂) :=
            (hdev_drift.mono hdev_listed (Nat.le_refl 1)).trans
              (huc_drift.mono hupdate_listed (Nat.le_refl 1))
          split
          · exact ⟨nofun, hboth⟩
          · split
            · exact ⟨nofun, hboth⟩
            · rename_i hdev_ret huc_ret
              refine ⟨fun _ => ?_, hboth⟩
              rw [not_not] at hdev_ret huc_ret
              rw [putAll_append, ← hdev hdev_ret]
              exact huc huc_ret
        · exact fun _ _ h => h
        · intro s₂ hcut
          exact (hdev_drift.mono hdev_listed (Nat.le_refl 1)).trans
            (hcut.mono hupdate_listed (Nat.le_refl 1))
      · exact fun _ _ h => h
      · exact fun _ hcut => hcut.mono hdev_listed (by omega)

end Calls

/-! ### The program -/

/-- The arguments ask for the device to be provisioned. -/
def asksToProvision (argv : List Text) : Bool :=
  argv.length ≤ 2
    && argv.find? (fun arg => arg = store_cmd || arg = pelion_status_cmd || arg = help) = store_cmd

theorem main_of_asksToProvision {s : Surroundings} {argv : List Text}
    (h : asksToProvision argv = true) :
  main names s argv = storeCommand names s
  := by
  rw [asksToProvision, Bool.and_eq_true, decide_eq_true_eq, decide_eq_true_eq] at h
  obtain ⟨hlength, hfind⟩ := h
  rw [main, if_neg (by omega)]
  clear hlength
  induction argv with
  | nil => contradiction
  | cons arg argv ih =>
      rw [mainLoop]
      by_cases hstore : arg = store_cmd
      · rw [if_pos hstore]
      · by_cases hstatus : arg = pelion_status_cmd
        · subst hstatus
          simp [hstore] at hfind
        · by_cases hhelp : arg = help
          · subst hhelp
            simp [hstore] at hfind
          · rw [if_neg hstore, if_neg hstatus, if_neg hhelp]
            apply ih
            simpa [hstore, hstatus, hhelp] using hfind

/-- Any other run makes no call. -/
theorem main_of_not_asksToProvision (names : FccNames) (s : Surroundings) {argv : List Text}
    (h : asksToProvision argv = false) :
  ∃ code, main names s argv = pure (.exited code)
  := by
  rw [main]
  split
  · exact ⟨_, rfl⟩
  · rename_i hlength
    rw [asksToProvision, decide_eq_true (by omega), Bool.true_and, decide_eq_false_iff_not] at h
    clear hlength
    induction argv with
    | nil => exact ⟨_, rfl⟩
    | cons arg argv ih =>
        rw [mainLoop]
        by_cases hstore : arg = store_cmd
        · subst hstore
          simp at h
        · rw [if_neg hstore]
          split
          · exact ⟨_, rfl⟩
          · split
            · exact ⟨_, rfl⟩
            · rename_i hstatus hhelp
              apply ih
              simpa [hstore, hstatus, hhelp] using h

/-- What the tool is to write when it is asked to provision the device. -/
def ToWrite (names : FccNames) (s : Surroundings) (key : Key) (data : Bytes) : Prop :=
  ∃ items, Loaded names s.file items ∧ Listed items key data

variable {σ ω : Type} {db : KcmStore σ ω}

/-- What the tool leaves in the KCM when it is asked to provision the device. -/
theorem wp_storeCommand_drift (hlaws : db.Laws) {adm : Call → ω → σ → Prop}
    {surroundings : Surroundings} {s : σ} :
  wp db.machine adm (storeCommand names surroundings)
    (drifting db (ToWrite names surroundings) 2 (db.items s) fun ended s' =>
      ended = .exited .success →
        ∃ items, Loaded names surroundings.file items ∧ db.items s' = (db.items s).putAll items)
    s
  := by
  unfold storeCommand
  dsimp only
  split
  · exact ⟨nofun, Drift.refl 2⟩
  · split
    · exact ⟨nofun, Drift.refl 2⟩
    · rename_i dev_cert_table hdev
      split
      · exact ⟨nofun, Drift.refl 2⟩
      · rename_i update_cert_table hupdate
        rw [wp_bind]
        by_cases hread : dev_cert_table.2 = .success ∧ update_cert_table.2 = .success
        · obtain ⟨dev_items, _⟩ := dev_cert_table
          obtain ⟨update_items, _⟩ := update_cert_table
          obtain ⟨rfl, rfl⟩ := hread
          have hloaded := loaded_append hdev hupdate
          have hlisted (key : Key) (data : Bytes) (h : Listed (dev_items ++ update_items) key data) :
              ToWrite names surroundings key data :=
            ⟨_, hloaded, h⟩
          apply (wp_handleStoreCommand_drift hlaws).mono
          · rintro code s' ⟨hcode, hdrift⟩
            refine ⟨?_, hdrift.mono hlisted (Nat.le_refl 2)⟩
            intro hsuccess
            cases hsuccess
            exact ⟨_, hloaded, hcode rfl⟩
          · exact fun _ _ h => h
          · exact fun _ hcut => hcut.mono hlisted (Nat.le_refl 2)
        · -- a file was not read
          rw [handleStoreCommand, if_neg ‹_›, if_pos hread]
          exact ⟨nofun, Drift.refl 2⟩

/-! ### Histories -/

/-- A run of the tool: its arguments, what it meets with, and the outcomes of its calls, as many as
there are before the power is lost.  A call in which the power is lost is the last of them, and is one
that has not succeeded. -/
structure Run (ω : Type) where
  argv : List Text
  surroundings : Surroundings
  outcomes : List ω

/-- The run is to provision the device. -/
def Run.provisions (r : Run ω) : Bool :=
  asksToProvision r.argv

/-- How a run ends on a device with this KCM. -/
def Run.ends (db : KcmStore σ ω) (names : FccNames) (r : Run ω) (s : σ) : Outcome Empty Ended :=
  (run db.machine (main names r.surroundings r.argv) r.outcomes s).1

/-- The KCM when the run has ended. -/
def Run.leaves (db : KcmStore σ ω) (names : FccNames) (r : Run ω) (s : σ) : σ :=
  (run db.machine (main names r.surroundings r.argv) r.outcomes s).2.2

/-- The KCM after one run after the other. -/
def kcmAfter (db : KcmStore σ ω) (names : FccNames) (runs : List (Run ω)) (s : σ) : σ :=
  runs.foldl (fun s r => r.leaves db names s) s

/-- What one of these runs was to write. -/
def WrittenBy (names : FccNames) (runs : List (Run ω)) (key : Key) (data : Bytes) : Prop :=
  ∃ r ∈ runs, r.provisions = true ∧ ToWrite names r.surroundings key data

/-- A run that does not provision the device changes nothing. -/
theorem leaves_of_not_provisions {r : Run ω} {s : σ} (h : r.provisions = false) :
  r.leaves db names s = s
  := by
  obtain ⟨code, hmain⟩ := main_of_not_asksToProvision names r.surroundings h
  rw [Run.leaves, hmain]
  rfl

theorem run_main_drift (hlaws : db.Laws) {r : Run ω} {s : σ} (h : r.provisions = true) :
  Drift (ToWrite names r.surroundings) 2 (db.items s) (db.items (r.leaves db names s))
    ∧ (r.ends db names s = .returned (.exited .success) →
        ∃ items, Loaded names r.surroundings.file items
          ∧ db.items (r.leaves db names s) = (db.items s).putAll items)
  := by
  have hobeys : Obeys db.machine (fun _ _ _ => True) (main names r.surroundings r.argv) r.outcomes
    s := obeys_true
  rw [main_of_asksToProvision h] at hobeys
  have hends := holds_of_wp (wp_storeCommand_drift hlaws) hobeys
  rw [← main_of_asksToProvision h] at hends
  unfold Run.leaves Run.ends
  generalize run db.machine (main names r.surroundings r.argv) r.outcomes s = result at hends ⊢
  obtain ⟨outcome, rest, s'⟩ := result
  cases outcome with
  | returned ended =>
      refine ⟨hends.2, ?_⟩
      intro hsuccess
      cases hsuccess
      exact hends.1 rfl
  | raised e => exact e.elim
  | cut => exact ⟨hends, nofun⟩

/-- Any run after any other: what it adds to the losses. -/
theorem drift_kcmAfter (hlaws : db.Laws) (names : FccNames) (runs : List (Run ω)) (s : σ) :
  Drift (WrittenBy names runs) (2 * runs.countP Run.provisions) (db.items s)
    (db.items (kcmAfter db names runs s))
  := by
  induction runs generalizing s with
  | nil => exact Drift.refl 0
  | cons r runs ih =>
      have hrest : Drift (WrittenBy names (r :: runs)) (2 * runs.countP Run.provisions)
          (db.items (r.leaves db names s)) (db.items (kcmAfter db names (r :: runs) s)) := by
        apply (ih _).mono _ (Nat.le_refl _)
        rintro key data ⟨r', hr', hwrite⟩
        exact ⟨r', List.mem_cons_of_mem r hr', hwrite⟩
      cases hprovisions : r.provisions with
      | false =>
          rw [leaves_of_not_provisions hprovisions] at hrest
          rw [List.countP_cons_of_neg (by simp [hprovisions])]
          exact hrest
      | true =>
          rw [List.countP_cons_of_pos hprovisions,
            show 2 * (runs.countP Run.provisions + 1) = 2 + 2 * runs.countP Run.provisions by omega]
          apply Drift.trans _ hrest
          apply (run_main_drift hlaws hprovisions).1.mono _ (Nat.le_refl 2)
          intro key data hwrite
          exact ⟨r, List.mem_cons_self, hprovisions, hwrite⟩

/-! ### What a run that has succeeded is good for -/

/-- A credential that is listed is there. -/
theorem exists_putAll (kcm : Kcm) {key : Key} (h : key ∈ items.map KCMItem.key) :
  ∃ data, kcm.putAll items key = some data ∧ Listed items key data
  := by
  obtain ⟨item, hitem, rfl⟩ := List.mem_map.mp h
  cases hlast : lastListed items item.key with
  | none =>
      rw [lastListed, Option.map_eq_none_iff, List.find?_eq_none] at hlast
      exact absurd (decide_eq_true rfl) (hlast item (List.mem_reverse.mpr hitem))
  | some data =>
      obtain ⟨last, hlisted⟩ := mem_of_lastListed hlast
      refine ⟨data, ?_, last, hlisted⟩
      rw [Kcm.putAll, hlast, Option.some_or]

/-- Only credentials are written. -/
theorem WrittenBy.mem_keys {runs : List (Run ω)} {key : Key} {data : Bytes}
    (h : WrittenBy names runs key data) :
  key ∈ names.keys
  := by
  obtain ⟨r, -, -, items, hloaded, item, hitem, rfl, -⟩ := h
  rw [← hloaded.map_key]
  exact List.mem_map_of_mem hitem

/-- What is written for a file is its content. -/
theorem WrittenBy.read {runs : List (Run ω)} {f : Key × Text} {data : Bytes}
    (h : WrittenBy names runs f.1 data) (hnodup : names.keys.Nodup) (hf : f ∈ names.files) :
  ∃ r ∈ runs, r.provisions = true ∧ r.surroundings.file (certificatePath f.2) = .read data
  := by
  obtain ⟨r, hr, hprovisions, items, hloaded, item, hitem, hkey, rfl⟩ := h
  exact ⟨r, hr, hprovisions, hloaded.read hnodup hitem hf hkey⟩

theorem WrittenBy.flag {runs : List (Run ω)} {data : Bytes}
    (h : WrittenBy names runs names.useBootstrap.key data) (hnodup : names.keys.Nodup) :
  data = bootstrap_mode_flag
  := by
  obtain ⟨r, -, -, items, ⟨rest, rfl, hrest⟩, item, hitem, hkey, rfl⟩ := h
  rw [FccNames.keys, List.nodup_cons] at hnodup
  obtain rfl | hitem := List.mem_cons.mp hitem
  · rfl
  · obtain ⟨f, hf, hfile⟩ := exists_fromFile hrest hitem
    exfalso
    apply hnodup.1
    rw [← hkey, hfile.1]
    exact List.mem_map_of_mem hf

/-- All credentials but `n` are there.  Each one is the whole content of its file, as a run that
provisioned the device has read it.  All other items are as they were before. -/
structure HasCredentials (names : FccNames) (runs : List (Run ω)) (n : ℕ) (before now : Kcm) :
    Prop where
  fromFile : ∀ f ∈ names.files, ∀ data, now f.1 = some data → ∃ r ∈ runs,
    r.provisions = true ∧ r.surroundings.file (certificatePath f.2) = .read data
  flag : ∀ data, now names.useBootstrap.key = some data → data = bootstrap_mode_flag
  missing : (names.keys.filter fun key => (now key).isNone).length ≤ n
  others : ∀ key ∉ names.keys, now key = before key

/-- After a run that has provisioned the device with success, whatever was there before it, every
later run of any kind, also one that fails or is cut off, loses at most two credentials. -/
theorem hasCredentials_after (hlaws : db.Laws) (before after : List (Run ω)) {run : Run ω} {s : σ}
    (hnodup : names.keys.Nodup) (hprovisions : run.provisions = true)
    (hends : run.ends db names (kcmAfter db names before s) = .returned (.exited .success)) :
  HasCredentials names (run :: after) (2 * after.countP Run.provisions) (db.items s)
    (db.items (kcmAfter db names (before ++ run :: after) s))
  := by
  obtain ⟨items, hloaded, hleaves⟩ := (run_main_drift hlaws hprovisions).2 hends
  have hnow : kcmAfter db names (before ++ run :: after) s
      = kcmAfter db names after (run.leaves db names (kcmAfter db names before s)) := by
    rw [kcmAfter, List.foldl_append]
    rfl
  have hdrift := drift_kcmAfter hlaws names after (run.leaves db names (kcmAfter db names before s))
  have hthere (key : Key) (hkey : key ∈ names.keys) :
      ∃ data, db.items (run.leaves db names (kcmAfter db names before s)) key = some data
        ∧ WrittenBy names (run :: after) key data := by
    rw [← hloaded.map_key] at hkey
    obtain ⟨data, hdata, hlisted⟩ := exists_putAll (db.items (kcmAfter db names before s)) hkey
    rw [← hleaves] at hdata
    exact ⟨data, hdata, run, List.mem_cons_self, hprovisions, items, hloaded, hlisted⟩
  have hwritten (key : Key) (hkey : key ∈ names.keys) (data : Bytes)
      (hdata : db.items (kcmAfter db names (before ++ run :: after) s) key = some data) :
      WrittenBy names (run :: after) key data := by
    rw [hnow] at hdata
    obtain hold | ⟨r, hr, hwrite⟩ := hdrift.own key data hdata
    · obtain ⟨data', hdata', hwrite⟩ := hthere key hkey
      rw [hold] at hdata'
      cases hdata'
      exact hwrite
    · exact ⟨r, List.mem_cons_of_mem run hr, hwrite⟩
  constructor
  · intro f hf data hdata
    have hkey : f.1 ∈ names.keys := List.mem_cons_of_mem _ (List.mem_map_of_mem hf)
    exact (hwritten f.1 hkey data hdata).read hnodup hf
  · intro data hdata
    exact (hwritten _ List.mem_cons_self data hdata).flag hnodup
  · rw [hnow]
    apply hdrift.length_missing_le hnodup
    intro key hkey hnone
    obtain ⟨data, hdata, -⟩ := hthere key hkey
    rw [hdata] at hnone
    contradiction
  · intro key hkey
    apply (drift_kcmAfter hlaws names (before ++ run :: after) s).others key
    intro data hwrite
    exact hkey hwrite.mem_keys

/-- Fifteen different names. -/
def shortNames : FccNames :=
  ⟨[1], [2], [3], [4], [5], [6], [7], [8], [9], [10], [11], [12], [13], [14], [15]⟩

/-- A run with files of one byte each. -/
def oneByteRun (content : UInt8) (outcomes : List KcmStatus) : Run KcmStatus where
  argv := ["pelion-provisioning-util".toList, store_cmd]
  surroundings := ⟨.FCC_STATUS_SUCCESS, .FCC_STATUS_SUCCESS, fun _ => .read [content]⟩
  outcomes := outcomes

/-- The new items can be deleted but not stored. -/
def losingRun : Run KcmStatus :=
  oneByteRun 2 [.KCM_STATUS_SUCCESS, .error 1, .KCM_STATUS_SUCCESS, .error 1]

theorem hasCredentials_after_losingRun :
  HasCredentials shortNames [oneByteRun 1 (List.replicate 30 .KCM_STATUS_SUCCESS), losingRun] 2
    (fun _ => none)
    (kcmAfter KcmStore.allOrNothing shortNames
      [losingRun, oneByteRun 1 (List.replicate 30 .KCM_STATUS_SUCCESS), losingRun] fun _ => none)
  := hasCredentials_after KcmStore.laws_allOrNothing [losingRun] [losingRun] (by decide) (by decide)
    rfl

/-- Such a run does lose two credentials. -/
example :
  (shortNames.keys.filter fun key => (kcmAfter KcmStore.allOrNothing shortNames
    [oneByteRun 1 (List.replicate 30 .KCM_STATUS_SUCCESS), losingRun] (fun _ => none) key).isNone)
    = [⟨[1], .KCM_CONFIG_ITEM⟩, ⟨[13], .KCM_CERTIFICATE_ITEM⟩]
  := by rfl

end Provisioning
