import MblCore.Lib.Prog
import MblCore.Lib.Struct
import Mathlib.Logic.Function.Basic

/-!
# `provisioning.cpp`

The provisioning tool stores the credentials of the device in the key and configuration store of
the cloud client, the KCM.  An item of the KCM is found by its name and its type.  What a call of the
KCM returns is chosen by the environment, and a call that fails changes nothing.
-/

namespace Provisioning

/-! ### The key and configuration store -/

/-- The types of items that the tool stores, and the others there are. -/
inductive KcmItemType
  | KCM_CERTIFICATE_ITEM
  | KCM_CONFIG_ITEM
  | KCM_PRIVATE_KEY_ITEM
  | other (n : ℕ)
deriving DecidableEq

/-- The values of `kcm_status_e` that are told apart; `error` is any further one. -/
inductive KcmStatus
  | KCM_STATUS_SUCCESS
  | KCM_STATUS_ITEM_NOT_FOUND
  | error (n : ℕ)
deriving DecidableEq

/-- What an item is found by. -/
structure Key where
  name : Bytes
  type : KcmItemType
deriving DecidableEq

/-- The data of the items that are stored. -/
abbrev Kcm := Key → Option Bytes

inductive Call
  | kcmItemDelete (key : Key)
  | kcmItemStore (key : Key) (is_factory : Bool) (data : Bytes)
deriving DecidableEq

/-- Every call returns a status. -/
abbrev Reply (_ : Call) : Type :=
  KcmStatus

/-- A call takes effect just when it succeeds. -/
def perform : (c : Call) → KcmStatus → Kcm → Reply c × Kcm
  | .kcmItemDelete key, status, kcm =>
      (status, if status = .KCM_STATUS_SUCCESS then Function.update kcm key none else kcm)
  | .kcmItemStore key _ data, status, kcm =>
      (status, if status = .KCM_STATUS_SUCCESS then Function.update kcm key (some data) else kcm)

/-- The record of the calls and of what they returned. -/
abbrev Record := List ((c : Call) × Reply c)

/-- The KCM answers the calls, and a record of them is kept. -/
def machine : Prog.Machine Call Reply KcmStatus (Kcm × Record) :=
  Prog.Machine.traced { perform := perform }

/-! ### The provisioner -/

inductive ProvisionedStatusCode
  | success
  | failure
deriving DecidableEq

/-- `KCMItem`. -/
structure KCMItem where
  name : Bytes
  type : KcmItemType
  data_blob : Bytes
deriving DecidableEq

def KCMItem.key (item : KCMItem) : Key :=
  ⟨item.name, item.type⟩

/-- A function of the tool.  None of them throws. -/
abbrev Tool := Prog Call Reply Empty

/-- `PelionProvisioner::store`. -/
def store : List KCMItem → Tool ProvisionedStatusCode
  | [] => pure .success
  | item :: certificate => do
      let kcm_delete_status ← Prog.issue (.kcmItemDelete item.key)
      if kcm_delete_status ≠ .KCM_STATUS_SUCCESS
          ∧ kcm_delete_status ≠ .KCM_STATUS_ITEM_NOT_FOUND then
        pure .failure
      else
        let kcm_store_status ← Prog.issue (.kcmItemStore item.key true item.data_blob)
        if kcm_store_status ≠ .KCM_STATUS_SUCCESS then pure .failure
        else store certificate

inductive ExitCode
  | success
  | failure
  | incorrect_args
deriving DecidableEq

/-- `handle_store_command`, with what initialising the provisioner and loading the two tables of
credentials has come to.  The second table is stored also when the first one was not. -/
def handleStoreCommand (init_status : ProvisionedStatusCode)
    (dev_cert_table update_cert_table : List KCMItem × ProvisionedStatusCode) : Tool ExitCode := do
  if init_status ≠ .success then pure .failure
  else if ¬ (dev_cert_table.2 = .success ∧ update_cert_table.2 = .success) then pure .failure
  else
    let dev_ret_val ← store dev_cert_table.1
    let uc_ret_val ← store update_cert_table.1
    if dev_ret_val ≠ .success then pure .failure
    else if uc_ret_val ≠ .success then pure .failure
    else pure .success

end Provisioning
