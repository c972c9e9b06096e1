import MblCore.CloudClient.Credentials
import MblCore.Lib.Drift
import MblCore.Lib.Loops
import MblCore.Lib.Text

/-!
# `pelion-provisioning-util`

The tool reads fourteen files and puts them, and a flag, into the KCM.  It may be run again and again,
each time with the files there are then, and every run may fail or be cut off by a loss of power.
-/

namespace Provisioning

open Prog hiding pure throw bind

/-! ### Files -/

/-- What the stream of a file comes to: it is not open, it is not good after `tellg` or after
`seekg`, the vector for the size that `tellg` has returned cannot be made, the read fails, or the
bytes are read. -/
inductive Stream
  | notOpen
  | notGoodAtEnd
  | badSize
  | notGoodAtStart
  | notRead (output : Bytes)
  | read (output : Bytes)
deriving DecidableEq

/-- The exception of the constructor of the vector, which nothing catches. -/
inductive Uncaught
  | badVector
deriving DecidableEq

/-- The macro `MBL_PROVISIONING_CERT_DIR`. -/
def provisioning_cert_path : Text :=
  "/scratch/provisioning-certs".toList

def certificatePath (file_name : Text) : Text :=
  provisioning_cert_path ++ ['/'] ++ file_name

/-- `binary_file_to_bytes`, with what the file at each path comes to. -/
def binaryFileToBytes (file : Text → Stream) (file_name : Text) :
    Except Uncaught (Bytes × ProvisionedStatusCode) :=
  match file (certificatePath file_name) with
  | .notOpen => pure ([], .failure)
  | .notGoodAtEnd => pure ([], .failure)
  | .badSize => throw .badVector
  | .notGoodAtStart => pure ([], .failure)
  | .notRead output => pure (output, .failure)
  | .read output => pure (output, .success)

@[simp]
theorem binaryFileToBytes_eq_ok {file : Text → Stream} {file_name : Text} {output : Bytes} :
  binaryFileToBytes file file_name = .ok (output, .success)
    ↔ file (certificatePath file_name) = .read output
  := by
  unfold binaryFileToBytes
  cases file (certificatePath file_name) <;>
    simp [pure, Except.pure, throw, throwThe, MonadExceptOf.throw]

/-! ### Credentials -/

/-- The names of the factory configurator client. -/
structure FccNames where
  g_fcc_use_bootstrap_parameter_name : Bytes
  g_fcc_endpoint_parameter_name : Bytes
  g_fcc_bootstrap_device_certificate_name : Bytes
  g_fcc_bootstrap_server_ca_certificate_name : Bytes
  g_fcc_bootstrap_device_private_key_name : Bytes
  g_fcc_bootstrap_server_uri_name : Bytes
  g_fcc_manufacturer_parameter_name : Bytes
  g_fcc_model_number_parameter_name : Bytes
  g_fcc_device_serial_number_parameter_name : Bytes
  g_fcc_device_type_parameter_name : Bytes
  g_fcc_hardware_version_parameter_name : Bytes
  g_fcc_memory_size_parameter_name : Bytes
  g_fcc_update_authentication_certificate_name : Bytes
  g_fcc_vendor_id_name : Bytes
  g_fcc_class_id_name : Bytes
deriving DecidableEq

/-- `load_developer_update_certificate`. -/
def loadDeveloperUpdateCertificate (names : FccNames) (file : Text → Stream) :
    Except Uncaught (List KCMItem × ProvisionedStatusCode) := do
  let default_cert_pair ← binaryFileToBytes file "arm_uc_default_certificate.bin".toList
  let vendor_id_pair ← binaryFileToBytes file "arm_uc_vendor_id.bin".toList
  let class_id_pair ← binaryFileToBytes file "arm_uc_class_id.bin".toList
  if ¬ (default_cert_pair.2 = .success ∧ vendor_id_pair.2 = .success
      ∧ class_id_pair.2 = .success) then
    pure ([], .failure)
  else
    pure ([
      ⟨names.g_fcc_update_authentication_certificate_name, .KCM_CERTIFICATE_ITEM,
        default_cert_pair.1⟩,
      ⟨names.g_fcc_vendor_id_name, .KCM_CONFIG_ITEM, vendor_id_pair.1⟩,
      ⟨names.g_fcc_class_id_name, .KCM_CONFIG_ITEM, class_id_pair.1⟩], .success)

/-- The bytes of the `uint32_t` 1 on the device, which is little-endian. -/
def bootstrap_mode_flag : Bytes :=
  [1, 0, 0, 0]

/-- `load_developer_cloud_credentials`. -/
def loadDeveloperCloudCredentials (names : FccNames) (file : Text → Stream) :
    Except Uncaught (List KCMItem × ProvisionedStatusCode) := do
  let dev_bootstrap_endpoint_name ←
    binaryFileToBytes file "MBED_CLOUD_DEV_BOOTSTRAP_ENDPOINT_NAME.bin".toList
  let dev_bootstrap_device_certificate ←
    binaryFileToBytes file "MBED_CLOUD_DEV_BOOTSTRAP_DEVICE_CERTIFICATE.bin".toList
  let dev_bootstrap_server_root_ca_certificate ←
    binaryFileToBytes file "MBED_CLOUD_DEV_BOOTSTRAP_SERVER_ROOT_CA_CERTIFICATE.bin".toList
  let dev_bootstrap_device_private_key ←
    binaryFileToBytes file "MBED_CLOUD_DEV_BOOTSTRAP_DEVICE_PRIVATE_KEY.bin".toList
  let dev_bootstrap_server_uri ←
    binaryFileToBytes file "MBED_CLOUD_DEV_BOOTSTRAP_SERVER_URI.bin".toList
  let dev_manufacturer ← binaryFileToBytes file "MBED_CLOUD_DEV_MANUFACTURER.bin".toList
  let dev_model_number ← binaryFileToBytes file "MBED_CLOUD_DEV_MODEL_NUMBER.bin".toList
  let dev_serial_number ← binaryFileToBytes file "MBED_CLOUD_DEV_SERIAL_NUMBER.bin".toList
  let dev_device_type ← binaryFileToBytes file "MBED_CLOUD_DEV_DEVICE_TYPE.bin".toList
  let dev_hardware_version ← binaryFileToBytes file "MBED_CLOUD_DEV_HARDWARE_VERSION.bin".toList
  let dev_memory_total_kb ← binaryFileToBytes file "MBED_CLOUD_DEV_MEMORY_TOTAL_KB.bin".toList
  if ¬ (dev_bootstrap_endpoint_name.2 = .success
      ∧ dev_bootstrap_device_certificate.2 = .success
      ∧ dev_bootstrap_server_root_ca_certificate.2 = .success
      ∧ dev_bootstrap_device_private_key.2 = .success
      ∧ dev_bootstrap_server_uri.2 = .success
      ∧ dev_manufacturer.2 = .success
      ∧ dev_model_number.2 = .success
      ∧ dev_serial_number.2 = .success
      ∧ dev_device_type.2 = .success
      ∧ dev_hardware_version.2 = .success
      ∧ dev_memory_total_kb.2 = .success) then
    pure ([], .failure)
  else
    pure ([
      ⟨names.g_fcc_use_bootstrap_parameter_name, .KCM_CONFIG_ITEM, bootstrap_mode_flag⟩,
      ⟨names.g_fcc_endpoint_parameter_name, .KCM_CONFIG_ITEM, dev_bootstrap_endpoint_name.1⟩,
      ⟨names.g_fcc_bootstrap_device_certificate_name, .KCM_CERTIFICATE_ITEM,
        dev_bootstrap_device_certificate.1⟩,
      ⟨names.g_fcc_bootstrap_server_ca_certificate_name, .KCM_CERTIFICATE_ITEM,
        dev_bootstrap_server_root_ca_certificate.1⟩,
      ⟨names.g_fcc_bootstrap_device_private_key_name, .KCM_PRIVATE_KEY_ITEM,
        dev_bootstrap_device_private_key.1⟩,
      ⟨names.g_fcc_bootstrap_server_uri_name, .KCM_CONFIG_ITEM, dev_bootstrap_server_uri.1⟩,
      ⟨names.g_fcc_manufacturer_parameter_name, .KCM_CONFIG_ITEM, dev_manufacturer.1⟩,
      ⟨names.g_fcc_model_number_parameter_name, .KCM_CONFIG_ITEM, dev_model_number.1⟩,
      ⟨names.g_fcc_device_serial_number_parameter_name, .KCM_CONFIG_ITEM, dev_serial_number.1⟩,
      ⟨names.g_fcc_device_type_parameter_name, .KCM_CONFIG_ITEM, dev_device_type.1⟩,
      ⟨names.g_fcc_hardware_version_parameter_name, .KCM_CONFIG_ITEM, dev_hardware_version.1⟩,
      ⟨names.g_fcc_memory_size_parameter_name, .KCM_CONFIG_ITEM, dev_memory_total_kb.1⟩], .success)

/-! ### The program -/

/-- The values of `fcc_status_e` that are told apart; `error` is any further one. -/
inductive FccStatus
  | FCC_STATUS_SUCCESS
  | error (n : ℕ)
deriving DecidableEq

/-- What a run of the tool meets with: what `fcc_init` and
`fcc_verify_device_configured_4mbed_cloud` return, and what the files come to. -/
structure Surroundings where
  fcc_init : FccStatus
  fcc_verify : FccStatus
  file : Text → Stream

/-- `PelionProvisioner::init`. -/
def init (s : Surroundings) : ProvisionedStatusCode :=
  if s.fcc_init ≠ .FCC_STATUS_SUCCESS then .failure else .success

/-- `PelionProvisioner::get_provisioned_status`. -/
def getProvisionedStatus (s : Surroundings) : ProvisionedStatusCode :=
  if s.fcc_verify ≠ .FCC_STATUS_SUCCESS then .failure else .success

/-- The process has exited, or `std::terminate` has ended it. -/
inductive Ended
  | exited (code : ExitCode)
  | terminated
deriving DecidableEq

/-- `handle_store_command`.  Nothing is loaded before the provisioner is initialised. -/
def storeCommand (names : FccNames) (s : Surroundings) : Tool Ended :=
  let init_status := init s
  if init_status ≠ .success then pure (.exited .failure)
  else
    match loadDeveloperCloudCredentials names s.file with
    | .error _ => pure .terminated
    | .ok dev_cert_table =>
        match loadDeveloperUpdateCertificate names s.file with
        | .error _ => pure .terminated
        | .ok update_cert_table => do
            let code ← handleStoreCommand init_status dev_cert_table update_cert_table
            pure (.exited code)

/-- `handle_status_command`. -/
def handleStatusCommand (s : Surroundings) : ExitCode :=
  if init s ≠ .success then .failure
  else if getProvisionedStatus s ≠ .success then .failure
  else .success

def store_cmd : Text := "--provision".toList

def pelion_status_cmd : Text := "--get-pelion-status".toList

def help : Text := "--help".toList

/-- The loop of `main`.  It looks at the name of the program as well. -/
def mainLoop (names : FccNames) (s : Surroundings) : List Text → Tool Ended
  | [] => pure (.exited .incorrect_args)
  | arg :: argv =>
      if arg = store_cmd then storeCommand names s
      else if arg = pelion_status_cmd then pure (.exited (handleStatusCommand s))
      else if arg = help then pure (.exited .success)
      else mainLoop names s argv

def main (names : FccNames) (s : Surroundings) (argv : List Text) : Tool Ended :=
  if argv.length > 2 then pure (.exited .incorrect_args)
  else mainLoop names s argv

end Provisioning
