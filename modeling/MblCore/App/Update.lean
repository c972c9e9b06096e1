import MblCore.App.Manager

/-!
# `mbl-app-update-manager`

An update package is a tar archive of packages.  `manager.py` unpacks it, installs every
application beside the version that is there, stops the versions that run, runs the new ones
and removes the previous ones.
-/

namespace App

/-! ### Unpacking -/

def IPKS_EXTRACTION_PATH : Text :=
  "/mnt/cache/opkg/src_ipk".toList

def APPS_INSTALLATION_PATH : FilePath :=
  APPS_PATH

/-- `os.path.dirname`. -/
def dirname (text : Text) : Text :=
  let head := text.rdropWhile (· != '/')
  if head.all (· == '/') then head else head.rdropWhile (· == '/')

/-- `os.path.join` of texts. -/
def joinText (dir name : Text) : Text :=
  if name.head? = some '/' then name else dir ++ '/' :: name

/-- `str.lower`, where the result is a character of the ASCII set: the Kelvin sign is one. -/
def lower (c : Char) : Char :=
  if c.toNat = 0x212A then 'k' else c.toLower

/-- An update package: its path, and the members of the archive if it is a tar archive. -/
structure UpdatePkg where
  path : Text
  members : Option (List TarInfo)

def validateArchiveMember (update_pkg : Text) (tar_info : TarInfo) : Except PyException Bool :=
  if ¬ ".ipk".toList <:+ tar_info.name.map lower then .ok false
  else if ¬ tar_info.isfile then
    .error ⟨.IllegalPackage, "'".toList ++ tar_info.name ++ "' found in package '".toList
      ++ update_pkg ++ "' isn't regular file".toList⟩
  else if dirname tar_info.name ≠ [] then
    .error ⟨.IllegalPackage, "Directories are not expected to be found in package '".toList
      ++ update_pkg ++ "' however '".toList ++ tar_info.name ++ "' was found".toList⟩
  else .ok true

/-- The members that are packages. -/
def getIpksFromPkg (update_pkg : Text) : List TarInfo → Except PyException (List TarInfo)
  | [] => .ok []
  | tar_info :: tar_file => do
      let valid ← validateArchiveMember update_pkg tar_info
      let members ← getIpksFromPkg update_pkg tar_file
      return if valid then tar_info :: members else members

def unpack (update_pkg : UpdatePkg) : Py (List Text) := do
  match update_pkg.members with
  | none => raise .IllegalPackage ("Package '".toList ++ update_pkg.path
      ++ "' is not a tar file".toList)
  | some tar_file =>
      let members ← ofExcept (getIpksFromPkg update_pkg.path tar_file)
      if members = [] then
        raise .IllegalPackage ("No 'ipk' file found in package '".toList ++ update_pkg.path
          ++ "'".toList)
      else
        match ← issue (.extractall IPKS_EXTRACTION_PATH members) with
        | some error => raise .IllegalPackage ("Unarchiving package '".toList ++ update_pkg.path
            ++ "' failed, error: ".toList ++ error)
        | none => pure (members.map TarInfo.name)

/-! ### Records of applications -/

/-- Record of application. -/
structure AppRecord where
  name : Text
  cur_bundle_path : Option FilePath
  new_bundle_path : FilePath
  ipk_path : Text
deriving DecidableEq

/-- Which bundle of an application is meant: the previous or the new one. -/
abbrev PathAttr := AppRecord → Option FilePath

def CURRENT_BUNDLE_PATH : PathAttr :=
  AppRecord.cur_bundle_path

def NEW_BUNDLE_PATH : PathAttr :=
  fun app => some app.new_bundle_path

/-- Remove applications' current or previous bundle. -/
def removeAppsBundles (path_attr : PathAttr) (installed_apps : List AppRecord) : Py Unit :=
  Prog.forEach installed_apps fun app =>
    match path_attr app with
    | none => pure ()
    | some path => removeApp app.name path

/-! ### Installing -/

def humanSort (l : List FilePath) : Except PyException (List FilePath) :=
  (Text.humanSort? .unicode pathText l).mapError sortException

/-- `os.path.basename` of a directory that `os.walk` comes by in the directory of an
application: that directory itself is called as it is by the name of the application. -/
def versionName (app_name : Text) (app_parent_dir path : FilePath) : Text :=
  if path = app_parent_dir then basename app_name else basename (pathText path)

/-- The current and next paths for an app installation.  There is no result when the directory
of the application is there and no bundle is in it. -/
def getAppBundlePaths (app_name : Text) : Py (Option (Option FilePath × FilePath)) := do
  let app_parent_dir := joinPath APPS_INSTALLATION_PATH app_name
  if ← issue (.isdir app_parent_dir) then
    let app_version_dirs ← ofExcept (humanSort (← getOciBundlePaths app_parent_dir app_name))
    match app_version_dirs.head?, app_version_dirs.getLast? with
    | some current_path, some last =>
        match intOf? (versionName app_name app_parent_dir last) with
        | none => raise .ValueError []
        | some latest_app_version =>
            pure (some (some current_path,
              joinPath app_parent_dir (intText (latest_app_version + 1))))
    | _, _ => pure none
  else pure (some (none, joinPath app_parent_dir "0".toList))

def manageAppInstallation (ipk_path : Text) : Py AppRecord := do
  let app_name ← getAppName ipk_path
  match ← getAppBundlePaths app_name with
  | none => raise .TypeError []
  | some (cur_bundle_path, new_bundle_path) =>
      installApp ipk_path new_bundle_path
      pure ⟨app_name, cur_bundle_path, new_bundle_path, ipk_path⟩

/-- An application could not be installed: some may have been successfully installed, remove
them. -/
def removeAfterInstallError (installed_apps : List AppRecord) {α : Type}
    (install_error : PyException) : Py α := do
  match ← catching (removeAppsBundles NEW_BUNDLE_PATH installed_apps) [.AppUninstallError] with
  | .error uninstall_error => .throw uninstall_error
  | .ok _ => .throw install_error

/-- Install application(s) from ipk(s), after those that have been installed. -/
def installAppsFrom (installed_apps : List AppRecord) : List Text → Py (List AppRecord)
  | [] => pure installed_apps
  | ipk :: ipks => do
      match ← catching (manageAppInstallation (joinText IPKS_EXTRACTION_PATH ipk))
          [.AppIdError, .AppInstallError] with
      | .ok app => installAppsFrom (installed_apps ++ [app]) ipks
      | .error install_error => removeAfterInstallError installed_apps install_error

def installApps (ipks : List Text) : Py (List AppRecord) :=
  installAppsFrom [] ipks

/-! ### Running -/

def ROLLBACK_EXCEPTIONS : List ExceptionClass :=
  [.ContainerKillError, .ContainerDeleteError, .AppPathInexistent, .AppUninstallError,
    .AppStopTimeoutError, .ContainerCreationError, .ContainerStartError]

/-- What is caught where an application is terminated, and where it is run. -/
def TERMINATE_EXCEPTIONS : List ExceptionClass :=
  [.ContainerKillError, .ContainerDeleteError, .AppStopTimeoutError]

def RUN_EXCEPTIONS : List ExceptionClass :=
  [.ContainerCreationError, .ContainerStartError]

def terminate (app_name : Text) : Py Unit :=
  terminateApp app_name DEFAULT_TIMEOUT_AFTER_SIGTERM DEFAULT_TIMEOUT_AFTER_SIGKILL

def stopAllNewlyInstalledApps (installed_apps : List AppRecord) : Py Unit :=
  Prog.forEach installed_apps fun app => do
    match ← catching (terminate app.name) TERMINATE_EXCEPTIONS with
    | .ok _ => pure ()
    | .error terminate_error =>
        -- not all new app versions may have been started
        if saysDoesNotExist terminate_error then pure () else .throw terminate_error

/-- The source catches the errors of `run_app` and raises them again. -/
def runPreviousAppVersions (installed_apps : List AppRecord) : Py Unit :=
  Prog.forEach installed_apps fun app =>
    match app.cur_bundle_path with
    | none => pure ()
    | some cur_bundle_path => runApp app.name cur_bundle_path

/-- Revert to previous installation of applications. -/
def rollbackApps (installed_apps : List AppRecord) : Py Unit := do
  issue (.log (.rollBack (installed_apps.map AppRecord.name)))
  stopAllNewlyInstalledApps installed_apps
  removeAppsBundles NEW_BUNDLE_PATH installed_apps
  runPreviousAppVersions installed_apps

/-- Roll back after an error, and raise the error of the rollback or else the one before. -/
def rollbackAfter (installed_apps : List AppRecord) (error : PyException) : Py Unit := do
  match ← catching (rollbackApps installed_apps) ROLLBACK_EXCEPTIONS with
  | .error rollback_error => .throw rollback_error
  | .ok _ => .throw error

/-- `try p` with an `except` clause that rolls back. -/
def orRollBack (installed_apps : List AppRecord) (p : Py Unit) (classes : List ExceptionClass) :
    Py Unit := do
  match ← catching p classes with
  | .ok _ => pure ()
  | .error error => rollbackAfter installed_apps error

def stopRunningVersions (installed_apps : List AppRecord) : Py Unit :=
  Prog.forEach installed_apps fun app => do
    issue (.log (.stopRunning app.name))
    orRollBack installed_apps (terminate app.name) TERMINATE_EXCEPTIONS

def runNewInstalledVersions (installed_apps : List AppRecord) : Py Unit :=
  Prog.forEach installed_apps fun app => do
    issue (.log (.runNew app.name app.new_bundle_path))
    orRollBack installed_apps (runApp app.name app.new_bundle_path) RUN_EXCEPTIONS

/-- Remove previous application(s) installation.  The source catches errors and raises them
again. -/
def removePreviousVersions (installed_apps : List AppRecord) : Py Unit :=
  removeAppsBundles CURRENT_BUNDLE_PATH installed_apps

/-- What `start_installed_apps` does before it removes the previous versions. -/
def switchVersions (installed_apps : List AppRecord) : Py Unit := do
  stopRunningVersions installed_apps
  runNewInstalledVersions installed_apps

def startInstalledApps (installed_apps : List AppRecord) : Py Unit := do
  switchVersions installed_apps
  removePreviousVersions installed_apps

/-- Run mbl-app-update-manager, and tell the applications that were updated. -/
def runMblAppUpdateManager (update_pkg : UpdatePkg) : Py (List AppRecord) := do
  let ipks ← unpack update_pkg
  let installed_apps ← installApps ipks
  startInstalledApps installed_apps
  pure installed_apps

end App
