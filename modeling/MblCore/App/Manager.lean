import MblCore.App.Lifecycle

/-!
# `mbl-app-manager`

Packages are installed and removed with `opkg` as in `manager.py`, and named by the control data
that `opkg info` prints, as in `parser.py`.
-/

namespace App

/-! ### `parser.py` -/

/-- One line of the control data: a field and its value, or nothing when there is no colon. -/
def parseLine (line : Text) : Except PyException (Option (Text × Text)) :=
  match line.splitOn ':' with
  | [_] => .ok none
  | [field, value] => .ok (some (rstrip field, lstrip value))
  | _ => .error ⟨.ValueError, []⟩

/-- The entries of the lines, the last one first. -/
def parseLines : List Text → List (Text × Text) → Except PyException (List (Text × Text))
  | [], pkg_info => .ok pkg_info
  | line :: lines, pkg_info => do
      match ← parseLine line with
      | none => parseLines lines pkg_info
      | some entry => parseLines lines (entry :: pkg_info)

/-- What is in the control data: the value of a field is the one of its last line. -/
def parseControlData (app_pkg app_ctrl_data : Text) :
    Except PyException (List (Text × Text)) := do
  let pkg_info ← parseLines (app_ctrl_data.splitOn '\n') []
  if pkg_info.lookup "Package".toList = none then
    .error ⟨.AppInfoParserError, cmdMessage "'".toList app_pkg
      "' control data does not have a 'Package' field".toList [] []⟩
  else
    return pkg_info

def parseAppInfo (app_pkg : Text) : Py (List (Text × Text)) := do
  let result ← issue (.opkgInfo app_pkg)
  let text ← decode result.stdout
  if result.ok then ofExcept (parseControlData app_pkg text)
  else raise .AppInfoParserError (cmdMessage "Getting package info from '".toList app_pkg
    "' failed, error: ".toList text [])

/-! ### `manager.py` -/

def getAppName (app_pkg : Text) : Py Text := do
  match ← catching (parseAppInfo app_pkg) [.AppInfoParserError] with
  | .error error =>
      raise .AppIdError (cmdMessage "Getting the app name from '".toList app_pkg
        "' failed, error: ".toList error.msg [])
  | .ok pkg_info =>
      match pkg_info.lookup "Package".toList with
      | some app_name => pure app_name
      | none => raise .KeyError []

/-- Remove the directory of an application in which nothing is left. -/
def removeEmptyParent (app_parent_dir : FilePath) : Py Unit := do
  let names ← issue (.listdir app_parent_dir)
  if names = [] ∧ app_parent_dir ≠ APPS_PATH then rmtree app_parent_dir else pure ()

def removeApp (app_name : Text) (app_path : FilePath) : Py Unit := do
  if ← issue (.isdir app_path) then
    let result ← issue (.opkgRemove app_name app_path)
    if result.ok then
      rmtree app_path
      removeEmptyParent app_path.dropLast
    else
      let error ← errorText result
      raise .AppUninstallError ("Removing '".toList ++ app_name ++ "' at '".toList
        ++ pathText app_path ++ "' failed, error: ".toList ++ error)
  else raise .AppPathInexistent ("The application path '".toList ++ pathText app_path
    ++ "' does not exist".toList)

/-- Remove what there is of an application that was partly installed. -/
def cleanUp (app_name : Text) (app_path : FilePath) : Py Unit := do
  if ← issue (.exists_ app_path) then removeApp app_name app_path else pure ()

def installApp (app_pkg : Text) (app_path : FilePath) : Py Unit := do
  let app_name ← getAppName app_pkg
  let result ← issue (.opkgInstall app_name app_path app_pkg)
  if result.ok then pure ()
  else
    let error ← errorText result
    cleanUp app_name app_path
    raise .AppInstallError ("Installing '".toList ++ app_pkg ++ "' at '".toList
      ++ pathText app_path ++ "' failed, error: '".toList ++ error ++ "'".toList)

end App
