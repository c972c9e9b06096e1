import MblCore.Swupdate.Installers
import MblCore.Swupdate.RootfsHandler

/-!
# `arm_update_activate.sh`

The script that applies an update payload.  swupdate calls the registered handler of each image
in turn and stops at the first one that fails.  Each handler commits what it does on its own,
and nothing takes it back when a later one fails.  What the script leaves as it was when it
fails is therefore what no handler got far enough to commit.
-/

namespace Swupdate

/-- The kinds of images handlers are registered for. -/
inductive ImgType
  | ROOTFS
  | BOOT
  | WKS_BOOTLOADER1
  | WKS_BOOTLOADER2
  | APPS
deriving DecidableEq

/-- An image of the payload and its kind. -/
structure PayloadImage where
  type : ImgType
  img : Img
deriving DecidableEq

variable (dirs : Dirs)

/-- The handler in Lua for the images of a kind, if there is one. -/
def ImgType.handler : ImgType → Option Lua.Handler
  | ROOTFS => none
  | BOOT => some .boot
  | WKS_BOOTLOADER1 => some .wks_bootloader1
  | WKS_BOOTLOADER2 => some .wks_bootloader2
  | APPS => some .apps

/-- The image has no handler in Lua, or it is passed on to its installer as it is named. -/
def PayloadImage.PassedOn (image : PayloadImage) : Prop :=
  ∀ h ∈ image.type.handler, Swupdate.PassedOn dirs h image.img

def AllPassedOn (images : List PayloadImage) : Prop :=
  ∀ image ∈ images, image.PassedOn dirs

/-- The handler registered for the kind of the image. -/
def callHandler (image : PayloadImage) : Script Int :=
  match image.type with
  | .ROOTFS => rootfsv4Handler dirs copyImageAndSync image.img
  | .BOOT => boot dirs image.img
  | .WKS_BOOTLOADER1 => wksBootloader1 dirs image.img
  | .WKS_BOOTLOADER2 => wksBootloader2 dirs image.img
  | .APPS => apps dirs image.img

/-- Call the handlers of the images in turn, up to the first one that fails. -/
def callHandlers : List PayloadImage → Script Bool
  | [] => do
      issue .swupdateDone
      pure true
  | image :: images => do
      if (← callHandler dirs image) ≠ 0 then pure false else callHandlers images

/-- `swupdate -i`. -/
def swupdate (path : Text) (images : List PayloadImage) : Script Bool := do
  if ← issue (.swupdateOpen path) then callHandlers dirs images else pure false

def setUpPayloadTmpDirOrDie : Script Unit := do
  orDie 22 (issue (.rmRf dirs.PAYLOAD_TMP_DIR))
  orDie 23 (issue (.mkdirP dirs.PAYLOAD_TMP_DIR))

def saveHeaderOrDie (shodHeader : Text) : Script Unit :=
  orDie 21 (issue (.cpHeader shodHeader))

/-- What follows the call of swupdate. -/
def finishActivation (HEADER : Text) : Script Unit := do
  saveHeaderOrDie HEADER
  if ← issue (.testE (doNotRebootPath dirs)) then
    let status ← issue .systemctlRestart
    exitOnError status
  else pure ()

/-- The main code of `arm_update_activate.sh`.  The exit handler only removes the directory of
the payload. -/
def armUpdateActivate (HEADER FIRMWARE : Text) (images : List PayloadImage) : Script Unit := do
  match ← issue (.realpath FIRMWARE) with
  | none => .throw 24
  | some FIRMWARE_PATH =>
      setUpPayloadTmpDirOrDie dirs
      issue (.touch (doNotRebootPath dirs))
      if ← swupdate dirs FIRMWARE_PATH images then finishActivation dirs HEADER else .throw 25

end Swupdate
