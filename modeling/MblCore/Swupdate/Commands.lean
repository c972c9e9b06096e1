import MblCore.Lib.Lookup
import MblCore.Lib.Shell
import MblCore.Swupdate.Device

/-!
# The command lines of `swupdate_handlers.lua`

The handlers written in Lua put the file name of an image into a path, and the path into a command
line for the shell.  Whether the image and the installer are where they are meant to be depends on
the characters of the file name.
-/

namespace Swupdate

namespace Lua

open FileTree

/-! ### The handlers -/

/-- The calls of the handlers. -/
inductive Call
  | copy2file (img_path : Text)
  /-- `os.execute`. -/
  | execute (cmd : Text)
deriving DecidableEq

/-- What `os.execute` returns. -/
structure Executed where
  success : Bool
  err : Int
deriving DecidableEq

/-- What a call is answered with. -/
abbrev Reply : Call → Type
  | .copy2file _ => Int
  | .execute _ => Executed

/-- A function of the handlers.  It raises no errors. -/
abbrev Function := Prog Call Reply Empty

variable (dirs : Dirs)

/-- `string.format("%s/%s", PAYLOAD_TMP_DIR, tostring(image.filename))`. -/
def imagePath (filename : Text) : Text :=
  dirs.PAYLOAD_TMP_DIR ++ "/".toList ++ filename

/-- `string.format("%s %s", installer_path, image_path)`. -/
def command (installer_path image_path : Text) : Text :=
  installer_path ++ " ".toList ++ image_path

def copyImageToFile (filename : Text) : Function (Option Text × Int) := do
  let img_path := imagePath dirs filename
  let err : Int ← Prog.issue (Call.copy2file img_path)
  if err ≠ 0 then pure (none, 1) else pure (some img_path, 0)

def runInstaller (installer_path image_path : Text) : Function Int := do
  let cmd := command installer_path image_path
  let executed : Executed ← Prog.issue (Call.execute cmd)
  if executed.success ≠ true then pure 1
  else if executed.err ≠ 0 then pure 1
  else pure 0

/-- What every handler does, with its own installer. -/
def installWith (installer_path filename : Text) : Function Int := do
  let (img_path, cp_err) ← copyImageToFile dirs filename
  if cp_err ≠ 0 then pure 1
  else
    let ri_err ← runInstaller installer_path (img_path.getD "nil".toList)
    if ri_err ≠ 0 then pure 1 else pure 0

def wksBootloader1 (filename : Text) : Function Int :=
  installWith dirs "/opt/arm/bootloader_installer.sh".toList filename

def wksBootloader2 (filename : Text) : Function Int :=
  installWith dirs "/opt/arm/bootloader_installer.sh".toList filename

def boot (filename : Text) : Function Int :=
  installWith dirs "/opt/arm/boot_partition_installer.sh".toList filename

def apps (filename : Text) : Function Int :=
  installWith dirs "/opt/arm/apps_installer.sh".toList filename

/-- The handlers that are registered. -/
inductive Handler
  | wks_bootloader1
  | wks_bootloader2
  | boot
  | apps
deriving DecidableEq

namespace Handler

def run : Handler → Text → Function Int
  | wks_bootloader1 => Lua.wksBootloader1 dirs
  | wks_bootloader2 => Lua.wksBootloader2 dirs
  | boot => Lua.boot dirs
  | apps => Lua.apps dirs

/-- The path of the installer. -/
def installer : Handler → Text
  | wks_bootloader1 | wks_bootloader2 => "/opt/arm/bootloader_installer.sh".toList
  | boot => "/opt/arm/boot_partition_installer.sh".toList
  | apps => "/opt/arm/apps_installer.sh".toList

theorem run_eq (h : Handler) (filename : Text) :
  h.run dirs filename = installWith dirs h.installer filename
  := by cases h <;> rfl

/-- The path of an installer represents itself in a command line. -/
theorem plain_installer (h : Handler) :
  h.installer ≠ [] ∧ (∀ c ∈ h.installer, Shell.isPlain c = true) ∧ h.installer.head? ≠ some '#'
  := by
  have hplain : h.installer.all Shell.isPlain = true := by cases h <;> rfl
  refine ⟨?_, List.all_eq_true.mp hplain, ?_⟩ <;> cases h <;> decide

end Handler

/-! ### What is asked of the calls -/

/-- The path of a directory as it is set at build time: absolute, and made of characters that
represent themselves in a command line. -/
structure IsPlainDir (dir : Text) : Prop where
  absolute : dir.head? = some '/'
  plain : ∀ c ∈ dir, Shell.isPlain c = true

/-- The path leads to an entry of the directory. -/
def DirectlyInside (dir path : Text) : Prop :=
  ∃ name, lexical [] (partsOf path) = lexical [] (partsOf dir) ++ [name]

theorem directlyInside_iff_dropLast {dir path : Text} :
  DirectlyInside dir path ↔ lexical [] (partsOf path) ≠ []
    ∧ (lexical [] (partsOf path)).dropLast = lexical [] (partsOf dir)
  := by
  constructor
  · rintro ⟨name, hname⟩
    simp [hname]
  · rintro ⟨hne, hdropLast⟩
    use (lexical [] (partsOf path)).getLast hne
    rw [← hdropLast, List.dropLast_concat_getLast]

instance (dir path : Text) : Decidable (DirectlyInside dir path) :=
  decidable_of_iff (lexical [] (partsOf path) ≠ []
    ∧ (lexical [] (partsOf path)).dropLast = lexical [] (partsOf dir)) directlyInside_iff_dropLast.symm

/-- The image is written directly into the directory for the payload, and the command line is the
path of the installer with that of the image as its only argument. -/
def AsWritten (h : Handler) (filename : Text) : Call → Prop
  | .copy2file img_path =>
      img_path = imagePath dirs filename ∧ DirectlyInside dirs.PAYLOAD_TMP_DIR img_path
  | .execute cmd => Shell.words cmd = some [h.installer, imagePath dirs filename]

/-- In its normal form the file name is one name, or it leads up some steps from the directory for
the payload and comes back to it with one more name. -/
def StaysInside (filename : Text) : Prop :=
  ∃ name, (normal (partsOf filename)).2
    = (lexical [] (partsOf dirs.PAYLOAD_TMP_DIR)).drop
        ((lexical [] (partsOf dirs.PAYLOAD_TMP_DIR)).length - (normal (partsOf filename)).1)
      ++ [name]

variable {dirs}

/-- The path of an image leads directly into the directory just when its file name stays there. -/
theorem directlyInside_iff {filename : Text} :
  DirectlyInside dirs.PAYLOAD_TMP_DIR (imagePath dirs filename) ↔ StaysInside dirs filename
  := by
  have hparts : partsOf (imagePath dirs filename)
      = partsOf dirs.PAYLOAD_TMP_DIR ++ partsOf filename := by
    rw [imagePath, List.append_assoc]
    apply List.splitOn_append_cons_self
  unfold DirectlyInside
  rw [hparts, lexical_append]
  exact exists_lexical_concat_iff

/-- The command line is read as it was written just when the file name represents itself. -/
theorem words_command_iff (hdir : IsPlainDir dirs.PAYLOAD_TMP_DIR) (h : Handler)
    {filename : Text} :
  Shell.words (command h.installer (imagePath dirs filename))
      = some [h.installer, imagePath dirs filename]
    ↔ ∀ c ∈ filename, Shell.isPlain c = true
  := by
  obtain ⟨hne, hplain, hcomment⟩ := h.plain_installer
  obtain ⟨dir, hdir'⟩ : ∃ dir, dirs.PAYLOAD_TMP_DIR = '/' :: dir := by
    have habsolute := hdir.absolute
    cases hcons : dirs.PAYLOAD_TMP_DIR with
    | nil => simp [hcons] at habsolute
    | cons c dir =>
        rw [hcons] at habsolute
        exact ⟨dir, by rw [Option.some.inj habsolute]⟩
  have hpath : imagePath dirs filename = '/' :: (dir ++ "/".toList ++ filename) := by
    rw [imagePath, hdir']
    rfl
  have hline : command h.installer (imagePath dirs filename)
      = h.installer ++ ' ' :: '/' :: (dir ++ "/".toList ++ filename) := by
    rw [command, hpath, List.append_assoc]
    rfl
  rw [hline, hpath, Shell.words_pair_iff hne hplain hcomment (by decide) (by decide)]
  have hdirPlain : ∀ c ∈ dir, Shell.isPlain c = true :=
    fun c hc => hdir.plain c (hdir' ▸ List.mem_cons_of_mem '/' hc)
  constructor
  · exact fun hall c hc => hall c (List.mem_append_right _ hc)
  · intro hall c hc
    rcases List.mem_append.mp hc with hc | hc
    · rcases List.mem_append.mp hc with hc | hc
      · exact hdirPlain c hc
      · obtain rfl := List.mem_singleton.mp hc
        decide
    · exact hall c hc

/-- A handler that has saved its image issues one command line. -/
theorem issues_runInstaller {calls : Call → Prop} {installer_path image_path : Text} :
  Prog.Issues calls (runInstaller installer_path image_path)
    ↔ calls (.execute (command installer_path image_path))
  := by
  constructor
  · exact fun h => h.1
  · intro h
    use h
    intro executed
    change Prog.Issues calls (if executed.success ≠ true then _ else _)
    split
    · trivial
    · split <;> trivial

/-- The calls of a handler: one that saves the image and, if that succeeds, one that runs the
installer. -/
theorem issues_installWith {calls : Call → Prop} {installer_path filename : Text} :
  Prog.Issues calls (installWith dirs installer_path filename)
    ↔ calls (.copy2file (imagePath dirs filename))
      ∧ calls (.execute (command installer_path (imagePath dirs filename)))
  := by
  constructor
  · rintro ⟨hcopy, hrest⟩
    exact ⟨hcopy, (hrest (0 : Int)).1⟩
  · rintro ⟨hcopy, hexecute⟩
    use hcopy
    intro (err : Int)
    by_cases herr : err = 0
    · subst herr
      apply (issues_runInstaller.mpr hexecute).bind
      intro ri_err
      split <;> trivial
    · change Prog.Issues calls (Prog.bind (if err ≠ 0 then Prog.pure (none, 1)
        else Prog.pure (some (imagePath dirs filename), 0)) _)
      rw [if_pos herr]
      trivial

/-- Every image is written where it is meant to be, and every command line is what it is meant to
be, just when the file name stays in the directory for the payload and all its characters represent
themselves in a command line. -/
theorem asWritten_iff (hdir : IsPlainDir dirs.PAYLOAD_TMP_DIR) (h : Handler) (filename : Text) :
  Prog.Issues (AsWritten dirs h filename) (h.run dirs filename)
    ↔ StaysInside dirs filename ∧ ∀ c ∈ filename, Shell.isPlain c = true
  := by
  rw [h.run_eq, issues_installWith, ← directlyInside_iff, ← words_command_iff hdir h]
  constructor
  · rintro ⟨⟨-, hinside⟩, hwords⟩
    exact ⟨hinside, hwords⟩
  · rintro ⟨hinside, hwords⟩
    exact ⟨⟨rfl, hinside⟩, hwords⟩

/-- The directory for the payload as the build sets it. -/
def defaultDirs : Dirs where
  BOOTFLAGS_DIR := "/var/bootflags".toList
  TMP_DIR := "/tmp".toList
  PAYLOAD_TMP_DIR := "/tmp/arm_update_activate".toList
  PART_INFO_DIR := "/config/factory/part-info".toList

/-- An ordinary file name. -/
theorem asWritten_plainName :
  Prog.Issues (AsWritten defaultDirs .boot "boot-1.2.tar.xz".toList)
    (Handler.boot.run defaultDirs "boot-1.2.tar.xz".toList)
  := by
  have hdir : IsPlainDir defaultDirs.PAYLOAD_TMP_DIR :=
    ⟨by decide, List.all_eq_true.mp (by rfl)⟩
  apply (asWritten_iff hdir .boot "boot-1.2.tar.xz".toList).mpr
  exact ⟨⟨"boot-1.2.tar.xz".toList, by decide⟩, List.all_eq_true.mp (by rfl)⟩

/-- A file name with a semicolon: the command line is none of words only. -/
theorem not_asWritten_semicolon :
  ¬ Prog.Issues (AsWritten defaultDirs .boot "a;reboot".toList)
    (Handler.boot.run defaultDirs "a;reboot".toList)
  := by
  rintro ⟨-, hrest⟩
  have hwords : Shell.words _ = some _ := (hrest (0 : Int)).1
  revert hwords
  decide

end Lua

end Swupdate
