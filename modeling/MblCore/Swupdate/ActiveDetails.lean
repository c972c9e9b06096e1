import MblCore.Lib.Traces
import MblCore.Swupdate.FirmwareUpdateManager
import MblCore.Swupdate.Writes
import MblCore.UpdateHeader.FirmwareHash
import MblCore.UpdateHeader.PackOutcome

/-!
# The HEADER of the active firmware

`mbl-firmware-update-manager` writes a HEADER for an update package, `arm_update_activate.sh` saves
the HEADER it is given once swupdate is done, and `arm_update_active_details.sh` hands the saved
HEADER to the cloud client, which reports it as that of the active firmware.  Over any history of
updates from the command line and from the cloud, what is reported is the HEADER of the last update
in which every handler returned 0.
-/

namespace Swupdate

open Prog FirmwareUpdateHeader

/-! ### The programs -/

/-- The exceptions `mbl-firmware-update-manager` ends with. -/
inductive UpdateException
  | headerFileError (msg : String)
  | structError
  | installFirmware (e : FmwException)
deriving DecidableEq

/-- What is on the device, with the HEADER files: the one that is given to the script, and the one
that was saved. -/
structure UpdateHost where
  host : Host
  header_file : Bytes
  saved_header : Option Bytes

/-- One run of `mbl-firmware-update-manager`: its arguments, and what it meets with. -/
structure ManagerRun where
  update_pkg : Text
  keep : Bool
  assume_yes : Bool
  assume_no : Bool
  /-- `int(time.time())`. -/
  now : Int
  /-- What is read from the package, or why it cannot be read. -/
  payload : Except String FirmwareHash.FirmwareStream
  /-- Whether the HEADER file is written; if not, why, and what is left in it. -/
  written : Except (String × Option Bytes) Unit
  images : List PayloadImage
  script : Subprocess
  /-- What a copy of the HEADER that fails leaves of the saved one. -/
  left : Option Bytes

/-- A method of the manager that also has to do with the HEADER files. -/
abbrev Updater := Method UpdateException UpdateHost

/-- The attributes of the HEADER for a package. -/
def headerFor (now : Int) (firmware_hash : Bytes) : FirmwareUpdateHeader :=
  { FirmwareUpdateHeader.init with firmware_version := now, firmware_hash }

/-- `_create_header_data`. -/
def createHeaderData (r : ManagerRun) : Except UpdateException Bytes :=
  match r.payload with
  | .error error => .error (.headerFileError
      ("IOError when creating HEADER file data, error: '" ++ error ++ "'"))
  | .ok payload =>
      match pack (headerFor r.now (FirmwareHash.calculateFirmwareHash payload)) with
      | .ok header_data => .ok header_data
      | .error (.formatError message) => .error (.headerFileError
          ("FormatError when creating HEADER file data, error: '" ++ message ++ "'"))
      | .error .structError => .error .structError

/-- `_append_header_data_to_header_file`. -/
def appendHeaderDataToHeaderFile (r : ManagerRun) (header_data : Bytes) : Updater Unit := do
  let board ← get
  match r.written with
  | .ok () =>
      set { board with
        header_file := header_data
        host := { board.host with files := HEADER_FILE :: board.host.files } }
  | .error (error, left) =>
      set { board with header_file := left.getD board.header_file }
      throw (.headerFileError ("Failed to write header data to header file '" ++
        String.ofList HEADER_FILE ++ "', error: '" ++ error ++ "'"))

/-- `install_header`. -/
def installHeader (r : ManagerRun) : Updater Unit := do
  match createHeaderData r with
  | .error e => throw e
  | .ok header_data => appendHeaderDataToHeaderFile r header_data

/-- What `cp` of the HEADER was answered with, by the record of an activation. -/
def saveReply (record : Record) : Option Bool :=
  record.foldl (fun reply entry => match entry with
    | ⟨.cpHeader _, (ok : Bool)⟩ => some ok
    | _ => reply) none

/-- The saved HEADER after an activation that was given `header`. -/
def savedAfter (header : Bytes) (left saved : Option Bytes) (record : Record) : Option Bytes :=
  match saveReply record with
  | none => saved
  | some true => some header
  | some false => left

/-- The calls of one execution of `arm_update_activate.sh`, and their replies. -/
def activationRecord (dirs : Dirs) (HEADER FIRMWARE : Text) (images : List PayloadImage)
    (choices : List Choice) (d : Device) : Record :=
  (run machine.traced (armUpdateActivate dirs HEADER FIRMWARE images) choices (d, [])).2.2.2

/-- `install_firmware`, with what the script does to the saved HEADER. -/
def installFirmwareSaving (dirs : Dirs) (r : ManagerRun) : Updater Unit := do
  let board ← get
  let (result, host) := (installFirmware dirs r.images r.update_pkg r.keep r.assume_yes r.assume_no
    r.script).call board.host
  let record := activationRecord dirs HEADER_FILE r.update_pkg r.images r.script.choices
    board.host.device
  set { board with
    host
    saved_header := savedAfter board.header_file r.left board.saved_header record }
  match result with
  | .ok () => pure ()
  | .error e => throw (.installFirmware e)

/-- `run_mbl_firmware_update_manager`. -/
def runMblFirmwareUpdateManager (dirs : Dirs) (r : ManagerRun) : Updater Unit := do
  installHeader r
  installFirmwareSaving dirs r

/-- The exit status of `mbl-firmware-update-manager`. -/
def returnCode (result : Except UpdateException Unit) : Nat :=
  match result with
  | .ok () => 0
  | .error _ => 1

/-- An activation by the cloud client. -/
structure CloudActivation where
  HEADER : Text
  FIRMWARE : Text
  /-- What is in the file `HEADER`. -/
  header : Bytes
  images : List PayloadImage
  choices : List Choice
  left : Option Bytes

/-- The cloud client runs `arm_update_activate.sh`. -/
def activateFromCloud (dirs : Dirs) (a : CloudActivation) (board : UpdateHost) : UpdateHost :=
  let record := activationRecord dirs a.HEADER a.FIRMWARE a.images a.choices board.host.device
  { board with
    host := { board.host with device := (run machine
      (armUpdateActivate dirs a.HEADER a.FIRMWARE a.images) a.choices board.host.device).2.2 }
    saved_header := savedAfter a.header a.left board.saved_header record }

/-- `arm_update_active_details.sh`: its exit status, and the HEADER at `HEADER_PATH`. -/
def armUpdateActiveDetails (saved_header : Option Bytes) (cp : Bool) : Nat × Option Bytes :=
  match saved_header with
  | some header => if cp then (0, some header) else (22, none)
  | none => (23, none)

/-! ### What is saved -/

variable {dirs : Dirs} {images : List PayloadImage} {s : Recorded}
  {adm : Call → Choice → Recorded → Prop}

/-- The call does not copy the HEADER. -/
def NoSave : Call → Prop
  | .cpHeader _ | .copyElsewhere _ _ | .commandLine _ => False
  | _ => True

theorem saveReply_concat {record : Record} {c : Call} {r : Reply c} (hc : NoSave c) :
  saveReply (record ++ [⟨c, r⟩]) = saveReply record
  := by
  unfold saveReply
  rw [List.foldl_append]
  cases c with
  | cpHeader path => exact hc.elim
  | _ => rfl

theorem saveReply_concat_cpHeader {record : Record} {path : Text} {ok : Bool} :
  saveReply (record ++ [⟨.cpHeader path, ok⟩]) = some ok
  := by
  unfold saveReply
  rw [List.foldl_append]
  rfl

/-- The HEADER was copied only after every handler had returned 0. -/
def SavedOnlyDone (s : Recorded) : Prop :=
  saveReply s.2 ≠ none → SwupdateDone s.2

/-- What is asked of an activation: when it returns, every handler has returned 0 and the HEADER was
copied, and otherwise the HEADER was copied only after every handler had returned 0. -/
def SavesWhenDone : Post Recorded Nat Unit where
  returned _ s := SwupdateDone s.2 ∧ saveReply s.2 = some true
  raised _ := SavedOnlyDone
  cut := SavedOnlyDone

/-- A script that does not copy the HEADER keeps it unsaved. -/
theorem wp_unsaved {α : Type} {p : Script α} {Q : Post Recorded Nat α} (hp : Issues NoSave p)
    (hs : saveReply s.2 = none) (hreturned : ∀ a s, saveReply s.2 = none → Q.returned a s)
    (hraised : ∀ e s, saveReply s.2 = none → Q.raised e s)
    (hcut : ∀ s, saveReply s.2 = none → Q.cut s) :
  wp machine.traced adm p Q s
  := by
  apply (wp_of_issues (fun s : Recorded => saveReply s.2 = none) hp _ hs).mono hreturned hraised hcut
  intro c x s hc _ hs
  exact (saveReply_concat hc).trans hs

theorem noSave_of_neutral {α : Type} {p : Script α} (hp : Issues (Neutral dirs) p) :
  Issues NoSave p
  := by
  apply hp.mono
  intro c hc
  cases c <;> trivial

theorem noSave_runLua {h : Lua.Handler} {image : Img} (hpassed : PassedOn dirs h image)
    (hinstaller : ∀ path, Issues NoSave (installer dirs h path)) :
  Issues NoSave (runLua dirs h image)
  := by
  rw [runLua_eq hpassed]
  apply Issues.bind (issues_issue.mpr (by trivial))
  intro saved
  split
  · apply Issues.bind (issues_attempt.mpr (hinstaller _))
    intro r
    split <;> trivial
  · trivial

/-- No handler copies the HEADER. -/
theorem noSave_callHandler {image : PayloadImage} (hpassed : image.PassedOn dirs) :
  Issues NoSave (callHandler dirs image)
  := by
  obtain ⟨type, image⟩ := image
  cases type with
  | ROOTFS =>
      apply Issues.bind
      · apply findUpdateTarget_issues.mono
        intro c hc
        cases c <;> trivial
      · intro target
        split
        · apply Issues.bind
          · apply Issues.bind (issues_issue.mpr (by trivial))
            intro opened
            split
            · trivial
            · apply Issues.bind (issues_issue.mpr (by trivial))
              intro copied
              apply Issues.bind (issues_issue.mpr (by trivial))
              intro closed
              split <;> trivial
          · intro rc
            split
            · trivial
            · apply (selectTarget_issues _ _).mono
              intro c hc
              cases c <;> trivial
        · trivial
  | BOOT =>
      apply noSave_runLua (hpassed .boot rfl)
      intro path
      apply (bootCalls_updateBootOrDie path).mono
      rintro c (hc | hc)
      · cases c <;> first | exact hc.elim | trivial
      · cases c <;> trivial
  | WKS_BOOTLOADER1 =>
      apply noSave_runLua (hpassed .wks_bootloader1 rfl)
      exact fun path => noSave_of_neutral (updateBootloaderOrDie_issues path)
  | WKS_BOOTLOADER2 =>
      apply noSave_runLua (hpassed .wks_bootloader2 rfl)
      exact fun path => noSave_of_neutral (updateBootloaderOrDie_issues path)
  | APPS =>
      apply noSave_runLua (hpassed .apps rfl)
      intro path
      apply Issues.bind (issues_issue.mpr (by trivial))
      intro rc
      split <;> trivial

/-- The handlers leave the HEADER unsaved, and when all of them have returned 0, that is on the
record. -/
theorem wp_callHandlers_unsaved (hpassed : AllPassedOn dirs images) (hs : saveReply s.2 = none) :
  wp machine.traced adm (callHandlers dirs images)
    { returned := fun ok s => saveReply s.2 = none ∧ (ok = true → SwupdateDone s.2)
      raised := fun _ s => saveReply s.2 = none
      cut := fun s => saveReply s.2 = none } s
  := by
  induction images generalizing s with
  | nil =>
      simp only [callHandlers, wp_bind, wp_issue]
      use hs
      intro x _
      refine ⟨?_, fun _ => List.mem_concat_self⟩
      exact (saveReply_concat (by trivial)).trans hs
  | cons image images ih =>
      simp only [callHandlers, wp_bind]
      obtain ⟨hfirst, hrest⟩ := List.forall_mem_cons.mp hpassed
      apply wp_unsaved (noSave_callHandler hfirst) hs
      · intro rc s hs
        change wp machine.traced adm (if rc ≠ 0 then _ else _) _ s
        split
        · exact ⟨hs, fun h => absurd h Bool.false_ne_true⟩
        · exact ih hrest hs
      · exact fun _ _ hs => hs
      · exact fun _ hs => hs

/-- The rest of the script saves the HEADER, after every handler has returned 0. -/
theorem wp_finishActivation_saves {HEADER : Text} (hdone : SwupdateDone s.2) :
  wp machine.traced adm (finishActivation dirs HEADER) SavesWhenDone s
  := by
  simp only [finishActivation, saveHeaderOrDie, orDie, wp_bind]
  apply wp_issue.mpr
  use fun _ => hdone
  intro x _
  set s' := (machine.traced.perform (.cpHeader HEADER) x s).2 with hs'
  have hdone' : SwupdateDone s'.2 := List.mem_append_left _ hdone
  have hreply : saveReply s'.2 = some x.ok := saveReply_concat_cpHeader
  change wp machine.traced adm (if x.ok = true then _ else _) _ s'
  split
  · next hok =>
      rw [hok] at hreply
      simp only [wp_pure]
      have hkept : ∀ c x s, NoSave c → adm c x s →
          SwupdateDone s.2 ∧ saveReply s.2 = some true →
          SwupdateDone (machine.traced.perform c x s).2.2
            ∧ saveReply (machine.traced.perform c x s).2.2 = some true := by
        rintro c x s hc - ⟨hdone, hreply⟩
        exact ⟨List.mem_append_left _ hdone, (saveReply_concat hc).trans hreply⟩
      apply (wp_of_issues (fun s : Recorded => SwupdateDone s.2 ∧ saveReply s.2 = some true) _
        hkept ⟨hdone', hreply⟩).mono
      · exact fun _ _ h => h
      · exact fun _ _ h _ => h.1
      · exact fun _ h _ => h.1
      · apply Issues.bind (issues_issue.mpr (by trivial))
        intro there
        split
        · apply Issues.bind (issues_issue.mpr (by trivial))
          intro status
          unfold exitOnError
          split <;> trivial
        · trivial
  · exact fun _ => hdone'

/-- An activation saves the HEADER when it returns, and only after every handler has returned 0. -/
theorem wp_armUpdateActivate_saves {HEADER FIRMWARE : Text} {d : Device}
    (hpassed : AllPassedOn dirs images) :
  wp machine.traced adm (armUpdateActivate dirs HEADER FIRMWARE images) SavesWhenDone (d, [])
  := by
  have hraised (e : Nat) (s : Recorded) (hs : saveReply s.2 = none) : SavedOnlyDone s :=
    fun hne => absurd hs hne
  have hcut (s : Recorded) (hs : saveReply s.2 = none) : SavedOnlyDone s :=
    fun hne => absurd hs hne
  simp only [armUpdateActivate, wp_bind]
  apply wp_unsaved (issues_issue.mpr (by trivial)) rfl _ hraised hcut
  intro path s hs
  cases path with
  | none => exact hraised 24 s hs
  | some FIRMWARE_PATH =>
      simp only [wp_bind]
      apply wp_unsaved _ hs _ hraised hcut
      · apply (orDie_issues (issues_issue.mpr (by trivial))).bind
        exact fun _ => orDie_issues (issues_issue.mpr (by trivial))
      · intro _ s hs
        simp only [wp_bind]
        apply wp_unsaved (issues_issue.mpr (by trivial)) hs _ hraised hcut
        intro _ s hs
        simp only [swupdate, wp_bind]
        apply wp_unsaved (issues_issue.mpr (by trivial)) hs _ hraised hcut
        intro opened s hs
        cases opened with
        | false => exact hraised 25 s hs
        | true =>
            apply (wp_callHandlers_unsaved hpassed hs).mono _ hraised hcut
            rintro ok s ⟨hs, hdone⟩
            cases ok with
            | false => exact hraised 25 s hs
            | true => exact wp_finishActivation_saves (hdone rfl)

/-- However an activation ends, it has saved the HEADER as it should. -/
theorem holds_activation (HEADER FIRMWARE : Text) (hpassed : AllPassedOn dirs images)
    (choices : List Choice) (d : Device) :
  SavesWhenDone.Holds
    (run machine.traced (armUpdateActivate dirs HEADER FIRMWARE images) choices (d, [])).1
    (run machine.traced (armUpdateActivate dirs HEADER FIRMWARE images) choices (d, [])).2.2
  := by
  apply holds_of_wp (wp_armUpdateActivate_saves hpassed)
  exact obeys_true

/-- An activation that exits with 0 has saved the HEADER. -/
theorem saveReply_of_exitStatus {HEADER FIRMWARE : Text} {choices : List Choice} {d : Device}
    (hpassed : AllPassedOn dirs images)
    (h : exitStatus (run machine (armUpdateActivate dirs HEADER FIRMWARE images) choices d).1 = 0) :
  saveReply (activationRecord dirs HEADER FIRMWARE images choices d) = some true
  := by
  have hflag : (FlagRight dirs images d choices).Holds _ _ :=
    flagRight_armUpdateActivate HEADER FIRMWARE (decidedByPassedOn_of_all hpassed) choices d
  have hends := holds_activation HEADER FIRMWARE hpassed choices d
  have htraced := congrArg Prod.fst
    (run_traced machine (armUpdateActivate dirs HEADER FIRMWARE images) choices d [])
  revert h hflag hends
  unfold activationRecord
  rw [← htraced]
  generalize (run machine (armUpdateActivate dirs HEADER FIRMWARE images) choices d).1 = outcome
  intro h hflag hends
  cases outcome with
  | returned a => exact hends.2
  | raised status => exact absurd (Int.ofNat_inj.mp h) hflag
  | cut => contradiction

/-! ### One update -/

/-- An update from the command line or from the cloud. -/
inductive Event
  | manager (r : ManagerRun)
  | cloud (a : CloudActivation)

namespace Event

variable (dirs)

/-- What is on the device after an update. -/
def after (board : UpdateHost) : Event → UpdateHost
  | manager r => ((runMblFirmwareUpdateManager dirs r).call board).2
  | cloud a => activateFromCloud dirs a board

/-- The HEADER of an update, as far as one was written. -/
def header : Event → Option Bytes
  | manager r => match createHeaderData r, r.written with
    | .ok header_data, .ok () => some header_data
    | _, _ => none
  | cloud a => some a.header

def payload : Event → List PayloadImage
  | manager r => r.images
  | cloud a => a.images

/-- What a copy of the HEADER that fails leaves. -/
def left : Event → Option Bytes
  | manager r => r.left
  | cloud a => a.left

/-- The calls of the activation, if there is one. -/
def record (board : UpdateHost) : Event → Record
  | manager r => match (manager r).header with
    | some _ => activationRecord dirs HEADER_FILE r.update_pkg r.images r.script.choices
        board.host.device
    | none => []
  | cloud a => activationRecord dirs a.HEADER a.FIRMWARE a.images a.choices board.host.device

/-- Every handler has returned 0. -/
def Done (board : UpdateHost) (e : Event) : Prop :=
  SwupdateDone (e.record dirs board)

end Event

variable {board : UpdateHost} {r : ManagerRun}

/-- The HEADER file is written, and nothing else changes but the files there are. -/
theorem call_installHeader_of_some {header_data : Bytes}
    (h : (Event.manager r).header = some header_data) :
  (installHeader r).call board
    = (.ok (), { board with
        header_file := header_data
        host := { board.host with files := HEADER_FILE :: board.host.files } })
  := by
  simp only [Event.header] at h
  split at h
  · next hcreate hwritten =>
      obtain rfl := Option.some.inj h
      simp only [installHeader, hcreate, appendHeaderDataToHeaderFile, hwritten,
        Method.call_get_bind]
      rfl
  · contradiction

/-- When no HEADER is written, the saved one stays. -/
theorem call_installHeader_of_none (board : UpdateHost)
    (h : (Event.manager r).header = none) :
  ∃ e board', (installHeader r).call board = (.error e, board')
    ∧ board'.saved_header = board.saved_header
  := by
  simp only [Event.header] at h
  cases hcreate : createHeaderData r with
  | error e =>
      refine ⟨e, board, ?_, rfl⟩
      simp only [installHeader, hcreate]
      rfl
  | ok header_data =>
      cases hwritten : r.written with
      | ok =>
          rw [hcreate, hwritten] at h
          contradiction
      | error failure =>
          simp only [installHeader, hcreate, appendHeaderDataToHeaderFile, hwritten,
            Method.call_get_bind, Method.call_set_bind]
          exact ⟨_, _, rfl, rfl⟩

/-- What an update makes of the saved HEADER. -/
theorem saved_header_after (e : Event) (board : UpdateHost) :
  (e.after dirs board).saved_header = match saveReply (e.record dirs board) with
    | none => board.saved_header
    | some true => e.header
    | some false => e.left
  := by
  cases e with
  | cloud a =>
      simp only [Event.after, activateFromCloud, savedAfter, Event.record, Event.header, Event.left]
  | manager r =>
      simp only [Event.after, runMblFirmwareUpdateManager, Event.record]
      cases hheader : (Event.manager r).header with
      | none =>
          obtain ⟨e, board', hcall, hsaved⟩ := call_installHeader_of_none board hheader
          rw [Method.call_bind_of_error hcall]
          exact hsaved
      | some header_data =>
          rw [Method.call_bind_of_ok (call_installHeader_of_some hheader)]
          simp only [installFirmwareSaving, Method.call_get_bind, Method.call_set_bind]
          split
          all_goals
            simp only [savedAfter]
            rfl

/-- A HEADER is saved only when every handler has returned 0. -/
theorem done_of_saveReply {e : Event} (hpassed : AllPassedOn dirs e.payload)
    (h : saveReply (e.record dirs board) ≠ none) :
  e.Done dirs board
  := by
  have hactivation (HEADER FIRMWARE : Text) {images : List PayloadImage}
      (hpassed : AllPassedOn dirs images) (choices : List Choice) (d : Device)
      (h : saveReply (activationRecord dirs HEADER FIRMWARE images choices d) ≠ none) :
      SwupdateDone (activationRecord dirs HEADER FIRMWARE images choices d) := by
    have hends := holds_activation HEADER FIRMWARE hpassed choices d
    revert hends h
    unfold activationRecord
    generalize run machine.traced (armUpdateActivate dirs HEADER FIRMWARE images) choices (d, [])
      = result
    obtain ⟨outcome, rest, s⟩ := result
    intro h hends
    cases outcome with
    | returned a => exact hends.1
    | raised status => exact hends h
    | cut => exact hends h
  unfold Event.Done
  cases e with
  | cloud a => exact hactivation _ _ hpassed _ _ h
  | manager r =>
      simp only [Event.record] at h ⊢
      split
      · next hheader =>
          simp only [hheader] at h
          exact hactivation _ _ hpassed _ _ h
      · next hheader =>
          simp only [hheader] at h
          exact absurd rfl h

/-- `install_firmware` returns only after a script that has exited with 0. -/
theorem exitStatus_of_installFirmware {r : ManagerRun} {host host' : Host}
    (h : (installFirmware dirs r.images r.update_pkg r.keep r.assume_yes r.assume_no r.script).call
      host = (.ok (), host')) :
  exitStatus (activation dirs r.images r.update_pkg r.script host).1 = 0
  := by
  by_contra hne
  have hrun : (runActivation dirs r.images r.update_pkg r.script).call host
      = (.ok (exitStatus (activation dirs r.images r.update_pkg r.script host).1),
        { host with device := (activation dirs r.images r.update_pkg r.script host).2.2 }) := by
    rw [runActivation, Method.call_get_bind]
    rfl
  have hhandle (self : Host) : ∃ e,
      (handleReturncode r.update_pkg r.keep r.script
        (exitStatus (activation dirs r.images r.update_pkg r.script host).1)).call self
        = (.error e, self) := by
    simp only [handleReturncode, if_pos hne]
    split
    · exact ⟨_, rfl⟩
    · exact ⟨_, rfl⟩
  obtain ⟨e, he⟩ := hhandle
    { host with device := (activation dirs r.images r.update_pkg r.script host).2.2 }
  obtain ⟨e', host'', hfinally⟩ := Method.call_tryFinally_of_error
    (if r.keep then pure () else osRemove HEADER_FILE) he
  rw [installFirmware, Method.call_bind_of_ok hrun, Method.call_bind_of_error hfinally] at h
  simp at h

/-- A run that exits with 0 has saved the HEADER of its package. -/
theorem saved_of_success (hpassed : AllPassedOn dirs r.images)
    (h : returnCode ((runMblFirmwareUpdateManager dirs r).call board).1 = 0) :
  ∃ header_data, createHeaderData r = .ok header_data
    ∧ ((Event.manager r).after dirs board).saved_header = some header_data
  := by
  have hreturned : ((runMblFirmwareUpdateManager dirs r).call board).1 = .ok () := by
    cases hresult : ((runMblFirmwareUpdateManager dirs r).call board).1 with
    | ok => rfl
    | error e =>
        rw [hresult] at h
        simp [returnCode] at h
  rw [runMblFirmwareUpdateManager] at hreturned
  cases hheader : (Event.manager r).header with
  | none =>
      obtain ⟨e, board', hcall, -⟩ := call_installHeader_of_none board hheader
      rw [Method.call_bind_of_error hcall] at hreturned
      simp at hreturned
  | some header_data =>
      use header_data
      have hcreate : createHeaderData r = .ok header_data := by
        simp only [Event.header] at hheader
        split at hheader
        · next hcreate _ => rw [hcreate, Option.some.inj hheader]
        · contradiction
      use hcreate
      rw [Method.call_bind_of_ok (call_installHeader_of_some hheader)] at hreturned
      set host := { board.host with files := HEADER_FILE :: board.host.files } with hhost
      cases hinstall : (installFirmware dirs r.images r.update_pkg r.keep r.assume_yes r.assume_no
          r.script).call host with
      | mk result host' =>
          simp only [installFirmwareSaving, Method.call_get_bind, hinstall, Method.call_set_bind]
            at hreturned
          cases result with
          | error e => cases hreturned
          | ok =>
              have hreply := saveReply_of_exitStatus hpassed (exitStatus_of_installFirmware hinstall)
              rw [saved_header_after]
              simp only [Event.record, hheader]
              rw [hreply]

/-! ### Histories -/

/-- What is on the device after a history of updates. -/
def afterAll (dirs : Dirs) (board : UpdateHost) (events : List Event) : UpdateHost :=
  events.foldl (fun board e => e.after dirs board) board

/-- In no update of the history did every handler return 0. -/
def NoneDone (dirs : Dirs) (board : UpdateHost) (events : List Event) : Prop :=
  ∀ before e after, events = before ++ e :: after → ¬ e.Done dirs (afterAll dirs board before)

theorem afterAll_append (events more : List Event) :
  afterAll dirs board (events ++ more) = afterAll dirs (afterAll dirs board events) more
  := List.foldl_append ..

/-- The saved HEADER stays while some handler fails in every update. -/
theorem saved_header_afterAll {events : List Event}
    (hpassed : ∀ e ∈ events, AllPassedOn dirs e.payload) (h : NoneDone dirs board events) :
  (afterAll dirs board events).saved_header = board.saved_header
  := by
  induction events generalizing board with
  | nil => rfl
  | cons e events ih =>
      have hreply : saveReply (e.record dirs board) = none := by
        by_contra hne
        exact h [] e events rfl (done_of_saveReply (hpassed e List.mem_cons_self) hne)
      have hrest : NoneDone dirs (e.after dirs board) events := by
        intro before e' after heq
        apply h (e :: before) e' after
        rw [heq]
        rfl
      have hstep : (afterAll dirs board (e :: events)).saved_header
          = (e.after dirs board).saved_header :=
        ih (fun e he => hpassed e (List.mem_cons_of_mem _ he)) hrest
      rw [hstep, saved_header_after, hreply]

/-- The HEADER was copied in no update of the history. -/
def NoneSaves (dirs : Dirs) (board : UpdateHost) (events : List Event) : Prop :=
  ∀ before e after, events = before ++ e :: after →
    saveReply (e.record dirs (afterAll dirs board before)) = none

theorem noneSaves_cons {e : Event} {events : List Event}
    (he : saveReply (e.record dirs board) = none)
    (hevents : NoneSaves dirs (e.after dirs board) events) :
  NoneSaves dirs board (e :: events)
  := by
  intro before e' after heq
  cases before with
  | nil =>
      obtain ⟨rfl, -⟩ := List.cons.inj heq
      exact he
  | cons _ before =>
      obtain ⟨rfl, htail⟩ := List.cons.inj heq
      exact hevents before e' after htail

/-- Every handler has returned 0, and then the HEADER of the update was saved as `header`, or a copy
of it that failed left `header`. -/
def SavedBy (dirs : Dirs) (board : UpdateHost) (header : Bytes) (e : Event) : Prop :=
  e.Done dirs board ∧
    ((saveReply (e.record dirs board) = some true ∧ e.header = some header) ∨
      (saveReply (e.record dirs board) = some false ∧ e.left = some header))

/-- What is saved was there at first, or comes from the last update that copied its HEADER. -/
theorem savedBy_of_saved {events : List Event} {header : Bytes}
    (hpassed : ∀ e ∈ events, AllPassedOn dirs e.payload)
    (h : (afterAll dirs board events).saved_header = some header) :
  (board.saved_header = some header ∧ NoneSaves dirs board events) ∨
    ∃ before e after, events = before ++ e :: after
      ∧ SavedBy dirs (afterAll dirs board before) header e
      ∧ NoneSaves dirs (afterAll dirs board (before ++ [e])) after
  := by
  induction events generalizing board with
  | nil =>
      refine Or.inl ⟨h, ?_⟩
      intro before e after heq
      simp at heq
  | cons e events ih =>
      have hrest : (afterAll dirs (e.after dirs board) events).saved_header = some header := h
      obtain ⟨hfirst, hlater⟩ := List.forall_mem_cons.mp hpassed
      rcases ih hlater hrest with ⟨hsaved, hnone⟩ | hlater
      · rw [saved_header_after] at hsaved
        cases hreply : saveReply (e.record dirs board) with
        | none =>
            rw [hreply] at hsaved
            exact Or.inl ⟨hsaved, noneSaves_cons hreply hnone⟩
        | some ok =>
            rw [hreply] at hsaved
            have hdone : e.Done dirs board := by
              apply done_of_saveReply hfirst
              simp [hreply]
            refine Or.inr ⟨[], e, events, rfl, ⟨hdone, ?_⟩, hnone⟩
            cases ok with
            | true => exact Or.inl ⟨hreply, hsaved⟩
            | false => exact Or.inr ⟨hreply, hsaved⟩
      · obtain ⟨before, e', after, rfl, hsaved, hnone⟩ := hlater
        exact Or.inr ⟨e :: before, e', after, rfl, hsaved, hnone⟩

/-- The hash of a package is that of all its bytes. -/
theorem sha256_payload (payload : FirmwareHash.FirmwareStream) :
  FirmwareHash.calculateFirmwareHash payload = Sha256.sha256 (payload.flatMap Subtype.val)
  := by
  rw [FirmwareHash.calculateFirmwareHash, FirmwareHash.hashLoop_eq,
    BlockHash.Hasher.digest_update_new, Sha256.sha256]

/-- A HEADER that was created is read back as the time and the hash of its package. -/
theorem unpack_createHeaderData {header_data : Bytes} (h : createHeaderData r = .ok header_data) :
  ∃ payload, r.payload = .ok payload ∧ (unpack header_data).call FirmwareUpdateHeader.init
    = (.ok (), headerFor r.now (Sha256.sha256 (payload.flatMap Subtype.val)))
  := by
  simp only [createHeaderData] at h
  split at h
  · contradiction
  · next payload hpayload =>
      use payload, hpayload
      rw [← sha256_payload]
      split at h
      · next hpack =>
          obtain rfl := Except.ok.inj h
          exact unpack_of_pack hpack
      · contradiction
      · contradiction

/-- In every history of updates from the command line and the cloud on a device that had no saved
HEADER: what `arm_update_active_details.sh` reports comes from the last update that copied its
HEADER, and in that update every handler returned 0.  And when `mbl-firmware-update-manager` has
exited with 0, and in no update after that every handler returned 0, what is reported is read as
the time of that run and the SHA-256 hash of its package. -/
theorem active_details_report (dirs : Dirs) (board : UpdateHost) (hfirst : board.saved_header = none)
    (events : List Event) (hpassed : ∀ e ∈ events, AllPassedOn dirs e.payload) :
  (∀ header, armUpdateActiveDetails (afterAll dirs board events).saved_header true
      = (0, some header) →
    ∃ before e after, events = before ++ e :: after
      ∧ SavedBy dirs (afterAll dirs board before) header e
      ∧ NoneSaves dirs (afterAll dirs board (before ++ [e])) after) ∧
    ∀ before r after, events = before ++ .manager r :: after →
      returnCode ((runMblFirmwareUpdateManager dirs r).call (afterAll dirs board before)).1 = 0 →
      NoneDone dirs (afterAll dirs board (before ++ [.manager r])) after →
      ∃ header payload, armUpdateActiveDetails (afterAll dirs board events).saved_header true
          = (0, some header)
        ∧ r.payload = .ok payload
        ∧ (unpack header).call FirmwareUpdateHeader.init
          = (.ok (), headerFor r.now (Sha256.sha256 (payload.flatMap Subtype.val)))
  := by
  constructor
  · intro header hreported
    have hsaved : (afterAll dirs board events).saved_header = some header := by
      unfold armUpdateActiveDetails at hreported
      split at hreported
      · next hsaved =>
          rw [hsaved]
          simpa using hreported
      · simp at hreported
    rcases savedBy_of_saved hpassed hsaved with ⟨hthere, -⟩ | hlast
    · rw [hfirst] at hthere
      contradiction
    · exact hlast
  · rintro before r after rfl hsuccess hnone
    simp only [List.forall_mem_append, List.forall_mem_cons] at hpassed
    obtain ⟨-, hrun, hlater⟩ := hpassed
    obtain ⟨header_data, hcreate, hsaved⟩ := saved_of_success hrun hsuccess
    obtain ⟨payload, hpayload, hunpack⟩ := unpack_createHeaderData hcreate
    refine ⟨header_data, payload, ?_, hpayload, hunpack⟩
    have hkept := saved_header_afterAll hlater hnone
    have hafter : (afterAll dirs board (before ++ [.manager r])).saved_header = some header_data := by
      rw [afterAll_append]
      exact hsaved
    rw [← List.singleton_append, ← List.append_assoc, afterAll_append, hkept, hafter]
    rfl

/-- An update from the cloud that succeeds, and one that finds no package. -/
def cloudUpdates : List Event :=
  [.cloud {
      HEADER := "/scratch/header".toList
      FIRMWARE := "/pkg".toList
      header := [1, 2, 3]
      images := appPayload
      choices := (appSubprocess true).choices
      left := none },
    .cloud {
      HEADER := "/scratch/header".toList
      FIRMWARE := "/missing".toList
      header := [4, 5, 6]
      images := []
      choices := [{ ok := false }]
      left := none }]

/-- The HEADER of the first of the two is reported. -/
theorem active_details_report_cloud :
  armUpdateActiveDetails
      (afterAll bankDirs ⟨packageHost, [], none⟩ cloudUpdates).saved_header true
    = (0, some [1, 2, 3])
    ∧ ∃ before e after, cloudUpdates = before ++ e :: after
      ∧ SavedBy bankDirs (afterAll bankDirs ⟨packageHost, [], none⟩ before) [1, 2, 3] e
      ∧ NoneSaves bankDirs (afterAll bankDirs ⟨packageHost, [], none⟩ (before ++ [e])) after
  := by
  have hpassed : ∀ e ∈ cloudUpdates, AllPassedOn bankDirs e.payload := by
    intro e he image himage h hh
    rcases List.mem_pair.mp he with rfl | rfl
    · obtain rfl := List.mem_singleton.mp himage
      obtain rfl := Option.some.inj hh
      constructor <;> decide
    · contradiction
  have hreport := active_details_report bankDirs ⟨packageHost, [], none⟩ rfl cloudUpdates hpassed
  have hfirst : armUpdateActiveDetails
      (afterAll bankDirs ⟨packageHost, [], none⟩ cloudUpdates).saved_header true
        = (0, some [1, 2, 3]) := by decide
  exact ⟨hfirst, hreport.1 [1, 2, 3] hfirst⟩

end Swupdate
