import Mathlib.Data.List.Forall2
import MblCore.Lib.Getopt
import MblCore.Watchdog.MblWatchdogInit

/-!
# The main function of `mbl-watchdog-init`

The options are read one after the other, and the first one that is not as it should be ends the
program.  The watchdog runs from when its device is opened, and it is not stopped when the device is
closed.  The table of the long options has no end, so that what happens with other names is undefined,
and the letter `t` has no argument, so that `strtol` is called with a null pointer.
-/

namespace Watchdog

open Getopt Loops Strtol

/-! ### Options -/

/-- `"tw:"`. -/
def optstring (c : Char) : Option Bool :=
  if c = 't' then some false else if c = 'w' then some true else none

def longopts (name : Text) : Option (Bool × Char) :=
  if name = "timeout".toList then some (true, 't')
  else if name = "device".toList then some (true, 'w')
  else none

def watchdogOptions : Options where
  short := optstring
  long := longopts

/-- How the program ends. -/
inductive Exit
  | EXIT_SUCCESS
  | EXIT_FAILURE
  /-- The behaviour is undefined. -/
  | undefined
deriving DecidableEq

inductive Message
  /-- "WATCHDOG-ERROR:", the text and what `strerror` says of `errno`. -/
  | error (text : String)
  /-- "WATCHDOG-WARNING:" -/
  | warning (text : String)
  /-- "WATCHDOG-INFO:" -/
  | info (text : String)
deriving DecidableEq

/-- The loop over the options, from the timeout and the device that were given so far. -/
def readOptions (long : Long) :
    List Item → ℤ × Text → Except (Exit × List Message) (ℤ × Text)
  | [], given => .ok given
  | .option 't' (some optarg) :: items, given =>
      match numericStringToPositiveInt long optarg with
      | .ok timeout => readOptions long items (timeout, given.2)
      | .error text => .error (.EXIT_FAILURE, [.error text])
  | .option 't' none :: _, _ => .error (.undefined, [])
  | .option 'w' (some optarg) :: items, given => readOptions long items (given.1, optarg)
  | .undefined :: _, _ => .error (.undefined, [])
  | _ :: _, _ => .error (.EXIT_FAILURE,
      [.warning "Only --timeout and --device should be provided. Exiting."])

/-! ### The device -/

inductive WatchdogCall
  | open_ (file : Text)
  /-- `WDIOC_GETBOOTSTATUS` -/
  | getBootStatus
  /-- `WDIOC_SETTIMEOUT` -/
  | setTimeout (timeout : ℤ)
  | close
deriving DecidableEq

/-- Which calls succeed; the boot status has the flags of the driver. -/
structure Answers where
  open_ : Bool
  bootStatus : Option (BitVec 32)
  setTimeout : Bool
  close : Bool

/-- What a run of the program does. -/
structure Run where
  exit : Exit
  calls : List WatchdogCall
  messages : List Message
deriving DecidableEq

/-- The flags of `linux/watchdog.h`, with the warnings of `print_last_boot_reason` in their order. -/
def bootReasons : List (BitVec 32 × String) :=
  [(0x0001, "The last reboot was caused by the CPU overheating."),
    (0x0020, "The last reboot was caused by a watchdog reset."),
    (0x0002, "The last reboot was because a system fan monitored by the watchdog card failed."),
    (0x0004, "The last reboot was because external monitoring relay/source 1 was triggered."),
    (0x0008, "The last reboot was because external monitoring relay/source 2 was triggered."),
    (0x0010, "The last reboot was due to the machine showing an undervoltage status."),
    (0x0040, "The last reboot was due to the machine showing an overvoltage status.")]

def printLastBootReason (boot_status : BitVec 32) : List Message :=
  if boot_status = 0 then [.info "Normal boot."]
  else (bootReasons.filter fun reason => boot_status &&& reason.1 ≠ 0).map fun reason =>
    .warning reason.2

/-- The device is closed, whatever came before. -/
def closeDevice (answers : Answers) (run : Run) : Run :=
  if answers.close then { run with calls := run.calls ++ [.close] }
  else
    { exit := .EXIT_FAILURE
      calls := run.calls ++ [.close]
      messages := run.messages ++ [.error "Failed to close the watchdog device file"] }

/-- What `main` does with the device. -/
def useDevice (timeout : ℤ) (wdog_filename : Text) (answers : Answers) : Run :=
  if answers.open_ = false then
    ⟨.EXIT_FAILURE, [.open_ wdog_filename], [.error "Failed to open watchdog device file"]⟩
  else
    closeDevice answers <|
      match answers.bootStatus with
      | none => ⟨.EXIT_FAILURE, [.open_ wdog_filename, .getBootStatus],
          [.error "Failed to get the last boot status"]⟩
      | some flags =>
          if answers.setTimeout then
            ⟨.EXIT_SUCCESS, [.open_ wdog_filename, .getBootStatus, .setTimeout timeout],
              printLastBootReason flags⟩
          else
            ⟨.EXIT_FAILURE, [.open_ wdog_filename, .getBootStatus, .setTimeout timeout],
              printLastBootReason flags ++ [.error "Failed to set the watchdog timeout"]⟩

/-- `main`, for the words after the name of the program. -/
def main (long : Long) (posix : Bool) (args : List Text) (answers : Answers) : Run :=
  match readOptions long (scan watchdogOptions posix none args) (0, "/dev/watchdog".toList) with
  | .error (exit, messages) => ⟨exit, [], messages⟩
  | .ok (timeout, wdog_filename) =>
      if timeout ≤ 0 then
        ⟨.EXIT_FAILURE, [], [.error "--timeout must be passed and it must be a positive integer"]⟩
      else useDevice timeout wdog_filename answers

/-! ### Lines that are accepted -/

/-- The arguments of an option. -/
def argsOf (c : Char) (opts : List (Char × Text)) : List Text :=
  (opts.filter fun opt => opt.1 = c).map Prod.snd

/-- The last one of a list, or what there was before. -/
def lastOr {α : Type} (before : α) (l : List α) : α :=
  l.getLast?.getD before

/-- A text is read as a timeout. -/
def Denotes (str : Text) (n : ℕ) : Prop :=
  Written str n ∧ InRange n

/-- Each text after `--timeout` is that of a number, and the last one and the last device count. -/
def Settings (opts : List (Char × Text)) (timeout : ℕ) (file : Text) : Prop :=
  ∃ timeouts, List.Forall₂ Denotes (argsOf 't' opts) timeouts ∧
    timeouts.getLast? = some timeout ∧ file = lastOr "/dev/watchdog".toList (argsOf 'w' opts)

variable {long : Long} {posix : Bool} {args : List Text} {opts : List (Char × Text)}
  {answers : Answers}

/-- The options of a line are those of the program that take an argument. -/
theorem val_of_reads (h : Reads watchdogOptions posix args opts) {opt : Char × Text}
    (hopt : opt ∈ opts) :
  opt.1 = 't' ∨ opt.1 = 'w'
  := by
  have hlong {name : Text} {val : Char} (hname : longopts name = some (true, val)) :
      val = 't' ∨ val = 'w' := by
    unfold longopts at hname
    split at hname
    · exact .inl (Prod.mk.inj (Option.some.inj hname)).2.symm
    · split at hname
      · exact .inr (Prod.mk.inj (Option.some.inj hname)).2.symm
      · contradiction
  have hshort {c : Char} (hc : optstring c = some true) : c = 't' ∨ c = 'w' := by
    unfold optstring at hc
    split at hc
    · contradiction
    · split at hc
      · next hw => exact .inr hw
      · contradiction
  induction h with
  | nil | firstOperand _ _ | terminator => exact absurd hopt List.not_mem_nil
  | operand _ _ _ ih => exact ih hopt
  | long hname _ _ _ ih | longEq hname _ _ ih =>
      rcases List.mem_cons.mp hopt with rfl | hopt
      · exact hlong hname
      · exact ih hopt
  | short hc _ _ ih | shortJoined hc _ _ _ ih =>
      rcases List.mem_cons.mp hopt with rfl | hopt
      · exact hshort hc
      · exact ih hopt

/-- The loop comes to its end only when each option has its argument. -/
theorem items_of_readOptions {items : List Item} {given result : ℤ × Text}
    (h : readOptions long items given = .ok result) :
  ∃ opts, items = itemsOf opts
  := by
  fun_induction readOptions long items given with
  | case1 given => exact ⟨[], rfl⟩
  | case2 optarg items given timeout hread ih =>
      obtain ⟨opts, rfl⟩ := ih h
      exact ⟨('t', optarg) :: opts, rfl⟩
  | case5 optarg items given ih =>
      obtain ⟨opts, rfl⟩ := ih h
      exact ⟨('w', optarg) :: opts, rfl⟩
  | _ => contradiction

@[simp]
theorem lastOr_cons {α : Type} (before a : α) (l : List α) :
  lastOr before (a :: l) = lastOr a l
  := by
  simp [lastOr, List.getLast?_cons]

/-- The loop reads the timeouts, and the last timeout and the last device remain. -/
theorem readOptions_itemsOf (hopts : ∀ opt ∈ opts, opt.1 = 't' ∨ opt.1 = 'w') {given : ℤ × Text}
    {timeout : ℤ} {file : Text} :
  readOptions long (itemsOf opts) given = .ok (timeout, file) ↔
    ∃ timeouts : List ℕ, List.Forall₂ Denotes (argsOf 't' opts) timeouts ∧
      timeout = lastOr given.1 (timeouts.map Int.ofNat) ∧ file = lastOr given.2 (argsOf 'w' opts)
  := by
  induction opts generalizing given with
  | nil =>
      have hnil : argsOf 't' [] = [] ∧ argsOf 'w' [] = [] := ⟨rfl, rfl⟩
      rw [hnil.1, hnil.2, itemsOf, List.map_nil, readOptions, Except.ok.injEq]
      constructor
      · rintro rfl
        exact ⟨[], .nil, rfl, rfl⟩
      · rintro ⟨_, ⟨⟩, rfl, rfl⟩
        rfl
  | cons opt opts ih =>
      have hrest : ∀ opt ∈ opts, opt.1 = 't' ∨ opt.1 = 'w' :=
        fun opt hopt => hopts opt (List.mem_cons_of_mem _ hopt)
      obtain ⟨c, arg⟩ := opt
      obtain rfl | rfl : c = 't' ∨ c = 'w' := hopts (c, arg) List.mem_cons_self
      · have hargs : argsOf 't' (('t', arg) :: opts) = arg :: argsOf 't' opts
            ∧ argsOf 'w' (('t', arg) :: opts) = argsOf 'w' opts := by
          simp [argsOf]
        rw [hargs.1, hargs.2, itemsOf_cons, readOptions]
        constructor
        · intro h
          split at h
          · rename_i n hn
            obtain ⟨m, hwritten, hm, rfl⟩ := numericStringToPositiveInt_eq_ok.mp hn
            obtain ⟨timeouts, htimeouts, rfl, rfl⟩ := (ih hrest).mp h
            exact ⟨m :: timeouts, .cons ⟨hwritten, hm⟩ htimeouts, by simp, rfl⟩
          · contradiction
        · rintro ⟨_, hall, rfl, rfl⟩
          obtain ⟨m, timeouts, ⟨hwritten, hm⟩, htimeouts, rfl⟩ := List.forall₂_cons_left_iff.mp hall
          rw [numericStringToPositiveInt_eq_ok.mpr ⟨m, hwritten, hm, rfl⟩]
          exact (ih hrest).mpr ⟨timeouts, htimeouts, by simp, rfl⟩
      · have hargs : argsOf 't' (('w', arg) :: opts) = argsOf 't' opts
            ∧ argsOf 'w' (('w', arg) :: opts) = arg :: argsOf 'w' opts := by
          simp [argsOf]
        rw [hargs.1, hargs.2, lastOr_cons]
        exact ih hrest

/-- The last one of a list that is not empty does not depend on what there was before. -/
theorem lastOr_eq_iff {α : Type} {before : α} {l : List α} {a : α} (hne : a ≠ before) :
  lastOr before l = a ↔ l.getLast? = some a
  := by
  cases h : l.getLast? with
  | none => simp [lastOr, h, hne.symm]
  | some b => simp [lastOr, h]

/-- A line that is accepted, with its timeout and its device. -/
def Accepted (posix : Bool) (args : List Text) (timeout : ℕ) (file : Text) : Prop :=
  ∃ opts, Reads watchdogOptions posix args opts ∧ Settings opts timeout file

/-- What remains after the loop of a line that is accepted. -/
theorem readOptions_scan_iff {timeout : ℕ} {file : Text} (hpos : 0 < timeout) :
  readOptions long (scan watchdogOptions posix none args) (0, "/dev/watchdog".toList)
      = .ok ((timeout : ℤ), file)
    ↔ Accepted posix args timeout file
  := by
  have hlast (timeouts : List ℕ) :
      (timeout : ℤ) = lastOr 0 (timeouts.map Int.ofNat) ↔ timeouts.getLast? = some timeout := by
    rw [eq_comm, lastOr_eq_iff (by omega), List.getLast?_map, Option.map_eq_some_iff]
    simp
  constructor
  · intro h
    obtain ⟨opts, hitems⟩ := items_of_readOptions h
    have hreads := scan_eq_itemsOf_iff.mp hitems
    rw [hitems, readOptions_itemsOf fun _ hopt => val_of_reads hreads hopt] at h
    obtain ⟨timeouts, hall, htimeout, hfile⟩ := h
    exact ⟨opts, hreads, timeouts, hall, (hlast timeouts).mp htimeout, hfile⟩
  · rintro ⟨opts, hreads, timeouts, hall, htimeout, hfile⟩
    rw [hreads.scan, readOptions_itemsOf fun _ hopt => val_of_reads hreads hopt]
    exact ⟨timeouts, hall, (hlast timeouts).mpr htimeout, hfile⟩

theorem inRange_of_mem {strs : List Text} {timeouts : List ℕ} {n : ℕ}
    (h : List.Forall₂ Denotes strs timeouts) (hn : n ∈ timeouts) :
  InRange n
  := by
  induction h with
  | nil => contradiction
  | cons hdenotes _ ih =>
      rcases List.mem_cons.mp hn with rfl | hn
      · exact hdenotes.2
      · exact ih hn

/-- The timeout of a line that is accepted is positive. -/
theorem Accepted.pos {timeout : ℕ} {file : Text} (h : Accepted posix args timeout file) :
  0 < timeout
  := by
  obtain ⟨opts, -, timeouts, hall, hlast, -⟩ := h
  exact (inRange_of_mem hall (List.mem_of_getLast? hlast)).1

theorem main_of_accepted (long : Long) (answers : Answers) {timeout : ℕ} {file : Text}
    (h : Accepted posix args timeout file) :
  main long posix args answers = useDevice timeout file answers
  := by
  have hpos := h.pos
  rw [main, (readOptions_scan_iff hpos).mpr h]
  dsimp only
  rw [if_neg (by omega)]

theorem readOptions_error {items : List Item} {given : ℤ × Text} {exit : Exit}
    {messages : List Message} (h : readOptions long items given = .error (exit, messages)) :
  exit ≠ .EXIT_SUCCESS
  := by
  fun_induction readOptions long items given with
  | case1 given => contradiction
  | case2 optarg items given timeout hread ih => exact ih h
  | case5 optarg items given ih => exact ih h
  | _ =>
      rw [Except.error.injEq, Prod.mk.injEq] at h
      rw [← h.1]
      decide

/-- Nothing is done to the device when the line is not accepted. -/
theorem main_of_not_accepted (long : Long) (answers : Answers)
    (h : ∀ timeout file, ¬ Accepted posix args timeout file) :
  (main long posix args answers).exit ≠ .EXIT_SUCCESS ∧ (main long posix args answers).calls = []
  := by
  rw [main]
  split
  · rename_i exit messages hread
    exact ⟨readOptions_error hread, rfl⟩
  · rename_i timeout file hread
    split
    · exact ⟨by decide, rfl⟩
    · rename_i hpos
      obtain ⟨n, rfl⟩ := Int.eq_ofNat_of_zero_le (a := timeout) (by omega)
      exact absurd ((readOptions_scan_iff (by omega)).mp hread) (h n file)

/-- The letter `t` leaves `strtol` with a null pointer. -/
example (answers : Answers) :
  (main .long64 false ["-t".toList, "5".toList] answers).exit = .undefined
  := rfl

/-- Every call succeeds. -/
def Answers.Succeed (answers : Answers) : Prop :=
  answers.open_ = true ∧ answers.bootStatus.isSome = true ∧ answers.setTimeout = true ∧
    answers.close = true

theorem head?_useDevice (timeout : ℤ) (file : Text) :
  (useDevice timeout file answers).calls.head? = some (.open_ file)
  := by
  unfold useDevice closeDevice
  repeat' split
  all_goals rfl

theorem useDevice_succeeds_iff (timeout : ℤ) (file : Text) :
  (useDevice timeout file answers).exit = .EXIT_SUCCESS ↔ answers.Succeed ∧
    (useDevice timeout file answers).calls
      = [.open_ file, .getBootStatus, .setTimeout timeout, .close]
  := by
  obtain ⟨opens, bootStatus, setTimeout, close⟩ := answers
  cases opens <;> cases bootStatus <;> cases setTimeout <;> cases close <;>
    simp [useDevice, closeDevice, Answers.Succeed]

/-- For every command line and all answers of the driver, a device is opened just when the line is
accepted, and it is the last one that is given; and the program succeeds just when moreover every
call does, and then it has set the last timeout that is given. -/
theorem main_opens_and_succeeds_iff (long : Long) (posix : Bool) (args : List Text)
    (answers : Answers) :
  (∀ file, (main long posix args answers).calls.head? = some (.open_ file)
      ↔ ∃ timeout, Accepted posix args timeout file) ∧
    ((main long posix args answers).exit = .EXIT_SUCCESS ↔
      answers.Succeed ∧ ∃ timeout file, Accepted posix args timeout file ∧
        (main long posix args answers).calls
          = [.open_ file, .getBootStatus, .setTimeout timeout, .close])
  := by
  by_cases haccepted : ∃ timeout file, Accepted posix args timeout file
  · obtain ⟨timeout, file, h⟩ := haccepted
    have hmain := main_of_accepted long answers h
    constructor
    · intro file'
      constructor
      · intro hopens
        rw [hmain, head?_useDevice, Option.some.injEq, WatchdogCall.open_.injEq] at hopens
        exact ⟨timeout, hopens ▸ h⟩
      · rintro ⟨timeout', h'⟩
        rw [main_of_accepted long answers h', head?_useDevice]
    · constructor
      · intro hexit
        rw [hmain, useDevice_succeeds_iff] at hexit
        exact ⟨hexit.1, timeout, file, h, by rw [hmain, hexit.2]⟩
      · rintro ⟨hsucceed, timeout', file', h', hcalls⟩
        rw [main_of_accepted long answers h'] at hcalls ⊢
        exact (useDevice_succeeds_iff _ _).mpr ⟨hsucceed, hcalls⟩
  · have hnot : ∀ timeout file, ¬ Accepted posix args timeout file :=
      fun timeout file h => haccepted ⟨timeout, file, h⟩
    obtain ⟨hexit, hcalls⟩ := main_of_not_accepted long answers hnot
    rw [hcalls]
    constructor
    · intro file
      simp [hnot]
    · simp [hexit, hnot]

end Watchdog
