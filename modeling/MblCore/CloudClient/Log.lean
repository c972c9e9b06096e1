import MblCore.Lib.Lts
import MblCore.Lib.Text
import Mathlib.Logic.Function.Basic

/-!
# The log file of the cloud client

`mbl_trace_print_handler` writes each line that `mbed-trace` prints to the log file, one call after
the other.  A program that rotates the log moves the file away and sends SIGHUP, whose handler sets
`g_log_need_reopen`, and the next call opens the file again and clears the variable.  Between
`fopen` and the assignment that clears the variable a signal leaves no trace.
-/

namespace CloudClient

/-! ### The handler -/

/-- A file, whatever it is called. -/
abbrev LogFile := ℕ

/-- A line of a log file. -/
inductive LogLine
  /-- "%s[INFO][mbl ]: Log file reopened\n" -/
  | reopened (time : Text)
  | traced (str : Text)
deriving DecidableEq

/-- Where the call of `mbl_trace_print_handler` is that has a line to print, if there is one. -/
inductive PrintPhase
  | idle
  | closing (str : Text)
  | opening (str : Text)
  /-- `fopen` has returned, and `g_log_need_reopen` is to be cleared. -/
  | opened (str : Text)
  | reopened (str : Text)
  | writing (str : Text)
deriving DecidableEq

structure Log where
  /-- What is at `g_log_path`. -/
  at_path : Option LogFile
  /-- The files from here on have not been created yet. -/
  unused : LogFile
  content : LogFile → List LogLine
  g_log_stream : Option LogFile
  g_log_need_reopen : Bool
  phase : PrintPhase

inductive LogEvent
  /-- `mbl_trace_print_handler` is called and looks at the stream and at the variable. -/
  | print (str : Text)
  | fclose
  | fopen (fails : Bool)
  /-- `g_log_need_reopen = 0`. -/
  | clear
  /-- It is logged that the file was reopened; `strftime` has formatted the time unless the time is
  unavailable. -/
  | logReopened (time : Option Text)
  | write
  /-- `mbl_log_reopen_signal_handler` is called. -/
  | sighup
  /-- The log file is moved away, and another one may be created at the path. -/
  | rotate (create : Bool)
deriving DecidableEq

/-- `make_time_prefix`. -/
def makeTimePrefix (time : Option Text) : Text :=
  time.getD "TIME UNAVAILABLE ".toList

namespace Log

/-- A line is written to the stream, if there is one. -/
def fprintf (s : Log) (line : LogLine) : Log :=
  match s.g_log_stream with
  | none => s
  | some file => { s with content := Function.update s.content file (s.content file ++ [line]) }

/-- `fopen(g_log_path, "a")`. -/
def fopen (s : Log) (fails : Bool) : Log :=
  if fails then { s with g_log_stream := none }
  else
    match s.at_path with
    | some file => { s with g_log_stream := some file }
    | none =>
        { s with at_path := some s.unused, unused := s.unused + 1, g_log_stream := some s.unused }

/-- The log after `log_init` has opened it. -/
def logInit : Log where
  at_path := some 0
  unused := 1
  content := fun _ => []
  g_log_stream := some 0
  g_log_need_reopen := false
  phase := .idle

end Log

/-- One step of the handler, of a signal or of the rotation of the log. -/
def stepLog (s : Log) : LogEvent → Option Log
  | .print str =>
      match s.phase with
      | .idle =>
          some { s with
            phase :=
              if s.g_log_stream = none then .opening str
              else if s.g_log_need_reopen then .closing str
              else .writing str }
      | _ => none
  | .fclose =>
      match s.phase with
      | .closing str => some { s with phase := .opening str }
      | _ => none
  | .fopen fails =>
      match s.phase with
      | .opening str => some { s.fopen fails with phase := .opened str }
      | _ => none
  | .clear =>
      match s.phase with
      | .opened str => some { s with g_log_need_reopen := false, phase := .reopened str }
      | _ => none
  | .logReopened time =>
      match s.phase with
      | .reopened str =>
          some { s.fprintf (.reopened (makeTimePrefix time)) with phase := .writing str }
      | _ => none
  | .write =>
      match s.phase with
      | .writing str => some { s.fprintf (.traced str) with phase := .idle }
      | _ => none
  | .sighup => some { s with g_log_need_reopen := true }
  | .rotate create =>
      some (if create then { s with at_path := some s.unused, unused := s.unused + 1 }
        else { s with at_path := none })

namespace Log

variable {s s' t u v : Log} {event : LogEvent} {str : Text}

/-! ### Lines that go to a file that was moved away -/

/-- The stream writes to a file that is not at the path. -/
def Stale (s : Log) : Prop :=
  ∃ file, s.g_log_stream = some file ∧ s.at_path ≠ some file

/-- Nothing makes the handler open the file again after a line it may have to print. -/
def Unaware (s : Log) : Prop :=
  match s.phase with
  | .closing _ | .opening _ => False
  | .opened _ => True
  | .idle | .reopened _ | .writing _ => s.g_log_need_reopen = false

/-- The handler does not know that the file it writes to was moved away. -/
def Late (s : Log) : Prop :=
  s.Stale ∧ s.Unaware

/-- A signal arrives after `fopen` and before the variable is cleared. -/
def InWindow (s : Log) (event : LogEvent) : Prop :=
  event = .sighup → ∃ str, s.phase = .opened str

@[simp]
theorem fprintf_at_path (line : LogLine) :
  (s.fprintf line).at_path = s.at_path
  := by
  unfold fprintf
  split <;> rfl

@[simp]
theorem fprintf_g_log_stream (line : LogLine) :
  (s.fprintf line).g_log_stream = s.g_log_stream
  := by
  unfold fprintf
  split <;> rfl

@[simp]
theorem fprintf_g_log_need_reopen (line : LogLine) :
  (s.fprintf line).g_log_need_reopen = s.g_log_need_reopen
  := by
  unfold fprintf
  split <;> rfl

@[simp]
theorem fprintf_unused (line : LogLine) :
  (s.fprintf line).unused = s.unused
  := by
  unfold fprintf
  split <;> rfl

/-- What was just opened is at the path. -/
theorem not_stale_fopen (fails : Bool) :
  ¬ (s.fopen fails).Stale
  := by
  rintro ⟨file, hstream, hpath⟩
  unfold fopen at hstream hpath
  split at hstream
  · contradiction
  · split at hstream <;> simp_all

/-- All that a step can do. -/
inductive Steps (s : Log) : LogEvent → Log → Prop
  | print (str : Text) (hphase : s.phase = .idle) :
      Steps s (.print str) { s with
        phase :=
          if s.g_log_stream = none then .opening str
          else if s.g_log_need_reopen then .closing str
          else .writing str }
  | fclose (str : Text) (hphase : s.phase = .closing str) :
      Steps s .fclose { s with phase := .opening str }
  | fopen (str : Text) (fails : Bool) (hphase : s.phase = .opening str) :
      Steps s (.fopen fails) { s.fopen fails with phase := .opened str }
  | clear (str : Text) (hphase : s.phase = .opened str) :
      Steps s .clear { s with g_log_need_reopen := false, phase := .reopened str }
  | logReopened (str : Text) (time : Option Text) (hphase : s.phase = .reopened str) :
      Steps s (.logReopened time)
        { s.fprintf (.reopened (makeTimePrefix time)) with phase := .writing str }
  | write (str : Text) (hphase : s.phase = .writing str) :
      Steps s .write { s.fprintf (.traced str) with phase := .idle }
  | sighup : Steps s .sighup { s with g_log_need_reopen := true }
  | rotate (create : Bool) :
      Steps s (.rotate create)
        (if create then { s with at_path := some s.unused, unused := s.unused + 1 }
          else { s with at_path := none })

theorem steps_of_stepLog (h : stepLog s event = some s') :
  Steps s event s'
  := by
  cases event with
  | sighup =>
      obtain rfl := Option.some.inj h
      exact .sighup
  | rotate create =>
      obtain rfl := Option.some.inj h
      exact .rotate create
  | print str =>
      simp only [stepLog] at h
      split at h
      · obtain rfl := Option.some.inj h
        exact .print str ‹_›
      · contradiction
  | fclose =>
      simp only [stepLog] at h
      split at h
      · obtain rfl := Option.some.inj h
        exact .fclose _ ‹_›
      · contradiction
  | fopen fails =>
      simp only [stepLog] at h
      split at h
      · obtain rfl := Option.some.inj h
        exact .fopen _ fails ‹_›
      · contradiction
  | clear =>
      simp only [stepLog] at h
      split at h
      · obtain rfl := Option.some.inj h
        exact .clear _ ‹_›
      · contradiction
  | logReopened time =>
      simp only [stepLog] at h
      split at h
      · obtain rfl := Option.some.inj h
        exact .logReopened _ time ‹_›
      · contradiction
  | write =>
      simp only [stepLog] at h
      split at h
      · obtain rfl := Option.some.inj h
        exact .write _ ‹_›
      · contradiction

/-- Only a signal that is not lost makes the handler aware of a rotation, and nothing else makes it
unaware of one. -/
theorem late_step (hevent : ∀ create, event ≠ .rotate create) (h : stepLog s event = some s') :
  s'.Late ↔ s.Late ∧ InWindow s event
  := by
  cases steps_of_stepLog h with
  | rotate create => exact absurd rfl (hevent create)
  | sighup => cases hphase : s.phase <;> simp [Late, Stale, Unaware, InWindow, hphase]
  | print str hphase =>
      cases hstream : s.g_log_stream <;> cases hneed : s.g_log_need_reopen <;>
        simp [Late, Stale, Unaware, InWindow, hphase, hstream, hneed]
  | fopen str fails hphase =>
      have hfresh : ¬ ({ s.fopen fails with phase := .opened str } : Log).Stale :=
        not_stale_fopen fails
      simp [Late, hfresh, Unaware, hphase]
  | fclose str hphase | clear str hphase | logReopened str time hphase | write str hphase =>
      simp [Late, Stale, Unaware, InWindow, hphase]

/-- Whether a rotation will be missed is decided by the signals that come after it. -/
theorem late_of_run {events : List LogEvent} (hevents : ∀ create, .rotate create ∉ events)
    (hrun : Lts.exec stepLog s events = some t) :
  t.Late ↔ s.Late ∧ Lts.Meets stepLog InWindow s events
  := by
  apply Lts.iff_meets Late (fun event => ∀ create, event ≠ .rotate create)
  · exact fun _ _ _ => late_step
  · rintro event hevent create rfl
    exact hevents create hevent
  · exact hrun

/-! ### Rotations -/

/-- No file is used before it is created. -/
structure Created (s : Log) : Prop where
  at_path : ∀ file, s.at_path = some file → file < s.unused
  stream : ∀ file, s.g_log_stream = some file → file < s.unused

theorem Created.fopen (hs : s.Created) (fails : Bool) :
  (s.fopen fails).Created
  := by
  unfold Log.fopen
  split
  · exact ⟨hs.at_path, fun _ hfile => by contradiction⟩
  · split
    · rename_i file hfile
      exact ⟨hs.at_path, fun file' hfile' => hs.at_path file' (hfile.trans hfile')⟩
    · constructor <;>
      · intro file hfile
        obtain rfl := Option.some.inj hfile
        exact Nat.lt_succ_self _

theorem Created.step (hs : s.Created) (h : stepLog s event = some s') :
  s'.Created
  := by
  cases steps_of_stepLog h with
  | rotate create =>
      cases create with
      | true =>
          constructor
          · intro file hfile
            obtain rfl := Option.some.inj hfile
            exact Nat.lt_succ_self _
          · exact fun file hfile => Nat.lt_succ_of_lt (hs.stream file hfile)
      | false => exact ⟨fun _ hfile => by contradiction, hs.stream⟩
  | fopen str fails hphase => exact ⟨(hs.fopen fails).at_path, (hs.fopen fails).stream⟩
  | sighup | print str hphase | fclose str hphase | clear str hphase =>
      exact ⟨hs.at_path, hs.stream⟩
  | logReopened str time hphase | write str hphase =>
      exact ⟨by simpa using hs.at_path, by simpa using hs.stream⟩

/-- The handler has to be told when the file is moved away now. -/
def MustBeTold (s : Log) : Prop :=
  s.g_log_stream ≠ none ∧ s.Unaware

theorem late_rotate (hs : s.Created) {create : Bool} (h : stepLog s (.rotate create) = some s') :
  s'.Late ↔ s.MustBeTold
  := by
  have hpath : s'.at_path = none ∨ s'.at_path = some s.unused := by
    cases steps_of_stepLog h with
    | rotate create => cases create <;> simp
  have hsame : s'.g_log_stream = s.g_log_stream ∧ (s'.Unaware ↔ s.Unaware) := by
    cases steps_of_stepLog h with
    | rotate create => cases create <;> exact ⟨rfl, Iff.rfl⟩
  rw [Late, MustBeTold, hsame.2, Stale, hsame.1, Option.ne_none_iff_exists']
  apply and_congr_left'
  apply exists_congr
  intro file
  simp only [and_iff_left_iff_imp]
  intro hstream hthere
  have hlt := hs.stream file hstream
  rcases hpath with hnone | hnew
  · rw [hnone] at hthere
    contradiction
  · rw [hnew, Option.some.injEq] at hthere
    exact hlt.ne' hthere

/-! ### One line -/

/-- What is known of the call that prints a line, when it has begun late or not. -/
def Printing (str : Text) (late : Prop) (s : Log) : Prop :=
  match s.phase with
  | .idle => True
  | .closing str' | .opening str' => str' = str ∧ ¬ late
  | .opened str' | .reopened str' | .writing str' => str' = str ∧ (s.Stale ↔ late)

theorem printing_print (h : stepLog s (.print str) = some s') :
  Printing str s.Late s'
  := by
  cases steps_of_stepLog h with
  | print _ hphase =>
      cases hstream : s.g_log_stream <;> cases hneed : s.g_log_need_reopen <;>
        simp [Printing, Late, Stale, Unaware, hphase, hstream, hneed]

theorem Printing.step {late : Prop} (hs : Printing str late s)
    (hrotate : ∀ create, event ≠ .rotate create) (hprint : ∀ str, event ≠ .print str)
    (h : stepLog s event = some s') :
  Printing str late s'
  := by
  cases steps_of_stepLog h with
  | rotate create => exact absurd rfl (hrotate create)
  | print str' _ => exact absurd rfl (hprint str')
  | sighup => exact hs
  | write str' hphase => trivial
  | fclose str' hphase =>
      rw [Printing, hphase] at hs
      exact hs
  | fopen str' fails hphase =>
      rw [Printing, hphase] at hs
      exact ⟨hs.1, iff_of_false (not_stale_fopen fails) hs.2⟩
  | clear str' hphase =>
      rw [Printing, hphase] at hs
      exact hs
  | logReopened str' time hphase =>
      rw [Printing, hphase] at hs
      simpa [Printing, Stale] using hs

theorem printing_of_run {late : Prop} {events : List LogEvent} (hs : Printing str late s)
    (hevents : ∀ create, .rotate create ∉ events) (hprints : ∀ str, .print str ∉ events)
    (hrun : Lts.exec stepLog s events = some t) :
  Printing str late t
  := by
  induction events generalizing s with
  | nil =>
      obtain rfl := Option.some.inj hrun
      exact hs
  | cons event events ih =>
      obtain ⟨s', hstep, hrest⟩ := Lts.exec_cons_eq_some.mp hrun
      have hs' := hs.step (fun create heq => hevents create (heq ▸ List.mem_cons_self))
        (fun str heq => hprints str (heq ▸ List.mem_cons_self)) hstep
      exact ih hs' (fun create hmem => hevents create (List.mem_cons_of_mem _ hmem))
        (fun str hmem => hprints str (List.mem_cons_of_mem _ hmem)) hrest

/-- A line is written to a file that is not at the path. -/
def WritesElsewhere (str : Text) (s s' : Log) : Prop :=
  ∃ file, s.at_path ≠ some file ∧ s'.content file = s.content file ++ [.traced str]

theorem writesElsewhere_iff (hs : s.phase = .writing str) (h : stepLog s .write = some s') :
  WritesElsewhere str s s' ↔ s.Stale
  := by
  cases steps_of_stepLog h with
  | write str' hphase =>
      rw [hs, PrintPhase.writing.injEq] at hphase
      subst hphase
      constructor
      · rintro ⟨file, hpath, hcontent⟩
        cases hstream : s.g_log_stream with
        | none =>
            simp [fprintf, hstream] at hcontent
        | some stream =>
            by_cases heq : file = stream
            · subst heq
              exact ⟨file, hstream, hpath⟩
            · simp [fprintf, hstream, heq] at hcontent
      · rintro ⟨file, hstream, hpath⟩
        use file, hpath
        simp [fprintf, hstream]

/-- After the log file was moved away, a line is written to a file that is not at the path exactly
when the handler had to be told of it and each signal that has arrived before the line was printed
came in between `fopen` and the assignment that clears the variable. -/
theorem writesElsewhere_iff_signals_lost {before events during : List LogEvent} {create : Bool}
    (hs : Lts.exec stepLog logInit before = some s)
    (hrotate : stepLog s (.rotate create) = some s')
    (ht : Lts.exec stepLog s' events = some t) (hevents : ∀ create, .rotate create ∉ events)
    (hu : Lts.exec stepLog t (.print str :: during) = some u)
    (hduring : ∀ create, .rotate create ∉ during) (hprint : ∀ str, .print str ∉ during)
    (hv : stepLog u .write = some v) :
  WritesElsewhere str u v ↔ s.MustBeTold ∧ Lts.Meets stepLog InWindow s' events
  := by
  have hcreated : s.Created := by
    apply Lts.invariant' Created _ _ hs
    · exact fun _ _ _ hs hstep => hs.step hstep
    · constructor <;>
      · intro file hfile
        obtain rfl := Option.some.inj hfile
        decide
  obtain ⟨t', hcall, hrest⟩ := Lts.exec_cons_eq_some.mp hu
  have hprinting := printing_of_run (printing_print hcall) hduring hprint hrest
  have hphase : ∃ str', u.phase = .writing str' := by
    cases steps_of_stepLog hv with
    | write str' hphase => exact ⟨str', hphase⟩
  obtain ⟨str', hphase⟩ := hphase
  rw [Printing, hphase] at hprinting
  obtain ⟨rfl, hstale⟩ := hprinting
  rw [writesElsewhere_iff hphase hv, hstale, late_of_run hevents ht, late_rotate hcreated hrotate]

/-- The log is reopened; it is rotated before the variable is cleared. -/
def inWindow : Log where
  at_path := some 0
  unused := 1
  content := fun _ => []
  g_log_stream := some 0
  g_log_need_reopen := true
  phase := .opened ['a']

/-- The first signal after the rotation comes in before the variable is cleared. -/
def lostSignal : List LogEvent :=
  [.sighup, .clear, .logReopened none, .write]

/-- The line that is printed when the signal was lost goes to the file that was moved away. -/
theorem writesElsewhere_lostSignal :
  ∃ t u v, Lts.exec stepLog { inWindow with at_path := some 1, unused := 2 } lostSignal = some t ∧
    Lts.exec stepLog t [.print ['b']] = some u ∧ stepLog u .write = some v ∧
    WritesElsewhere ['b'] u v
  := by
  have hs : Lts.exec stepLog logInit [.sighup, .print ['a'], .fclose, .fopen false]
      = some inWindow := rfl
  have hrotate : stepLog inWindow (.rotate true)
      = some { inWindow with at_path := some 1, unused := 2 } := rfl
  have hmust : inWindow.MustBeTold := ⟨by decide, trivial⟩
  have hlost : Lts.Meets stepLog InWindow { inWindow with at_path := some 1, unused := 2 }
      lostSignal := by
    simp [lostSignal, Lts.Meets, InWindow, stepLog, inWindow]
  refine ⟨_, _, _, rfl, rfl, rfl, ?_⟩
  exact (writesElsewhere_iff_signals_lost hs hrotate rfl (by decide) rfl
    (fun _ => List.not_mem_nil) (fun _ => List.not_mem_nil) rfl).mpr ⟨hmust, hlost⟩

end Log

end CloudClient
