import Mathlib.Data.List.Nodup
import Mathlib.Data.Set.Card
import Mathlib.Logic.Function.Basic
import Mathlib.Order.Bounds.Basic
import MblCore.Lib.Lts

/-!
# Instances of UpdateD

`main` of UpdateD begins with a `DaemonInitialiser`, whose `LockFile` opens `/tmp/updated_lock` and
locks it with `lockf`.  A lock belongs to the file that was opened, not to the path, and the kernel
gives it back when the file is closed and when the process ends.  The initialiser is the first object
of `main` and so the last one to be destroyed.  Processes of UpdateD start and end at any time, and
others may remove the lock file.
-/

namespace Updated

/-- A file, whatever it is called. -/
abbrev Inode := ℕ

abbrev Pid := ℕ

/-! ### Processes -/

/-- Where `main` is. -/
inductive InstancePhase
  /-- The arguments are parsed, and the lock file is not open. -/
  | starting
  /-- `LockFile::LockFile` has opened the lock file. -/
  | opened (fd : Inode)
  /-- The lock file is locked; `initialise` and `notify_start` are called. -/
  | initialising (fd : Inode)
  /-- There is an `UpdateCoordinator`, and the server is being built. -/
  | building (fd : Inode)
  /-- The server answers, and `UpdateCoordinator::run` is called. -/
  | running (fd : Inode)
  /-- The server and the coordinator are being destroyed. -/
  | stopping (fd : Inode)
  /-- `~LockFile` has closed the lock file. -/
  | closed
  | ended
deriving DecidableEq

/-- The file a process has opened. -/
def InstancePhase.fd? : InstancePhase → Option Inode
  | .opened fd | .initialising fd | .building fd | .running fd | .stopping fd => some fd
  | .starting | .closed | .ended => none

/-- The file a process has locked: it is an instance of UpdateD. -/
def InstancePhase.locked? : InstancePhase → Option Inode
  | .initialising fd | .building fd | .running fd | .stopping fd => some fd
  | .starting | .opened _ | .closed | .ended => none

/-- The processes, and what the kernel knows of the lock file. -/
@[ext]
structure Instances where
  /-- What is at `/tmp/updated_lock`. -/
  lock_file : Option Inode
  /-- The files from here on have not been created yet. -/
  unused : Inode
  /-- The process that has locked a file. -/
  owner : Inode → Option Pid
  process : Pid → Option InstancePhase

/-- What a process does next, or what is done to it, and what others do. -/
inductive InstanceEvent
  | start (pid : Pid)
  /-- `open` with `O_CREAT`, which may fail. -/
  | open_ (pid : Pid) (fails : Bool)
  /-- `lockf` with `F_TLOCK`, which fails when another process has locked the file, and may fail
  otherwise. -/
  | lockf (pid : Pid) (fails : Bool)
  | initialised (pid : Pid)
  /-- `create_grpc_server`, which may throw. -/
  | build (pid : Pid) (fails : Bool)
  /-- The loop of `main` ends. -/
  | leaveLoop (pid : Pid)
  | close (pid : Pid)
  /-- The process ends: `main` returns, an exception is not caught, or there is a signal. -/
  | end_ (pid : Pid)
  /-- Someone removes the lock file. -/
  | remove
deriving DecidableEq

namespace Instances

def setPhase (s : Instances) (pid : Pid) (phase : InstancePhase) : Instances :=
  { s with process := Function.update s.process pid (some phase) }

@[simp]
theorem process_setPhase (s : Instances) (pid : Pid) (phase : InstancePhase) :
  (s.setPhase pid phase).process pid = some phase
  := Function.update_self ..

/-- The kernel gives back what a process has locked. -/
def release (s : Instances) (pid : Pid) : Instances :=
  { s with owner := fun file => if s.owner file = some pid then none else s.owner file }

/-- A process ends; nothing catches the exceptions of the constructors. -/
def terminate (s : Instances) (pid : Pid) : Instances :=
  (s.release pid).setPhase pid .ended

/-- `open` creates the lock file when it is not there. -/
def openLockFile (s : Instances) (pid : Pid) : Instances :=
  match s.lock_file with
  | some file => s.setPhase pid (.opened file)
  | none =>
      { s with lock_file := some s.unused, unused := s.unused + 1 }.setPhase pid (.opened s.unused)

def lock (s : Instances) (pid : Pid) (fd : Inode) : Instances :=
  { s with owner := Function.update s.owner fd (some pid) }.setPhase pid (.initialising fd)

/-- No process before UpdateD is started; the lock file may be there from before. -/
def atBoot (found : Bool) : Instances where
  lock_file := if found then some 0 else none
  unused := if found then 1 else 0
  owner := fun _ => none
  process := fun _ => none

/-- A process has opened a file. -/
def Opens (s : Instances) (pid : Pid) (file : Inode) : Prop :=
  (s.process pid).bind InstancePhase.fd? = some file

/-- A process has locked a file. -/
def Locks (s : Instances) (pid : Pid) (file : Inode) : Prop :=
  (s.process pid).bind InstancePhase.locked? = some file

end Instances

open Instances

/-- One step of the processes. -/
def stepInstances (s : Instances) : InstanceEvent → Option Instances
  | .start pid =>
      match s.process pid with
      | none => some (s.setPhase pid .starting)
      | some _ => none
  | .open_ pid fails =>
      match s.process pid with
      | some .starting => some (if fails then s.terminate pid else s.openLockFile pid)
      | _ => none
  | .lockf pid fails =>
      match s.process pid with
      | some (.opened fd) =>
          some (if fails ∨ ∃ other ∈ s.owner fd, other ≠ pid then s.terminate pid
            else s.lock pid fd)
      | _ => none
  | .initialised pid =>
      match s.process pid with
      | some (.initialising fd) => some (s.setPhase pid (.building fd))
      | _ => none
  | .build pid fails =>
      match s.process pid with
      | some (.building fd) =>
          some (if fails then s.terminate pid else s.setPhase pid (.running fd))
      | _ => none
  | .leaveLoop pid =>
      match s.process pid with
      | some (.running fd) => some (s.setPhase pid (.stopping fd))
      | _ => none
  | .close pid =>
      match s.process pid with
      | some (.stopping _) => some ((s.release pid).setPhase pid .closed)
      | _ => none
  | .end_ pid =>
      match s.process pid with
      | some .ended | none => none
      | some _ => some (s.terminate pid)
  | .remove => some { s with lock_file := none }

variable {s s' : Instances} {pid : Pid} {file : Inode} {phase : InstancePhase}
  {event : InstanceEvent}

/-! ### What a step changes -/

/-- All that a step can do to the files and the locks. -/
inductive Changes (s : Instances) (event : InstanceEvent) (s' : Instances) : Prop
  /-- Nothing is at the path any more. -/
  | removes (hevent : event = .remove) (h : s' = { s with lock_file := none })
  /-- A process opens what is at the path, which it may have created. -/
  | opens (pid : Pid) (file unused : Inode)
      (hfile : s.lock_file = some file ∧ unused = s.unused
        ∨ s.lock_file = none ∧ file = s.unused ∧ unused = s.unused + 1)
      (h : s' = { s with lock_file := some file, unused := unused }.setPhase pid (.opened file))
  /-- A process locks the file it has opened, unless another one has. -/
  | locks (pid : Pid) (file : Inode) (hopens : s.Opens pid file)
      (hfree : ∀ other, s.owner file = some other → other = pid) (h : s' = s.lock pid file)
  /-- A process goes on with the same file. -/
  | moves (pid : Pid) (phase : InstancePhase)
      (hfd : phase.fd? = (s.process pid).bind InstancePhase.fd?)
      (hlocked : phase.locked? = (s.process pid).bind InstancePhase.locked?)
      (h : s' = s.setPhase pid phase)
  /-- A process closes its file. -/
  | closes (pid : Pid) (phase : InstancePhase) (hfd : phase.fd? = none)
      (h : s' = (s.release pid).setPhase pid phase)

theorem InstancePhase.fd?_of_locked? (h : phase.locked? = some file) :
  phase.fd? = some file
  := by
  cases phase <;> simp_all [locked?, fd?]

theorem Instances.Locks.opens (h : s.Locks pid file) :
  s.Opens pid file
  := by
  obtain ⟨phase, hphase, hlocked⟩ := Option.bind_eq_some_iff.mp h
  exact Option.bind_eq_some_iff.mpr ⟨phase, hphase, InstancePhase.fd?_of_locked? hlocked⟩

theorem changes_openLockFile (event : InstanceEvent) :
  Changes s event (s.openLockFile pid)
  := by
  unfold openLockFile
  split
  · rename_i file hfile
    exact .opens pid file s.unused (.inl ⟨hfile, rfl⟩) (by rw [← hfile])
  · rename_i hnone
    exact .opens pid s.unused (s.unused + 1) (.inr ⟨hnone, rfl, rfl⟩) rfl

theorem changes_of_step (h : stepInstances s event = some s') :
  Changes s event s'
  := by
  have hterminate (pid : Pid) : Changes s event (s.terminate pid) := .closes pid .ended rfl rfl
  cases event with
  | remove =>
      obtain rfl := Option.some.inj h
      exact .removes rfl rfl
  | start pid =>
      cases hphase : s.process pid with
      | some phase => simp [stepInstances, hphase] at h
      | none =>
          simp only [stepInstances, hphase, Option.some.injEq] at h
          exact .moves pid .starting (by simp [hphase, InstancePhase.fd?])
            (by simp [hphase, InstancePhase.locked?]) h.symm
  | open_ pid fails =>
      simp only [stepInstances] at h
      split at h
      · obtain rfl := Option.some.inj h
        split
        · exact hterminate pid
        · exact changes_openLockFile _
      · contradiction
  | lockf pid fails =>
      simp only [stepInstances] at h
      split at h
      · rename_i fd hphase
        obtain rfl := Option.some.inj h
        split
        · exact hterminate pid
        · rename_i hfree
          apply Changes.locks pid fd
          · simp [Opens, hphase, InstancePhase.fd?]
          · intro other hother
            by_contra hne
            exact hfree (.inr ⟨other, hother, hne⟩)
          · rfl
      · contradiction
  | initialised pid =>
      simp only [stepInstances] at h
      split at h
      · rename_i fd hphase
        exact .moves pid (.building fd) (by simp [hphase, InstancePhase.fd?])
          (by simp [hphase, InstancePhase.locked?]) (Option.some.inj h).symm
      · contradiction
  | build pid fails =>
      simp only [stepInstances] at h
      split at h
      · rename_i fd hphase
        obtain rfl := Option.some.inj h
        split
        · exact hterminate pid
        · exact .moves pid (.running fd) (by simp [hphase, InstancePhase.fd?])
            (by simp [hphase, InstancePhase.locked?]) rfl
      · contradiction
  | leaveLoop pid =>
      simp only [stepInstances] at h
      split at h
      · rename_i fd hphase
        exact .moves pid (.stopping fd) (by simp [hphase, InstancePhase.fd?])
          (by simp [hphase, InstancePhase.locked?]) (Option.some.inj h).symm
      · contradiction
  | close pid =>
      simp only [stepInstances] at h
      split at h
      · exact .closes pid .closed rfl (Option.some.inj h).symm
      · contradiction
  | end_ pid =>
      simp only [stepInstances] at h
      split at h
      · contradiction
      · contradiction
      · obtain rfl := Option.some.inj h
        exact hterminate pid

/-! ### Locks -/

/-- The kernel knows who has locked a file, and no file is open before it has been created. -/
structure Consistent (s : Instances) : Prop where
  owner : ∀ pid file, s.Locks pid file → s.owner file = some pid
  lock_file : ∀ file, s.lock_file = some file → file < s.unused
  opens : ∀ pid file, s.Opens pid file → file < s.unused

/-- What is open is at the path, or it is among the files that were removed. -/
def Accounted (removed : List Inode) (s : Instances) : Prop :=
  ∀ pid file, s.Opens pid file → s.lock_file = some file ∨ file ∈ removed

theorem opens_setPhase {pid' : Pid} (h : (s.setPhase pid phase).Opens pid' file) :
  pid' = pid ∧ phase.fd? = some file ∨ pid' ≠ pid ∧ s.Opens pid' file
  := by
  by_cases heq : pid' = pid
  · subst heq
    exact .inl ⟨rfl, by simpa [Opens, setPhase] using h⟩
  · exact .inr ⟨heq, by simpa [Opens, setPhase, heq] using h⟩

theorem locks_setPhase {pid' : Pid} (h : (s.setPhase pid phase).Locks pid' file) :
  pid' = pid ∧ phase.locked? = some file ∨ pid' ≠ pid ∧ s.Locks pid' file
  := by
  by_cases heq : pid' = pid
  · subst heq
    exact .inl ⟨rfl, by simpa [Locks, setPhase] using h⟩
  · exact .inr ⟨heq, by simpa [Locks, setPhase, heq] using h⟩

theorem Consistent.changes (hs : Consistent s) (h : Changes s event s') :
  Consistent s'
  := by
  cases h with
  | removes _ h =>
      subst h
      exact ⟨hs.owner, fun _ hfile => by contradiction, hs.opens⟩
  | opens pid file unused hfile h =>
      subst h
      have hlt : file < unused ∧ s.unused ≤ unused := by
        rcases hfile with ⟨hfile, rfl⟩ | ⟨-, rfl, rfl⟩
        · exact ⟨hs.lock_file file hfile, le_rfl⟩
        · exact ⟨Nat.lt_succ_self _, Nat.le_succ _⟩
      constructor
      · intro pid' file' hlocks
        rcases locks_setPhase hlocks with ⟨-, hnone⟩ | ⟨-, hlocks⟩
        · contradiction
        · exact hs.owner pid' file' hlocks
      · intro file' hfile'
        obtain rfl := Option.some.inj hfile'
        exact hlt.1
      · intro pid' file' hopens
        rcases opens_setPhase hopens with ⟨-, hfd⟩ | ⟨-, hopens⟩
        · obtain rfl := Option.some.inj hfd
          exact hlt.1
        · exact (hs.opens pid' file' hopens).trans_le hlt.2
  | locks pid file hopens hfree h =>
      subst h
      constructor
      · intro pid' file' hlocks
        change Function.update s.owner file (some pid) file' = some pid'
        rcases locks_setPhase hlocks with ⟨rfl, hlocked⟩ | ⟨hne, hlocks⟩
        · obtain rfl := Option.some.inj hlocked
          rw [Function.update_self]
        · have howner := hs.owner pid' file' hlocks
          rw [Function.update_of_ne, howner]
          rintro rfl
          exact hne (hfree pid' howner)
      · exact hs.lock_file
      · intro pid' file' hopens'
        rcases opens_setPhase hopens' with ⟨-, hfd⟩ | ⟨-, hopens'⟩
        · obtain rfl := Option.some.inj hfd
          exact hs.opens pid file hopens
        · exact hs.opens pid' file' hopens'
  | moves pid phase hfd hlocked h =>
      subst h
      constructor
      · intro pid' file' hlocks
        rcases locks_setPhase hlocks with ⟨rfl, hphase⟩ | ⟨-, hlocks⟩
        · exact hs.owner pid' file' (hlocked.symm.trans hphase)
        · exact hs.owner pid' file' hlocks
      · exact hs.lock_file
      · intro pid' file' hopens
        rcases opens_setPhase hopens with ⟨rfl, hphase⟩ | ⟨-, hopens⟩
        · exact hs.opens pid' file' (hfd.symm.trans hphase)
        · exact hs.opens pid' file' hopens
  | closes pid phase hfd h =>
      subst h
      constructor
      · intro pid' file' hlocks
        rcases locks_setPhase hlocks with ⟨-, hlocked⟩ | ⟨hne, hlocks⟩
        · rw [InstancePhase.fd?_of_locked? hlocked] at hfd
          contradiction
        · have howner := hs.owner pid' file' hlocks
          change (if s.owner file' = some pid then none else s.owner file') = some pid'
          rw [if_neg, howner]
          rw [howner, Option.some.injEq]
          exact hne
      · exact hs.lock_file
      · intro pid' file' hopens
        rcases opens_setPhase hopens with ⟨-, hphase⟩ | ⟨-, hopens⟩
        · rw [hphase] at hfd
          contradiction
        · exact hs.opens pid' file' hopens

theorem consistent_atBoot (found : Bool) :
  Consistent (atBoot found)
  := by
  constructor
  · exact fun _ _ hlocks => by contradiction
  · cases found with
    | false => exact fun _ hfile => by contradiction
    | true =>
        intro file hfile
        obtain rfl := Option.some.inj hfile
        decide
  · exact fun _ _ hopens => by contradiction

/-! ### Files that were removed while they were open -/

/-- The lock file is open. -/
def LockFileOpen (s : Instances) (file : Inode) : Prop :=
  s.lock_file = some file ∧ ∃ pid, s.Opens pid file

open Classical in
/-- What a step removes while it is open. -/
noncomputable def removesOpen (s : Instances) : InstanceEvent → List Inode
  | .remove => s.lock_file.toList.filter fun file => decide (LockFileOpen s file)
  | _ => []

/-- What the steps of a run remove while it is open. -/
noncomputable def removedOpen : Instances → List InstanceEvent → List Inode
  | _, [] => []
  | s, event :: events =>
      removesOpen s event ++ ((stepInstances s event).map fun s' => removedOpen s' events).getD []

theorem mem_removesOpen_remove :
  file ∈ removesOpen s .remove ↔ LockFileOpen s file
  := by
  simp only [removesOpen, List.mem_filter, Option.mem_toList, decide_eq_true_eq]
  exact ⟨fun h => h.2, fun h => ⟨h.1, h⟩⟩

theorem Accounted.step {removed : List Inode} (hs : Accounted removed s)
    (h : stepInstances s event = some s') :
  Accounted (removed ++ removesOpen s event) s'
  := by
  have hmore {pid : Pid} {file : Inode} (hopens : s.Opens pid file) :
      s.lock_file = some file ∨ file ∈ removed ++ removesOpen s event := by
    rcases hs pid file hopens with hfile | hmem
    · exact .inl hfile
    · exact .inr (List.mem_append_left _ hmem)
  intro pid' file' hopens
  cases changes_of_step h with
  | removes hevent heq =>
      right
      subst heq hevent
      rcases hs pid' file' hopens with hfile | hmem
      · apply List.mem_append_right
        exact mem_removesOpen_remove.mpr ⟨hfile, pid', hopens⟩
      · exact List.mem_append_left _ hmem
  | opens pid file unused hfile heq =>
      subst heq
      rcases opens_setPhase hopens with ⟨-, hfd⟩ | ⟨-, hopens⟩
      · exact .inl hfd
      · rcases hmore hopens with hthere | hmem
        · rcases hfile with ⟨hfile, -⟩ | ⟨hnone, -, -⟩
          · exact .inl (hfile.symm.trans hthere)
          · rw [hnone] at hthere
            contradiction
        · exact .inr hmem
  | locks pid file hopens' hfree heq =>
      subst heq
      rcases opens_setPhase hopens with ⟨rfl, hfd⟩ | ⟨-, hopens⟩
      · obtain rfl := Option.some.inj hfd
        exact hmore hopens'
      · exact hmore hopens
  | moves pid phase hfd hlocked heq =>
      subst heq
      rcases opens_setPhase hopens with ⟨rfl, hphase⟩ | ⟨-, hopens⟩
      · exact hmore (hfd.symm.trans hphase)
      · exact hmore hopens
  | closes pid phase hfd heq =>
      subst heq
      rcases opens_setPhase hopens with ⟨-, hphase⟩ | ⟨-, hopens⟩
      · rw [hphase] at hfd
        contradiction
      · exact hmore hopens

theorem accounted_of_run {removed : List Inode} {events : List InstanceEvent}
    (hs : Accounted removed s) (hrun : Lts.exec stepInstances s events = some s') :
  Accounted (removed ++ removedOpen s events) s'
  := by
  induction events generalizing s removed with
  | nil =>
      obtain rfl := Option.some.inj hrun
      simpa [removedOpen] using hs
  | cons event events ih =>
      obtain ⟨t, hstep, hrest⟩ := Lts.exec_cons_eq_some.mp hrun
      have hrest := ih (hs.step hstep) hrest
      rw [removedOpen, hstep, ← List.append_assoc]
      exact hrest

/-! ### How many instances there are -/

/-- Some processes are instances of UpdateD at the same time. -/
def InstancesAt (s : Instances) (pids : List Pid) : Prop :=
  pids.Nodup ∧ ∀ pid ∈ pids, ∃ file, s.Locks pid file

/-- Different instances have locked different files, and there is one more of them, at most, than
files that were removed while they were open. -/
theorem InstancesAt.length_le {removed : List Inode} {pids : List Pid} (h : InstancesAt s pids)
    (hs : Consistent s) (hremoved : Accounted removed s) :
  pids.length ≤ removed.length + 1
  := by
  obtain ⟨hnodup, hpids⟩ := h
  choose! file hfile using hpids
  have hinj : ∀ p ∈ pids, ∀ q ∈ pids, file p = file q → p = q := by
    intro p hp q hq heq
    have hp' := hs.owner p _ (hfile p hp)
    rw [heq, hs.owner q _ (hfile q hq)] at hp'
    exact (Option.some.inj hp').symm
  have hfiles : (pids.map file).Nodup := (List.nodup_map_iff_inj_on hnodup).mpr hinj
  have hsubset : pids.map file ⊆ s.lock_file.toList ++ removed := by
    intro f hf
    obtain ⟨pid, hpid, rfl⟩ := List.mem_map.mp hf
    rcases hremoved pid _ (hfile pid hpid).opens with hthere | hmem
    · exact List.mem_append_left _ (Option.mem_toList.mpr hthere)
    · exact List.mem_append_right _ hmem
  have hlength := (hfiles.subperm hsubset).length_le
  have hone : s.lock_file.toList.length ≤ 1 := by cases s.lock_file <;> simp
  rw [List.length_map, List.length_append] at hlength
  omega

/-! ### Runs with many instances -/

/-- A process starts and locks the lock file. -/
def getsLock (pid : Pid) : List InstanceEvent :=
  [.start pid, .open_ pid false, .lockf pid false]

/-- Each process but the first one starts after the lock file was removed. -/
def crowding : ℕ → List InstanceEvent
  | 0 => getsLock 0
  | n + 1 => crowding n ++ .remove :: getsLock (n + 1)

/-- Processes up to a number are instances, each with a file of its own. -/
def crowd (n : ℕ) : Instances where
  lock_file := some n
  unused := n + 1
  owner file := if file ≤ n then some file else none
  process pid := if pid ≤ n then some (.initialising pid) else none

theorem removedOpen_append {events events' : List InstanceEvent}
    (hrun : Lts.exec stepInstances s events = some s') :
  removedOpen s (events ++ events') = removedOpen s events ++ removedOpen s' events'
  := by
  induction events generalizing s with
  | nil =>
      obtain rfl := Option.some.inj hrun
      rfl
  | cons event events ih =>
      obtain ⟨t, hstep, hrest⟩ := Lts.exec_cons_eq_some.mp hrun
      simp only [List.cons_append, removedOpen, hstep, Option.map_some, Option.getD_some, ih hrest,
        List.append_assoc]

theorem removedOpen_eq_nil {events : List InstanceEvent} (h : .remove ∉ events) :
  removedOpen s events = []
  := by
  induction events generalizing s with
  | nil => rfl
  | cons event events ih =>
      rw [List.mem_cons, not_or] at h
      have hnone : removesOpen s event = [] := by
        cases event <;> first | rfl | exact absurd rfl h.1
      rw [removedOpen, hnone, List.nil_append]
      cases stepInstances s event with
      | none => rfl
      | some s' => exact ih h.2

/-- A process that is alone with the file that it opens gets the lock. -/
theorem exec_getsLock_eq (t : Instances) (file : Inode) (hpid : s.process pid = none)
    (hopens : (s.setPhase pid .starting).openLockFile pid = t.setPhase pid (.opened file))
    (hfree : t.owner file = none) :
  Lts.exec stepInstances s (getsLock pid) = some (t.lock pid file)
  := by
  have hstart : stepInstances s (.start pid) = some (s.setPhase pid .starting) := by
    simp [stepInstances, hpid]
  have hopen : stepInstances (s.setPhase pid .starting) (.open_ pid false)
      = some (t.setPhase pid (.opened file)) := by
    rw [← hopens]
    simp [stepInstances]
  have hlock : stepInstances (t.setPhase pid (.opened file)) (.lockf pid false)
      = some (t.lock pid file) := by
    simp [stepInstances, setPhase, hfree, lock]
  simp only [getsLock, Lts.exec, hstart, hopen, hlock, Option.bind_some]

theorem exec_getsLock_atBoot (found : Bool) :
  Lts.exec stepInstances (atBoot found) (getsLock 0) = some (crowd 0)
  := by
  rw [exec_getsLock_eq { atBoot found with lock_file := some 0, unused := 1 } 0 rfl]
  · congr 1
    ext k : 2
    · rfl
    · rfl
    · by_cases hk : k = 0 <;> simp [lock, setPhase, crowd, atBoot, hk]
    · by_cases hk : k = 0 <;> simp [lock, setPhase, crowd, atBoot, hk]
  · cases found <;> simp [atBoot, setPhase, openLockFile]
  · rfl

theorem exec_getsLock (n : ℕ) :
  Lts.exec stepInstances { crowd n with lock_file := none } (getsLock (n + 1))
    = some (crowd (n + 1))
  := by
  rw [exec_getsLock_eq { crowd n with lock_file := some (n + 1), unused := n + 2 } (n + 1)]
  · have hle {k : ℕ} (hk : k ≠ n + 1) : k ≤ n + 1 ↔ k ≤ n := by omega
    congr 1
    ext k : 2
    · rfl
    · rfl
    · by_cases hk : k = n + 1
      · simp [lock, setPhase, crowd, hk]
      · simp [lock, setPhase, crowd, hk, hle hk]
    · by_cases hk : k = n + 1
      · simp [lock, setPhase, crowd, hk]
      · simp [lock, setPhase, crowd, hk, hle hk]
  · simp [crowd]
  · simp [crowd, setPhase, openLockFile]
  · simp [crowd]

theorem exec_crowding (found : Bool) (n : ℕ) :
  Lts.exec stepInstances (atBoot found) (crowding n) = some (crowd n)
  := by
  induction n with
  | zero => exact exec_getsLock_atBoot found
  | succ n ih =>
      rw [crowding, Lts.exec_append, ih]
      exact exec_getsLock n

theorem length_removedOpen_crowding (found : Bool) (n : ℕ) :
  (removedOpen (atBoot found) (crowding n)).length = n
  := by
  induction n with
  | zero =>
      rw [crowding, removedOpen_eq_nil (by simp [getsLock])]
      rfl
  | succ n ih =>
      have hopen : LockFileOpen (crowd n) n := by
        refine ⟨rfl, n, ?_⟩
        simp [Opens, crowd, InstancePhase.fd?]
      have hone : removesOpen (crowd n) .remove = [n] := by
        have hthere : (crowd n).lock_file.toList = [n] := rfl
        rw [removesOpen, hthere, List.filter_eq_self]
        simpa using hopen
      rw [crowding, removedOpen_append (exec_crowding found n), List.length_append, ih, removedOpen,
        hone]
      change n + ([n] ++ removedOpen { crowd n with lock_file := none } (getsLock (n + 1))).length
        = n + 1
      rw [removedOpen_eq_nil (by simp [getsLock])]
      rfl

theorem instancesAt_crowd (n : ℕ) :
  InstancesAt (crowd n) (List.range (n + 1))
  := by
  constructor
  · exact List.nodup_range
  · intro pid hpid
    use pid
    have hle : pid ≤ n := Nat.lt_succ_iff.mp (List.mem_range.mp hpid)
    simp [Locks, crowd, hle, InstancePhase.locked?]

/-- Whatever the processes of UpdateD and those that remove the lock file do, the greatest number of
instances at the same time is one more than the times it was removed while it was open. -/
theorem isGreatest_instances (found : Bool) (n : ℕ) :
  IsGreatest {k | ∃ events s pids, Lts.exec stepInstances (atBoot found) events = some s ∧
    (removedOpen (atBoot found) events).length = n ∧ InstancesAt s pids ∧ pids.length = k} (n + 1)
  := by
  constructor
  · refine ⟨crowding n, crowd n, List.range (n + 1), exec_crowding found n,
      length_removedOpen_crowding found n, instancesAt_crowd n, List.length_range⟩
  · rintro k ⟨events, s, pids, hrun, hremoved, hpids, rfl⟩
    have hconsistent : Consistent s := by
      apply Lts.invariant' Consistent _ (consistent_atBoot found) hrun
      exact fun _ _ _ hs hstep => hs.changes (changes_of_step hstep)
    have haccounted : Accounted [] (atBoot found) := fun _ _ hopens => by contradiction
    have hs := accounted_of_run haccounted hrun
    rw [List.nil_append] at hs
    rw [← hremoved]
    exact hpids.length_le hconsistent hs

end Updated
