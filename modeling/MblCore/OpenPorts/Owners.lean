import MblCore.OpenPorts.Coverage

/-!
# The owners of a socket

`get_pids_from_inode` reads the links of a process one after the other, and what a link that
cannot be read raises is caught outside this loop: the rest of the links are not read.  So an owner
is found unless such a link is listed before every link to the socket.
-/

namespace OpenPorts

/-- Of the processes other than that of the checker, this one is found just when its directory can
be listed and a descriptor that can be read points to the socket. -/
def FindsOwner (proc : Proc) (inode pid : Text) : Prop :=
  ∃ pids, getPidsFromInode proc inode = .ok pids ∧ (pid ∈ pids ↔ Owns proc inode pid)

/-- A descriptor that cannot be read is listed before every one that points to the socket. -/
def Hidden (proc : Proc) (inode pid : Text) : Prop :=
  ∃ fds, proc.fd pid = some fds ∧ none ∈ fds.takeWhile (· ≠ some (socketInodeLink inode))

/-- A value comes before the first failure just when no failure comes before its first place. -/
theorem some_mem_takeWhile_isSome {α : Type} [DecidableEq α] {a : α} {l : List (Option α)} :
  some a ∈ l.takeWhile Option.isSome ↔ some a ∈ l ∧ none ∉ l.takeWhile (· ≠ some a)
  := by
  induction l with
  | nil => simp
  | cons x l ih =>
      cases x with
      | none => simp
      | some b =>
          by_cases hb : b = a
          · subst hb
            simp
          · simp [hb, Ne.symm hb, ih]

theorem foundOwner_iff {proc : Proc} {inode pid : Text} :
  FoundOwner proc inode pid ↔ Owns proc inode pid ∧ ¬ Hidden proc inode pid
  := by
  constructor
  · rintro ⟨hlisted, hnumeral, hother, fds, hfds, hlink⟩
    obtain ⟨hmem, hfirst⟩ := some_mem_takeWhile_isSome.mp hlink
    use ⟨hlisted, hnumeral, hother, fds, hfds, hmem⟩
    rintro ⟨fds', hfds', hhidden⟩
    obtain rfl := Option.some.inj (hfds.symm.trans hfds')
    apply hfirst hhidden
  · rintro ⟨⟨hlisted, hnumeral, hother, fds, hfds, hmem⟩, hseen⟩
    use hlisted, hnumeral, hother, fds, hfds
    apply some_mem_takeWhile_isSome.mpr
    use hmem
    intro hhidden
    apply hseen ⟨fds, hfds, hhidden⟩

/-- A process is found just when it has the socket open, unless it has and a descriptor that cannot
be read hides that. -/
theorem findsOwner_iff (proc : Proc) (inode pid : Text) :
  FindsOwner proc inode pid ↔ (Owns proc inode pid → ¬ Hidden proc inode pid)
  := by
  obtain ⟨pids, hpids, hmem⟩ := getPidsFromInode_eq proc inode
  constructor
  · rintro ⟨pids', hpids', hiff⟩ howns
    obtain rfl := Except.ok.inj (hpids.symm.trans hpids')
    have hfound := (hmem pid).mp (hiff.mpr howns)
    exact (foundOwner_iff.mp hfound).2
  · intro hseen
    use pids, hpids
    rw [hmem, foundOwner_iff]
    apply and_iff_left_of_imp hseen

/-- A device where a process has closed a descriptor just before it is read. -/
def closedDescriptor : Proc where
  uid := 0
  pid := 7
  net := fun _ => some ["header".toList]
  listing := ["7".toList, "12".toList]
  fd := fun _ => some [some "/dev/null".toList, none, some "socket:[42]".toList]
  exe := fun _ => none
  nodup := by decide
  pid_mem := by decide

/-- The process has the socket open and is not found. -/
theorem not_findsOwner_closedDescriptor :
  Owns closedDescriptor "42".toList "12".toList
    ∧ getPidsFromInode closedDescriptor "42".toList = .ok []
    ∧ ¬ FindsOwner closedDescriptor "42".toList "12".toList
  := by
  have howns : Owns closedDescriptor "42".toList "12".toList :=
    ⟨by decide, by decide, by decide, _, rfl, by decide⟩
  have hnone : getPidsFromInode closedDescriptor "42".toList = .ok [] := by decide
  refine ⟨howns, hnone, ?_⟩
  rintro ⟨pids, hpids, hiff⟩
  obtain rfl := Except.ok.inj (hnone.symm.trans hpids)
  exact absurd (hiff.mpr howns) List.not_mem_nil

end OpenPorts
