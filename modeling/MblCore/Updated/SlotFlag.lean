import MblCore.Updated.Handover

/-!
# The flag and the link of the coordinator

The flag is up exactly while there is a link in the slot, whatever the threads do and in whatever
order: so the assertion in `run` never fails, and no link is handed over twice.
-/

open FileTree

namespace Updated

open PayloadHardLink

namespace UpdateCoordinator

variable {c c' : UpdateCoordinator} {e : Event}

/-- The assertion in `run` holds. -/
theorem terminated_handOver (h : c.SlotFlagged) (hup : c.updating = true) :
  c.handOver.terminated = c.terminated
  := by
  rw [SlotFlagged, hup] at h
  obtain ⟨link, hlink⟩ := Option.isSome_iff_exists.mp h.symm
  simp only [handOver, hlink]

/-- The flag and the slot after a step, also one that ends the process. -/
theorem slotFlagged_step (h : c.SlotFlagged) (hstep : step c e = some c') :
  c'.SlotFlagged
  := by
  obtain ⟨-, hended | ⟨payload_path, header_data, os, os', fs, fs', leaf, -, -, -, -, rfl⟩
    | ⟨os, -, rfl⟩ | ⟨link, os, fs, -, -, rfl⟩⟩ := step_cases h hstep
  · exact hended.flag h
  · rfl
  · exact h
  · rfl

/-- What a run of the coordinator keeps: the flag is in step with the slot, and every link is
handed over once. -/
structure OncePerLink (c : UpdateCoordinator) : Prop where
  flag : c.SlotFlagged
  numbered : c.NumberedWhileAlive
  once : (c.handovers.map Handover.request).Nodup

theorem oncePerLink_init (fs : Nodes) :
  (init fs).OncePerLink
  where
    flag := rfl
    numbered := Or.inr (Numbered.init fs)
    once := List.nodup_nil

theorem oncePerLink_step (h : c.OncePerLink) (hstep : step c e = some c') :
  c'.OncePerLink
  := by
  have hnumbered : c.Numbered := by
    simpa [NumberedWhileAlive, alive_of_step hstep] using h.numbered
  have hhanded : ∀ link, c.payload_link = some link →
      ((c.handovers ++ [c.handover link]).map Handover.request).Nodup := by
    intro link hlink
    -- the link in the slot is not among those that were handed over
    rw [List.map_append, List.map_singleton, List.nodup_append_comm, List.singleton_append,
      List.nodup_cons]
    refine ⟨?_, h.once⟩
    intro hmem
    obtain ⟨k, hk, hrequest⟩ := List.mem_map.mp hmem
    exact hnumbered.fresh link hlink k hk hrequest
  constructor
  · exact slotFlagged_step h.flag hstep
  · exact h.numbered.step hstep
  · obtain ⟨-, hended | ⟨payload_path, header_data, os, os', fs, fs', leaf, -, -, -, -, rfl⟩
      | ⟨os, -, rfl⟩ | ⟨link, os, fs, -, hlink, rfl⟩⟩ := step_cases h.flag hstep
    · obtain heq | ⟨link, hlink, heq⟩ := hended.handovers
      · rw [heq]
        exact h.once
      · rw [heq]
        exact hhanded link hlink
    · exact h.once
    · exact h.once
    · exact hhanded link hlink

/-- The flag and the link are in step: the flag is up exactly while there is a link in the slot,
the assertion of a `run` that wakes up does not end the process, and no two calls of swupdate are for
the same link. -/
structure InStep (c : UpdateCoordinator) : Prop where
  flag : c.updating = true ↔ c.payload_link ≠ none
  asserted : c.updating = true → c.handOver.terminated = c.terminated
  once : (c.handovers.map Handover.request).Nodup

/-- In every state that is reached, whatever the threads do and in whatever order, the flag and the
link are in step. -/
theorem flag_in_step_with_link {fs : Nodes} {es : List Event} {c : UpdateCoordinator}
    (hrun : Lts.exec step (init fs) es = some c) :
  c.InStep
  := by
  have h : c.OncePerLink :=
    Lts.invariant' OncePerLink (fun _ _ _ => oncePerLink_step) (oncePerLink_init fs) hrun
  have hflag : c.updating = c.payload_link.isSome := h.flag
  constructor
  · rw [hflag, Option.isSome_iff_ne_none]
  · exact terminated_handOver h.flag
  · exact h.once

/-- A link that is replaced in the slot, and a wakeup without a request. -/
theorem flag_in_step_with_link_replaced :
  ∃ c, Lts.exec step (init twoPayloads) [.run willing, startA, startB, .run willing, .run willing]
      = some c ∧ c.InStep
  := by
  obtain ⟨c, hrun⟩ := Option.isSome_iff_exists.mp
    (by decide : (Lts.exec step (init twoPayloads)
      [.run willing, startA, startB, .run willing, .run willing]).isSome = true)
  exact ⟨c, hrun, flag_in_step_with_link hrun⟩

end UpdateCoordinator

end Updated
