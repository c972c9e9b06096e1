import MblCore.Updated.UpdateCoordinator

/-!
# What UpdateD hands over

The link that is handed over leads to the payload of the last request, as long as no request
comes in whose link the destructor of the link still in the slot removes.  Every request is
handed over exactly once just when none comes in while another is in the slot: a link that is
replaced in the slot is never handed over.
-/

open FileTree

namespace Updated

open PayloadHardLink

/-- A hard link to the payload of the last request was found at the path handed over. -/
def Handover.LinksLast (h : Handover) : Prop :=
  ∃ r ino, h.last = some r ∧ r.file = some ino ∧ h.found = some (.file (.regular ino))

namespace UpdateCoordinator

variable {c c' : UpdateCoordinator} {e : Event}

/-! ### The slot and the numbers of the requests -/

/-- No step is taken in a process that is not alive. -/
theorem alive_of_step (hstep : step c e = some c') :
  c.terminated = false
  := by
  unfold step at hstep
  split at hstep
  · contradiction
  · simp_all

/-- The flag tells whether there is a link in the slot, the link in the slot is that of the last
request, and what was handed over was requested. -/
structure Numbered (c : UpdateCoordinator) : Prop where
  flag : c.SlotFlagged
  slot : ∀ link, c.payload_link = some link → link.request + 1 = c.accepted.length
  handed : ∀ h ∈ c.handovers, h.request < c.accepted.length
  fresh : ∀ link, c.payload_link = some link → ∀ h ∈ c.handovers, h.request ≠ link.request

/-- A process that is not alive takes no step, so nothing is asked of its slot. -/
def NumberedWhileAlive (c : UpdateCoordinator) : Prop :=
  c.terminated = true ∨ c.Numbered

/-- At the start there is nothing in the slot. -/
theorem Numbered.init (fs : Nodes) :
  (init fs).Numbered
  where
    flag := rfl
    slot := by simp [UpdateCoordinator.init]
    handed := by simp [UpdateCoordinator.init]
    fresh := by simp [UpdateCoordinator.init]

/-- Every step keeps the numbers of the requests right. -/
theorem NumberedWhileAlive.step (h : c.NumberedWhileAlive) (hstep : step c e = some c') :
  c'.NumberedWhileAlive
  := by
  have h : c.Numbered := by simpa [NumberedWhileAlive, alive_of_step hstep] using h
  obtain ⟨-, hended | ⟨payload_path, header_data, os, os', fs, fs', leaf, -, -, -, -, rfl⟩
    | ⟨os, -, rfl⟩ | ⟨link, os, fs, -, hlink, rfl⟩⟩ := step_cases h.flag hstep
  · exact Or.inl hended.terminated
  · right
    constructor
    · rfl
    · intro link hlink
      obtain rfl := Option.some.inj hlink
      simp [acceptRequest]
    · intro k hk
      have := h.handed k hk
      simp only [acceptRequest, List.length_append, List.length_singleton]
      omega
    · intro link hlink k hk
      obtain rfl := Option.some.inj hlink
      exact (h.handed k hk).ne
  · exact Or.inr h
  · right
    constructor
    · rfl
    · simp [served]
    · intro k hk
      rcases List.mem_append.mp hk with hk | hk
      · exact h.handed k hk
      · obtain rfl := List.mem_singleton.mp hk
        have := h.slot link hlink
        simp only [handover, served]
        omega
    · simp [served]

/-- A process that has ended stays as it is. -/
theorem exec_terminated {es : List Event} (hend : c.terminated = true)
    (hrun : Lts.exec step c es = some c') :
  c' = c
  := by
  cases es with
  | nil => exact (Option.some.inj hrun).symm
  | cons e es =>
      obtain ⟨c'', hstep, -⟩ := Lts.exec_cons_eq_some.mp hrun
      have := alive_of_step hstep
      simp [hend] at this

/-! ### The link in the slot leads to the payload of the last request -/

/-- The path of a payload names the regular file `name` in `dir`, and its lookup looks at nothing at
or below the entry `updated` of that directory. -/
structure NamesPayload (t : Nodes) (payload_path : List Text) (dir : FilePath) (name : Text) :
    Prop where
  file : t.isRegular (dir ++ [name]) = true
  visited : ∀ q ∈ t.visited MAXSYMLINKS payload_path, ¬ dir ++ [updatedName] <+: q

instance (t : Nodes) (payload_path : List Text) (dir : FilePath) (name : Text) :
    Decidable (NamesPayload t payload_path dir name) :=
  decidable_of_iff
    (t.isRegular (dir ++ [name]) = true
      ∧ ∀ q ∈ t.visited MAXSYMLINKS payload_path, ¬ dir ++ [updatedName] <+: q)
    ⟨fun h => ⟨h.1, h.2⟩, fun h => ⟨h.file, h.visited⟩⟩

/-- The directory at the path `held` is not looked up through the entry `updated` of `dir`.  Where it
is found, that is not at or above the link `name` in `updated`, nor anything the path of the payload
is looked up through before its name. -/
structure Spares (t : Nodes) (held payload_path : List Text) (dir : FilePath) (name : Text) :
    Prop where
  visited : ∀ q ∈ t.visited MAXSYMLINKS held, ¬ dir ++ [updatedName] <+: q
  apart : ∀ u ∈ (t.resolve MAXSYMLINKS held).path, ¬ u <+: dir ++ [updatedName] ++ [name]
    ∧ ∀ q ∈ t.visited MAXSYMLINKS payload_path.dropLast, ¬ u <+: q

instance (t : Nodes) (held payload_path : List Text) (dir : FilePath) (name : Text) :
    Decidable (Spares t held payload_path dir name) :=
  decidable_of_iff
    ((∀ q ∈ t.visited MAXSYMLINKS held, ¬ dir ++ [updatedName] <+: q)
      ∧ ∀ u ∈ (t.resolve MAXSYMLINKS held).path, ¬ u <+: dir ++ [updatedName] ++ [name]
        ∧ ∀ q ∈ t.visited MAXSYMLINKS payload_path.dropLast, ¬ u <+: q)
    ⟨fun h => ⟨h.1, h.2⟩, fun h => ⟨h.visited, h.apart⟩⟩

/-- The payload is a regular file that its path names without going through `updated`, and the
destructor of the link in the slot, if there is one, leaves the new link alone. -/
def KeepsLink (c : UpdateCoordinator) (payload_path : Route) : Prop :=
  ∃ entry ∈ c.fs.entryOf MAXSYMLINKS payload_path.parts,
    NamesPayload c.fs payload_path.parts entry.1 entry.2
      ∧ ∀ old ∈ c.payload_link,
          Spares c.fs old.payload_path.dropLast payload_path.parts entry.1 entry.2

instance (c : UpdateCoordinator) (payload_path : Route) : Decidable (c.KeepsLink payload_path) :=
  inferInstanceAs (Decidable (∃ entry ∈ c.fs.entryOf MAXSYMLINKS payload_path.parts, _ ∧ _))

/-- A request comes in only when its payload is named properly and the destructor of the link in the
slot leaves its link. -/
def StartKeepsLink (c : UpdateCoordinator) : Event → Prop
  | .start payload_path _ _ _ => c.KeepsLink payload_path
  | .run _ => True

instance (c : UpdateCoordinator) : DecidablePred c.StartKeepsLink
  | .start payload_path _ _ _ => inferInstanceAs (Decidable (c.KeepsLink payload_path))
  | .run _ => isTrue trivial

/-- The link in the slot is a hard link to the payload of the last request. -/
def SlotLinksLast (c : UpdateCoordinator) : Prop :=
  ∀ link, c.payload_link = some link → (c.handover link).LinksLast

/-- What a run keeps whose requests keep their links. -/
structure Linked (c : UpdateCoordinator) : Prop where
  handed : ∀ h ∈ c.handovers, h.LinksLast
  slot : c.terminated = true ∨ (c.SlotFlagged ∧ c.SlotLinksLast)

/-- The link of a payload that is named properly is a hard link to it, and nothing is changed outside
`updated`. -/
theorem NamesPayload.construct_ends {t : Nodes} {payload_path : List Text} {dir : FilePath}
    {name : Text} (h : NamesPayload t payload_path dir name)
    (hentry : t.entryOf MAXSYMLINKS payload_path = some (dir, name)) (os : Os) :
  (construct os MAXSYMLINKS payload_path).Ends t
    (fun link t' => SameOutside t (dir ++ [updatedName]) t'
      ∧ t'.entryOf MAXSYMLINKS link = some (dir ++ [updatedName], name)
      ∧ t'.nodeAt MAXSYMLINKS link = t.node (dir ++ [name])
      ∧ t'.visited MAXSYMLINKS link.dropLast
        = t.visited MAXSYMLINKS payload_path.dropLast ++ [dir ++ [updatedName]])
    (fun _ => True)
  := by
  obtain ⟨path, rfl, hname, hpath, hdir⟩ := t.eq_concat_of_entryOf hentry
  have hvisited : ∀ q ∈ t.visited MAXSYMLINKS path, ¬ dir ++ [updatedName] <+: q :=
    fun q hq => h.visited q (t.mem_visited_append hpath hdir hq [name])
  have hother : name ≠ updatedName := by
    rintro rfl
    exact h.visited _ (t.mem_visited_concat hname hpath hdir) (List.prefix_refl _)
  have hends : (construct os MAXSYMLINKS (path ++ [name])).Ends t _ _ :=
    PayloadHardLink.construct_ends hpath hdir hvisited
  apply hends.mono
  · rintro _ t' ⟨rfl, hsame, hupdated, hlinked⟩
    obtain ⟨hpath', -⟩ := hsame.resolve_dir hpath hdir hvisited
    have hlink := t'.resolve_concat_dir plain_updatedName hpath' hupdated
    use hsame, t'.entryOf_concat hname hlink hupdated
    constructor
    · rw [hlinked hentry hother, LinkTree.nodeAt, hentry]
      rfl
    · rw [List.dropLast_concat, List.dropLast_concat,
        t'.visited_concat_dir plain_updatedName hpath' hupdated]
      congr 1
      rw [LinkTree.visited, hsame.lookup_eq hvisited, LinkTree.visited]
  · exact fun _ _ => trivial

/-- The destructor of a link that spares a new link leaves it what it is. -/
theorem Spares.destruct_ends {t t' : Nodes} {held : HeldLink} {payload_path link : List Text}
    {dir : FilePath} {name : Text}
    (h : Spares t held.payload_path.dropLast payload_path dir name)
    (hsame : SameOutside t (dir ++ [updatedName]) t')
    (hentry : t'.entryOf MAXSYMLINKS link = some (dir ++ [updatedName], name))
    (hvisited : t'.visited MAXSYMLINKS link.dropLast
      = t.visited MAXSYMLINKS payload_path.dropLast ++ [dir ++ [updatedName]]) (os : Os) :
  (destruct os MAXSYMLINKS held.payload_path).Ends t'
    (fun _ t'' => t''.nodeAt MAXSYMLINKS link = t'.nodeAt MAXSYMLINKS link) (fun _ => True)
  := by
  apply (destruct_removes t' held.payload_path).mono
  · rintro - t'' ⟨rfl | ⟨u, hu, hsame'⟩, -⟩
    · rfl
    · rw [LinkTree.resolve, hsame.lookup_eq h.visited] at hu
      obtain ⟨hlink, hdir⟩ := h.apart u (Lookup.path_eq_some.mpr hu)
      apply (hsame'.nodeAt_eq hentry _ hlink).2
      intro q hq
      rw [hvisited] at hq
      cases List.mem_append.mp hq with
      | inl hq => exact hdir q hq
      | inr hq =>
          rw [List.mem_singleton.mp hq]
          exact fun habove => hlink (habove.trans (List.prefix_append _ [name]))
  · exact fun _ _ => trivial

/-- After a `start` that returns, the new link is a hard link to the payload. -/
theorem linksLast_acceptRequest {payload_path : Route} {header_data : Text} {os os' : Os}
    {fs fs' : Nodes} (hok : c.KeepsLink payload_path)
    (hconstruct : (construct os MAXSYMLINKS payload_path.parts).call c.fs
      = (.ok (linkPath payload_path.parts), fs))
    (hdestruct : (destructHeld os' c.payload_link).call fs = (.ok (), fs')) :
  (c.acceptRequest payload_path header_data (linkPath payload_path.parts) fs fs').SlotLinksLast
  := by
  obtain ⟨⟨dir, name⟩, hentry, hnames, hspares⟩ := hok
  obtain ⟨hsame, hlink, hnode, hvisited⟩ :=
    (hnames.construct_ends hentry os).of_ok hconstruct
  obtain ⟨ino, hino⟩ := LinkTree.isRegular_eq_true.mp hnames.file
  have hkept : fs'.nodeAt MAXSYMLINKS (linkPath payload_path.parts)
      = fs.nodeAt MAXSYMLINKS (linkPath payload_path.parts) := by
    cases hold : c.payload_link with
    | none =>
        rw [hold, destructHeld_none] at hdestruct
        cases hdestruct
        rfl
    | some old =>
        rw [hold] at hdestruct
        exact ((hspares old hold).destruct_ends hsame hlink hvisited os').of_ok hdestruct
  intro link heq
  obtain rfl := Option.some.inj heq
  refine ⟨_, ino, List.getLast?_concat, ?_, ?_⟩
  · exact c.fs.read_of_entryOf hentry hino
  · exact hkept.trans (hnode.trans hino)

/-- A step whose request keeps its link keeps all links. -/
theorem Linked.step (h : c.Linked) (hok : StartKeepsLink c e) (hstep : step c e = some c') :
  c'.Linked
  := by
  have halive := alive_of_step hstep
  obtain ⟨hflag, hslot⟩ : c.SlotFlagged ∧ c.SlotLinksLast := by
    simpa [halive] using h.slot
  have hhanded : ∀ link, c.payload_link = some link →
      ∀ k ∈ c.handovers ++ [c.handover link], k.LinksLast := by
    intro link hlink k hk
    rcases List.mem_append.mp hk with hk | hk
    · exact h.handed k hk
    · obtain rfl := List.mem_singleton.mp hk
      exact hslot link hlink
  obtain ⟨-, hended | ⟨payload_path, header_data, os, os', fs, fs', leaf, rfl, hconstruct, -,
    hdestruct, rfl⟩ | ⟨os, -, rfl⟩ | ⟨link, os, fs, -, hlink, rfl⟩⟩ := step_cases hflag hstep
  · constructor
    · obtain heq | ⟨link, hlink, heq⟩ := hended.handovers
      · rw [heq]
        exact h.handed
      · rw [heq]
        exact hhanded link hlink
    · exact Or.inl hended.terminated
  · constructor
    · exact h.handed
    · exact Or.inr ⟨rfl, linksLast_acceptRequest (c := { c with header := header_data }) hok
        hconstruct hdestruct⟩
  · exact h
  · constructor
    · exact hhanded link hlink
    · right
      use rfl
      intro link heq
      contradiction

/-- In a run in which no request comes in whose link the destructor of the link in the slot
removes, every path handed over is a hard link to the payload of the last request. -/
theorem handovers_link_last {fs : Nodes} {es : List Event} {c : UpdateCoordinator}
    (hok : Lts.Meets step StartKeepsLink (init fs) es)
    (hrun : Lts.exec step (init fs) es = some c) :
  ∀ h ∈ c.handovers, h.LinksLast
  := by
  have hlinked : c.Linked := by
    apply Lts.invariant Linked (fun _ _ _ => Linked.step) _ hok hrun
    constructor
    · simp [init]
    · exact Or.inr ⟨rfl, by simp [SlotLinksLast, init]⟩
  exact hlinked.handed

/-- The payloads `a` and `b`, in two directories. -/
def twoPayloads : Nodes :=
  let fs := (root.mkdirs ["x".toList]).mkdirs ["y".toList]
  let fs := fs.addFile ["x".toList] "a".toList (.regular 1) (by decide) (by decide)
  fs.addFile ["y".toList] "b".toList (.regular 2) (by decide) (by decide)

/-- A request for the payload `a`. -/
def startA : Event :=
  .start ⟨true, ["x".toList, "a".toList]⟩ "h".toList willing willing

/-- A request for the payload `b`. -/
def startB : Event :=
  .start ⟨true, ["y".toList, "b".toList]⟩ "h".toList willing willing

/-- A second request replaces the first, whose link is in another directory, and the payload of
the second is handed over. -/
theorem handovers_link_last_two :
  ∃ c, Lts.exec step (init twoPayloads) [startA, startB, .run willing] = some c
    ∧ c.handovers.length = 1 ∧ ∀ h ∈ c.handovers, h.LinksLast
  := by
  have hok : Lts.Meets step StartKeepsLink (init twoPayloads) [startA, startB, .run willing] := by
    decide
  obtain ⟨c, hrun⟩ := Option.isSome_iff_exists.mp
    (by decide : (Lts.exec step (init twoPayloads) [startA, startB, .run willing]).isSome = true)
  use c, hrun
  constructor
  · have hcount : ((Lts.exec step (init twoPayloads) [startA, startB, .run willing]).map
        fun c => c.handovers.length) = some 1 := by decide
    simpa [hrun] using hcount
  · exact handovers_link_last hok hrun

/-- Two requests for the same payload: the second link is in the directory of the first, which
the destructor of the first removes, so what is handed over does not exist. -/
theorem handovers_not_link_last :
  ∃ c, Lts.exec step (init twoPayloads) [startA, startA, .run willing] = some c
    ∧ ¬ ∀ h ∈ c.handovers, h.LinksLast
  := by
  obtain ⟨c, hrun⟩ := Option.isSome_iff_exists.mp
    (by decide : (Lts.exec step (init twoPayloads) [startA, startA, .run willing]).isSome = true)
  use c, hrun
  have hfound : ((Lts.exec step (init twoPayloads) [startA, startA, .run willing]).map
      fun c => c.handovers.map (·.found)) = some [none] := by decide
  simp only [hrun, Option.map_some, Option.some.injEq] at hfound
  obtain ⟨h, hh, hnone⟩ := List.map_eq_singleton_iff.mp hfound
  intro hall
  obtain ⟨r, ino, -, -, hfile⟩ := hall h (by simp [hh])
  simp [hnone] at hfile

/-! ### Every request is handed over once -/

/-- No request is carried out while another one is in the slot. -/
def StartsWhenIdle (c : UpdateCoordinator) : Event → Prop
  | .start _ _ _ _ => c.updating = false
  | .run _ => True

instance (c : UpdateCoordinator) : DecidablePred c.StartsWhenIdle
  | .start _ _ _ _ => inferInstanceAs (Decidable (c.updating = false))
  | .run _ => isTrue trivial

/-- Exactly one call of swupdate was for the request number `k`, and it found the payload of the
request at the path handed over. -/
def HandedOverOnce (c : UpdateCoordinator) (k : Nat) (r : Request) : Prop :=
  ∃ (i : Nat) (h : Handover) (leaf : Leaf Ino), c.handovers[i]? = some h ∧ h.request = k
    ∧ r.payload = some (.file leaf) ∧ h.found = some (.file leaf)
    ∧ ∀ (j : Nat) (h' : Handover), c.handovers[j]? = some h' → h'.request = k → j = i

/-- The request number `k` was carried out, was not handed over, and is not in the slot. -/
structure Lost (c : UpdateCoordinator) (k : Nat) : Prop where
  requested : k < c.accepted.length
  handed : ∀ h ∈ c.handovers, h.request ≠ k
  slot : ∀ link, c.payload_link = some link → link.request ≠ k

/-- The requests were handed over in order, each with its payload, up to the one in the slot. -/
structure InOrder (c : UpdateCoordinator) : Prop where
  flag : c.SlotFlagged
  payloads : ∀ r ∈ c.accepted, ∃ leaf, r.payload = some (.file leaf)
  order : c.accepted.mapIdx (fun k r => (k, r.payload))
    = c.handovers.map (fun h => (h.request, h.found))
      ++ (c.payload_link.map fun link =>
        (link.request, c.fs.nodeAt MAXSYMLINKS link.payload_path)).toList

/-- A request that comes in while the slot is free keeps the requests in order, and so does
a wakeup. -/
theorem InOrder.step (h : c.terminated = true ∨ c.InOrder) (hok : StartsWhenIdle c e)
    (hstep : step c e = some c') :
  c'.terminated = true ∨ c'.InOrder
  := by
  have halive := alive_of_step hstep
  have h : c.InOrder := by simpa [halive] using h
  obtain ⟨-, hended | ⟨payload_path, header_data, os, os', fs, fs', leaf, rfl, -, hleaf,
    hdestruct, rfl⟩ | ⟨os, -, rfl⟩ | ⟨link, os, fs, -, hlink, rfl⟩⟩ := step_cases h.flag hstep
  · exact Or.inl hended.terminated
  · right
    have hfree : c.payload_link = none := by
      have hflag := h.flag
      simp only [StartsWhenIdle] at hok
      simpa [SlotFlagged, hok] using hflag
    -- no link is destroyed
    rw [hfree, destructHeld_none] at hdestruct
    cases hdestruct
    have horder := h.order
    simp only [hfree, Option.map_none, Option.toList_none, List.append_nil] at horder
    constructor
    · rfl
    · intro r hr
      rcases List.mem_append.mp hr with hr | hr
      · exact h.payloads r hr
      · obtain rfl := List.mem_singleton.mp hr
        exact ⟨leaf, hleaf⟩
    · simp [acceptRequest, List.mapIdx_append, horder]
  · exact Or.inr h
  · right
    constructor
    · rfl
    · exact h.payloads
    · simpa [served, handover, hlink] using h.order

/-- When the slot is free again, requests that are in order have been handed over once each. -/
theorem InOrder.handedOverOnce (h : c.InOrder) (hidle : c.updating = false) {k : Nat}
    {r : Request} (hr : c.accepted[k]? = some r) :
  c.HandedOverOnce k r
  := by
  have hfree : c.payload_link = none := by
    have hflag := h.flag
    simpa [SlotFlagged, hidle] using hflag
  have hget : ∀ i : Nat, c.handovers[i]?.map (fun h => (h.request, h.found))
      = c.accepted[i]?.map (fun r => (i, r.payload)) := by
    intro i
    have horder := congrArg (fun l => l[i]?) h.order
    simpa [hfree] using horder.symm
  obtain ⟨leaf, hleaf⟩ := h.payloads r (List.mem_of_getElem? hr)
  obtain ⟨handover, hhandover, hentry⟩ : ∃ handover, c.handovers[k]? = some handover
      ∧ (handover.request, handover.found) = (k, r.payload) := by
    have := hget k
    rw [hr] at this
    simpa using this
  obtain ⟨hrequest, hfound⟩ := Prod.mk.inj hentry
  refine ⟨k, handover, leaf, hhandover, hrequest, hleaf, hfound.trans hleaf, ?_⟩
  intro j handover' hj hrequest'
  have := hget j
  rw [hj] at this
  simp only [Option.map_some] at this
  obtain ⟨r', -, hentry'⟩ := Option.map_eq_some_iff.mp this.symm
  rw [← hrequest']
  exact (Prod.mk.inj hentry').1

/-- What is lost stays lost. -/
theorem Lost.step {k : Nat} (h : c.terminated = true ∨ (c.SlotFlagged ∧ c.Lost k))
    (hstep : step c e = some c') :
  c'.terminated = true ∨ (c'.SlotFlagged ∧ c'.Lost k)
  := by
  have halive := alive_of_step hstep
  obtain ⟨hflag, hlost⟩ : c.SlotFlagged ∧ c.Lost k := by simpa [halive] using h
  obtain ⟨-, hended | ⟨payload_path, header_data, os, os', fs, fs', leaf, -, -, -, -, rfl⟩
    | ⟨os, -, rfl⟩ | ⟨link, os, fs, -, hlink, rfl⟩⟩ := step_cases hflag hstep
  · exact Or.inl hended.terminated
  · right
    use rfl
    have hlt := hlost.requested
    constructor
    · simp only [acceptRequest, List.length_append, List.length_singleton]
      omega
    · exact hlost.handed
    · intro link hlink
      obtain rfl := Option.some.inj hlink
      simp only
      omega
  · exact Or.inr ⟨hflag, hlost⟩
  · right
    use rfl
    constructor
    · exact hlost.requested
    · intro h hh
      rcases List.mem_append.mp hh with hh | hh
      · exact hlost.handed h hh
      · obtain rfl := List.mem_singleton.mp hh
        exact hlost.slot link hlink
    · simp [served]

/-- A request that comes in while another one is in the slot loses that other one. -/
theorem Numbered.lost (h : c.Numbered) (hbusy : ¬ c.StartsWhenIdle e)
    (hstep : UpdateCoordinator.step c e = some c') :
  c'.terminated = true ∨ ∃ k, c'.SlotFlagged ∧ c'.Lost k
  := by
  obtain ⟨-, hended | ⟨payload_path, header_data, os, os', fs, fs', leaf, rfl, -, -, -, rfl⟩
    | ⟨os, rfl, -⟩ | ⟨link, os, fs, rfl, -⟩⟩ := step_cases h.flag hstep
  · exact Or.inl hended.terminated
  · right
    have hflag := h.flag
    simp only [StartsWhenIdle, Bool.not_eq_false] at hbusy
    simp only [SlotFlagged, hbusy] at hflag
    obtain ⟨old, hold⟩ := Option.isSome_iff_exists.mp hflag.symm
    have hlast := h.slot old hold
    use old.request, rfl
    constructor
    · simp only [acceptRequest, List.length_append, List.length_singleton]
      omega
    · exact h.fresh old hold
    · intro link heq
      obtain rfl := Option.some.inj heq
      simp only
      omega
  · simp [StartsWhenIdle] at hbusy
  · simp [StartsWhenIdle] at hbusy

/-- What is lost has not been handed over. -/
theorem Lost.not_handedOverOnce {k : Nat} (h : c.Lost k) (r : Request) :
  ¬ c.HandedOverOnce k r
  := by
  rintro ⟨i, handover, ino, hi, hrequest, -⟩
  exact h.handed handover (List.mem_of_getElem? hi) hrequest

/-- When UpdateD has nothing to do any more, every request that was answered with `SUCCESS` has
been handed over exactly once just if none was carried out while another one was in the slot. -/
theorem handedOverOnce_iff {fs : Nodes} {es : List Event} {c : UpdateCoordinator}
    (hrun : Lts.exec step (init fs) es = some c) (hblocked : c.Blocked) :
  (∀ (k : Nat) (r : Request), c.accepted[k]? = some r → c.HandedOverOnce k r)
    ↔ Lts.Meets step StartsWhenIdle (init fs) es
  := by
  obtain ⟨halive, hidle⟩ := hblocked
  constructor
  · intro hall
    by_contra hmeets
    obtain ⟨as, e, bs, c₁, c₂, -, hbefore, -, hbusy, hstep, hafter⟩ :=
      Lts.exists_first_not_ok hmeets hrun
    have hnumbered : c₁.NumberedWhileAlive :=
      Lts.invariant' _ (fun _ _ _ => NumberedWhileAlive.step) (Or.inr (Numbered.init fs)) hbefore
    have hnumbered : c₁.Numbered := by
      simpa [NumberedWhileAlive, alive_of_step hstep] using hnumbered
    obtain ⟨k, hlost⟩ : ∃ k, c.terminated = true ∨ (c.SlotFlagged ∧ c.Lost k) := by
      obtain hend | ⟨k, hk⟩ := hnumbered.lost hbusy hstep
      · use 0
        rw [exec_terminated hend hafter]
        exact Or.inl hend
      · use k
        exact Lts.invariant' _ (fun _ _ _ => Lost.step) (Or.inr hk) hafter
    obtain ⟨-, hlost⟩ : c.SlotFlagged ∧ c.Lost k := by simpa [halive] using hlost
    have hr := List.getElem?_eq_getElem hlost.requested
    exact hlost.not_handedOverOnce _ (hall k _ hr)
  · intro hok
    have horder : c.terminated = true ∨ c.InOrder := by
      apply Lts.invariant (fun c => c.terminated = true ∨ c.InOrder)
        (fun _ _ _ => InOrder.step) _ hok hrun
      right
      constructor
      · rfl
      · simp [init]
      · simp [init]
    have horder : c.InOrder := by simpa [halive] using horder
    intro k r hr
    exact horder.handedOverOnce hidle hr

/-- Two requests that wait for each other are handed over once each. -/
theorem handedOverOnce_two :
  ∃ c, Lts.exec step (init twoPayloads) [startA, .run willing, startB, .run willing, .run willing] = some c
    ∧ c.accepted.length = 2
    ∧ ∀ (k : Nat) (r : Request), c.accepted[k]? = some r → c.HandedOverOnce k r
  := by
  obtain ⟨c, hrun⟩ := Option.isSome_iff_exists.mp
    (by decide : (Lts.exec step (init twoPayloads) [startA, .run willing, startB, .run willing, .run willing]).isSome
      = true)
  have hend : ((Lts.exec step (init twoPayloads) [startA, .run willing, startB, .run willing, .run willing]).map
      fun c => (c.accepted.length, c.terminated, c.updating)) = some (2, false, false) := by decide
  simp only [hrun, Option.map_some, Option.some.injEq, Prod.mk.injEq] at hend
  use c, hrun, hend.1
  apply (handedOverOnce_iff hrun hend.2).mpr
  decide

/-- Two requests that are answered before the main loop wakes up: only the second is handed
over. -/
theorem not_handedOverOnce_two :
  ∃ c, Lts.exec step (init twoPayloads) [startA, startB, .run willing, .run willing] = some c ∧ c.Blocked
    ∧ ¬ ∀ (k : Nat) (r : Request), c.accepted[k]? = some r → c.HandedOverOnce k r
  := by
  obtain ⟨c, hrun⟩ := Option.isSome_iff_exists.mp
    (by decide : (Lts.exec step (init twoPayloads) [startA, startB, .run willing, .run willing]).isSome = true)
  have hend : ((Lts.exec step (init twoPayloads) [startA, startB, .run willing, .run willing]).map
      fun c => (c.terminated, c.updating, c.accepted.length, c.handovers.map (·.request)))
      = some (false, false, 2, [1]) := by decide
  simp only [hrun, Option.map_some, Option.some.injEq, Prod.mk.injEq] at hend
  obtain ⟨halive, hidle, hlength, hnumbers⟩ := hend
  use c, hrun, ⟨halive, hidle⟩
  intro hall
  obtain ⟨i, h, ino, hi, hrequest, -⟩ :=
    hall 0 _ (List.getElem?_eq_getElem (by omega : 0 < c.accepted.length))
  have hmem : h.request ∈ c.handovers.map (·.request) :=
    List.mem_map_of_mem (List.mem_of_getElem? hi)
  simp [hnumbers, hrequest] at hmem

end UpdateCoordinator

end Updated
