import MblCore.Updated.Clients
import MblCore.Updated.SlotFlag

/-!
# What the clients and UpdateD agree on

A client that exits with 0 has had its request carried out, and no request is carried out twice.  The
header that is printed is that of the last request UpdateD had begun to carry out before the answer, and
all but perhaps the last of these requests are carried out.  UpdateD ends just when it carries out a
request for a relative path, or one whose link cannot be made, or when a link cannot be destroyed.
-/

open FileTree

namespace Updated

open PayloadHardLink

/-! ### How a call of the coordinator ends -/

namespace UpdateCoordinator

/-- The path is absolute, the link to the payload can be made, and the link in the slot can be
destroyed after that. -/
def MakesLink (c : UpdateCoordinator) (payload_path : Route) (os os' : Os) : Prop :=
  payload_path.is_absolute = true
    ∧ ∃ link fs fs', (construct os MAXSYMLINKS payload_path.parts).call c.fs = (.ok link, fs)
      ∧ (destructHeld os' c.payload_link).call fs = (.ok (), fs')

/-- `start` does not end the process just when it makes a link and destroys the old one. -/
theorem alive_replaceLink_iff {c : UpdateCoordinator} (halive : c.terminated = false)
    (payload_path : Route) (header_data : Text) (os os' : Os) :
  (noexcept (c.replaceLink payload_path header_data os os')).2.terminated = false
    ↔ c.MakesLink payload_path os os'
  := by
  unfold MakesLink replaceLink
  split
  · rename_i hrelative
    simp [noexcept, terminate, hrelative]
  · rename_i habsolute
    rw [Bool.not_eq_false] at habsolute
    split
    · rename_i hconstruct
      simp [noexcept, terminate, hconstruct]
    · rename_i link fs hconstruct
      split
      · rename_i hdestruct
        simp [noexcept, terminate, hconstruct, hdestruct]
      · rename_i fs' hdestruct
        simp [noexcept, acceptRequest, halive, habsolute, hconstruct, hdestruct]

/-- The link in the slot can be destroyed. -/
def ResetsLink (c : UpdateCoordinator) (os : Os) : Prop :=
  ∃ fs', (destructHeld os c.payload_link).call c.fs = (.ok (), fs')

/-- `run` does not end the process just when it destroys the link. -/
theorem alive_resetLink_iff {c : UpdateCoordinator} (halive : c.terminated = false) (os : Os) :
  (c.resetLink os).terminated = false ↔ c.ResetsLink os
  := by
  unfold ResetsLink resetLink
  cases c.payload_link with
  | none => simp [halive, destructHeld_none]
  | some link =>
      dsimp only [destructHeld]
      split
      · rename_i hdestruct
        simp [terminate, hdestruct]
      · rename_i hdestruct
        simp [halive, hdestruct]

end UpdateCoordinator

/-- The main loop carries out no request. -/
theorem accepted_handOver (c : UpdateCoordinator) :
  c.handOver.accepted = c.accepted
  := by
  unfold UpdateCoordinator.handOver
  split <;> rfl

theorem accepted_resetLink (c : UpdateCoordinator) (os : Os) :
  (c.resetLink os).accepted = c.accepted
  := by
  unfold UpdateCoordinator.resetLink
  split
  · rfl
  · split <;> rfl

/-- Other files change nothing else. -/
theorem ServiceImpl.DescribedWhileAlive.setFiles {s : ServiceImpl} (h : s.DescribedWhileAlive)
    (fs : Nodes) :
  (Parties.setFiles s fs).DescribedWhileAlive
  := by
  obtain hend | h := h
  · exact Or.inl hend
  · exact Or.inr ⟨h.manifest, h.slot, h.flag, h.running, h.finished⟩

/-! ### One client -/

/-- The client has sent what it was given, it is answered only when its request has been carried out,
and it exits with 0 only then, or when it was asked for help. -/
structure StartUpdateClient.Proper (c : StartUpdateClient) (begun carried_out : Prop) : Prop where
  starting : c.process = .starting → c = .init
  request : ∀ r, c.request = some r → c.sent = some r ∧ ¬ begun
  given : ∀ r, c.sent = some r → r.payload_path.empty = false ∧ r.update_header ≠ []
  response : ∀ r, c.response = some r → carried_out
  exited : c.process = .exited 0 → c.sent = none ∨ carried_out

theorem StartUpdateClient.proper_init {begun carried_out : Prop} :
  init.Proper begun carried_out
  := by
  constructor <;> simp [init]

/-- `parse_args` returns only a path and a header that are not empty. -/
theorem given_of_parseArgs {argc : ℕ} {opts : List Opt} {exists_ : Route → Option Bool}
    {payload_path : Route} {header_data : Text}
    (h : parseArgs argc opts exists_ = .returned payload_path header_data) :
  payload_path.empty = false ∧ header_data ≠ []
  := by
  have hread : ∀ opts arg_values ending, readOptions opts arg_values = .error ending →
      ending ≠ .returned payload_path header_data := by
    intro opts
    induction opts with
    | nil => nofun
    | cons opt opts ih =>
        intro arg_values ending hending
        cases opt with
        | p optarg => exact ih _ _ hending
        | u optarg => exact ih _ _ hending
        | h =>
            cases hending
            nofun
        | unrecognized =>
            cases hending
            nofun
  unfold parseArgs at h
  split at h
  · contradiction
  · split at h
    · rename_i ending hending
      exact absurd h (hread _ _ _ hending)
    · split at h
      · contradiction
      · rename_i hpath
        split at h
        · contradiction
        · contradiction
        · split at h
          · contradiction
          · rename_i hheader
            cases h
            exact ⟨by simpa using hpath, by simpa using hheader⟩

theorem StartUpdateClient.proper_main {argc : ℕ} {opts : List Opt}
    {exists_ : Route → Option Bool} {stub : Bool} {begun carried_out : Prop} (hnot : ¬ begun) :
  (main argc opts exists_ stub).Proper begun carried_out
  := by
  unfold main
  split
  · rename_i payload_path header_data hparsed
    split
    · constructor
      · nofun
      · rintro r ⟨⟩
        exact ⟨rfl, hnot⟩
      · rintro r ⟨⟩
        exact given_of_parseArgs hparsed
      · nofun
      · nofun
    · constructor <;> simp [init]
  · constructor <;> simp [init]
  · constructor <;> simp [init]
  · constructor <;> simp [init]

/-- The answer of a request that has been carried out has come. -/
theorem StartUpdateClient.Proper.receive {c : StartUpdateClient} {begun carried_out : Prop}
    (h : c.Proper begun carried_out) {response : StartUpdateResponse}
    (hresponse : c.response = some response) :
  (c.receive response).Proper begun carried_out
  := by
  have hcarried := h.response _ hresponse
  unfold StartUpdateClient.receive
  split
  · constructor
    · nofun
    · exact h.request
    · exact h.given
    · nofun
    · exact fun _ => Or.inr hcarried
  · constructor
    · nofun
    · exact h.request
    · exact h.given
    · nofun
    · nofun

theorem StartUpdateClient.Proper.fails {c : StartUpdateClient} {begun carried_out : Prop}
    (h : c.Proper begun carried_out) :
  { c with process := .aborted }.Proper begun carried_out
  := by
  constructor
  · nofun
  · exact h.request
  · exact h.given
  · exact h.response
  · nofun

/-- UpdateD has begun to carry out the request. -/
theorem StartUpdateClient.Proper.begin_ {c : StartUpdateClient} {begun carried_out : Prop}
    (h : c.Proper begun carried_out) {request : StartUpdateRequest}
    (hrequest : c.request = some request) :
  { c with request := none }.Proper True carried_out
  := by
  constructor
  · intro hstarting
    rw [h.starting hstarting] at hrequest
    contradiction
  · nofun
  · exact h.given
  · exact h.response
  · exact h.exited

/-- The request has been carried out, and perhaps been answered. -/
theorem StartUpdateClient.Proper.carriedOut {c : StartUpdateClient} {begun carried_out : Prop}
    (h : c.Proper begun carried_out) (hstarted : c.sent ≠ none)
    (response : Option StartUpdateResponse) :
  { c with response := response }.Proper begun True
  := by
  constructor
  · intro hstarting
    rw [h.starting hstarting] at hstarted
    exact absurd rfl hstarted
  · exact h.request
  · exact h.given
  · exact fun _ _ => trivial
  · exact fun _ => Or.inr trivial

/-- The request has not been answered. -/
theorem StartUpdateClient.Proper.unanswered {c : StartUpdateClient} {begun carried_out : Prop}
    (h : c.Proper begun carried_out) (hstarted : c.sent ≠ none) :
  { c with response := none }.Proper begun carried_out
  := by
  constructor
  · intro hstarting
    rw [h.starting hstarting] at hstarted
    exact absurd rfl hstarted
  · exact h.request
  · exact h.given
  · nofun
  · exact h.exited

/-! ### One answer -/

/-- The answer has the header of the last of the requests that had been begun before. -/
structure HeaderAnswer.Right (r : HeaderAnswer) (headers : List Text) : Prop where
  after : r.after ≤ headers.length
  header : r.update_header = ((headers.take r.after).getLast?).getD []

theorem HeaderAnswer.Right.append {r : HeaderAnswer} {headers : List Text}
    (h : r.Right headers) (later : List Text) :
  r.Right (headers ++ later)
  := by
  constructor
  · rw [List.length_append]
    have := h.after
    omega
  · rw [List.take_append_of_le_length h.after]
    exact h.header

/-- Its header is empty only when there had been no request. -/
theorem HeaderAnswer.Right.isEmpty_iff {r : HeaderAnswer} {headers : List Text}
    (h : r.Right headers) (hgiven : ∀ header ∈ headers, header ≠ []) :
  r.update_header.isEmpty = true ↔ r.after = 0
  := by
  rw [List.isEmpty_iff, h.header]
  constructor
  · intro hempty
    by_contra hafter
    have hne : headers.take r.after ≠ [] := by
      rw [Ne, List.take_eq_nil_iff, not_or]
      have := h.after
      refine ⟨hafter, ?_⟩
      rintro rfl
      exact hafter (Nat.le_zero.mp this)
    rw [List.getLast?_eq_some_getLast hne] at hempty
    exact hgiven _ (List.mem_of_mem_take (List.getLast_mem hne)) hempty
  · intro hafter
    rw [hafter]
    rfl

/-- The client has got only right answers, and its exit status tells whether there was a header. -/
structure GetStatusClient.Proper (c : GetStatusClient) (headers : List Text) : Prop where
  response : ∀ r, c.response = some r → r.error_code = .SUCCESS ∧ r.Right headers
  exited : ∀ n, c.process = .exited n → ∃ r, c.answer = some r ∧ r.Right headers
    ∧ n = if r.update_header.isEmpty then 1 else 0

theorem GetStatusClient.Proper.append {c : GetStatusClient} {headers : List Text}
    (h : c.Proper headers) (later : List Text) :
  c.Proper (headers ++ later)
  := by
  constructor
  · intro r hr
    obtain ⟨hcode, hright⟩ := h.response r hr
    exact ⟨hcode, hright.append later⟩
  · intro n hn
    obtain ⟨r, hr, hright, hexit⟩ := h.exited n hn
    exact ⟨r, hr, hright.append later, hexit⟩

theorem GetStatusClient.proper_main (headers : List Text) (stub : Bool) :
  (main stub).Proper headers
  := by
  cases stub <;> constructor <;> simp [main, init]

theorem GetStatusClient.Proper.receive {c : GetStatusClient} {headers : List Text}
    (h : c.Proper headers) {response : HeaderAnswer} (hresponse : c.response = some response) :
  (c.receive response).Proper headers
  := by
  obtain ⟨hcode, hright⟩ := h.response _ hresponse
  have hget : getUpdateHeader response = .ok response.update_header := by
    unfold getUpdateHeader throwOnUpdatedRpcError
    rw [hcode]
    rfl
  rw [GetStatusClient.receive, hget]
  constructor
  · nofun
  · intro n hn
    cases hn
    exact ⟨response, rfl, hright, rfl⟩

theorem GetStatusClient.Proper.fails {c : GetStatusClient} {headers : List Text}
    (h : c.Proper headers) :
  { c with process := .aborted }.Proper headers
  := by
  constructor
  · exact h.response
  · nofun

/-! ### All parties -/

namespace Parties

variable {s s' : Parties} {e : Event}

/-- What the client of a request has sent. -/
def sentFor (r : Request) : StartUpdateRequest :=
  ⟨r.payload_path, r.header_data⟩

/-- The request that is being carried out, if any. -/
def inProgress : Option Holder → List StartUpdateRequest
  | some (.start payload_path header_data) => [⟨payload_path, header_data⟩]
  | some .run => []
  | none => []

/-- The requests that have been carried out. -/
def accepted (s : Parties) : List StartUpdateRequest :=
  s.service.update_coordinator.accepted.map sentFor

/-- The clients whose requests UpdateD has begun to carry out. -/
def clients (s : Parties) : List ℕ :=
  s.begun.map Prod.fst

/-- The headers of the requests UpdateD has begun to carry out. -/
def headers (s : Parties) : List Text :=
  s.begun.map fun b => b.2.update_header

/-- What is true of the parties in every run.  The requests that have been carried out are those UpdateD
has begun to carry out, but for the one that is in progress or has ended UpdateD. -/
structure Proper (s : Parties) : Prop where
  described : s.service.DescribedWhileAlive
  nodup : s.clients.Nodup
  sent : ∀ b ∈ s.begun, (s.starter b.1).sent = some b.2
  given : ∀ b ∈ s.begun, b.2.update_header ≠ []
  carried : s.accepted <+: s.begun.map Prod.snd
  progress : s.begun.length ≤ s.accepted.length + 1
  current : s.service.update_coordinator.terminated = false →
    s.begun.map Prod.snd = s.accepted ++ inProgress s.service.holder
  starter : ∀ i, (s.starter i).Proper (i ∈ s.clients) (i ∈ s.clients.take s.accepted.length)
  asker : ∀ j, (s.asker j).Proper s.headers

theorem proper_init (fs : Nodes) :
  (init fs).Proper
  := by
  constructor
  · exact Or.inr (ServiceImpl.Described.init fs)
  · exact List.nodup_nil
  · nofun
  · nofun
  · exact List.prefix_refl _
  · exact Nat.zero_le _
  · exact fun _ => rfl
  · exact fun _ => StartUpdateClient.proper_init
  · intro j
    constructor <;> simp [init, GetStatusClient.init]

/-- A client goes on, and what it has sent remains sent. -/
theorem Proper.setStarter (h : s.Proper) {i : ℕ} {c : StartUpdateClient}
    (hc : c.Proper (i ∈ s.clients) (i ∈ s.clients.take s.accepted.length))
    (hsent : i ∈ s.clients → c.sent = (s.starter i).sent) :
  (s.setStarter i c).Proper
  := by
  refine ⟨h.described, h.nodup, ?_, h.given, h.carried, h.progress, h.current, ?_, h.asker⟩
  · intro b hb
    rw [← h.sent b hb]
    by_cases heq : b.1 = i
    · simp only [Parties.setStarter]
      rw [heq, Function.update_self]
      exact hsent (heq ▸ List.mem_map_of_mem hb)
    · simp only [Parties.setStarter]
      rw [Function.update_of_ne heq]
  · intro k
    by_cases hk : k = i
    · subst hk
      simp only [Parties.setStarter, Function.update_self]
      exact hc
    · simp only [Parties.setStarter, Function.update_of_ne hk]
      exact h.starter k

theorem Proper.setAsker (h : s.Proper) {j : ℕ} {c : GetStatusClient} (hc : c.Proper s.headers) :
  (s.setAsker j c).Proper
  := by
  refine ⟨h.described, h.nodup, h.sent, h.given, h.carried, h.progress, h.current, h.starter, ?_⟩
  intro k
  by_cases hk : k = j
  · subst hk
    simp only [Parties.setAsker, Function.update_self]
    exact hc
  · simp only [Parties.setAsker, Function.update_of_ne hk]
    exact h.asker k

/-- UpdateD goes on without beginning or carrying out a request. -/
theorem Proper.setService (h : s.Proper) {service : ServiceImpl}
    (hdescribed : service.DescribedWhileAlive)
    (haccepted : service.update_coordinator.accepted = s.service.update_coordinator.accepted)
    (halive : service.update_coordinator.terminated = false →
      s.service.update_coordinator.terminated = false
        ∧ inProgress service.holder = inProgress s.service.holder) :
  (s.setService service).Proper
  := by
  have hsame : (s.setService service).accepted = s.accepted := congrArg (List.map sentFor) haccepted
  refine ⟨hdescribed, h.nodup, h.sent, h.given, ?_, ?_, ?_, ?_, h.asker⟩
  · rw [hsame]
    exact h.carried
  · rw [hsame]
    exact h.progress
  · intro hend
    obtain ⟨hend, hprogress⟩ := halive hend
    rw [hsame]
    exact (h.current hend).trans (congrArg _ hprogress.symm)
  · rw [hsame]
    exact h.starter

/-- UpdateD begins to carry out a request. -/
theorem Proper.carryOut (h : s.Proper) {i : ℕ} {request : StartUpdateRequest}
    (hrequest : (s.starter i).request = some request)
    (halive : s.service.update_coordinator.terminated = false) (hfree : s.service.holder = none)
    {service : ServiceImpl} (hdescribed : service.DescribedWhileAlive)
    (haccepted : service.update_coordinator.accepted = s.service.update_coordinator.accepted)
    (hholder : service.holder = some (.start request.payload_path request.update_header)) :
  ({ s with service := service, begun := s.begun ++ [(i, request)] }.setStarter i
    { s.starter i with request := none }).Proper
  := by
  have hclient := h.starter i
  obtain ⟨hsent, hfresh⟩ := hclient.request request hrequest
  have hcurrent := h.current halive
  rw [hfree, inProgress, List.append_nil] at hcurrent
  have hlength : s.begun.length = s.accepted.length := by
    rw [← hcurrent, List.length_map]
  have hclients : s.clients.length = s.accepted.length := by
    rw [clients, List.length_map, hlength]
  have hne : ∀ b ∈ s.begun, b.1 ≠ i := by
    rintro b hb rfl
    exact hfresh (List.mem_map_of_mem hb)
  have hsame : Parties.accepted ({ s with
      service := service, begun := s.begun ++ [(i, request)] }.setStarter i
        { s.starter i with request := none }) = s.accepted :=
    congrArg (List.map sentFor) haccepted
  constructor
  · exact hdescribed
  · simp only [clients, Parties.setStarter, List.map_append, List.map_singleton]
    apply h.nodup.append (List.nodup_singleton i)
    intro k hk hki
    rw [List.mem_singleton.mp hki] at hk
    exact hfresh hk
  · intro b hb
    simp only [Parties.setStarter] at hb ⊢
    rcases List.mem_append.mp hb with hb | hb
    · rw [Function.update_of_ne (hne b hb)]
      exact h.sent b hb
    · rw [List.mem_singleton.mp hb, Function.update_self]
      exact hsent
  · intro b hb
    rcases List.mem_append.mp hb with hb | hb
    · exact h.given b hb
    · rw [List.mem_singleton.mp hb]
      exact (hclient.given request hsent).2
  · rw [hsame]
    simp only [Parties.setStarter, List.map_append]
    exact h.carried.trans (List.prefix_append _ _)
  · rw [hsame]
    simp only [Parties.setStarter, List.length_append, List.length_singleton]
    omega
  · intro _
    rw [hsame]
    simp only [Parties.setStarter, List.map_append, List.map_singleton]
    rw [hcurrent, hholder, inProgress]
  · intro k
    rw [hsame]
    simp only [clients, Parties.setStarter, List.map_append, List.map_singleton]
    change ((Function.update s.starter i _) k).Proper (k ∈ s.clients ++ [i])
      (k ∈ (s.clients ++ [i]).take s.accepted.length)
    rw [List.take_append_of_le_length hclients.ge]
    by_cases hk : k = i
    · subst hk
      rw [Function.update_self, eq_true (List.mem_append_right s.clients List.mem_cons_self)]
      exact hclient.begin_ hrequest
    · rw [Function.update_of_ne hk]
      have hmem : (k ∈ s.clients ++ [i]) = (k ∈ s.clients) := by simp [hk]
      rw [hmem]
      exact h.starter k
  · intro j
    simp only [headers, Parties.setStarter, List.map_append]
    exact (h.asker j).append _

/-- The request that was begun last is the one that is being carried out. -/
theorem Proper.begun_eq (h : s.Proper) (halive : s.service.update_coordinator.terminated = false)
    {payload_path : Route} {header_data : Text}
    (hholder : s.service.holder = some (.start payload_path header_data)) {i : ℕ}
    {request : StartUpdateRequest} (hlast : s.begun.getLast? = some (i, request)) :
  ∃ done, s.begun = done ++ [(i, request)] ∧ done.map Prod.snd = s.accepted
    ∧ request = ⟨payload_path, header_data⟩
  := by
  obtain ⟨done, hdone⟩ := List.getLast?_eq_some_iff.mp hlast
  have hcurrent := h.current halive
  rw [hdone, hholder, inProgress, List.map_append] at hcurrent
  obtain ⟨hfront, hrequest⟩ := List.append_inj' hcurrent rfl
  exact ⟨done, hdone, hfront, (List.cons.inj hrequest).1⟩

/-- A request has been carried out. -/
theorem Proper.accept (h : s.Proper) (halive : s.service.update_coordinator.terminated = false)
    {payload_path : Route} {header_data : Text}
    (hholder : s.service.holder = some (.start payload_path header_data)) {i : ℕ}
    {request : StartUpdateRequest} (hlast : s.begun.getLast? = some (i, request))
    {service : ServiceImpl} (hdescribed : service.DescribedWhileAlive)
    (haccepted : service.update_coordinator.accepted.map sentFor
      = s.accepted ++ [⟨payload_path, header_data⟩]) (hfree : service.holder = none)
    (response : Option StartUpdateResponse) :
  ((s.setService service).setStarter i { s.starter i with response := response }).Proper
  := by
  obtain ⟨done, hbegun, hdone, rfl⟩ := h.begun_eq halive hholder hlast
  have hall : s.begun.map Prod.snd = s.accepted ++ [⟨payload_path, header_data⟩] := by
    rw [hbegun, List.map_append, hdone]
    rfl
  have hclients : s.clients = done.map Prod.fst ++ [i] := by
    rw [clients, hbegun, List.map_append]
    rfl
  have hlength : (done.map Prod.fst).length = s.accepted.length := by
    rw [← hdone, List.length_map, List.length_map]
  have hsent : (s.starter i).sent = some ⟨payload_path, header_data⟩ :=
    h.sent (i, _) (by rw [hbegun]; exact List.mem_append_right _ List.mem_cons_self)
  have hnow : Parties.accepted ((s.setService service).setStarter i
      { s.starter i with response := response }) = s.begun.map Prod.snd :=
    haccepted.trans hall.symm
  constructor
  · exact hdescribed
  · exact h.nodup
  · intro b hb
    simp only [Parties.setStarter, Parties.setService] at hb ⊢
    rw [← h.sent b hb]
    by_cases heq : b.1 = i
    · rw [heq, Function.update_self]
    · rw [Function.update_of_ne heq]
  · exact h.given
  · rw [hnow]
    exact List.prefix_refl _
  · rw [hnow, List.length_map]
    exact Nat.le_succ _
  · intro _
    rw [hnow]
    simp only [Parties.setStarter, Parties.setService]
    rw [hfree, inProgress, List.append_nil]
  · intro k
    rw [hnow, List.length_map]
    have htake : s.clients.take s.begun.length = s.clients := by
      rw [List.take_eq_self_iff, clients, List.length_map]
    change ((Function.update s.starter i _) k).Proper (k ∈ s.clients)
      (k ∈ s.clients.take s.begun.length)
    rw [htake]
    by_cases hk : k = i
    · subst hk
      rw [Function.update_self]
      have hmem : (k ∈ s.clients) = True := by simp [hclients]
      have hclient := (h.starter k).carriedOut (by simp [hsent]) response
      rw [hmem] at hclient ⊢
      exact hclient
    · rw [Function.update_of_ne hk]
      have hmem : (k ∈ s.clients.take s.accepted.length) = (k ∈ s.clients) := by
        rw [hclients, List.take_append_of_le_length hlength.ge, ← hlength, List.take_length]
        simp [hk]
      have hclient := h.starter k
      rw [hmem] at hclient
      exact hclient
  · exact h.asker

/-- A client that has not started has sent nothing. -/
theorem Proper.not_mem_clients (h : s.Proper) {i : ℕ} (hstarting : (s.starter i).process = .starting) :
  i ∉ s.clients
  := by
  intro hi
  obtain ⟨b, hb, rfl⟩ := List.mem_map.mp hi
  have hsent := h.sent b hb
  rw [(h.starter b.1).starting hstarting] at hsent
  contradiction

/-- UpdateD comes to the end of a request, or ends over it. -/
theorem Proper.replaceLink (h : s.Proper) {i : ℕ} {request : StartUpdateRequest}
    (hlast : s.begun.getLast? = some (i, request)) {os os' : Os} {service : ServiceImpl}
    (hservice : s.service.step (.replaceLink os os') = some service) :
  ((s.setService service).setStarter i
    { s.starter i with
      response :=
        if service.update_coordinator.terminated then none else Ending.response .returns }).Proper
  := by
  have hdescribed := h.described.step hservice
  obtain ⟨halive, payload_path, header_data, hholder, rfl⟩ :=
    ServiceImpl.step_replaceLink hservice
  obtain ⟨-, hended⟩ | ⟨fs, fs', leaf, -, -, -, heq⟩ :=
    UpdateCoordinator.replaceLink_cases s.service.update_coordinator payload_path header_data os os'
  · -- UpdateD has ended, and does not answer
    rw [if_pos hended.terminated]
    have hservice := h.setService hdescribed hended.accepted (by simp [hended.terminated])
    have hsent := h.sent _ (List.mem_of_getLast? hlast)
    exact hservice.setStarter
      ((hservice.starter i).unanswered (by simp [Parties.setService, hsent])) fun _ => rfl
  · have haccepted : (UpdateCoordinator.noexcept
        (s.service.update_coordinator.replaceLink payload_path header_data os os')).2.accepted.map
          sentFor = s.accepted ++ [⟨payload_path, header_data⟩] := by
      rw [heq]
      simp [UpdateCoordinator.acceptRequest, accepted, sentFor]
    exact h.accept halive hholder hlast hdescribed haccepted rfl _

/-- The right answer is given. -/
theorem right_manifest (h : s.Proper) (halive : s.service.update_coordinator.terminated = false) :
  HeaderAnswer.Right ⟨s.service.update_coordinator.manifest, .SUCCESS, s.begun.length⟩ s.headers
  := by
  have hdescribed : s.service.Described := h.described.resolve_left (by simp [halive])
  have hlength : s.headers.length = s.begun.length := List.length_map _
  constructor
  · exact hlength.ge
  · have hheaders : s.headers
        = (s.accepted ++ inProgress s.service.holder).map StartUpdateRequest.update_header := by
      rw [← h.current halive, List.map_map]
      rfl
    dsimp only
    rw [List.take_of_length_le hlength.le, hheaders, UpdateCoordinator.manifest,
      hdescribed.manifest, ServiceImpl.lastHeader]
    have hlast : ((s.accepted ++ []).map StartUpdateRequest.update_header).getLast?.getD []
        = s.service.update_coordinator.lastHeader := by
      rw [List.append_nil, accepted, List.map_map, List.getLast?_map,
        UpdateCoordinator.lastHeader]
      cases s.service.update_coordinator.accepted.getLast? <;> rfl
    cases s.service.holder with
    | none => exact hlast.symm
    | some holder =>
        cases holder with
        | run => exact hlast.symm
        | start payload_path header_data =>
            rw [inProgress, List.map_append, List.map_singleton, List.getLast?_concat]
            rfl

/-- Every step of any party keeps them proper. -/
theorem Proper.step (h : s.Proper) (hstep : step s e = some s') :
  s'.Proper
  := by
  cases e with
  | startUpdate i argc opts exists_ stub =>
      rw [Parties.step] at hstep
      split at hstep
      · rename_i hstarting
        cases hstep
        have hnot := h.not_mem_clients hstarting
        exact h.setStarter (StartUpdateClient.proper_main hnot) fun hi => absurd hi hnot
      · contradiction
  | carryOut i =>
      rw [Parties.step] at hstep
      split at hstep
      · contradiction
      · rename_i request hrequest
        obtain ⟨service, hservice, rfl⟩ := Option.map_eq_some_iff.mp hstep
        obtain ⟨hsent, -⟩ := (h.starter i).request request hrequest
        obtain ⟨hpath, hheader⟩ := (h.starter i).given request hsent
        have hdescribed := h.described.step hservice
        obtain ⟨halive, hfree, rfl⟩ := ServiceImpl.step_startUpdate hpath hheader hservice
        exact h.carryOut hrequest halive hfree hdescribed rfl rfl
  | replaceLink os os' =>
      rw [Parties.step] at hstep
      split at hstep
      · contradiction
      · rename_i i request hlast
        obtain ⟨service, hservice, rfl⟩ := Option.map_eq_some_iff.mp hstep
        exact h.replaceLink hlast hservice
  | answered i =>
      rw [Parties.step] at hstep
      split at hstep
      · contradiction
      · rename_i response hresponse
        split at hstep
        · cases hstep
          apply h.setStarter ((h.starter i).receive hresponse)
          intro _
          unfold StartUpdateClient.receive
          split <;> rfl
        · contradiction
  | fails i =>
      rw [Parties.step] at hstep
      split at hstep
      · cases hstep
        exact h.setStarter (h.starter i).fails fun _ => rfl
      · contradiction
  | getStatus j stub =>
      rw [Parties.step] at hstep
      split at hstep
      · cases hstep
        exact h.setAsker (GetStatusClient.proper_main _ stub)
      · contradiction
  | answer j =>
      rw [Parties.step] at hstep
      split at hstep
      · contradiction
      · obtain ⟨service, hservice, rfl⟩ := Option.map_eq_some_iff.mp hstep
        obtain ⟨halive, rfl⟩ := ServiceImpl.step_getUpdateHeader hservice
        have hright := right_manifest h halive
        have hsame := h.setService (h.described.step hservice) rfl fun _ => ⟨halive, rfl⟩
        apply hsame.setAsker
        constructor
        · intro r hr
          cases hr
          exact ⟨rfl, hright⟩
        · exact (h.asker j).exited
  | headerAnswered j =>
      rw [Parties.step] at hstep
      split at hstep
      · contradiction
      · rename_i response hresponse
        split at hstep
        · cases hstep
          exact h.setAsker ((h.asker j).receive hresponse)
        · contradiction
  | headerFails j =>
      rw [Parties.step] at hstep
      split at hstep
      · cases hstep
        exact h.setAsker (h.asker j).fails
      · contradiction
  | wakeUp =>
      obtain ⟨service, hservice, rfl⟩ := Option.map_eq_some_iff.mp hstep
      have hdescribed := h.described.step hservice
      obtain ⟨halive, hfree, rfl | ⟨-, rfl⟩⟩ := ServiceImpl.step_wakeUp hservice
      · exact h
      · apply h.setService hdescribed (accepted_handOver _)
        intro _
        rw [hfree]
        exact ⟨halive, rfl⟩
  | resetLink os =>
      obtain ⟨service, hservice, rfl⟩ := Option.map_eq_some_iff.mp hstep
      have hdescribed := h.described.step hservice
      obtain ⟨halive, hholder, rfl⟩ := ServiceImpl.step_resetLink hservice
      apply h.setService hdescribed (accepted_resetLink _ os)
      intro _
      rw [hholder]
      exact ⟨halive, rfl⟩
  | files fs =>
      cases hstep
      exact h.setService (h.described.setFiles fs) rfl fun halive => ⟨halive, rfl⟩

/-- What clients and UpdateD agree on: the requests that have been carried out are those UpdateD has
begun to carry out, perhaps but for the last, and each is that of another client; a client that has
exited with 0, not after `-h`, has had its request carried out; and a client that asked for the header
exits with 0 just when a request had been begun before the answer, and has printed the header of the
last one. -/
structure Agree (s : Parties) : Prop where
  nodup : s.clients.Nodup
  sent : ∀ b ∈ s.begun, (s.starter b.1).sent = some b.2
  carried_out : s.accepted <+: s.begun.map Prod.snd
  in_progress : s.begun.length ≤ s.accepted.length + 1
  exited : ∀ i, (s.starter i).process = .exited 0 →
    (s.starter i).sent = none ∨ i ∈ s.clients.take s.accepted.length
  header : ∀ j n, (s.asker j).process = .exited n → ∃ r, (s.asker j).answer = some r
    ∧ r.Right s.headers ∧ n = if r.after = 0 then 1 else 0

theorem Proper.agree (h : s.Proper) :
  s.Agree
  := by
  refine ⟨h.nodup, h.sent, h.carried, h.progress, fun i => (h.starter i).exited, ?_⟩
  intro j n hn
  obtain ⟨r, hr, hright, rfl⟩ := (h.asker j).exited n hn
  refine ⟨r, hr, hright, ?_⟩
  have hgiven : ∀ header ∈ s.headers, header ≠ [] := by
    intro header hheader
    obtain ⟨b, hb, rfl⟩ := List.mem_map.mp hheader
    exact h.given b hb
  simp only [hright.isEmpty_iff hgiven]

/-- The parties are proper in every run. -/
theorem proper_of_exec {fs : Nodes} {es : List Event}
    (hrun : Lts.exec step (init fs) es = some s) :
  s.Proper
  := Lts.invariant' Proper (fun _ _ _ => Proper.step) (proper_init fs) hrun

/-- Clients and UpdateD agree in every interleaving. -/
theorem parties_agree {fs : Nodes} {es : List Event} (hrun : Lts.exec step (init fs) es = some s) :
  s.Agree
  := (proper_of_exec hrun).agree

/-- A process of `updated-start-update` with these arguments, while the payload is there. -/
def starts (i : ℕ) (payload_path : Route) : Event :=
  .startUpdate i 5 [.p payload_path, .u "h".toList] (fun _ => some true) true

/-- Two requests are carried out, the RPC of the client whose request was first fails, and the header is
asked for while the second is being carried out. -/
def twoClients : List Event := [
  starts 0 ⟨true, ["x".toList, "a".toList]⟩, starts 1 ⟨true, ["y".toList, "b".toList]⟩,
  .getStatus 0 true, .carryOut 1, .replaceLink willing willing, .fails 1, .carryOut 0, .answer 0,
  .replaceLink willing willing, .answered 0, .headerAnswered 0, .wakeUp, .resetLink willing]

theorem parties_agree_two :
  ∃ s, Lts.exec step (init UpdateCoordinator.twoPayloads) twoClients = some s ∧ s.Agree
    ∧ (s.starter 0).process = .exited 0 ∧ (s.starter 1).process = .aborted
    ∧ (s.asker 0).process = .exited 0 ∧ s.accepted.length = 2
  := by
  obtain ⟨s, hrun⟩ := Option.isSome_iff_exists.mp
    (by decide : (Lts.exec step (init UpdateCoordinator.twoPayloads) twoClients).isSome = true)
  have hend : ((Lts.exec step (init UpdateCoordinator.twoPayloads) twoClients).map fun s =>
      ((s.starter 0).process, (s.starter 1).process, (s.asker 0).process, s.accepted.length))
      = some (.exited 0, .aborted, .exited 0, 2) := by decide
  simp only [hrun, Option.map_some, Option.some.injEq, Prod.mk.injEq] at hend
  exact ⟨s, hrun, parties_agree hrun, hend⟩

/-! ### How UpdateD ends -/

/-- A request that is carried out has an absolute path, its link can be made, and no destructor of a
link raises an exception. -/
def LinksAreFine (s : Parties) : Event → Prop
  | .replaceLink os os' =>
      ∀ payload_path header_data, s.service.holder = some (.start payload_path header_data) →
        s.service.update_coordinator.MakesLink payload_path os os'
  | .resetLink os => s.service.update_coordinator.ResetsLink os
  | _ => True

/-- UpdateD is alive after a step just when it was before, and the step makes and destroys its links. -/
theorem alive_step_iff (h : s.Proper) (hstep : step s e = some s') :
  s'.service.update_coordinator.terminated = false
    ↔ s.service.update_coordinator.terminated = false ∧ s.LinksAreFine e
  := by
  cases e with
  | startUpdate i argc opts exists_ stub =>
      rw [Parties.step, Option.ite_none_right_eq_some] at hstep
      obtain ⟨-, ⟨⟩⟩ := hstep
      exact (and_iff_left trivial).symm
  | carryOut i =>
      rw [Parties.step] at hstep
      split at hstep
      · contradiction
      · rename_i request hrequest
        obtain ⟨service, hservice, rfl⟩ := Option.map_eq_some_iff.mp hstep
        obtain ⟨hsent, -⟩ := (h.starter i).request request hrequest
        obtain ⟨hpath, hheader⟩ := (h.starter i).given request hsent
        obtain ⟨-, -, rfl⟩ := ServiceImpl.step_startUpdate hpath hheader hservice
        exact (and_iff_left trivial).symm
  | replaceLink os os' =>
      rw [Parties.step] at hstep
      split at hstep
      · contradiction
      · obtain ⟨service, hservice, rfl⟩ := Option.map_eq_some_iff.mp hstep
        obtain ⟨halive, payload_path, header_data, hholder, rfl⟩ :=
          ServiceImpl.step_replaceLink hservice
        refine (UpdateCoordinator.alive_replaceLink_iff halive payload_path header_data os
          os').trans ?_
        simp [halive, LinksAreFine, hholder]
  | answered i =>
      rw [Parties.step] at hstep
      split at hstep
      · contradiction
      · rw [Option.ite_none_right_eq_some] at hstep
        obtain ⟨-, ⟨⟩⟩ := hstep
        exact (and_iff_left trivial).symm
  | fails i =>
      rw [Parties.step, Option.ite_none_right_eq_some] at hstep
      obtain ⟨-, ⟨⟩⟩ := hstep
      exact (and_iff_left trivial).symm
  | getStatus j stub =>
      rw [Parties.step, Option.ite_none_right_eq_some] at hstep
      obtain ⟨-, ⟨⟩⟩ := hstep
      exact (and_iff_left trivial).symm
  | answer j =>
      rw [Parties.step, Option.ite_none_left_eq_some] at hstep
      obtain ⟨-, hstep⟩ := hstep
      obtain ⟨service, hservice, rfl⟩ := Option.map_eq_some_iff.mp hstep
      obtain ⟨-, rfl⟩ := ServiceImpl.step_getUpdateHeader hservice
      exact (and_iff_left trivial).symm
  | headerAnswered j =>
      rw [Parties.step] at hstep
      split at hstep
      · contradiction
      · rw [Option.ite_none_right_eq_some] at hstep
        obtain ⟨-, ⟨⟩⟩ := hstep
        exact (and_iff_left trivial).symm
  | headerFails j =>
      rw [Parties.step, Option.ite_none_right_eq_some] at hstep
      obtain ⟨-, ⟨⟩⟩ := hstep
      exact (and_iff_left trivial).symm
  | wakeUp =>
      obtain ⟨service, hservice, rfl⟩ := Option.map_eq_some_iff.mp hstep
      obtain ⟨halive, hfree, rfl | ⟨hup, rfl⟩⟩ := ServiceImpl.step_wakeUp hservice
      · exact (and_iff_left trivial).symm
      · have hdescribed : s.service.Described := h.described.resolve_left (by simp [halive])
        have hflag := hdescribed.flag (by simp [hfree])
        have hsame := UpdateCoordinator.terminated_handOver hflag hup
        simp [setService, hsame, LinksAreFine]
  | resetLink os =>
      obtain ⟨service, hservice, rfl⟩ := Option.map_eq_some_iff.mp hstep
      obtain ⟨halive, -, rfl⟩ := ServiceImpl.step_resetLink hservice
      refine (UpdateCoordinator.alive_resetLink_iff halive os).trans ?_
      simp [halive, LinksAreFine]
  | files fs =>
      cases hstep
      exact (and_iff_left trivial).symm

/-- UpdateD is alive after a run just when every request that was carried out had an absolute path and
a link that could be made, and every link that was replaced or had been handed over could be
destroyed. -/
theorem alive_iff {fs : Nodes} {es : List Event} (hrun : Lts.exec step (init fs) es = some s) :
  s.service.update_coordinator.terminated = false ↔ Lts.Meets step LinksAreFine (init fs) es
  := by
  constructor
  · intro halive
    by_contra hmeets
    obtain ⟨as, e, bs, s₁, s₂, -, hbefore, -, hbad, hstep, hafter⟩ :=
      Lts.exists_first_not_ok hmeets hrun
    have h₁ := proper_of_exec hbefore
    have hend : s₂.Proper ∧ s₂.service.update_coordinator.terminated ≠ false :=
      ⟨h₁.step hstep, fun h₂ => hbad ((alive_step_iff h₁ hstep).mp h₂).2⟩
    -- a process that has ended does not come back
    have hlast := Lts.invariant'
      (fun s : Parties => s.Proper ∧ s.service.update_coordinator.terminated ≠ false)
      (fun _ _ _ h hstep =>
        ⟨h.1.step hstep, fun halive => h.2 ((alive_step_iff h.1 hstep).mp halive).1⟩)
      hend hafter
    exact hlast.2 halive
  · intro hok
    have hinv := Lts.invariant
      (fun s : Parties => s.Proper ∧ s.service.update_coordinator.terminated = false)
      (fun _ _ _ h hok hstep =>
        ⟨h.1.step hstep, (alive_step_iff h.1 hstep).mpr ⟨h.2, hok⟩⟩)
      ⟨proper_init fs, rfl⟩ hok hrun
    exact hinv.2

/-- A client that is given a relative path ends UpdateD. -/
def relativePath : List Event :=
  [starts 0 ⟨false, ["a".toList]⟩, .carryOut 0, .replaceLink willing willing]

theorem alive_iff_relative :
  ∃ s, Lts.exec step (init UpdateCoordinator.twoPayloads) relativePath = some s
    ∧ s.service.update_coordinator.terminated = true
    ∧ ¬ Lts.Meets step LinksAreFine (init UpdateCoordinator.twoPayloads) relativePath
  := by
  obtain ⟨s, hrun⟩ := Option.isSome_iff_exists.mp
    (by decide :
      (Lts.exec step (init UpdateCoordinator.twoPayloads) relativePath).isSome = true)
  have hend : ((Lts.exec step (init UpdateCoordinator.twoPayloads) relativePath).map
        fun s => s.service.update_coordinator.terminated) = some true := by decide
  simp only [hrun, Option.map_some, Option.some.injEq] at hend
  refine ⟨s, hrun, hend, ?_⟩
  intro hok
  have halive := (alive_iff hrun).mpr hok
  rw [hend] at halive
  contradiction

end Parties

end Updated
