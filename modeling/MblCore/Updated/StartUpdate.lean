import MblCore.Updated.ServiceImpl

/-!
# `ServiceImpl::StartUpdate`

The handler answers a request with `SUCCESS` when `UpdateCoordinator::start` returns, and with
`UNKNOWN_ERROR` when it throws.  The constructor of the link throws inside `start`, but `start` is
`noexcept`: the exception ends the process before the handler gets to see it.
-/

open FileTree

namespace Updated

open PayloadHardLink

namespace UpdateCoordinator

/-- A call of `start` with a link that cannot be made ends the process. -/
theorem start_of_link_fails (c : UpdateCoordinator) {payload_path : Route} (header_data : Text)
    {os : Os} (os' : Os) {e : FilesystemError}
    (hlink : ((construct os MAXSYMLINKS payload_path.parts).call c.fs).1 = .error e) :
  (c.start payload_path header_data os os').1 = .terminates
    ∧ (c.start payload_path header_data os os').2.terminated = true
  := by
  obtain ⟨hends, hended⟩ | ⟨fs, fs', leaf, hconstruct, -⟩ :=
    start_cases c payload_path header_data os os'
  · exact ⟨hends, hended.terminated⟩
  · rw [hconstruct] at hlink
    contradiction

end UpdateCoordinator

/-- The values of an `ErrorCodeMessage`. -/
inductive ErrorCode
  | UNKNOWN_ERROR
  | SUCCESS
deriving DecidableEq

/-- The values of a `grpc::Status` the handlers return. -/
inductive GrpcStatus
  | OK
  | CANCELLED
deriving DecidableEq

/-- An answer to `StartUpdate`. -/
structure StartUpdateResponse where
  status : GrpcStatus
  value : ErrorCode
deriving DecidableEq

/-- What `ServiceImpl::StartUpdate` makes of the ending of `start`: its answer, unless the process has
ended. -/
def Ending.response : Ending → Option StartUpdateResponse
  | .returns => some ⟨.OK, .SUCCESS⟩
  | .throws => some ⟨.CANCELLED, .UNKNOWN_ERROR⟩
  | .terminates => none

namespace ServiceImpl

variable {s : ServiceImpl} {payload_path : Route} {update_header : Text} {os os' : Os}

/-- `ServiceImpl::StartUpdate`: the answer, unless the process ends, and the service afterwards. -/
def startUpdate (s : ServiceImpl) (payload_path : Route) (update_header : Text)
    (os os' : Os) : Option StartUpdateResponse × ServiceImpl :=
  let (ending, c) := s.update_coordinator.start payload_path update_header os os'
  (ending.response, { s with update_coordinator := c })

/-- When the mutex is free, the steps of a request leave the service as the handler does. -/
theorem exec_startUpdate (halive : s.update_coordinator.terminated = false)
    (hfree : s.holder = none) (hpath : payload_path.empty = false) (hheader : update_header ≠ []) :
  Lts.exec step s [.startUpdate payload_path update_header, .replaceLink os os']
    = some (s.startUpdate payload_path update_header os os').2
  := by
  have hgiven : ¬ (payload_path.empty = true ∨ update_header.isEmpty = true) := by
    simp [hpath, hheader]
  have hassigned : s.update_coordinator.assignHeader payload_path update_header
      = (.returns, { s.update_coordinator with header := update_header }) := if_neg hgiven
  simp [Lts.exec, step, halive, hfree, hassigned, startUpdate, UpdateCoordinator.start]

/-- The request is answered with an error, the daemon keeps running, and the header, the flag and the
link of the coordinator are what they were. -/
structure RefusesRequest (c : UpdateCoordinator) (response : Option StartUpdateResponse)
    (c' : UpdateCoordinator) : Prop where
  answered : response.map StartUpdateResponse.value = some .UNKNOWN_ERROR
  alive : c'.terminated = false
  header : c'.header = c.header
  updating : c'.updating = c.updating
  payload_link : c'.payload_link = c.payload_link

/-- No request whose link cannot be made is refused: it ends the process. -/
theorem not_refused_of_link_fails (s : ServiceImpl) {payload_path : Route} {update_header : Text}
    {os : Os} (os' : Os) {e : FilesystemError}
    (hlink : ((construct os MAXSYMLINKS payload_path.parts).call s.update_coordinator.fs).1
      = .error e) :
  (s.startUpdate payload_path update_header os os').1 = none
    ∧ (s.startUpdate payload_path update_header os os').2.update_coordinator.terminated = true
    ∧ ¬ RefusesRequest s.update_coordinator
      (s.startUpdate payload_path update_header os os').1
      (s.startUpdate payload_path update_header os os').2.update_coordinator
  := by
  obtain ⟨hending, hterminated⟩ :=
    s.update_coordinator.start_of_link_fails update_header os' hlink
  have hanswer : (s.startUpdate payload_path update_header os os').1 = none := by
    unfold startUpdate
    dsimp only
    rw [hending]
    rfl
  refine ⟨hanswer, hterminated, fun h => ?_⟩
  have hanswered := h.answered
  rw [hanswer] at hanswered
  contradiction

/-- A request for a payload that does not exist, to a new service. -/
def missingPayload : Option StartUpdateResponse × ServiceImpl :=
  (init root).startUpdate ⟨true, ["x".toList, "a".toList]⟩ "h".toList willing willing

theorem not_refused_of_link_fails_missing :
  missingPayload.1 = none ∧ missingPayload.2.update_coordinator.terminated = true
    ∧ ¬ RefusesRequest (init root).update_coordinator missingPayload.1
      missingPayload.2.update_coordinator
  := by
  have hlink : ((construct willing MAXSYMLINKS ["x".toList, "a".toList]).call root).1
      = .error .filesystem_error := by
    rfl
  exact not_refused_of_link_fails (init root) willing hlink

/-- The daemon ends without an answer. -/
theorem not_refused_missing :
  ¬ RefusesRequest (init root).update_coordinator missingPayload.1
    missingPayload.2.update_coordinator
  := by
  intro h
  have hanswer : missingPayload.1 = none := by rfl
  have hanswered := h.answered
  rw [hanswer] at hanswered
  contradiction

end ServiceImpl

end Updated
