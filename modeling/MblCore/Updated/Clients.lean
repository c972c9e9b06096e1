import MblCore.Updated.StartUpdate

/-!
# The clients of UpdateD

`updated-start-update` checks its arguments, sends one request and ends with its answer;
`updated-get-status` asks for the header and prints it.  Requests and answers are on the way for any
time, an RPC may fail at the client at any point after it has begun, and a request is carried out at
most once.  Many clients run at the same time as UpdateD, and other processes change the files.
-/

open FileTree

namespace Updated

open PayloadHardLink

/-! ### Errors -/

/-- The exceptions of `updated-rpc/Error.h`. -/
inductive RpcError
  | GrpcError
  | UpdateDRpcError (value : ErrorCode)
deriving DecidableEq

/-- `throw_on_grpc_error`. -/
def throwOnGrpcError (grpc_status : GrpcStatus) : Except RpcError Unit :=
  if grpc_status ≠ .OK then throw .GrpcError else pure ()

/-- `throw_on_updated_rpc_error`. -/
def throwOnUpdatedRpcError (value : ErrorCode) : Except RpcError Unit :=
  if value ≠ .SUCCESS then throw (.UpdateDRpcError value) else pure ()

/-! ### `updated-start-update` -/

/-- What `getopt_long` comes upon, one option after the other. -/
inductive Opt
  | p (optarg : Route)
  | u (optarg : Text)
  | h
  | unrecognized
deriving DecidableEq

/-- How `parse_args` ends: it returns, exits with 0, or throws. -/
inductive Parsed
  | returned (payload_path : Route) (header_data : Text)
  | exited
  | invalid_argument
  | filesystem_error
deriving DecidableEq

/-- The loop of `parse_args`. -/
def readOptions : List Opt → Route × Text → Except Parsed (Route × Text)
  | [], arg_values => .ok arg_values
  | .p optarg :: opts, arg_values => readOptions opts (optarg, arg_values.2)
  | .u optarg :: opts, arg_values => readOptions opts (arg_values.1, optarg)
  | .h :: _, _ => .error .exited
  | .unrecognized :: _, _ => .error .invalid_argument

/-- `parse_args`, where `exists_` is what `std::filesystem::exists` returns for a path, if it does
not throw. -/
def parseArgs (argc : ℕ) (opts : List Opt) (exists_ : Route → Option Bool) : Parsed :=
  if argc < 2 then .invalid_argument
  else
    match readOptions opts (⟨false, []⟩, []) with
    | .error ending => ending
    | .ok arg_values =>
        if arg_values.1.empty then .invalid_argument
        else
          match exists_ arg_values.1 with
          | none => .filesystem_error
          | some false => .invalid_argument
          | some true =>
              if arg_values.2.isEmpty then .invalid_argument
              else .returned arg_values.1 arg_values.2

structure StartUpdateRequest where
  payload_path : Route
  update_header : Text
deriving DecidableEq

/-- Where a process is.  An exception that nothing catches aborts it. -/
inductive Process
  | starting
  | waiting
  | exited (code : ℕ)
  | aborted
deriving DecidableEq

/-- A process of `updated-start-update`, with what is on the way to UpdateD and back. -/
structure StartUpdateClient where
  process : Process
  /-- The arguments of `Client::StartUpdate`. -/
  sent : Option StartUpdateRequest
  request : Option StartUpdateRequest
  response : Option StartUpdateResponse
deriving DecidableEq

namespace StartUpdateClient

def init : StartUpdateClient :=
  ⟨.starting, none, none, none⟩

/-- `main` up to the RPC.  When no channel or no stub can be made, an exception is thrown that is not
caught. -/
def main (argc : ℕ) (opts : List Opt) (exists_ : Route → Option Bool) (stub : Bool) :
    StartUpdateClient :=
  match parseArgs argc opts exists_ with
  | .returned payload_path header_data =>
      if stub then
        ⟨.waiting, some ⟨payload_path, header_data⟩, some ⟨payload_path, header_data⟩, none⟩
      else { init with process := .aborted }
  | .exited => { init with process := .exited 0 }
  | .invalid_argument => { init with process := .exited 1 }
  | .filesystem_error => { init with process := .aborted }

/-- `Client::StartUpdate` when the answer has come. -/
def startUpdate (response : StartUpdateResponse) : Except RpcError Unit := do
  throwOnGrpcError response.status
  throwOnUpdatedRpcError response.value

/-- `main` from then on. -/
def receive (c : StartUpdateClient) (response : StartUpdateResponse) : StartUpdateClient :=
  match startUpdate response with
  | .ok () => { c with process := .exited 0, response := none }
  | .error _ => { c with process := .aborted, response := none }

end StartUpdateClient

/-! ### `updated-get-status` -/

/-- An answer to `GetUpdateHeader`, and how many requests UpdateD had begun to carry out before it. -/
structure HeaderAnswer where
  update_header : Text
  error_code : ErrorCode
  after : ℕ
deriving DecidableEq

/-- A process of `updated-get-status`. -/
structure GetStatusClient where
  process : Process
  request : Bool
  response : Option HeaderAnswer
  /-- The answer that has come. -/
  answer : Option HeaderAnswer
deriving DecidableEq

namespace GetStatusClient

def init : GetStatusClient :=
  ⟨.starting, false, none, none⟩

/-- `main` up to the RPC. -/
def main (stub : Bool) : GetStatusClient :=
  if stub then { init with process := .waiting, request := true }
  else { init with process := .aborted }

/-- `Client::GetUpdateHeader` when the answer has come.  The status is `OK`. -/
def getUpdateHeader (response : HeaderAnswer) : Except RpcError Text := do
  throwOnGrpcError .OK
  throwOnUpdatedRpcError response.error_code
  pure response.update_header

/-- `main` from then on.  It prints the header when it exits with 0. -/
def receive (c : GetStatusClient) (response : HeaderAnswer) : GetStatusClient :=
  match getUpdateHeader response with
  | .error _ => { c with process := .aborted, response := none, answer := some response }
  | .ok header =>
      { c with
        process := .exited (if header.isEmpty then 1 else 0)
        response := none
        answer := some response }

end GetStatusClient

/-! ### Clients and daemon -/

/-- UpdateD and its clients. -/
structure Parties where
  service : ServiceImpl
  starter : ℕ → StartUpdateClient
  asker : ℕ → GetStatusClient
  /-- The requests UpdateD has begun to carry out, in order, each with its client. -/
  begun : List (ℕ × StartUpdateRequest)

namespace Parties

/-- UpdateD has come up, and no client has done anything. -/
def init (fs : Nodes) : Parties where
  service := ServiceImpl.init fs
  starter _ := .init
  asker _ := .init
  begun := []

inductive Event
  /-- A process of `updated-start-update` runs up to the RPC. -/
  | startUpdate (i : ℕ) (argc : ℕ) (opts : List Opt) (exists_ : Route → Option Bool) (stub : Bool)
  /-- UpdateD begins to carry out a request. -/
  | carryOut (i : ℕ)
  /-- UpdateD goes on to the end of the request. -/
  | replaceLink (os os' : Os)
  /-- An answer has come. -/
  | answered (i : ℕ)
  /-- The RPC fails at the client, with whatever is on the way. -/
  | fails (i : ℕ)
  | getStatus (j : ℕ) (stub : Bool)
  | answer (j : ℕ)
  | headerAnswered (j : ℕ)
  | headerFails (j : ℕ)
  /-- The main loop of UpdateD wakes up. -/
  | wakeUp
  /-- The main loop of UpdateD goes on to the end of `run`. -/
  | resetLink (os : Os)
  /-- Other processes change the files. -/
  | files (fs : Nodes)

def setStarter (s : Parties) (i : ℕ) (c : StartUpdateClient) : Parties :=
  { s with starter := Function.update s.starter i c }

def setAsker (s : Parties) (j : ℕ) (c : GetStatusClient) : Parties :=
  { s with asker := Function.update s.asker j c }

def setService (s : Parties) (service : ServiceImpl) : Parties :=
  { s with service := service }

/-- UpdateD with other files. -/
def setFiles (s : ServiceImpl) (fs : Nodes) : ServiceImpl :=
  { s with update_coordinator := { s.update_coordinator with fs := fs } }

/-- One step of one party. -/
def step (s : Parties) : Event → Option Parties
  | .startUpdate i argc opts exists_ stub =>
      if (s.starter i).process = .starting then
        some (s.setStarter i (.main argc opts exists_ stub))
      else none
  | .carryOut i =>
      match (s.starter i).request with
      | none => none
      | some request =>
          (s.service.step (.startUpdate request.payload_path request.update_header)).map
            fun service =>
              { s with service := service, begun := s.begun ++ [(i, request)] }.setStarter i
                { s.starter i with request := none }
  | .replaceLink os os' =>
      -- the request that was begun last is the one that is being carried out
      match s.begun.getLast? with
      | none => none
      | some (i, _) =>
          (s.service.step (.replaceLink os os')).map fun service =>
            (s.setService service).setStarter i
              { s.starter i with
                response :=
                  if service.update_coordinator.terminated then none
                  else Ending.response .returns }
  | .answered i =>
      match (s.starter i).response with
      | none => none
      | some response =>
          if (s.starter i).process = .waiting then
            some (s.setStarter i ((s.starter i).receive response))
          else none
  | .fails i =>
      if (s.starter i).process = .waiting then
        some (s.setStarter i { s.starter i with process := .aborted })
      else none
  | .getStatus j stub =>
      if (s.asker j).process = .starting then some (s.setAsker j (.main stub)) else none
  | .answer j =>
      if (s.asker j).request = false then none
      else
        (s.service.step .getUpdateHeader).map fun service =>
          (s.setService service).setAsker j
            { s.asker j with
              request := false
              response :=
                some ⟨s.service.update_coordinator.manifest, .SUCCESS, s.begun.length⟩ }
  | .headerAnswered j =>
      match (s.asker j).response with
      | none => none
      | some response =>
          if (s.asker j).process = .waiting then
            some (s.setAsker j ((s.asker j).receive response))
          else none
  | .headerFails j =>
      if (s.asker j).process = .waiting then
        some (s.setAsker j { s.asker j with process := .aborted })
      else none
  | .wakeUp => (s.service.step .wakeUp).map s.setService
  | .resetLink os => (s.service.step (.resetLink os)).map s.setService
  | .files fs => some (s.setService (setFiles s.service fs))

end Parties

end Updated
