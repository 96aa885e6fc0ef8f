import AgentsRemember.Adapter.Requests

/-!
# The Codex adapter

`codex_app_server_adapter.py` with its submission ledger and the seat's own
thread. A submit runs to the transport's write lock, from the lock through its
guard and write to the answer, and from the answer to its end. Threads of
sub-agents, settings and transcripts are left out: a submit does not read them.
-/

namespace AgentsRemember.Adapter.Codex

open Lib
open Harness (ControlOperationRef ControlState SubmissionReceipt SendOutcome AcceptanceState)

inductive EvidenceState
  | queued | accepted | unknown | completed | rejected
  deriving DecidableEq

structure SubmissionEvidence where
  request : PromptRequest
  state : EvidenceState
  turnId : Option String := none

structure CodexThreadState where
  activeTurnId : Option String
  turnOperations : Dict String ControlOperationRef
  completedTurns : Dict String (Option ControlOperationRef)
  unboundCompletion : Option String
  pendingInteractions : List String

structure Call where
  request : PromptRequest
  operation : ControlOperationRef
  written : Bool

structure CodexAdapter where
  stopped : Bool
  control : ControlState
  connected : Bool
  parent : CodexThreadState
  submissions : Dict String SubmissionEvidence
  pendingOperation : Option ControlOperationRef
  activeOperation : Option ControlOperationRef
  call : Option Call
  wire : List String

def pendingInteractionsPerThread : Nat := 16

/-! ## The submission ledger -/

def evictable (items : Dict String SubmissionEvidence) : Option String :=
  (items.entries.find? fun e => e.2.state = .completed || e.2.state = .rejected).map Prod.fst

def makeRoom (limit : Nat) : Nat → Dict String SubmissionEvidence → Option (Dict String SubmissionEvidence)
  | 0, items => if items.entries.length < limit then some items else none
  | n + 1, items =>
    if items.entries.length < limit then some items
    else
      match evictable items with
      | none => none
      | some key => makeRoom limit n (items.erase key)

def room (limit : Nat) (items : Dict String SubmissionEvidence) : Option (Dict String SubmissionEvidence) :=
  makeRoom limit items.entries.length items

def assign (id : String) (f : SubmissionEvidence → SubmissionEvidence) (items : Dict String SubmissionEvidence) :
    Dict String SubmissionEvidence :=
  match items.get? id with
  | none => items
  | some e => items.set id (f e)

namespace CodexAdapter

variable (limit completedTurnLimit : Nat)

def settle (s : CodexAdapter) (id : String) (state : EvidenceState) : CodexAdapter :=
  { s with submissions := assign id (fun e => { e with state := state }) s.submissions }

def markDisconnected (s : CodexAdapter) : CodexAdapter := { s with control := .disconnected }

def finish (s : CodexAdapter) (request : PromptRequest) (o : SendOutcome) : CodexAdapter × Option Ended :=
  ({ s with pendingOperation := none, call := none }, some (request, o))

def receipt (request : PromptRequest) (acceptance : AcceptanceState) (vendorCorrelationId : Option String)
    (terminalCompletion : Bool) : SendOutcome :=
  .returned (.receipt
    { requestId := request.requestId
      acceptance := acceptance
      submittedAt := request.submittedAt
      vendorCorrelationId := vendorCorrelationId
      terminalCompletion := terminalCompletion })

def retireTurn (t : CodexThreadState) (turnId : String) (operation : Option ControlOperationRef) : CodexThreadState :=
  let completed := (t.completedTurns.set turnId operation).moveToEnd turnId
  { t with
    turnOperations := t.turnOperations.erase turnId
    completedTurns := completed.filterKeys fun k => k ∈ completed.keys.drop (completed.keys.length - completedTurnLimit) }

/-- A frame of the parent thread that the adapter refuses fails the bridge. -/
def markFailed (s : CodexAdapter) : CodexAdapter := { s with control := .failed }

/-- `_handle_turn_completed` of the parent thread; `none` is its exception. -/
def handleTurnCompleted (s : CodexAdapter) (turnId : String) : Option CodexAdapter :=
  if (s.parent.completedTurns.get? turnId).isSome then some s
  else
    match s.parent.turnOperations.get? turnId with
    | none =>
      if s.pendingOperation.isNone || s.parent.unboundCompletion.isSome then none
      else some { s with parent := { s.parent with unboundCompletion := some turnId } }
    | some operation =>
      if s.parent.activeTurnId.any (· ≠ turnId) || s.activeOperation.any (· ≠ operation) then none
      else some { s with
        submissions := ⟨s.submissions.entries.map fun e =>
            (e.1, if e.2.turnId = some turnId then { e.2 with state := .completed } else e.2),
          by simpa [List.map_map, Function.comp_def] using s.submissions.nodup⟩
        activeOperation := none
        parent := retireTurn completedTurnLimit { s.parent with activeTurnId := none } turnId (some operation) }

/-! ## Submitting -/

/-- `_require_ready`, the checks of `submit` and `reserve`, up to the transport's write lock. `verified` says of the staged
assets that they pass before the submit, and again where its params are built. -/
def submit (s : CodexAdapter) (request : PromptRequest) (verified : Bool × Bool) : CodexAdapter × Option Ended :=
  if request.assets ≠ [] ∧ verified.1 = false then (s, some (request, receipt request .rejected none false))
  else if s.stopped then (s, some (request, .failed "Codex adapter is stopped"))
  else if s.control ≠ .ready then
    (s, some (request, .disconnected "Codex adapter is not protocol-ready" false none))
  else
    match request.promptOperation with
    | none => (s, some (request, .failed "Codex submit requires an exact prompt operation ref"))
    | some operation =>
      if s.parent.activeTurnId.isSome || s.pendingOperation.isSome then
        (s, some (request, .busy "Codex already has an active ordinary operation"))
      else if (s.submissions.get? request.requestId).isSome then
        (s, some (request, .failed ("duplicate Codex request id " ++ request.requestId)))
      else
        match room limit s.submissions with
        | none => (s, some (request, receipt request .rejected none false))
        | some items =>
          let s := { s with
            submissions := items.set request.requestId ⟨request, .queued, none⟩
            pendingOperation := some operation }
          if request.assets ≠ [] ∧ verified.2 = false then
            s.finish request (.failed "Codex asset failed verification at construction")
          else if !s.connected then
            (s.settle request.requestId .unknown).markDisconnected.finish request
              (.disconnected "Codex app-server transport is not connected" false none)
          else ({ s with call := some ⟨request, operation, false⟩ }, none)

/-- `_guard_turn_start`: whether it refuses. -/
def becameBusy (s : CodexAdapter) (operation : ControlOperationRef) : Bool :=
  s.pendingOperation ≠ some operation || s.parent.activeTurnId.isSome || s.activeOperation.isSome ||
    s.parent.pendingInteractions ≠ []

def write (s : CodexAdapter) (k : Call) (broken : Bool) : CodexAdapter × Option Ended :=
  if s.becameBusy k.operation then
    s.finish k.request (.busy "Codex became busy before the guarded turn/start write")
  else if broken then
    (s.settle k.request.requestId .unknown).markDisconnected.finish k.request
      (.disconnected "Codex app-server disconnected while writing JSON-RPC" true none)
  else ({ s with call := some { k with written := true }, wire := s.wire ++ [k.request.requestId] }, none)

inductive TurnAnswer
  | rpcError
  | malformed
  | disconnected
  | turn (turnId status : String)

/-- `_bind_started_turn`: the completion buffered before the turn was bound, or its exception. -/
def bindStartedTurn (s : CodexAdapter) (k : Call) (turnId : String) : CodexAdapter × Option (Option String) :=
  let buffered := s.parent.unboundCompletion
  let s := { s with parent := { s.parent with unboundCompletion := none } }
  if buffered.any (· ≠ turnId) then (s, none)
  else if (s.parent.completedTurns.get? turnId).isSome then (s, none)
  else
    ({ s with
        submissions := assign k.request.requestId (fun e => { e with turnId := some turnId }) s.submissions
        parent := { s.parent with turnOperations := s.parent.turnOperations.set turnId k.operation } },
      some buffered)

def acceptStartedTurn (s : CodexAdapter) (k : Call) (turnId status : String) (buffered : Option String) :
    CodexAdapter × Option Ended :=
  let running := decide (status = "inProgress")
  let s := s.settle k.request.requestId (if running then .accepted else .completed)
  let s := if running then
      { s with parent := { s.parent with activeTurnId := some turnId }, activeOperation := some k.operation } else s
  match buffered with
  | some completed =>
    match s.handleTurnCompleted completedTurnLimit completed with
    | none => s.finish k.request (.failed "turn/completed does not match the active Codex turn")
    | some s => s.finish k.request (receipt k.request .immediate (some turnId) false)
  | none =>
    if running then s.finish k.request (receipt k.request .immediate (some turnId) false)
    else
      { s with parent := retireTurn completedTurnLimit s.parent turnId (some k.operation) }.finish k.request
        (receipt k.request .immediate (some turnId) true)

def answered (s : CodexAdapter) (k : Call) : TurnAnswer → CodexAdapter × Option Ended
  | .rpcError => (s.settle k.request.requestId .rejected).finish k.request (receipt k.request .rejected none false)
  | .malformed => s.finish k.request (.failed "turn/start response is malformed")
  | .disconnected =>
    (s.settle k.request.requestId .unknown).markDisconnected.finish k.request
      (.disconnected "Codex app-server stdout closed" true none)
  | .turn turnId status =>
    match s.bindStartedTurn k turnId with
    | (s, none) => s.finish k.request (.failed "turn/start reused a retained terminal turn id")
    | (s, some buffered) =>
      if status = "failed" ∨ status = "interrupted" then
        let s := s.settle k.request.requestId .rejected
        { s with parent := retireTurn completedTurnLimit s.parent turnId (some k.operation) }.finish k.request
          (receipt k.request .rejected (some turnId) false)
      else s.acceptStartedTurn completedTurnLimit k turnId status buffered

/-! ## The other operations, and the frames of the parent thread -/

def preflight (s : CodexAdapter) : Bool :=
  !s.stopped && s.control = .ready && s.parent.activeTurnId.isNone && s.pendingOperation.isNone &&
    s.parent.pendingInteractions = []

/-- `_handle_server_request`: one more pending interaction, or, with the map full, none. -/
def serverRequest (s : CodexAdapter) (rpcId : String) : CodexAdapter :=
  if s.parent.pendingInteractions.length ≥ pendingInteractionsPerThread ∨ rpcId ∈ s.parent.pendingInteractions then s
  else { s with parent := { s.parent with pendingInteractions := s.parent.pendingInteractions ++ [rpcId] } }

def resolveRequest (s : CodexAdapter) (rpcId : String) : CodexAdapter :=
  { s with parent := { s.parent with pendingInteractions := s.parent.pendingInteractions.erase rpcId } }

def respond (s : CodexAdapter) (rpcId : String) (operation : Option ControlOperationRef) : CodexAdapter :=
  if rpcId ∈ s.parent.pendingInteractions ∧ operation.isSome ∧ operation = s.activeOperation then s.resolveRequest rpcId
  else s

/-- `_reconnect`, as far as it succeeds; `reconcile` and `read_native_page` call it on a disconnected bridge. -/
def reconnect (s : CodexAdapter) : CodexAdapter :=
  if s.control = .disconnected then { s with control := .ready, connected := true } else s

/-- `reconcile`, with the turn that `thread/read` proves, if any. -/
def reconcile (s : CodexAdapter) (requestId : String) (turn : Option String) : CodexAdapter :=
  match s.submissions.get? requestId with
  | none => s
  | some e =>
    if e.state ≠ .unknown then s
    else
      match turn with
      | none => s.reconnect
      | some turnId =>
        { s.reconnect with
          submissions := assign requestId (fun e => { e with state := .accepted, turnId := some turnId }) s.submissions }

end CodexAdapter

inductive CodexStep
  | submit (request : PromptRequest) (verified : Bool × Bool)
  | write (broken : Bool)
  | answered (answer : CodexAdapter.TurnAnswer)
  | turnStarted (turnId : String)
  | turnCompleted (turnId : String)
  | serverRequest (rpcId : String)
  | serverRequestResolved (rpcId : String)
  | respond (rpcId : String) (operation : Option ControlOperationRef)
  | reconnect
  | reconcile (requestId : String) (turn : Option String)
  -- The reader lost the stream, or met a frame it refuses.
  | readerStopped (failed : Bool)
  | processExited
  | stop

def CodexAdapter.step (limit completedTurnLimit : Nat) (s : CodexAdapter) : CodexStep → Option (CodexAdapter × Option Ended)
  | .submit request verified => some (s.submit limit request verified)
  | .write broken =>
    match s.call with
    | some k => if k.written then none else some (s.write k broken)
    | none => none
  | .answered answer =>
    match s.call with
    | some k => if k.written then some (s.answered completedTurnLimit k answer) else none
    | none => none
  | .turnStarted turnId => some ({ s with parent := { s.parent with activeTurnId := some turnId } }, none)
  | .turnCompleted turnId => some ((s.handleTurnCompleted completedTurnLimit turnId).getD s.markFailed, none)
  | .serverRequest rpcId => some (s.serverRequest rpcId, none)
  | .serverRequestResolved rpcId => some (s.resolveRequest rpcId, none)
  | .respond rpcId operation => some (s.respond rpcId operation, none)
  | .reconnect => some (s.reconnect, none)
  | .reconcile requestId turn => some (s.reconcile requestId turn, none)
  | .readerStopped failed => some (if failed then s.markFailed else s.markDisconnected, none)
  | .processExited => some ({ s with connected := false }, none)
  | .stop => some ({ s with stopped := true }, none)

/-- What `start` leaves. -/
def CodexAdapter.Started (s : CodexAdapter) : Prop :=
  s.stopped = false ∧ s.control = .ready ∧ s.submissions = Dict.empty ∧ s.call = none ∧ s.pendingOperation = none

def codex (limit completedTurnLimit : Nat) : Machine CodexAdapter CodexStep where
  step := CodexAdapter.step limit completedTurnLimit
  holds s id := (s.submissions.get? id).isSome
  submits
    | .submit request _ => some request.requestId
    | _ => none
  attempt _ request _ := [.submit request (true, true), .write false]
  idle s request := s.preflight && s.activeOperation.isNone && s.connected && (room limit s.submissions).isSome &&
    request.promptOperation.isSome
  fresh _ _ _ := true
  wire s := s.wire

end AgentsRemember.Adapter.Codex
