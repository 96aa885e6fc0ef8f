import AgentsRemember.Adapter.Requests

/-!
# The Pi adapter

`pi_rpc_adapter.py` with its ledger, its event mapper and its transport. A
submit runs to its reading of the entries, from there to the transport's write
lock, from the lock through its guard and write, and from the answer to its end;
several may be under way, as may preflights and setters. Entries, models,
transcripts and the interrupt are left out: a submit does not read them.
-/

namespace AgentsRemember.Adapter.Pi

open Lib
open Harness (ControlOperationRef ControlOperationKind ControlState ActivityState AcceptanceState SendOutcome)

inductive SubmissionKnowledge
  | pending | accepted | rejected | unknown
  deriving DecidableEq

structure PiSubmissionEvidence where
  request : PromptRequest
  state : SubmissionKnowledge

structure PiSessionState where
  isStreaming : Bool
  isCompacting : Bool
  pendingMessageCount : Nat

inductive PiFailure
  | disconnected (detail : String)
  | failed (detail : String)

structure PiTransport where
  failure : Option PiFailure
  stdinOpen : Bool
  eventToken : Nat
  pending : List String

structure Prepared where
  operation : ControlOperationRef
  generation : Nat
  activityToken : Nat
  eventToken : Nat
  deriving DecidableEq

structure Call where
  request : PromptRequest
  prepared : Prepared
  transport : Nat
  deriving DecidableEq

structure PiRpcEventMapper where
  control : ControlState
  activity : ActivityState
  pendingInteraction : Option String
  dialogs : List String

structure PiRpcAdapter where
  stopped : Bool
  transports : List PiTransport
  transport : Nat
  state : Option PiSessionState
  events : PiRpcEventMapper
  submissions : Dict String PiSubmissionEvidence
  transportGeneration : Nat
  activityToken : Nat
  preparedOperation : Option Prepared
  activeOperation : Option ControlOperationRef
  -- Preflights that read the state, submits that read the entries, and calls at the lock and behind their write.
  preflights : List ControlOperationRef
  reading : List PromptRequest
  calls : List Call
  awaiting : List Call
  -- An `agent_settled` whose state is read, with the operation it completes, and responses on their way.
  settling : Option (Option ControlOperationRef)
  responding : List String
  wire : List String

def remember (limit : Nat) (rows : Dict String PiSubmissionEvidence) (requestId : String) (evidence : PiSubmissionEvidence) :
    Option (Dict String PiSubmissionEvidence) :=
  if rows.entries.length ≥ limit then
    match rows.entries.find? fun e => e.2.state = .accepted || e.2.state = .rejected with
    | none => none
    | some e => some ((rows.erase e.1).set requestId evidence)
  else some (rows.set requestId evidence)

/-- `mark`; `none` is its exception. -/
def mark (rows : Dict String PiSubmissionEvidence) (requestId : String) (state : SubmissionKnowledge) :
    Option (Dict String PiSubmissionEvidence) :=
  (rows.get? requestId).map fun e => rows.set requestId { e with state := state }

/-! ## The event mapper -/

def PiSessionState.busy (s : PiSessionState) : Bool := s.isStreaming || s.isCompacting || s.pendingMessageCount ≠ 0

def PiSessionState.activity (s : PiSessionState) (blocked : Bool) : ActivityState :=
  if blocked then .blocked
  else if s.isCompacting then .settling
  else if s.isStreaming then .running
  else if s.pendingMessageCount ≠ 0 then .settling
  else .idle

def PiRpcEventMapper.applyState (m : PiRpcEventMapper) (state : PiSessionState) : PiRpcEventMapper :=
  { m with
    control := .ready
    activity := state.activity m.dialogs.head?.isSome
    pendingInteraction := m.dialogs.head? }

def PiRpcEventMapper.completeResponse (m : PiRpcEventMapper) (interactionId : String) : PiRpcEventMapper :=
  let dialogs := m.dialogs.erase interactionId
  { m with
    dialogs := dialogs
    activity := if dialogs.head?.isSome then .blocked else .settling
    pendingInteraction := dialogs.head? }

def PiRpcEventMapper.disconnected (m : PiRpcEventMapper) : PiRpcEventMapper :=
  { m with control := .disconnected, activity := .unknown }

def PiRpcEventMapper.failed (m : PiRpcEventMapper) : PiRpcEventMapper := { m with control := .failed, activity := .unknown }

inductive PiFrame
  | dialog (interactionId : String)
  | activity (activity : ActivityState)
  | queueUpdate (pending : Nat)
  | other

/-- `translate`; its exceptions end the event stream. -/
def PiRpcEventMapper.translate (interactionLimit : Nat) (m : PiRpcEventMapper) : PiFrame → PiRpcEventMapper
  | .dialog interactionId =>
    if interactionId ∈ m.dialogs ∨ m.dialogs.length ≥ interactionLimit then m.failed
    else
      let dialogs := m.dialogs ++ [interactionId]
      { m with
        dialogs := dialogs
        activity := .blocked
        pendingInteraction := dialogs.head? }
  | .activity activity => { m with activity := activity }
  | .queueUpdate pending => if pending = 0 then m else { m with activity := .running }
  | .other => m

namespace PiRpcAdapter

variable (limit interactionLimit : Nat)

def modifyTransport (s : PiRpcAdapter) (ref : Nat) (f : PiTransport → PiTransport) : PiRpcAdapter :=
  { s with transports := s.transports.modify ref f }

def readState (s : PiRpcAdapter) (state : PiSessionState) : PiRpcAdapter :=
  { s with
    state := some state
    activityToken := s.activityToken + 1
    events := s.events.applyState state }

def clearOperation (s : PiRpcAdapter) (operation : ControlOperationRef) : PiRpcAdapter :=
  { s with
    activeOperation := s.activeOperation.filter (· ≠ operation)
    preparedOperation := s.preparedOperation.filter (·.operation ≠ operation) }

def discard (s : PiRpcAdapter) (requestId : String) : PiRpcAdapter := { s with submissions := s.submissions.erase requestId }

def currentEventToken (s : PiRpcAdapter) : Nat := (s.transports[s.transport]?).elim 0 PiTransport.eventToken

def prepare (s : PiRpcAdapter) (operation : ControlOperationRef) (state : PiSessionState) : PiRpcAdapter :=
  let s := { s.readState state with preflights := s.preflights.erase operation }
  if state.busy ∨ s.events.pendingInteraction.isSome then s
  else
    { s with
      preparedOperation := some
        { operation := operation
          generation := s.transportGeneration
          activityToken := s.activityToken
          eventToken := s.currentEventToken } }

/-- `_claim_prepared_operation`: what its guard captures, and the text of its refusal. -/
def claim (s : PiRpcAdapter) (operation : ControlOperationRef) : Except String Prepared :=
  match s.preparedOperation with
  | none => .error "Pi operation lacks matching fresh idle preflight"
  | some prepared =>
    if prepared.operation ≠ operation then .error "Pi operation lacks matching fresh idle preflight"
    else if s.activeOperation.isSome then .error "Pi already has an active ordinary operation"
    else .ok prepared

/-- The guard of a claim, with the text of its refusal. -/
def guard (s : PiRpcAdapter) (prepared : Prepared) : Option String :=
  if s.activeOperation ≠ some prepared.operation ∨ s.preparedOperation ≠ some prepared then
    some "Pi operation changed before its guarded write"
  else if s.transportGeneration ≠ prepared.generation then some "Pi transport generation changed before prompt write"
  else if s.activityToken ≠ prepared.activityToken then some "Pi activity changed after fresh idle preflight"
  else if s.currentEventToken ≠ prepared.eventToken then some "Pi received an event after fresh idle preflight"
  else
    match s.state with
    | none => some "Pi has no cached state at guarded write"
    | some state =>
      if state.busy then some "Pi fresh state is not idle"
      else if s.events.pendingInteraction.isSome ∨ s.events.activity ≠ .idle then
        some "Pi became busy before the guarded write"
      else none

/-! ## Submitting -/

def receipt (request : PromptRequest) (acceptance : AcceptanceState) : SendOutcome :=
  .returned (.receipt
    { requestId := request.requestId
      acceptance := acceptance
      submittedAt := request.submittedAt
      vendorCorrelationId := some request.requestId })

/-- `submit_with_assets` and `submit`, to the reading of the entries. `verified` says that the staged assets pass their first
check. -/
def submit (s : PiRpcAdapter) (request : PromptRequest) (verified : Bool) : PiRpcAdapter × Option Ended :=
  if request.assets ≠ [] ∧ verified = false then
    (s, some (request, .returned (.receipt
      { requestId := request.requestId
        acceptance := .rejected
        submittedAt := request.submittedAt })))
  else if s.stopped then (s, some (request, .failed "Pi RPC adapter is stopped"))
  else
    match request.promptOperation with
    | none => (s, some (request, .failed "Pi prompt requires its exact operation ref"))
    | some operation =>
      if operation.operationId ≠ request.requestId then
        (s, some (request, .failed "Pi prompt operation id does not match request id"))
      else if (s.submissions.get? request.requestId).isSome then
        (s, some (request, .failed ("duplicate Pi RPC request id: " ++ request.requestId)))
      else ({ s with reading := s.reading ++ [request] }, none)

def disconnectedCall (s : PiRpcAdapter) (request : PromptRequest) (operation : ControlOperationRef) (detail : String)
    (mayHaveSent : Bool) : PiRpcAdapter × Option Ended :=
  match mark s.submissions request.requestId (if mayHaveSent then .unknown else .rejected) with
  | none => (s, some (request, .failed (textRepr request.requestId)))
  | some rows =>
    let s := { s with submissions := rows }
    (if mayHaveSent then s else (s.discard request.requestId).clearOperation operation,
      some (request, .disconnected detail mayHaveSent (some request.requestId)))

/-- `_raise_if_failed`, for a prompt call. -/
def failedCall (s : PiRpcAdapter) (request : PromptRequest) (operation : ControlOperationRef) :
    PiFailure → PiRpcAdapter × Option Ended
  | .disconnected detail => s.disconnectedCall request operation detail false
  | .failed detail => (s, some (request, .failed detail))

/-- The transport's `request`, to its write lock. -/
def request (s : PiRpcAdapter) (k : Call) : PiRpcAdapter × Option Ended :=
  match s.transports[k.transport]? with
  | none => (s, some (k.request, .failed "Pi RPC adapter is not started"))
  | some t =>
    if k.request.requestId ∈ t.pending then
      (s, some (k.request, .failed ("duplicate in-flight Pi RPC id: " ++ k.request.requestId)))
    else
      match t.failure with
      | some failure => s.failedCall k.request k.prepared.operation failure
      | none =>
        let s := s.modifyTransport k.transport fun t => { t with pending := t.pending ++ [k.request.requestId] }
        ({ s with calls := s.calls ++ [k] }, none)

inductive EntriesAnswer
  | read (verified : Bool)
  | disconnected
  | failed (detail : String)

def entriesRead (s : PiRpcAdapter) (request : PromptRequest) (operation : ControlOperationRef) :
    EntriesAnswer → PiRpcAdapter × Option Ended
  | .disconnected =>
    (s, some (request, .disconnected "Pi RPC disconnected before prompt submission" false (some request.requestId)))
  | .failed detail => (s, some (request, .failed detail))
  | .read verified =>
    match remember limit s.submissions request.requestId ⟨request, .pending⟩ with
    | none => (s, some (request, .failed "Pi reconciliation ledger is full of ambiguous sends"))
    | some rows =>
      let s := { s with submissions := rows }
      if request.assets ≠ [] ∧ verified = false then
        (s, some (request, .failed "Pi asset failed verification at construction"))
      else
        match s.claim operation with
        | .error detail => (s, some (request, .busy detail))
        | .ok prepared => { s with activeOperation := some operation }.request ⟨request, prepared, s.transport⟩

inductive Broken
  | beforeWriting
  | whileWriting

def write (s : PiRpcAdapter) (k : Call) (t : PiTransport) (broken : Option Broken) : PiRpcAdapter × Option Ended :=
  let s := { s with calls := s.calls.erase k }
  let lost := s.modifyTransport k.transport fun t => { t with pending := t.pending.erase k.request.requestId }
  match t.failure with
  | some failure => lost.failedCall k.request k.prepared.operation failure
  | none =>
    if !t.stdinOpen then lost.disconnectedCall k.request k.prepared.operation "Pi RPC stdin is not connected" false
    else
      match s.guard k.prepared, broken with
      | some detail, _ =>
        ((lost.discard k.request.requestId).clearOperation k.prepared.operation, some (k.request, .busy detail))
      | none, some .beforeWriting =>
        lost.disconnectedCall k.request k.prepared.operation "Pi RPC disconnected before writing" false
      | none, some .whileWriting =>
        lost.disconnectedCall k.request k.prepared.operation "Pi RPC disconnected while writing" true
      | none, none => ({ s with awaiting := s.awaiting ++ [k], wire := s.wire ++ [k.request.requestId] }, none)

inductive PromptAnswer
  | response (success : Bool)
  | failed (detail : String)
  | disconnected (detail : String)

def answered (s : PiRpcAdapter) (k : Call) : PromptAnswer → PiRpcAdapter × Option Ended
  | .failed detail => (s, some (k.request, .failed detail))
  | .disconnected detail => s.disconnectedCall k.request k.prepared.operation detail true
  | .response success =>
    match mark s.submissions k.request.requestId (if success then .accepted else .rejected) with
    | none => (s, some (k.request, .failed (textRepr k.request.requestId)))
    | some rows =>
      let s := { s with submissions := rows }
      if success then
        ({ s with events := { s.events with activity := .running } }, some (k.request, receipt k.request .immediate))
      else (s.clearOperation k.prepared.operation, some (k.request, receipt k.request .rejected))

/-! ## Events, and the other operations -/

def settled (s : PiRpcAdapter) (operation : Option ControlOperationRef) (state : PiSessionState) : PiRpcAdapter :=
  let s := { s with
    state := some state
    activityToken := s.activityToken + 1
    settling := none }
  match operation with
  | none => { s with events := s.events.failed }
  | some operation =>
    if state.busy then { s with events := s.events.failed }
    else { s with events := { s.events with dialogs := [] }.applyState state }.clearOperation operation

end PiRpcAdapter

inductive PiStep
  | preflight (operation : ControlOperationRef)
  | preflightRead (operation : ControlOperationRef) (state : PiSessionState)
  | submit (request : PromptRequest) (verified : Bool)
  | entriesRead (request : PromptRequest) (answer : PiRpcAdapter.EntriesAnswer)
  | write (call : Call) (broken : Option PiRpcAdapter.Broken)
  | answered (call : Call) (answer : PiRpcAdapter.PromptAnswer)
  -- A setter's claim, its end, and the state it commits.
  | setterClaimed (operation : ControlOperationRef)
  | setterEnded (operation : ControlOperationRef)
  | committed (state : PiSessionState)
  | stateRead (state : PiSessionState)
  -- The transport reads an event or breaks.
  | transportEvent (ref : Nat)
  | transportFailed (ref : Nat) (failure : PiFailure)
  | stdinClosed (ref : Nat)
  -- The event stream takes a frame, or ends on an exception.
  | frame (frame : PiFrame)
  | agentSettled
  | settled (state : PiSessionState)
  | streamEnded (failed : Bool)
  | respond (interactionId : String) (operation : Option ControlOperationRef)
  | responded (interactionId : String)
  -- A reconciliation reconnects, and finds its prompt among the entries.
  | reconnecting
  | reconnected (state : PiSessionState)
  | reconciled (requestId : String)
  | stop

def PiRpcAdapter.step (limit interactionLimit : Nat) (s : PiRpcAdapter) : PiStep → Option (PiRpcAdapter × Option Ended)
  | .preflight operation =>
    if s.stopped ∨ s.activeOperation.isSome then none else some ({ s with preflights := s.preflights ++ [operation] }, none)
  | .preflightRead operation state =>
    if operation ∈ s.preflights then some (s.prepare operation state, none) else none
  | .submit request verified => some (s.submit request verified)
  | .entriesRead request answer =>
    match request.promptOperation with
    | none => none
    | some operation =>
      if request ∈ s.reading then
        some ({ s with reading := s.reading.erase request }.entriesRead limit request operation answer)
      else none
  | .write k broken =>
    match s.transports[k.transport]? with
    | none => none
    | some t => if k ∈ s.calls then some (s.write k t broken) else none
  | .answered k answer =>
    if k ∈ s.awaiting then
      let s := s.modifyTransport k.transport fun t => { t with pending := t.pending.erase k.request.requestId }
      some ({ s with awaiting := s.awaiting.erase k }.answered k answer)
    else none
  | .setterClaimed operation =>
    match s.claim operation with
    | .error _ => none
    | .ok _ => some ({ s with activeOperation := some operation }, none)
  | .setterEnded operation => some (s.clearOperation operation, none)
  | .committed state => some ({ s with state := some state }, none)
  | .stateRead state => some (s.readState state, none)
  | .transportEvent ref => some (s.modifyTransport ref fun t => { t with eventToken := t.eventToken + 1 }, none)
  | .transportFailed ref failure =>
    some (s.modifyTransport ref fun t => { t with failure := t.failure.or (some failure), pending := [] }, none)
  | .stdinClosed ref => some (s.modifyTransport ref fun t => { t with stdinOpen := false }, none)
  | .frame f =>
    some ({ s with activityToken := s.activityToken + 1, events := s.events.translate interactionLimit f }, none)
  | .agentSettled => some ({ s with activityToken := s.activityToken + 1, settling := some s.activeOperation }, none)
  | .settled state => s.settling.map fun operation => (s.settled operation state, none)
  | .streamEnded failed => some ({ s with events := if failed then s.events.failed else s.events.disconnected }, none)
  | .respond interactionId operation =>
    if operation.isSome ∧ operation = s.activeOperation ∧ interactionId ∈ s.events.dialogs then
      some ({ s with responding := s.responding ++ [interactionId] }, none)
    else none
  | .responded interactionId =>
    if interactionId ∈ s.responding then
      some ({ s with
        responding := s.responding.erase interactionId
        events := if interactionId ∈ s.events.dialogs then s.events.completeResponse interactionId else s.events }, none)
    else none
  | .reconnecting =>
    some ({ s with transportGeneration := s.transportGeneration + 1, preparedOperation := none }, none)
  | .reconnected state =>
    some ({ s.readState state with
      transports := s.transports ++ [⟨none, true, 0, []⟩]
      transport := s.transports.length }, none)
  | .reconciled requestId =>
    some ({ s with submissions := (mark s.submissions requestId .accepted).getD s.submissions }, none)
  | .stop => some ({ s with stopped := true, events := { s.events with dialogs := [] } }, none)

def PiRpcAdapter.claimable (s : PiRpcAdapter) (request : PromptRequest) : Bool :=
  s.activeOperation.isNone && s.preparedOperation.any fun p => request.promptOperation = some p.operation

/-- What `start` leaves. -/
def PiRpcAdapter.Started (s : PiRpcAdapter) : Prop :=
  s.stopped = false ∧ s.submissions = Dict.empty ∧ s.preparedOperation = none ∧ s.activeOperation = none ∧
    s.reading = [] ∧ s.calls = [] ∧ s.awaiting = []

def idleState : PiSessionState := ⟨false, false, 0⟩

def PiRpcAdapter.connected (s : PiRpcAdapter) (requestId : String) : Bool :=
  (s.transports[s.transport]?).any fun t => t.failure.isNone && t.stdinOpen && requestId ∉ t.pending

/-- An uninterrupted dispatch prepares the operation, which reads an idle state, and submits it. -/
def pi (limit interactionLimit : Nat) : Machine PiRpcAdapter PiStep where
  step := PiRpcAdapter.step limit interactionLimit
  holds s id := (s.submissions.get? id).isSome
  submits
    | .submit request _ => some request.requestId
    | .entriesRead request _ => some request.requestId
    | _ => none
  attempt s request _ :=
    match request.promptOperation with
    | none => []
    | some operation =>
      [.preflight operation, .preflightRead operation idleState, .submit request true, .entriesRead request (.read true),
        .write ⟨request, ⟨operation, s.transportGeneration, s.activityToken + 1, s.currentEventToken⟩, s.transport⟩ none]
  idle s request := !s.stopped && s.activeOperation.isNone && s.events.dialogs.isEmpty && s.connected request.requestId &&
    (remember limit s.submissions request.requestId ⟨request, .pending⟩).isSome &&
    request.promptOperation.any fun operation => operation.operationId = request.requestId
  fresh _ _ _ := true
  wire s := s.wire

end AgentsRemember.Adapter.Pi
