import AgentsRemember.Adapter.Requests
import AgentsRemember.Lib.JsonText

/-!
# The Claude adapter

`claude_stream_state.py` over `claude_stream_transport.py`. A submit runs to the
transport's write lock, from the lock through its guard and write, and from its
answer or its timeout to its end; several may be under way. The setters submit
their command as any other request and may abandon it. The interrupt and the
transcript are left out: no submit reads them.
-/

namespace AgentsRemember.Adapter.Claude

open Lib
open Harness (ControlOperationRef ControlState ActivityState AcceptanceState SendOutcome)

structure ClaudeSubmission where
  request : PromptRequest
  correlationId : String
  wireText : String
  replayText : String
  operation : ControlOperationRef
  /-- What `acceptance_future` was set to. -/
  answer : Option SendOutcome := none
  acceptance : AcceptanceState := .unknown
  completed : Bool := false
  abandoned : Bool := false

structure ClaudeStreamState where
  control : ControlState
  activity : ActivityState
  vendorSessionId : String
  pendingInteraction : Option String
  records : List ClaudeSubmission
  history : Dict String Nat
  pendingByText : Dict String String
  pendingByCorrelation : Dict String String
  acceptedOrder : List String
  -- The reader task, the transport's process, and its stdin.
  reading : Bool
  process : Bool
  stdinOpen : Bool
  -- Records at the write lock, and those whose submit waits for its acceptance.
  writing : List Nat
  awaiting : List Nat
  responding : Nat
  wire : List String

structure ClaudeConfig where
  supportedCommands : List String
  historyLimit : Nat

def maxClaudeFrameBytes : Nat := 1024 * 1024

/-! ## Texts -/

def lstrip (s : String) : String := String.ofList (s.toList.dropWhile isPythonSpace)

/-- `session_command`: outside, `none` is its exception on a lone slash. -/
def sessionCommand (text : String) : Option (Option String) :=
  match (text.toList.dropWhile isPythonSpace) with
  | '/' :: rest =>
    match (rest.dropWhile isPythonSpace).takeWhile fun c => !isPythonSpace c with
    | [] => none
    | word => some (some (String.ofList (word.dropWhile (· = '/'))))
  | _ => some none

def sessionCommandReplayText (command text : String) : String :=
  let commandText := (lstrip text).toList.drop 1
  let arguments := String.ofList ((commandText.dropWhile (· ≠ ' ')).drop 1)
  "<command-name>/" ++ command ++ "</command-name>\n            <command-message>" ++ command ++
    "</command-message>\n            <command-args>" ++ arguments ++ "</command-args>"

def identityChangingCommands : List String := ["clear", "continue", "exit", "fork", "login", "logout", "quit", "resume"]

def nativeCapabilityCommands : List String := ["effort", "model"]

def commandUnsupportedDetail (advertised : List String) (command : String) : Option String :=
  if command ∈ identityChangingCommands then
    some ("Claude session command /" ++ command ++
      " changes process/session identity and is unsupported inside one long-lived control adapter")
  else if command ∉ advertised ∧ command ∉ nativeCapabilityCommands then
    some ("Claude Code did not advertise /" ++ command ++ "; the command was not sent")
  else none

def correlationEnvelope (requestId token text : String) : String :=
  let correlation := JsonText.dumps ⟨true, none, 0, 0⟩
    (.obj [("requestId", JsonText.text requestId), ("token", JsonText.text token)])
  "[agents-remember-correlation] " ++ String.ofList correlation ++ "\n\n" ++ text

def promptLine (sessionId correlationId text : String) : String :=
  String.ofList (JsonText.dumps JsonText.compact (.obj
    [("type", JsonText.text "user"), ("session_id", JsonText.text sessionId), ("uuid", JsonText.text correlationId),
      ("message", .obj [("role", JsonText.text "user"),
        ("content", .arr [.obj [("type", JsonText.text "text"), ("text", JsonText.text text)]])]),
      ("parent_tool_use_id", .scalar .null)]) ++ ['\n'])

def wireText (command : Option String) (request : PromptRequest) (correlationId : String) : String :=
  if command.isSome then request.text else correlationEnvelope request.requestId correlationId request.text

def controlText : ControlState → String
  | .starting => "starting"
  | .ready => "ready"
  | .disconnected => "disconnected"
  | .failed => "failed"
  | .unsupported => "unsupported"

def receipt (request : PromptRequest) (acceptance : AcceptanceState) (correlationId : Option String) (detail : String) :
    SendOutcome :=
  .returned (.receipt
    { requestId := request.requestId
      acceptance := acceptance
      submittedAt := request.submittedAt
      vendorCorrelationId := correlationId
      detail := some detail })

namespace ClaudeStreamState

variable (c : ClaudeConfig)

def record? (s : ClaudeStreamState) (requestId : String) : Option ClaudeSubmission :=
  (s.history.get? requestId).bind fun ref => s.records[ref]?

def modify (s : ClaudeStreamState) (ref : Nat) (f : ClaudeSubmission → ClaudeSubmission) : ClaudeStreamState :=
  { s with records := s.records.modify ref f }

def modifyRecord (s : ClaudeStreamState) (requestId : String) (f : ClaudeSubmission → ClaudeSubmission) : ClaudeStreamState :=
  match s.history.get? requestId with
  | none => s
  | some ref => s.modify ref f

def removePending (s : ClaudeStreamState) (r : ClaudeSubmission) : ClaudeStreamState :=
  { s with
    pendingByText := s.pendingByText.erase r.wireText
    pendingByCorrelation := s.pendingByCorrelation.erase r.correlationId }

/-- `active_operation`; outside, `none` is its exception. -/
def activeOperation (s : ClaudeStreamState) : Option (Option ControlOperationRef) :=
  match s.acceptedOrder, s.pendingByText.values with
  | requestId :: _, _ => (s.record? requestId).map fun r => some r.operation
  | [], [requestId] => (s.record? requestId).map fun r => some r.operation
  | [], _ => some none

/-! ## Submitting -/

def hasUnterminated (s : ClaudeStreamState) : Bool :=
  s.history.values.any fun ref => (s.records[ref]?).any fun r => r.abandoned && !r.completed

def evictable (s : ClaudeStreamState) : Option String :=
  (s.history.entries.find? fun e => e.1 ∉ s.acceptedOrder && e.1 ∉ s.pendingByText.values &&
    (s.records[e.2]?).any fun r => r.acceptance ≠ .unknown || (r.abandoned && r.completed)).map Prod.fst

def withRoom (s : ClaudeStreamState) : Option ClaudeStreamState :=
  if s.history.entries.length < c.historyLimit then some s
  else s.evictable.map fun requestId => { s with history := s.history.erase requestId }

def correlationHeld (s : ClaudeStreamState) (correlationId : String) : Bool :=
  s.history.values.any fun ref => (s.records[ref]?).any fun r => r.correlationId = correlationId

def reserved (s : ClaudeStreamState) (r : ClaudeSubmission) : ClaudeStreamState :=
  { s with
    records := s.records ++ [r]
    history := s.history.set r.request.requestId s.records.length
    pendingByText := s.pendingByText.set r.wireText r.request.requestId
    pendingByCorrelation := s.pendingByCorrelation.set r.correlationId r.request.requestId }

def dropped (s : ClaudeStreamState) (ref : Nat) (r : ClaudeSubmission) : ClaudeStreamState :=
  let s := (s.modify ref fun r => { r with acceptance := .rejected }).removePending r
  { s with history := s.history.erase r.request.requestId }

def send (s : ClaudeStreamState) (ref : Nat) (r : ClaudeSubmission) : ClaudeStreamState × Option Ended :=
  if !s.process then (s.dropped ref r, some (r.request, .failed "Claude stream transport is not started"))
  else if !s.stdinOpen then
    (s.removePending r, some (r.request, .disconnected "Claude Code stdin closed before the message was written" false none))
  else if (promptLine s.vendorSessionId r.correlationId r.wireText).utf8ByteSize > maxClaudeFrameBytes then
    (s.dropped ref r, some (r.request, .failed "Claude Code input frame exceeds 1048576 bytes"))
  else ({ s with writing := s.writing ++ [ref] }, none)

/-- `submit`, with the identity that the correlation factory gives it. -/
def submit (s : ClaudeStreamState) (request : PromptRequest) (correlationId : String) : ClaudeStreamState × Option Ended :=
  if s.control ≠ .ready then (s, some (request, .failed ("Claude adapter is not available: " ++ controlText s.control)))
  else
    match request.operation with
    | none => (s, some (request, .failed "Claude submission requires an exact operation ref"))
    | some operation =>
      if s.hasUnterminated then
        (s, some (request, receipt request .rejected none
          "Claude has not terminated an earlier abandoned session command; a later command was not sent"))
      else
        match sessionCommand request.text with
        | none => (s, some (request, .failed "list index out of range"))
        | some command =>
          match command.bind (commandUnsupportedDetail c.supportedCommands) with
          | some detail => (s, some (request, receipt request .unsupported none detail))
          | none =>
            let text := wireText command request correlationId
            if (s.history.get? request.requestId).isSome then
              (s, some (request, .failed ("duplicate Claude request id: " ++ request.requestId)))
            else if s.correlationHeld correlationId then
              (s, some (request, .failed ("duplicate retained Claude correlation id: " ++ correlationId)))
            else if (s.pendingByText.get? text).isSome then
              (s, some (request, .failed "an identical Claude message is still awaiting replay"))
            else
              match s.withRoom c with
              | none => (s, some (request, receipt request .rejected none
                  "Claude correlation history is full of unresolved or active submissions"))
              | some s =>
                let r : ClaudeSubmission :=
                  { request := request
                    correlationId := correlationId
                    wireText := text
                    replayText := command.elim text (sessionCommandReplayText · request.text)
                    operation := operation }
                (s.reserved r).send s.records.length r

/-- `_guard_submission_write`: `none` is the exception of `active_operation`, and else whether it refuses. -/
def becameBusy (s : ClaudeStreamState) (r : ClaudeSubmission) : Option Bool :=
  if s.acceptedOrder ≠ [] ∨ s.pendingInteraction.isSome ∨ s.pendingByText.get? r.wireText ≠ some r.request.requestId then some true
  else s.activeOperation.map fun active => decide (active ≠ some r.operation)

def write (s : ClaudeStreamState) (ref : Nat) (r : ClaudeSubmission) (broken : Bool) : ClaudeStreamState × Option Ended :=
  let s := { s with writing := s.writing.erase ref }
  match s.becameBusy r with
  | none => (s, some (r.request, .failed (textRepr r.request.requestId)))
  | some true =>
    (s.dropped ref r, some (r.request, .busy "Claude became busy before the guarded prompt/setter frame write"))
  | some false =>
    if broken then
      (s.removePending r, some (r.request, .disconnected "Claude Code disconnected while accepting a message" true none))
    else ({ s with wire := s.wire ++ [r.request.requestId], awaiting := s.awaiting ++ [ref] }, none)

def acceptanceTimeout (s : ClaudeStreamState) (ref : Nat) (r : ClaudeSubmission) : ClaudeStreamState × Option Ended :=
  ({ (s.modify ref fun r => { r with acceptance := .unknown }) with awaiting := s.awaiting.erase ref },
    some (r.request, receipt r.request .unknown (some r.correlationId)
      "Claude did not replay the correlated user message before the acknowledgement bound"))

def abandon (s : ClaudeStreamState) (requestId : String) : ClaudeStreamState :=
  match s.record? requestId with
  | none => s
  | some r =>
    if r.completed then s
    else (s.modifyRecord requestId fun r => { r with abandoned := true, acceptance := .unknown }).removePending r

/-! ## Frames -/

inductive ClaudeFrame
  | replayedUser (uuid sessionId : Option String) (text : String)
  | result (sessionId : Option String)
  -- `none` is a request of a kind the adapter does not know.
  | controlRequest (requestId : Option String)
  | controlCancelRequest (requestId : String)
  | assistant
  | apiRetry
  | status (status : String)
  | other

def keyError : String := "unexpected Claude adapter reader failure: KeyError"

def faithfulReplay (s : ClaudeStreamState) (sessionId : Option String) (retained text : String) : Except String Unit :=
  if sessionId ≠ some s.vendorSessionId then .error "Claude replay-user-message changed session identity"
  else if retained ≠ text then .error "Claude replay-user-message body changed for its retained correlation"
  else .ok ()

def handleAbandonedReplay (s : ClaudeStreamState) (uuid sessionId : Option String) (text : String) :
    Except String ClaudeStreamState := do
  match (s.history.values.filterMap (s.records[·]?)).find? fun r => some r.correlationId = uuid && r.abandoned with
  | none => .error "Claude replayed a user message without a retained correlation"
  | some r =>
    s.faithfulReplay sessionId r.replayText text
    if r.completed ∨ r.request.requestId ∈ s.acceptedOrder then pure s
    else pure { s with acceptedOrder := s.acceptedOrder ++ [r.request.requestId] }

def handleReplayedUser (s : ClaudeStreamState) (uuid sessionId : Option String) (text : String) :
    Except String ClaudeStreamState := do
  match uuid.bind s.pendingByCorrelation.get? with
  | none => s.handleAbandonedReplay uuid sessionId text
  | some requestId =>
    match s.record? requestId with
    | none => .error keyError
    | some r =>
      s.faithfulReplay sessionId r.replayText text
      if s.acceptedOrder ≠ [] then .error "Claude accepted a second ordinary prompt"
      else
        let accepted := receipt r.request .immediate (some r.correlationId) "accepted by correlated replay-user-message"
        let s := s.modifyRecord requestId fun r =>
          { r with acceptance := .immediate, answer := r.answer.or (some accepted) }
        pure { s.removePending r with acceptedOrder := s.acceptedOrder ++ [requestId], activity := .running }

def idleActivity (s : ClaudeStreamState) : ActivityState := if s.acceptedOrder = [] then .idle else .running

def handleResult (s : ClaudeStreamState) (sessionId : Option String) : Except String ClaudeStreamState :=
  if sessionId ≠ some s.vendorSessionId then .error "Claude result changed session identity"
  else
    match s.acceptedOrder with
    | [] => .error "Claude result has no exact active operation"
    | requestId :: rest =>
      match s.record? requestId with
      | none => .error keyError
      | some _ =>
        let s := { s.modifyRecord requestId (fun r => { r with completed := true }) with acceptedOrder := rest }
        let s := { s with history := s.history.moveToEnd requestId }
        .ok { s with activity := if s.pendingInteraction.isSome then .blocked else s.idleActivity }

def statusActivity (s : ClaudeStreamState) (status : String) : ActivityState :=
  if status = "compacting" then .settling
  else if status = "requesting" then .running
  else if s.pendingInteraction.isSome then .blocked
  else s.idleActivity

/-- `_handle_frame`; its exceptions stop the reader. -/
def handleFrame (s : ClaudeStreamState) : ClaudeFrame → Except String ClaudeStreamState
  | .replayedUser uuid sessionId text => s.handleReplayedUser uuid sessionId text
  | .result sessionId => s.handleResult sessionId
  | .controlRequest none => .error "unsupported Claude control request subtype"
  | .controlRequest (some requestId) =>
    if s.pendingInteraction.isSome then .error "Claude emitted concurrent blocking interactions"
    else .ok { s with pendingInteraction := some requestId, activity := .blocked }
  | .controlCancelRequest requestId =>
    if s.pendingInteraction = some requestId then .ok { s with pendingInteraction := none, activity := s.idleActivity } else .ok s
  | .assistant => .ok { s with activity := .running }
  | .apiRetry => .ok { s with activity := .settling }
  | .status status => .ok { s with activity := s.statusActivity status }
  | .other => .ok s

def completePending (o : ClaudeSubmission → SendOutcome) : List String → ClaudeStreamState → ClaudeStreamState × Bool
  | [], s => (s, true)
  | requestId :: rest, s =>
    match s.record? requestId with
    | none => (s, false)
    | some r =>
      let s := s.modifyRecord requestId fun r => { r with acceptance := .unknown, answer := r.answer.or (some (o r)) }
      completePending o rest (s.removePending r)

def completePendingOnDisconnect (s : ClaudeStreamState) (o : ClaudeSubmission → SendOutcome) : ClaudeStreamState × Bool :=
  match completePending o s.pendingByText.values s with
  | (s, false) => (s, false)
  | (s, true) => if s.acceptedOrder.all fun id => (s.record? id).isSome then ({ s with acceptedOrder := [] }, true) else (s, false)

def readerStopped (s : ClaudeStreamState) (control : ControlState) (o : ClaudeSubmission → SendOutcome) : ClaudeStreamState :=
  match s.completePendingOnDisconnect o with
  | (s, true) => { s with reading := false, control := control, activity := .unknown }
  | (s, false) => { s with reading := false }

def failReader (s : ClaudeStreamState) (detail : String) : ClaudeStreamState :=
  s.readerStopped .failed fun _ => .failed detail

def handleEof (s : ClaudeStreamState) (returncode : Option Int) : ClaudeStreamState :=
  let failed := returncode.filter (· ≠ 0)
  let detail := failed.elim "Claude Code stream disconnected" fun status => s!"Claude Code exited with status {status}"
  s.readerStopped (if failed.isSome then .failed else .disconnected) fun r => .disconnected detail true (some r.correlationId)

/-! ## Interactions -/

def respond (s : ClaudeStreamState) (interactionId : String) (operation : Option ControlOperationRef) : ClaudeStreamState :=
  if s.control = .ready ∧ s.pendingInteraction = some interactionId ∧ operation.isSome ∧ s.activeOperation = some operation ∧
      s.process ∧ s.stdinOpen then
    { s with responding := s.responding + 1 }
  else s

def responded (s : ClaudeStreamState) (broken : Bool) : ClaudeStreamState :=
  let s := { s with responding := s.responding - 1 }
  if broken then s else { s with pendingInteraction := none, activity := .settling }

def preflight (s : ClaudeStreamState) : Bool :=
  s.control = .ready && s.acceptedOrder = [] && s.pendingByText.entries.isEmpty && s.pendingInteraction.isNone &&
    s.activity = .idle

end ClaudeStreamState

inductive ClaudeStep
  | submit (request : PromptRequest) (correlationId : String)
  | write (ref : Nat) (broken : Bool)
  | answered (ref : Nat)
  | acceptanceTimeout (ref : Nat)
  | abandon (requestId : String)
  | frame (frame : ClaudeStreamState.ClaudeFrame)
  | eof (returncode : Option Int)
  | respond (interactionId : String) (operation : Option ControlOperationRef)
  | responded (broken : Bool)
  | stdinClosed
  -- `stop`: the transport lets the process go, and the reader ends.
  | released
  | readerFinished (graceful : Bool)

def ClaudeStreamState.step (c : ClaudeConfig) (s : ClaudeStreamState) : ClaudeStep → Option (ClaudeStreamState × Option Ended)
  | .submit request correlationId => some (s.submit c request correlationId)
  | .write ref broken =>
    match s.records[ref]? with
    | some r => if ref ∈ s.writing then some (s.write ref r broken) else none
    | none => none
  | .answered ref =>
    match s.records[ref]? with
    | some r =>
      if ref ∈ s.awaiting then
        r.answer.map fun o => ({ s with awaiting := s.awaiting.erase ref }, some (r.request, o))
      else none
    | none => none
  | .acceptanceTimeout ref =>
    match s.records[ref]? with
    -- The bound may expire after the answer was set and before the submit took it.
    | some r => if ref ∈ s.awaiting then some (s.acceptanceTimeout ref r) else none
    | none => none
  | .abandon requestId => some (s.abandon requestId, none)
  | .frame f =>
    if s.reading then
      match s.handleFrame f with
      | .ok t => some (t, none)
      | .error detail => some (s.failReader detail, none)
    else none
  | .eof returncode => if s.reading then some (s.handleEof returncode, none) else none
  | .respond interactionId operation => some (s.respond interactionId operation, none)
  | .responded broken => if 0 < s.responding then some (s.responded broken, none) else none
  | .stdinClosed => some ({ s with stdinOpen := false }, none)
  | .released => some ({ s with process := false, stdinOpen := false }, none)
  | .readerFinished graceful =>
    some ({ s with
      reading := false
      control := .disconnected
      activity := if graceful then .idle else .unknown }, none)

/-- What `start` leaves. -/
def ClaudeStreamState.Started (s : ClaudeStreamState) : Prop :=
  s.control = .ready ∧ s.records = [] ∧ s.history = Dict.empty ∧ s.pendingByText = Dict.empty ∧
    s.pendingByCorrelation = Dict.empty ∧ s.acceptedOrder = [] ∧ s.writing = [] ∧ s.awaiting = []

def sendable (c : ClaudeConfig) (text : String) : Bool :=
  match sessionCommand text with
  | none => false
  | some command => (command.bind (commandUnsupportedDetail c.supportedCommands)).isNone

def claude (c : ClaudeConfig) : Machine ClaudeStreamState ClaudeStep where
  step := ClaudeStreamState.step c
  holds s id := (s.history.get? id).isSome
  submits
    | .submit request _ => some request.requestId
    | _ => none
  attempt s request correlationId := [.submit request correlationId, .write s.records.length false]
  idle s request := s.preflight && s.process && s.stdinOpen && !s.hasUnterminated && (s.withRoom c).isSome &&
    request.operation.isSome && sendable c request.text
  fresh s request correlationId := !s.correlationHeld correlationId &&
    decide ((promptLine s.vendorSessionId correlationId
      (wireText ((sessionCommand request.text).getD none) request correlationId)).utf8ByteSize ≤ maxClaudeFrameBytes)
  wire s := s.wire

end AgentsRemember.Adapter.Claude
