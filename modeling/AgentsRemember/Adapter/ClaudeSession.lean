import AgentsRemember.Adapter.Claude

/-!
# A Claude session with its process

The stream's state with its interrupts, the transport's write lock, and the
process at the other end. A write holds the lock until its drain has ended, and
the submissions get it in their order. The process is a party of its own: it
may replay what was written and may end what it replayed.
-/

namespace AgentsRemember.Adapter.Claude

open Lib
open Harness (ControlOperationRef ControlState)

/-! ## Results -/

inductive TerminalOutcome
  | completed | failed | cancelled
  deriving DecidableEq

structure ResultFrame where
  subtype : String
  isError : Bool
  terminalReason : Option String

def nativeCancelTerminalReasons : List String := ["cancelled", "interrupted", "user_cancelled"]

def abortTerminalReason : String := "aborted_streaming"

def terminalOutcome (frame : ResultFrame) (interruptAccepted : Bool) : TerminalOutcome :=
  if frame.subtype = "success" ∧ frame.isError = false then .completed
  else if frame.terminalReason.any fun reason => reason ∈ nativeCancelTerminalReasons then .cancelled
  else if interruptAccepted ∧ frame.terminalReason = some abortTerminalReason then .cancelled
  else .failed

/-! ## Interrupts -/

structure InterruptCall where
  expected : Option String
  operation : ControlOperationRef
  controlId : String
  phase : Phase
  /-- What the future of its control request was set to: the answer, or the reader's end. -/
  answer : Option (Except String (Bool × Option String)) := none

inductive Writer
  | prompt (ref : Nat)
  | response
  | interrupt (i : Nat)

/-- A `completed` event, with the submission it ended and whether an accepted interrupt decided its outcome. -/
structure Completion where
  ref : Nat
  operation : ControlOperationRef
  outcome : TerminalOutcome
  interrupted : Bool

/-- `sent` to `interruptWrites` are ghosts: the submissions whose bytes went out, those whose drain broke off, those the
process replayed, its results, the events, whether a replay or a result of the process failed the reader, the calls
that got a success answer, and the interrupts written. -/
structure ClaudeSession extends ClaudeStreamState where
  lock : Option Writer := none
  calls : List InterruptCall := []
  pendingControl : Dict String String := .empty
  interruptAccepted : List String := []
  lastInterrupt : Option ((String × String) × InterruptResult) := none
  sent : List Nat := []
  broken : List Nat := []
  replayed : List Nat := []
  results : Nat := 0
  completions : List Completion := []
  ownFailure : Bool := false
  successes : List Nat := []
  interruptWrites : List (InterruptWrite ControlOperationRef) := []

namespace ClaudeSession

def onStream (f : ClaudeStreamState → ClaudeStreamState) (s : ClaudeSession) : ClaudeSession :=
  { s with toClaudeStreamState := f s.toClaudeStreamState }

def modifyCall (s : ClaudeSession) (i : Nat) (f : InterruptCall → InterruptCall) : ClaudeSession :=
  { s with calls := s.calls.modify i f }

def lockFree (s : ClaudeSession) : Bool :=
  s.lock.isNone && s.writing.isEmpty && s.responding == 0 && s.calls.all fun call => call.phase ≠ .waiting

/-- `submit`; the setters abandon the command that they reserved where it raises. -/
def submit (c : ClaudeConfig) (s : ClaudeSession) (request : PromptRequest) (correlationId : String) (setter : Bool) :
    ClaudeSession :=
  let submitted := s.toClaudeStreamState.submit c request correlationId
  if setter ∧ submitted.2.isSome ∧ s.records.length < submitted.1.records.length then
    s.onStream fun _ => submitted.1.abandon request.requestId
  else s.onStream fun _ => submitted.1

def abandonable (s : ClaudeSession) (requestId : String) : Bool :=
  (s.history.get? requestId).any fun ref => (ref ∈ s.writing ∨ ref ∈ s.sent) ∧ ref ∉ s.broken

/-! ## Writing -/

def writePrompt (s : ClaudeSession) (ref : Nat) (r : ClaudeSubmission) : ClaudeSession :=
  let s := { s with writing := s.writing.erase ref }
  match s.becameBusy r with
  | none => s
  | some true => s.onStream fun t => t.dropped ref r
  | some false =>
    { s with
      lock := some (.prompt ref)
      wire := s.wire ++ [r.request.requestId]
      sent := s.sent ++ [ref] }

def activeTurn (s : ClaudeSession) : Option ControlOperationRef :=
  (s.acceptedOrder.head?.bind s.record?).map ClaudeSubmission.operation

def writeInterrupt (s : ClaudeSession) (i : Nat) (call : InterruptCall) : ClaudeSession :=
  { s.modifyCall i fun call => { call with phase := .draining } with
    lock := some (.interrupt i)
    interruptWrites := s.interruptWrites ++ [⟨i, call.expected, call.operation, s.activeTurn⟩] }

def dropInterrupt (s : ClaudeSession) (i : Nat) (call : InterruptCall) : ClaudeSession :=
  { s.modifyCall i fun call => { call with phase := .ended } with
    pendingControl := s.pendingControl.erase call.controlId }

def broke (s : ClaudeSession) (ref : Nat) (r : ClaudeSubmission) (setter : Bool) : ClaudeSession :=
  let s := { s.onStream fun t => t.removePending r with
    lock := none
    broken := s.broken ++ [ref] }
  if setter then s.onStream fun t => t.abandon r.request.requestId else s

/-- The drain under the lock ends, or breaks off. -/
def drained (s : ClaudeSession) (broken setter : Bool) : Option ClaudeSession :=
  match s.lock with
  | none => none
  | some (.prompt ref) =>
    s.records[ref]?.map fun r =>
      if broken then s.broke ref r setter
      else { s with
        lock := none
        awaiting := s.awaiting ++ [ref] }
  | some .response => some { s.onStream fun t => t.responded broken with lock := none }
  | some (.interrupt i) =>
    s.calls[i]?.map fun call =>
      if broken then { s.dropInterrupt i call with lock := none }
      else { s.modifyCall i fun call => { call with phase := .awaiting } with lock := none }

def interrupt (s : ClaudeSession) (turnId expectedOperationId : Option String) :
    Except String (Option InterruptResult) × ClaudeSession :=
  if s.control ≠ .ready then (.error ("Claude adapter is not available: " ++ controlText s.control), s)
  else if turnId.isSome then
    (.error "Claude interrupt does not accept turn identity; use expectedOperationId", s)
  else
    match s.acceptedOrder with
    | [] => (.error "no active Claude turn to interrupt", s)
    | requestId :: _ =>
      match s.record? requestId with
      | none => (.error (textRepr requestId), s)
      | some r =>
        let active := r.operation
        if expectedOperationId.isSome ∧ expectedOperationId ≠ some active.operationId then
          (.error "interrupt operation id does not match the active Claude operation", s)
        else
          match s.lastInterrupt.filter fun last => last.1 = interruptPair expectedOperationId active.operationId with
          | some last => (.ok (some last.2), s)
          | none =>
            let i := s.calls.length
            let call : InterruptCall :=
              { expected := expectedOperationId
                operation := active
                controlId := s!"ar-claude-interrupt-{i + 1}"
                phase := .waiting }
            let entered := { s with
              calls := s.calls ++ [call]
              pendingControl := s.pendingControl.set call.controlId requestId }
            if !s.process then (.error "Claude stream transport is not started", entered.dropInterrupt i call)
            else if !s.stdinOpen then
              (.error "Claude Code stdin closed before the message was written", entered.dropInterrupt i call)
            else if s.lockFree then (.ok none, entered.writeInterrupt i call)
            else (.ok none, entered)

def interruptAnswered (s : ClaudeSession) (i : Nat) (call : InterruptCall) :
    Except String (Bool × Option String) → ClaudeSession
  | .error _ => s.dropInterrupt i call
  | .ok (accepted, detail) =>
    { s.dropInterrupt i call with
      lastInterrupt := some (interruptPair call.expected call.operation.operationId,
        if accepted then
          { acknowledgement := .accepted
            operation := some call.operation
            vendorCorrelationId := call.controlId
            detail := some "native interrupt acknowledged for the exact active Claude turn" }
        else
          { acknowledgement := .rejected
            operation := some call.operation
            vendorCorrelationId := call.controlId
            detail := detail }) }

def interruptTimeout (s : ClaudeSession) (i : Nat) (call : InterruptCall) : ClaudeSession :=
  { s.modifyCall i fun call => { call with phase := .ended } with
    lastInterrupt := some (interruptPair call.expected call.operation.operationId,
      { acknowledgement := .unknown
        operation := some call.operation
        vendorCorrelationId := call.controlId
        detail := some "Claude did not answer the interrupt control request before the acknowledgement bound" }) }

def handleControlResponse (s : ClaudeSession) (i : Nat) (call : InterruptCall) (accepted : Bool) (detail : Option String) :
    ClaudeSession :=
  match s.pendingControl.get? call.controlId with
  | none => s
  | some target =>
    { s.modifyCall i fun call => { call with answer := call.answer.or (some (.ok (accepted, detail))) } with
      interruptAccepted :=
        if accepted ∧ s.acceptedOrder.head? = some target ∧ target ∉ s.interruptAccepted then s.interruptAccepted ++ [target]
        else s.interruptAccepted
      successes := if accepted then s.successes ++ [i] else s.successes }

/-! ## The reader -/

def handleResult (s : ClaudeSession) (sessionId : Option String) (frame : ResultFrame) : Except String ClaudeSession :=
  match s.toClaudeStreamState.handleResult sessionId with
  | .error e => .error e
  | .ok t =>
    match s.acceptedOrder with
    | [] => .ok { s with toClaudeStreamState := t }
    | requestId :: _ =>
      let interrupted := decide (requestId ∈ s.interruptAccepted)
      .ok { s with
        toClaudeStreamState := t
        interruptAccepted := s.interruptAccepted.filter fun id => id ≠ requestId
        pendingControl := s.pendingControl.filterKeys fun controlId => s.pendingControl.get? controlId ≠ some requestId
        completions :=
          match s.history.get? requestId, s.record? requestId with
          | some ref, some r =>
            s.completions ++ [⟨ref, r.operation, terminalOutcome frame interrupted,
              terminalOutcome frame interrupted ≠ terminalOutcome frame false⟩]
          | _, _ => s.completions }

def failReader (s : ClaudeSession) (stop : ClaudeStreamState → ClaudeStreamState) (detail : String) : ClaudeSession :=
  { s.onStream stop with
    calls := s.calls.map fun call =>
      if (s.pendingControl.get? call.controlId).isSome then { call with answer := call.answer.or (some (.error detail)) }
      else call
    pendingControl := .empty }

def handled (s : ClaudeSession) : Except String ClaudeSession → ClaudeSession
  | .ok t => t
  | .error detail => s.failReader (fun t => t.failReader detail) detail

def handleFrame (s : ClaudeSession) (frame : ClaudeStreamState.ClaudeFrame) (result : ResultFrame) :
    Except String ClaudeSession :=
  match frame with
  | .result sessionId => s.handleResult sessionId result
  | frame => (s.toClaudeStreamState.handleFrame frame).map fun t => { s with toClaudeStreamState := t }

def answer (s : ClaudeSession) (frame : ClaudeStreamState.ClaudeFrame) (result : ResultFrame) : ClaudeSession :=
  match s.handleFrame frame result with
  | .ok t => t
  | .error detail => { s.failReader (fun t => t.failReader detail) detail with ownFailure := true }

def replayFrame (s : ClaudeSession) (r : ClaudeSubmission) : ClaudeStreamState.ClaudeFrame :=
  .replayedUser (some r.correlationId) (some s.vendorSessionId) r.replayText

end ClaudeSession

inductive ClaudeAction
  -- A setter abandons its command at once where the submit raises.
  | submit (request : PromptRequest) (correlationId : String) (setter : Bool)
  | writePrompt (ref : Nat)
  | drained (broken setter : Bool)
  | answered (ref : Nat)
  | acceptanceTimeout (ref : Nat)
  | abandon (requestId : String)
  -- The process replays a submission, and ends the turn it is in.
  | replay (ref : Nat)
  | result (frame : ResultFrame)
  -- Any other frame, and one that answers no submission of the session.
  | frame (frame : ClaudeStreamState.ClaudeFrame) (result : ResultFrame)
  | eof (returncode : Option Int)
  | respond (interactionId : String) (operation : Option ControlOperationRef)
  | writeResponse
  | interrupt (turnId expectedOperationId : Option String)
  | writeInterrupt (i : Nat)
  -- The process answers an interrupt that was written.
  | interruptAnswer (i : Nat) (accepted : Bool) (detail : Option String)
  | interruptAnswered (i : Nat)
  | interruptTimeout (i : Nat)
  | stdinClosed
  | released
  | readerFinished (graceful : Bool)

namespace ClaudeSession

def step (c : ClaudeConfig) (s : ClaudeSession) : ClaudeAction → Option ClaudeSession
  | .submit request correlationId setter => some (s.submit c request correlationId setter)
  | .writePrompt ref =>
    match s.records[ref]? with
    | some r => if s.writing.head? = some ref ∧ s.lock = none then some (s.writePrompt ref r) else none
    | none => none
  | .drained broken setter => s.drained broken setter
  | .answered ref =>
    match s.records[ref]? with
    | some r => if ref ∈ s.awaiting ∧ r.answer.isSome then some { s with awaiting := s.awaiting.erase ref } else none
    | none => none
  | .acceptanceTimeout ref =>
    match s.records[ref]? with
    | some r => if ref ∈ s.awaiting then some (s.onStream fun t => (t.acceptanceTimeout ref r).1) else none
    | none => none
  | .abandon requestId => if s.abandonable requestId then some (s.onStream fun t => t.abandon requestId) else none
  | .replay ref =>
    match s.records[ref]? with
    | some r => if s.reading then some { s.answer (s.replayFrame r) ⟨"", false, none⟩ with replayed := s.replayed ++ [ref] } else none
    | none => none
  | .result frame =>
    if s.reading then some { s.answer (.result (some s.vendorSessionId)) frame with results := s.results + 1 } else none
  | .frame frame result => if s.reading then some (s.handled (s.handleFrame frame result)) else none
  | .eof returncode =>
    if s.reading then some (s.failReader (fun t => t.handleEof returncode) "Claude Code stream disconnected") else none
  | .respond interactionId operation => some (s.onStream fun t => t.respond interactionId operation)
  | .writeResponse =>
    if 0 < s.responding ∧ s.lock = none then some { s with lock := some .response } else none
  | .interrupt turnId expectedOperationId => some (s.interrupt turnId expectedOperationId).2
  | .writeInterrupt i =>
    match s.calls[i]? with
    | some call => if call.phase = .waiting ∧ s.lock = none then some (s.writeInterrupt i call) else none
    | none => none
  | .interruptAnswer i accepted detail =>
    match s.calls[i]? with
    | some call =>
      if s.reading ∧ i ∈ s.interruptWrites.map (·.call) then
        some (s.handleControlResponse i call accepted detail)
      else none
    | none => none
  | .interruptAnswered i =>
    match s.calls[i]? with
    | some call => if call.phase = .awaiting then call.answer.map fun answer => s.interruptAnswered i call answer else none
    | none => none
  | .interruptTimeout i =>
    match s.calls[i]? with
    | some call => if call.phase = .awaiting then some (s.interruptTimeout i call) else none
    | none => none
  | .stdinClosed => some { s with stdinOpen := false }
  | .released => some { s with process := false, stdinOpen := false }
  | .readerFinished graceful =>
    some { s with
      reading := false
      control := .disconnected
      activity := if graceful then .idle else .unknown }

/-- What `start` leaves. -/
structure Started (s : ClaudeSession) : Prop where
  stream : s.toClaudeStreamState.Started
  fresh : s = { toClaudeStreamState := s.toClaudeStreamState }

def letGo (s : ClaudeSession) (ref : Nat) : Bool := (s.records[ref]?).any ClaudeSubmission.abandoned

/-- `reconcile`: the state of the submission, if the history holds it. -/
def reconcile (s : ClaudeSession) (requestId : String) : Harness.ReconciliationState :=
  match s.record? requestId with
  | none => .unresolved
  | some r =>
    match r.acceptance with
    | .immediate | .queued => .accepted
    | .rejected => .rejected
    | _ => .unresolved

end ClaudeSession

def claudeSystem (c : ClaudeConfig) (s : ClaudeSession) : System ClaudeSession ClaudeAction := ⟨s, ClaudeSession.step c⟩

end AgentsRemember.Adapter.Claude
