import AgentsRemember.Harness.Dispatch
import AgentsRemember.Catalog.Evidence
import AgentsRemember.Lib.EventLoop

/-!
# The control bridge

The state of `harness_control_bridge.py` over its authority, and what runs on it
without an await. `installs` is a ghost: every snapshot that was published, by
whom, and how many there were when its writer read what it computed from.
-/

namespace AgentsRemember.Bridge

open Lib
open Harness (ControlState ActivityState AcceptanceState Authority OperationRecord ControlOperationRef
  PreflightOutcome SendOutcome AdapterResult ReconciliationResult PromptRequest ControlOperationKind
  OperationResolution Dispatcher AuthorityAction)

/-! ## Snapshots and events -/

structure ControlIdentity where
  arSessionId : String
  tmuxName : String
  createdAt : String
  deriving DecidableEq

structure PendingInteraction where
  interactionId : String
  threadId : Option String := none

abbrev Raw := Dict String JsonText.Value

structure AdapterSnapshot where
  identity : ControlIdentity
  control : ControlState
  activity : ActivityState
  acceptance : AcceptanceState
  vendorSessionId : Option String := none
  pendingInteraction : Option PendingInteraction := none
  pendingInteractions : List PendingInteraction := []
  lastEventSequence : Int := 0
  raw : Raw := Dict.empty

structure TranscriptEntry where
  sequence : Int
  text : String

structure AdapterEvent extends Harness.AdapterEvent where
  identity : ControlIdentity
  snapshot : Option AdapterSnapshot := none
  transcript : List TranscriptEntry := []
  raw : Raw := Dict.empty

/-- `{**a, **b}`. -/
def mergeRaw (a b : Raw) : Raw := b.entries.foldl (fun d e => d.set e.1 e.2) a

def reduceAdapterEvent (snapshot : AdapterSnapshot) (event : AdapterEvent) : Except String AdapterSnapshot :=
  if event.identity ≠ snapshot.identity then .error "adapter event identity does not match the hosted session"
  else if event.sequence ≤ snapshot.lastEventSequence then
    .error "adapter event sequence must increase monotonically"
  else
    let raw := mergeRaw snapshot.raw event.raw
    if event.kind ∈ ["state", "completed", "disconnected", "failed"] then
      match event.snapshot with
      | none => .error s!"adapter {event.kind} event requires a snapshot"
      | some next =>
        if next.identity ≠ snapshot.identity then
          .error "adapter event snapshot identity does not match the bridge"
        else .ok { next with lastEventSequence := event.sequence, raw := raw }
    else if event.kind = "transcript" ∧ event.transcript.isEmpty then
      .error "adapter transcript event requires at least one entry"
    else .ok { snapshot with lastEventSequence := event.sequence, raw := raw }

structure AdapterHandshake where
  protocolVersion : String
  identity : ControlIdentity
  capabilities : List String
  snapshot : AdapterSnapshot

def controlProtocolVersion : String := "ar-harness-control/v1"

def requiredAdapterCapabilities : List String :=
  ["graceful-shutdown", "interaction-response", "prompt-submission", "reconciliation", "state-snapshot",
    "state-subscription", "transcript"]

def validateHandshake (identity : ControlIdentity) (handshake : AdapterHandshake) : Except String Unit :=
  if handshake.protocolVersion ≠ controlProtocolVersion then .error "adapter handshake protocol version mismatch"
  else if handshake.identity ≠ identity ∨ handshake.snapshot.identity ≠ identity then
    .error "adapter handshake identity does not match the bridge"
  else if handshake.snapshot.control ≠ .ready ∧ handshake.snapshot.control ≠ .unsupported then
    .error "adapter handshake did not establish explicit readiness"
  else if handshake.snapshot.control = .unsupported then .ok ()
  else
    let missing := requiredAdapterCapabilities.filter fun capability => capability ∉ handshake.capabilities
    if missing = [] then .ok ()
    else .error ("adapter capability mismatch: missing " ++ ", ".intercalate missing)

/-! ## The bridge -/

structure Config extends Harness.Config where
  identity : ControlIdentity
  transcriptLimit : Nat
  evidenceLimit : Nat
  /-- `clip_evidence_payload` at the bridge's frame budget. -/
  clipEvidencePayload : JsonText.Value → JsonText.Value

inductive Writer
  | launch
  -- The event task, with an event it took after `taken` installs that the adapter had put out after `emitted`.
  | event (emitted taken : Nat)
  -- The event task, on a refused event or at the end of its stream.
  | eventTask
  -- The authority, on a send that may have happened.
  | authority
  | response
  | stop
  deriving DecidableEq

structure Install where
  writer : Writer
  base : Nat
  snapshot : AdapterSnapshot

inductive EventTask
  | absent
  | running
  | cancelled
  deriving DecidableEq

structure ControlBridge where
  snapshot : AdapterSnapshot
  authority : Authority
  /-- The authority's task exists: `start` of a second one refuses. -/
  dispatched : Bool := false
  transcript : List TranscriptEntry := []
  evidence : Catalog.Bridge := {}
  started : Bool := false
  stopped : Bool := false
  authorityStarted : Bool := false
  eventTask : EventTask := .absent
  /-- What the adapter has put out and the event task has not taken, with the installs there were then. -/
  adapterEvents : List (AdapterEvent × Nat) := []
  installs : List Install := []

namespace ControlBridge

def install (s : ControlBridge) (writer : Writer) (base : Nat) (snapshot : AdapterSnapshot) : ControlBridge :=
  { s with
    snapshot := snapshot
    authority := { s.authority with control := snapshot.control, activity := snapshot.activity }
    installs := s.installs ++ [⟨writer, base, snapshot⟩] }

def amend (s : ControlBridge) (writer : Writer) (f : AdapterSnapshot → AdapterSnapshot) : ControlBridge :=
  s.install writer s.installs.length (f s.snapshot)

def failure (detail : String) (snapshot : AdapterSnapshot) : AdapterSnapshot :=
  { snapshot with
    control := .failed
    activity := .unknown
    acceptance := .rejected
    raw := snapshot.raw.set "bridgeError" (JsonText.text detail) }

def disconnection (acceptance : AcceptanceState) (detail : String) (snapshot : AdapterSnapshot) : AdapterSnapshot :=
  { snapshot with
    control := .disconnected
    activity := .unknown
    acceptance := acceptance
    raw := snapshot.raw.set "disconnect" (JsonText.text detail) }

def evidenceThreadId (payload : List (String × JsonText.Value)) : Option String :=
  ((JsonText.field payload "threadId").bind JsonText.asText).filter fun threadId => threadId ≠ ""

def appendEvidence (c : Config) (s : ControlBridge) (event : AdapterEvent) (payload : List (String × JsonText.Value))
    (nativeMethod : Option String) : Except String ControlBridge :=
  let frame : Catalog.EvidenceFrame :=
    { sequence := event.sequence
      kind := event.kind
      createdAt := event.createdAt
      raw := c.clipEvidencePayload (.obj payload)
      nativeMethod := nativeMethod
      threadId := evidenceThreadId payload }
  match s.evidence.appendEvidence c.evidenceLimit frame with
  | none => .error "evidence sequence must increase monotonically"
  | some evidence => .ok { s with evidence := evidence }

def divertEvidence (c : Config) (s : ControlBridge) (event : AdapterEvent) : Except String AdapterEvent × ControlBridge :=
  match event.raw.get? "arEvidence" with
  | none => (.ok event, s)
  | some payload =>
    match JsonText.asObject payload with
    | none => (.error "adapter evidence payload must be an object", s)
    | some fields =>
      let method := event.raw.get? "arEvidenceMethod"
      let nativeMethod := (method.bind JsonText.asText).filter fun text => text ≠ ""
      if method.isSome ∧ nativeMethod = none then
        (.error "adapter evidence method must be non-empty text when present", s)
      else
        match s.appendEvidence c event fields nativeMethod with
        | .error e => (.error e, s)
        | .ok s => (.ok { event with raw := (event.raw.erase "arEvidence").erase "arEvidenceMethod" }, s)

/-- A refused entry leaves those before it. -/
def appendTranscript (c : Config) (s : ControlBridge) : List TranscriptEntry → Except String Unit × ControlBridge
  | [] => (.ok (), s)
  | entry :: entries =>
    if entry.sequence ≤ (s.transcript.getLast?.map TranscriptEntry.sequence).getD 0 then
      (.error "transcript sequence must increase monotonically", s)
    else appendTranscript c { s with transcript := Authority.lastItems c.transcriptLimit (s.transcript ++ [entry]) } entries

def requireRunning (s : ControlBridge) : Except String Unit :=
  if s.started = false then .error "control bridge is not started"
  else if s.stopped then .error "control bridge is stopped"
  else if s.snapshot.control = .failed then
    .error ("control bridge failed: " ++
      ((s.snapshot.raw.get? "bridgeError").bind JsonText.asText).getD "unknown error")
  else .ok ()

end ControlBridge

/-! ## The tasks of a bridge

The event task, the dispatcher and the calls of clients, from one await to the
next. The lock of the loop is the authority's; its ordinary lane is the
dispatcher's alone, and the wait for the response lane is part of the adapter's
answer. What the adapter answers, and when, is the outside's choice.
-/

open Harness (Authority OperationRecord ControlOperationRef PreflightOutcome SendOutcome ReconciliationResult
  PromptRequest ControlOperationKind OperationResolution Dispatcher)

/-! ## Awaits -/

inductive Await
  | nextEvent
  | wake
  | preflight
  | send
  | dispatcherEnd
  | eventTaskEnd
  -- The future of the dispatch under way, at a graceful stop.
  | pendingDispatch
  | adapterStart
  | adapterRespond
  | adapterSnapshot
  | adapterReconcile
  | adapterStop (forced : Bool)

inductive StreamAnswer
  | event (event : AdapterEvent) (emitted taken : Nat)
  | ended
  | disconnected (detail : String) (mayHaveSent : Bool)
  -- Any other exception of the subscription.
  | failed
  | cancelled

@[reducible] def Await.Answer : Await → Type
  | .nextEvent => StreamAnswer
  | .wake => Bool
  -- No outcome: the dispatcher was cancelled. The text is the clock's.
  | .preflight => Option (PreflightOutcome × String)
  | .send => Option (SendOutcome × String)
  | .adapterStart => Option AdapterHandshake
  | .adapterRespond => Bool
  | .adapterSnapshot => AdapterSnapshot × Nat
  | .adapterReconcile => Except String ReconciliationResult
  -- The exception's type and text.
  | .adapterStop _ => Option (String × String)
  | _ => Unit

inductive Stream
  | queued
  | ended
  | disconnected (detail : String) (mayHaveSent : Bool)
  | failed

structure Outside where
  stream : Stream
  preflight : PreflightOutcome × String
  send : SendOutcome × String
  handshake : Option AdapterHandshake
  responded : Bool
  snapshot : AdapterSnapshot
  reconciled : Except String ReconciliationResult
  stop : Option (String × String)

namespace ControlBridge

def dispatcherCancelled (s : ControlBridge) : Bool := s.authority.dispatcher = .stopped

/-- A cancelled task finds its cancellation at the await, whatever came in the meantime. -/
def deliver (o : Outside) (s : ControlBridge) : (q : Await) → Option (q.Answer × ControlBridge)
  | .nextEvent =>
    match s.eventTask, o.stream, s.adapterEvents with
    | .absent, _, _ => none
    | .cancelled, _, _ => some (.cancelled, s)
    | .running, .queued, [] => none
    | .running, .queued, (event, emitted) :: rest =>
      some (.event event emitted s.installs.length, { s with adapterEvents := rest })
    | .running, .ended, _ => some (.ended, s)
    | .running, .disconnected detail mayHaveSent, _ => some (.disconnected detail mayHaveSent, s)
    | .running, .failed, _ => some (.failed, s)
  | .wake =>
    if s.dispatched = false then none
    else if s.dispatcherCancelled then some (false, s)
    else if s.authority.wake then some (true, s)
    else none
  | .preflight => some (if s.dispatcherCancelled then none else some o.preflight, s)
  | .send => some (if s.dispatcherCancelled then none else some o.send, s)
  | .dispatcherEnd => some ((), s)
  | .eventTaskEnd => some ((), s)
  | .pendingDispatch => some ((), s)
  | .adapterStart => some (o.handshake, s)
  | .adapterRespond => some (o.responded, s)
  | .adapterSnapshot => some ((o.snapshot, s.installs.length), s)
  | .adapterReconcile => some (o.reconciled, s)
  | .adapterStop _ => some (o.stop, s)

end ControlBridge

abbrev Coro := Coroutine ControlBridge Await Await.Answer

def ask (q : Await) : Coro q.Answer := Coroutine.await q

/-- The programs that tasks go on with. -/
inductive Program
  | events
  | dispatching
  | preflighting
  | sending

abbrev Task := Coro (Option Program)

open Coroutine

def onAuthority (f : Authority → Authority) (s : ControlBridge) : ControlBridge := { s with authority := f s.authority }

def lockedAuthority (f : Authority → Authority) : Coro Unit := locked fun s => ((), onAuthority f s)

/-! ## The event task -/

def failEvents (detail : String) : Task := do
  update fun s => s.amend .eventTask (ControlBridge.failure detail)
  return none

def observe (c : Config) (event : AdapterEvent) (s : ControlBridge) : Except String Unit × ControlBridge :=
  let observed := s.authority.observeEvent c.toConfig event.toAdapterEvent
  (observed.1, onAuthority (fun _ => observed.2) s)

def handleEvent (c : Config) (event : AdapterEvent) (emitted taken : Nat) : Task := do
  let s ← get
  let diverted := s.divertEvidence c event
  put diverted.2
  match diverted.1 with
  | .error e => failEvents e
  | .ok reduced =>
    match reduceAdapterEvent diverted.2.snapshot reduced with
    | .error e => failEvents e
    | .ok updated => do
      match ← locked (observe c reduced) with
      | .error e => failEvents e
      | .ok _ => do
        let s ← get
        let appended := s.appendTranscript c reduced.transcript
        put appended.2
        match appended.1 with
        | .error e => failEvents e
        | .ok _ => do
          update fun s => onAuthority Authority.setWake (s.install (.event emitted taken) taken updated)
          return some .events

def endEvents (s : ControlBridge) : ControlBridge :=
  if s.stopped = false ∧ s.snapshot.control = .ready then
    s.amend .eventTask fun snapshot =>
      { snapshot with
        control := .disconnected
        activity := .unknown
        acceptance := .unknown }
  else s

def runEvents (c : Config) : Task := do
  match ← ask .nextEvent with
  | .event event emitted taken => handleEvent c event emitted taken
  | .ended => do
    update endEvents
    return none
  | .disconnected detail mayHaveSent => do
    update fun s => s.amend .eventTask (ControlBridge.disconnection (if mayHaveSent then .unknown else .rejected) detail)
    return none
  | .failed => return none
  | .cancelled => return none

/-! ## The dispatcher -/

def goOn : Dispatcher → Option Program
  | .waiting => some .dispatching
  | .preflight _ => some .preflighting
  | .sending _ => some .sending
  | .stopped => none

def lockedDispatch (f : Authority → Authority) : Task := do
  let dispatcher ← locked fun s => ((f s.authority).dispatcher, onAuthority f s)
  return goOn dispatcher

def dispatchHead : Task := lockedDispatch Authority.dispatchOne

def rest : Task := do
  update (onAuthority Authority.rest)
  return some .dispatching

def runDispatcher : Task := do
  match ← ask .wake with
  | false => return none
  | true => do
    update (onAuthority fun a => { a with wake := false })
    dispatchHead

def claimHead (c : Config) (r : OperationRecord) (at' : String) (s : ControlBridge) : Bool × ControlBridge :=
  if s.authority.claimable c.toConfig r then
    (true, onAuthority (fun a => { a with active := some r.key }.put { r with state := .dispatching, updatedAt := at' }) s)
  else (false, s)

def markUnknown (mark : Authority → Authority) (detail : String) (s : ControlBridge) : Unit × ControlBridge :=
  ((), (onAuthority mark s).amend .authority (ControlBridge.disconnection .unknown detail))

def afterPreflight (c : Config) (r : OperationRecord) (at' : String) : PreflightOutcome → Task
  | .clear => do
    let claimed := { r with state := .dispatching, updatedAt := at' }
    match ← locked (claimHead c r at') with
    | false => dispatchHead
    | true =>
      if Authority.invokable c.toConfig claimed then do
        update (onAuthority fun a => { a.log (.sent r.sequence) with dispatcher := .sending r.sequence })
        return some .sending
      else do
        locked (markUnknown (fun a => a.possibleSendFailure claimed "" none at') "")
        rest
  | .busy detail => do
    lockedAuthority fun a => a.put { r with detail := some detail, updatedAt := at' }
    rest
  | .disconnected detail true vendorCorrelationId => do
    locked (markUnknown (fun a => a.unknownAfterPreflightClaim r detail vendorCorrelationId at') detail)
    rest
  | .disconnected detail false _ => do
    lockedAuthority fun a => a.put { r with detail := some detail, updatedAt := at' }
    rest
  | .failed => do
    update (onAuthority Authority.die)
    return none

def preflighting (c : Config) : Task := do
  match ← ask .preflight with
  | none => return none
  | some (outcome, at') => do
    let s ← get
    match s.authority.preflighting with
    | none => .raised
    | some r => afterPreflight c r at' outcome

def certifiedPreSendBusy (r : OperationRecord) (detail at' : String) : Task :=
  lockedDispatch fun a => a.certifiedPreSendBusy r detail at'

def incoherentMethodResult (r : OperationRecord) (error at' : String) : Task :=
  lockedDispatch fun a => a.incoherentMethodResult r error at'

def possibleSendFailure (r : OperationRecord) (detail : String) (vendorCorrelationId : Option String) (at' : String) :
    Task := do
  locked (markUnknown (fun a => a.possibleSendFailure r detail vendorCorrelationId at') detail)
  rest

def applyMethodResult (c : Config) (r : OperationRecord) (result : Harness.AdapterResult) (at' : String)
    (s : ControlBridge) : Except String Bool × ControlBridge :=
  match s.authority.applyMethodResult c.toConfig r result at' with
  | .error e => (.error e, s)
  | .ok (released, a) => (.ok released, onAuthority (fun _ => a) s)

def afterSend (c : Config) (r : OperationRecord) (at' : String) : SendOutcome → Task
  | .busy detail => certifiedPreSendBusy r detail at'
  | .disconnected detail true vendorCorrelationId => possibleSendFailure r detail vendorCorrelationId at'
  | .disconnected detail false _ => certifiedPreSendBusy r detail at'
  | .failed detail => possibleSendFailure r detail none at'
  | .returned result => do
    match ← locked (applyMethodResult c r result at') with
    | .error e => incoherentMethodResult r e at'
    | .ok true => dispatchHead
    | .ok false => rest

def sending (c : Config) : Task := do
  match ← ask .send with
  | none => return none
  | some (outcome, at') => do
    let s ← get
    match s.authority.sending with
    | none => .raised
    | some r => afterSend c r at' outcome

def program (c : Config) : Program → Task
  | .events => runEvents c
  | .dispatching => runDispatcher
  | .preflighting => preflighting c
  | .sending => sending c

/-! ## Starting and stopping -/

/-- What runs between the adapter's answer and the end of `start`; the authority refuses to start twice. -/
def launched (s : ControlBridge) (snapshot : AdapterSnapshot) : ControlBridge :=
  let s := { s.install .launch s.installs.length snapshot with
    started := true
    authorityStarted := true }
  if s.dispatched then s
  else
    let s := { onAuthority (fun a => { a with accepting := true }) s with dispatched := true }
    if snapshot.control = .unsupported then s else { s with eventTask := .running }

def start (c : Config) : Task := do
  let s ← get
  if s.started then .raised
  else do
    match ← ask .adapterStart with
    | none => do
      let _ ← ask (.adapterStop true)
      .raised
    | some handshake =>
      match validateHandshake c.identity handshake with
      | .error _ => do
        let _ ← ask (.adapterStop true)
        .raised
      | .ok _ => do
        update fun s => launched s handshake.snapshot
        return none

def markFailed (detail : String) : Task := do
  let s ← get
  if s.started then .raised
  else do
    update fun s => { s.amend .launch (ControlBridge.failure detail) with started := true }
    return none

def cancelEventTask : Coro Unit := do
  let s ← get
  if s.eventTask = .absent then return ()
  else do
    put { s with eventTask := .cancelled }
    ask .eventTaskEnd

/-- An operation is in the adapter; its submitter's future may be done, and then the wait is none. -/
def dispatchPending (s : ControlBridge) : Bool :=
  s.authority.activeRecord.any fun active => active.state = .dispatching

def stopError (error : String × String) : String :=
  "unexpected adapter " ++ error.1 ++ " during control stop: " ++ error.2

def awaitDispatch (forced : Bool) : Coro Unit :=
  if forced then return ()
  else do
    let pending ← locked fun s => (dispatchPending s, s)
    if pending then ask .pendingDispatch else return ()

def stopAdapter (forced : Bool) : Coro Bool := do
  update (onAuthority Authority.die)
  ask .dispatcherEnd
  locked fun s => ((), s)
  match ← ask (.adapterStop forced) with
  | some error => do
    update fun s => s.amend .stop (ControlBridge.failure (stopError error))
    return false
  | none => do
    update fun s => s.amend .stop fun snapshot =>
      { snapshot with
        control := .disconnected
        activity := if forced then .unknown else .idle
        acceptance := .rejected }
    return true

def stopAuthority (forced : Bool) : Coro Bool := do
  let s ← get
  if s.authorityStarted = false then return true
  else do
    put (onAuthority (fun a => { a with accepting := false }) { s with authorityStarted := false })
    awaitDispatch forced
    stopAdapter forced

inductive ShutdownMode
  | graceful
  | forced

def stop (mode : ShutdownMode) : Task := do
  let s ← get
  if s.stopped then return none
  else
    match mode with
    | .forced => do
      put { s with stopped := true }
      cancelEventTask
      let clean ← stopAuthority true
      if clean then return none else .raised
    | .graceful =>
      if s.started = false then .raised
      else do
        put { s with stopped := true }
        let clean ← stopAuthority false
        cancelEventTask
        if clean then return none else .raised

/-! ## Calls -/

structure InteractionResponse where
  interactionId : String

def responseOperation (s : ControlBridge) (response : InteractionResponse) (answered : Bool) :
    Except String (Option ControlOperationRef) :=
  let matched := s.snapshot.pendingInteractions.find? fun entry => entry.interactionId = response.interactionId
  let singular := s.snapshot.pendingInteraction.any fun pending => pending.interactionId = response.interactionId
  let isParent := singular || matched.any fun entry => entry.threadId = s.snapshot.vendorSessionId
  if singular = false ∧ matched.isNone then .error "interaction response does not match the pending interaction"
  else
    let active := s.authority.activeRecord.filter fun r => decide (r.state ∈ [.dispatching, .delivered, .unknown])
    if isParent ∧ active.isNone then .error "interaction response has no active ordinary operation"
    else if answered then .error "interaction response was already submitted"
    else .ok (if isParent then active.map OperationRecord.ref else none)

def respond (response : InteractionResponse) (answered : Bool) : Task := do
  let s ← get
  if s.requireRunning.isOk = false ∨ s.authority.accepting = false then .raised
  else do
    match ← locked fun s => (responseOperation s response answered, s) with
    | .error _ => .raised
    | .ok _ => do
      match ← ask .adapterRespond with
      | false => do
        locked fun s => ((), s)
        .raised
      | true => do
        let answer ← ask .adapterSnapshot
        let s ← get
        if answer.1.identity ≠ s.snapshot.identity then .raised
        else do
          update fun s => s.install .response answer.2 answer.1
          return none

def underLock (f : Authority → Authority) : Task := do
  let s ← get
  if s.requireRunning.isOk = false then .raised
  else do
    lockedAuthority f
    return none

def reconcile (c : Config) (requestId : String) (expectedBridgeEpoch : Option String) : Task := do
  let s ← get
  if s.requireRunning.isOk = false then .raised
  else do
    let asked ← locked fun s =>
      ((s.authority.reconcile c.toConfig requestId expectedBridgeEpoch).1,
        onAuthority (fun a => (a.reconcile c.toConfig requestId expectedBridgeEpoch).2) s)
    match asked with
    | .error _ => .raised
    | .ok (some _) => return none
    | .ok none => do
      let answer ← ask .adapterReconcile
      lockedAuthority fun a =>
        match a.reconciling.findIdx? fun asked => asked.1 = requestId with
        | none => a
        | some i => (a.step c.toConfig (.reconciled i answer)).getD a
      return none

inductive Call
  | start
  | markFailed (detail : String)
  | stop (mode : ShutdownMode)
  | submit (request : PromptRequest)
  | setModel (modelKey at' : String)
  | setEffort (effort at' : String)
  | withdraw (expectedBridgeEpoch requestId : String) (cockpitOnly : Bool) (at' : String)
  | resolveOperation (operationId : String) (kind : ControlOperationKind) (resolution : OperationResolution)
      (detail at' : String)
  | ledger
  | reconcile (requestId : String) (expectedBridgeEpoch : Option String)
  | respond (response : InteractionResponse) (answered : Bool)
  -- The adapter puts out an event.
  | emit (event : AdapterEvent)

def entry (c : Config) : Call → Task
  | .start => start c
  | .markFailed detail => markFailed detail
  | .stop mode => stop mode
  | .submit request => underLock fun a => (a.submit c.toConfig request).2
  | .setModel modelKey at' => underLock fun a => (a.admitSetter c.toConfig .setModel modelKey at').2
  | .setEffort effort at' => underLock fun a => (a.admitSetter c.toConfig .setEffort effort at').2
  | .withdraw epoch requestId cockpitOnly at' => underLock fun a => (a.withdraw c.toConfig epoch requestId cockpitOnly at').2
  | .resolveOperation operationId kind resolution detail at' =>
    underLock fun a => (a.resolveOperation c.toConfig operationId kind resolution detail at').2
  | .ledger => underLock id
  | .reconcile requestId epoch => reconcile c requestId epoch
  | .respond response answered => respond response answered
  | .emit event => do
    update fun s => { s with adapterEvents := s.adapterEvents ++ [(event, s.installs.length)] }
    return none

def ControlBridge.init (c : Config) : ControlBridge where
  snapshot :=
    { identity := c.identity
      control := .starting
      activity := .unknown
      acceptance := .unknown }
  authority := { Authority.init with accepting := false }

/-- The event task and the dispatcher are there from the beginning, and await what only `start` brings. -/
def bridgeSystem (c : Config) : System (EventLoop ControlBridge Await.Answer Program) (LoopAction Call Outside) :=
  EventLoop.system ControlBridge.deliver (program c) (entry c) (.init c) [.events, .dispatching]

end AgentsRemember.Bridge
