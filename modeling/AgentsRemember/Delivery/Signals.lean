import AgentsRemember.Delivery.Attempts

/-!
# State signals

`state_signals.py`, `owner_signals.py` and the two signal actions of
`_agent_notifier_actions.py`: a sweep finds the ended turns and the idle sets
whose marker does not name them, creates a row for each or renews the one that
still waits, delivers it, and only then writes the marker. `emitted` and
`awaiting` are ghosts: the signals that a row was created for, and the rows
whose marker was not written since.
-/

namespace AgentsRemember.Delivery

open Lib
open Inbox (OperatorInboxEntry InboxMessage InboxMessageKind InboxSubject InboxOwner InboxRouting InboxPoster InboxRenewal
  TaskDocumentRef)
open Catalog (Rows TerminalCatalogEntry rowsListed currentOccupant SeatTurnState TerminalOutcome)

/-! ## What is due -/

def outcomeText : TerminalOutcome → String
  | .completed => "completed"
  | .interrupted => "interrupted"
  | .failed => "failed"
  | .unknown => "unknown"

def turnStateText : SeatTurnState → String
  | .working => "working"
  | .turnEnded => "turn-ended"
  | .awaitingInput => "awaiting-input"
  | .stale => "stale"

abbrev TaskHierarchy := TaskDocumentRef → Option TaskDocumentRef

def bindingTaskDocumentRef (e : TerminalCatalogEntry) : Option TaskDocumentRef :=
  e.taskDocumentRef.or e.replacementForTaskDocumentRef

def leafRoles : List String := ["worker", "reviewer", "curator"]

/-- `_manager_for_subordinate`; two managers are a `ValueError`. -/
def managerForSubordinate (parent : TaskHierarchy) (rows : Rows) (e : TerminalCatalogEntry) : Except Unit (Option Seat) :=
  match (bindingTaskDocumentRef e).filter fun _ => e.bindingRole ∈ leafRoles with
  | none => .ok none
  | some document =>
    match parent document with
    | none => .ok none
    | some master => currentOccupant (rowsListed rows false) master "manager"

def stateSignalFinding (parent : TaskHierarchy) (rows : Rows) (seat : Seat) : Except Unit (Option AgentNotifierFinding) :=
  let e := seat.2
  match managerForSubordinate parent rows e with
  | .error u => .error u
  | .ok manager =>
    match e.terminal.outcome, e.terminal.evidenceId with
    | some outcome, some evidenceId =>
      if e.kind = .harness ∧ e.status = .running ∧ manager.isSome ∧ e.turnState = some .turnEnded ∧
          (outcome = .completed ∨ outcome = .interrupted) ∧ e.stateSignalEmittedFor ≠ some evidenceId then
        .ok (some
          { kind := "state-signal-due"
            detail := outcomeText outcome
            sessionId := some seat.1
            taskDocumentRef := bindingTaskDocumentRef e
            seatRole := some e.bindingRole
            sourceId := some evidenceId })
      else .ok none
    | _, _ => .ok none

def managerOwnedSubordinate (parent : TaskHierarchy) (manager e : TerminalCatalogEntry) : Bool :=
  match bindingTaskDocumentRef manager, bindingTaskDocumentRef e with
  | some managerDocument, some document =>
    manager.bindingRole = "manager" ∧ e.bindingRole ∈ leafRoles ∧ parent document = some managerDocument
  | _, _ => false

def runningHarnesses (rows : Rows) : List Seat :=
  (rowsListed rows false).filter fun e => e.2.kind = .harness ∧ e.2.status = .running

def compoundIdleSet (parent : TaskHierarchy) (rows : Rows) (manager : Seat) : Option (List Seat) :=
  let members := manager :: (runningHarnesses rows).filter fun e =>
    e.1 ≠ manager.1 ∧ managerOwnedSubordinate parent manager.2 e.2
  if members.length ≠ 1 ∧ members.all fun e => e.2.turnState = some .turnEnded ∨ e.2.turnState = some .awaitingInput then
    some members
  else none

def compoundIdleSets (parent : TaskHierarchy) (rows : Rows) : List (Seat × List Seat) :=
  ((runningHarnesses rows).filter fun e => e.2.bindingRole = "manager").filterMap fun manager =>
    (compoundIdleSet parent rows manager).map fun members => (manager, members)

def compoundIdleSignature (members : List Seat) : String :=
  ";".intercalate ((members.map fun e =>
    e.1 ++ ":" ++ (e.2.turnState.map turnStateText).getD "None" ++ ":" ++ e.2.turnStateChangedAt.getD "").insertionSort (· ≤ ·))

def compoundIdleFinding (manager : Seat) (members : List Seat) : Option AgentNotifierFinding :=
  if manager.2.compoundIdleEmittedFor = some (compoundIdleSignature members) then none
  else some
    { kind := "compound-idle-due"
      detail := "compound-idle"
      sessionId := some manager.1
      taskDocumentRef := bindingTaskDocumentRef manager.2
      seatRole := some manager.2.bindingRole
      sourceId := some (compoundIdleSignature members) }

def evaluateSignalFindings (parent : TaskHierarchy) (rows : Rows) : Except Unit (List AgentNotifierFinding) :=
  ((rowsListed rows false).mapM (stateSignalFinding parent rows)).map fun found =>
    found.filterMap id ++ (compoundIdleSets parent rows).filterMap fun set => compoundIdleFinding set.1 set.2

/-! ## The store -/

inductive SignalKey
  | turn (session evidenceId : String)
  | idle (session signature : String)
  deriving DecidableEq

structure OwnerSignal where
  messageKind : InboxMessageKind
  ask : String
  response : String
  taskDocumentRef : Option TaskDocumentRef
  seatRole : Option String
  subjectAgentId : Option String

def seatLivenessAskPrefixes : List String := ["Agent notifier observed seat-liveness:", "Supervisor observed seat-liveness:"]

def seatLivenessAskIdentity (ask : String) : List Char :=
  match seatLivenessAskPrefixes.find? fun p => p.toList.isPrefixOf ask.toList with
  | some p => "seat-liveness:".toList ++ ask.toList.drop p.toList.length
  | none => ask.toList

def coalesces (signal : OwnerSignal) (row : OperatorInboxEntry) : Bool :=
  row.terminal = false ∧ (row.createdBy = "supervisor" ∨ row.createdBy = "agent-notifier") ∧
    row.messageKind = signal.messageKind ∧ seatLivenessAskIdentity row.ask = seatLivenessAskIdentity signal.ask ∧
    row.subjectTaskDocumentRef = signal.taskDocumentRef ∧ row.seatRole = signal.seatRole

def findCoalescible (fold : Dict String OperatorInboxEntry) (signal : OwnerSignal) : Option OperatorInboxEntry :=
  fold.values.find? (coalesces signal)

structure SignalStore where
  delivery : Store
  emitted : List SignalKey
  -- A signal, and a row created for it.
  awaiting : List (SignalKey × String)

structure SignalOutside where
  delivery : Outside
  ulid : String
  -- The routed owner of a session's signal; none is a `StructuralRoutingError`.
  owner : String → Option InboxOwner

inductive SignalCommand
  | delivery (c : Command)
  | owner (session : String)
  -- The sweep's fold is a ghost.
  | append (key : SignalKey) (fold : Dict String OperatorInboxEntry) (signal : OwnerSignal) (owner : InboxOwner) (now : String)
  | renew (row : OperatorInboxEntry) (renewal : InboxRenewal) (now : String)
  | transition (entryId now : String) (t : Inbox.Transition)
  | delete (entryId : String)
  | compact (now : Stamp)

@[reducible] def SignalCommand.Answer : SignalCommand → Type
  | .delivery c => c.Answer
  | .owner _ => Option InboxOwner
  | .append .. => Option OperatorInboxEntry
  | .renew .. => OperatorInboxEntry
  | .transition .. | .delete _ | .compact _ => Unit

def OwnerSignal.message (signal : OwnerSignal) : InboxMessage where
  ask := signal.ask
  response := signal.response
  messageKind := signal.messageKind
  subject := ⟨signal.taskDocumentRef, signal.seatRole, signal.subjectAgentId⟩

def ownerRouting (owner : InboxOwner) : InboxRouting where
  address := ⟨owner.taskDocumentRef, owner.lifecycleId, owner.agentId, owner.role⟩
  owner := owner

def notifierPoster : InboxPoster where
  createdBy := "agent-notifier"
  createdVia := .cli
  senderRole := some .system

def markedKey : Catalog.Command → Option SignalKey
  | .upsert session _ (.stateSignalEmitted evidenceId) => some (.turn session evidenceId)
  | .upsert session _ (.compoundIdleEmitted signature) => some (.idle session signature)
  | _ => none

def Command.markedKey : Command → Option SignalKey
  | .catalog c => Delivery.markedKey c
  | _ => none

namespace SignalStore

variable (clock : Clock) (s : SignalStore)

def delivered (outside : Outside) (c : Command) : c.Answer × SignalStore :=
  let (answer, delivery) := exec clock outside s.delivery c
  (answer,
    { s with
      delivery := delivery
      awaiting := s.awaiting.filter fun p => some p.1 ≠ c.markedKey })

def appended (key : SignalKey) (signal : OwnerSignal) (owner : InboxOwner) (now ulid : String) :
    Option OperatorInboxEntry × SignalStore :=
  match s.delivery.posted signal.message ulid now (ownerRouting owner) notifierPoster with
  | (none, _) => (none, s)
  | (some entry, delivery) => (some entry, ⟨delivery, key :: s.emitted, (key, entry.id) :: s.awaiting⟩)

def withLog (log : Inbox.InboxLog) : SignalStore := { s with delivery := { s.delivery with log := log } }

end SignalStore

def signalExec (clock : Clock) (outside : SignalOutside) (s : SignalStore) : (c : SignalCommand) → c.Answer × SignalStore
  | .delivery c => s.delivered clock outside.delivery c
  | .owner session => (outside.owner session, s)
  | .append key _ signal owner now => s.appended key signal owner now outside.ulid
  | .renew row renewal now =>
    match Inbox.renewSnapshot row renewal now with
    | none => (row, s)
    | some renewed => (renewed, s.withLog (s.delivery.log ++ [renewed]))
  | .transition entryId now t =>
    match Inbox.transition s.delivery.log entryId (t.apply now) with
    | .error _ => ((), s)
    | .ok log => ((), s.withLog log)
  | .delete entryId => ((), s.withLog (Inbox.delete s.delivery.log entryId))
  | .compact now => ((), s.withLog (Inbox.compact clock s.delivery.log now))

/-! ## The sweep -/

abbrev SignalScript (α : Type) := Script SignalCommand SignalCommand.Answer α

def ask (c : SignalCommand) : SignalScript c.Answer := Script.command c

def inDelivery {α : Type} (t : DeliveryScript α) : SignalScript α := Script.embed SignalCommand.delivery (fun _ a => a) t

def inCatalog {α : Type} (t : Catalog.CatalogScript α) : SignalScript α :=
  inDelivery (Script.embed Command.catalog (fun _ a => a) t)

structure SignalConfig extends Catalog.Config where
  parent : TaskHierarchy
  redeliverRateLimitSeconds : Option Int := none

abbrev SweepFold := Dict String OperatorInboxEntry

def deliverSignal (c : SignalConfig) (now : String) (fold : SweepFold) (written : Option OperatorInboxEntry) :
    SignalScript SweepFold :=
  match written with
  | none => .raised
  | some entry => do
    let fold := fold.set entry.id entry
    let delivered ← inDelivery (deliverInboxEntry ⟨entry, now, some fold, c.redeliverRateLimitSeconds⟩ { boundary := true })
    pure (fold.set delivered.id delivered)

def postOwnerSignal (c : SignalConfig) (key : SignalKey) (owner : InboxOwner) (signal : OwnerSignal) (now : String)
    (fold : SweepFold) : SignalScript SweepFold :=
  match findCoalescible fold signal with
  | some existing => do
    let renewed ← ask (.renew existing ⟨some signal.response, signal.message.subject, some owner⟩ now)
    deliverSignal c now fold (some renewed)
  | none => do deliverSignal c now fold (← ask (.append key fold signal owner now))

def seatLabel (e : TerminalCatalogEntry) : String :=
  ((bindingTaskDocumentRef e).map fun document => document.repository ++ "/" ++ document.path).getD "-" ++ " as " ++ e.bindingRole

def stateSignalResponse (e : TerminalCatalogEntry) : String :=
  "seat " ++ seatLabel e ++ " turn " ++ e.terminal.evidenceId.getD "-" ++ " outcome " ++
    (e.terminal.outcome.map outcomeText).getD "unknown" ++ " at " ++ e.terminal.outcomeAt.getD "-" ++ " interrupted_by=" ++
    (e.terminal.interruptedBy.map fun origin => match origin with
      | .developer => "developer"
      | .unknown => "unknown").getD "-"

def compoundIdleResponse (members : List Seat) : String :=
  match members with
  | [] => ""
  | manager :: subordinates =>
    "compound-idle set: manager " ++ seatLabel manager.2 ++ "; subordinates " ++
      (if subordinates = [] then "-" else ", ".intercalate (subordinates.map fun e => seatLabel e.2))

def emitStateSignal (c : SignalConfig) (session sourceId now : String) (fold : SweepFold) : SignalScript SweepFold := do
  let rows ← ask (.delivery .rows)
  match rows.get? session with
  | none => pure fold
  | some e =>
    match stateSignalFinding c.parent rows (session, e) with
    | .error _ => .raised
    | .ok none => pure fold
    | .ok (some finding) =>
      if finding.sourceId ≠ some sourceId ∨ finding.taskDocumentRef = none then pure fold
      else do
        match ← ask (.owner session) with
        | none => .raised
        | some owner =>
          if owner.agentId = none ∧ owner.lifecycleId = none ∧ owner.role = none then pure fold
          else do
            let fold ← postOwnerSignal c (.turn session sourceId) owner
              { messageKind := .stateSignal
                ask := "Agent notifier observed state-signal: " ++ (e.terminal.outcome.map outcomeText).getD "unknown" ++ " (" ++
                  sourceId ++ ")"
                response := stateSignalResponse e
                taskDocumentRef := finding.taskDocumentRef
                seatRole := finding.seatRole
                subjectAgentId := some session } now fold
            let _ ← inCatalog (Catalog.recordStateSignalEmitted session sourceId)
            pure fold

def emitCompoundIdle (c : SignalConfig) (finding : AgentNotifierFinding) (session now : String) (fold : SweepFold) :
    SignalScript SweepFold := do
  let rows ← ask (.delivery .rows)
  match (compoundIdleSets c.parent rows).find? fun set => set.1.1 = session with
  | none => pure fold
  | some (manager, members) =>
    let signature := compoundIdleSignature members
    if manager.2.compoundIdleEmittedFor = some signature then pure fold
    else do
      match ← ask (.owner session) with
      | none => .raised
      | some owner =>
        if owner.agentId = none ∧ owner.lifecycleId = none then pure fold
        else do
          let fold ← postOwnerSignal c (.idle session signature) owner
            { messageKind := .stateSignal
              ask := "Agent notifier observed state-signal: compound-idle (" ++ signature ++ ")"
              response := compoundIdleResponse members
              taskDocumentRef := finding.taskDocumentRef
              seatRole := finding.seatRole
              subjectAgentId := some session } now fold
          let _ ← inCatalog (Catalog.recordCompoundIdleEmitted session signature)
          pure fold

def actOnFinding (c : SignalConfig) (now : String) (fold : SweepFold) (finding : AgentNotifierFinding) : SignalScript SweepFold :=
  match finding.sessionId, finding.sourceId with
  | some session, some sourceId =>
    if finding.kind = "state-signal-due" then emitStateSignal c session sourceId now fold
    else emitCompoundIdle c finding session now fold
  | _, _ => pure fold

def actOnFindings (c : SignalConfig) (now : String) : List AgentNotifierFinding → SweepFold → SignalScript SweepFold
  | [], fold => pure fold
  | finding :: rest, fold => do actOnFindings c now rest (← actOnFinding c now fold finding)

def signalSweep (c : SignalConfig) (now : String) : SignalScript Unit := do
  let fold ← ask (.delivery .current)
  let rows ← ask (.delivery .rows)
  match evaluateSignalFindings c.parent rows with
  | .error _ => .raised
  | .ok findings =>
    let _ ← actOnFindings c now findings fold
    pure ()

inductive SignalCall
  | delivery (call : Call)
  | sweep (now : String)
  | transition (entryId now : String) (t : Inbox.Transition)
  | delete (entryId : String)
  | compact (now : Stamp)

def SignalCall.job (c : SignalConfig) : SignalCall → Job SignalCommand SignalCommand.Answer
  | .delivery call => Job.embed SignalCommand.delivery (fun _ a => a) (call.job c.toConfig)
  | .sweep now => Job.plain (signalSweep c now)
  | .transition entryId now t => Job.plain (ask (.transition entryId now t))
  | .delete entryId => Job.plain (ask (.delete entryId))
  | .compact now => Job.plain (ask (.compact now))

abbrev SignalWorld := Pool SignalCommand SignalCommand.Answer SignalStore

def signalSystem (c : SignalConfig) (rows : Rows) : System SignalWorld (PoolAction SignalCall SignalOutside) :=
  Pool.system (signalExec c.clock) (SignalCall.job c) ⟨startedStore rows [], [], []⟩

end AgentsRemember.Delivery
