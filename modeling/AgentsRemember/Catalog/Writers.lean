import AgentsRemember.Lib.Scripts
import AgentsRemember.Catalog.Store

/-!
# The writers of the catalog

Each entry point of the server as a script of catalog commands: the liveness sweep
and its deferred syncs, an attach, the probes before an input, the markers of
the notifier, an assignment, and the ends of a session. A writer keeps the copy
of a row that it read, and upserts copies of that.
-/

namespace AgentsRemember.Catalog

open Lib
open Inbox (TaskDocumentRef)
open Harness (ControlState)

structure Config where
  clock : Clock

abbrev CatalogScript (α : Type) := Script Command Command.Answer α

/-! ## Commands as scripts -/

def perform (c : Command) : CatalogScript c.Answer := Script.command c

def getRow (session : String) : CatalogScript (Option TerminalCatalogEntry) := perform (.get session)

def listRows (includeTerminated : Bool) : CatalogScript (List (String × TerminalCatalogEntry)) :=
  perform (.list includeTerminated)

def mutateRow (session : String) (m : Mutation) : CatalogScript (Option TerminalCatalogEntry) := do
  match ← perform (.mutate session m) with
  | none => .raised
  | some row => pure row

def upsertRow (session : String) (copy : TerminalCatalogEntry) (u : Update) : CatalogScript TerminalCatalogEntry := do
  let _ ← perform (.upsert session copy u)
  pure (u.apply copy)

def upsertChanged (session : String) (copy : TerminalCatalogEntry) (u : Update) : CatalogScript TerminalCatalogEntry :=
  if u.apply copy = copy then pure copy else upsertRow session copy u

def ask (q : Question) : CatalogScript q.Reply := perform (.ask q)

/-! ## Markers and projections: read, then upsert -/

def recordCopy (session : String) (u : Update) : CatalogScript (Option TerminalCatalogEntry) := do
  match ← getRow session with
  | none => pure none
  | some entry => some <$> upsertChanged session entry u

def recordTurnProjection (session : String) (stamp : CatalogTurnEvidence) : CatalogScript (Option TerminalCatalogEntry) :=
  recordCopy session (.turnEvidence stamp)

def recordTerminalCursors (session : String) (evidenceSequence : Option Int) (nativeCursor : Option String) :
    CatalogScript (Option TerminalCatalogEntry) :=
  recordCopy session (.terminalCursors evidenceSequence nativeCursor)

def recordStateSignalEmitted (session evidenceId : String) : CatalogScript (Option TerminalCatalogEntry) :=
  recordCopy session (.stateSignalEmitted evidenceId)

def recordNonReactionEmitted (session rowId : String) : CatalogScript (Option TerminalCatalogEntry) :=
  recordCopy session (.nonReactionEmitted rowId)

def recordCompoundIdleEmitted (session signature : String) : CatalogScript (Option TerminalCatalogEntry) :=
  recordCopy session (.compoundIdleEmitted signature)

def recordInterruptRequest (session at' turnId : String) : CatalogScript (Option TerminalCatalogEntry) :=
  recordCopy session (.interruptRequest at' turnId)

/-! ## The turn state of a snapshot -/

inductive ConversationTurnState
  | needsInput | waiting | working | settling | ready | interrupted | failed
  deriving DecidableEq

def classifyTurn (s : AdapterSnapshot) : Option ConversationTurnState :=
  if s.pendingInteraction.isSome then some .needsInput
  else
    match s.activity with
    | .blocked => some .waiting
    | .running => some .working
    | .settling => some .settling
    | .idle => if s.control = .ready then some .ready else none
    | .unknown => none

def terminalTurnState (t : TurnTerminalEvidence) : ConversationTurnState :=
  match t.outcome with
  | .interrupted => .interrupted
  | .failed => .failed
  | _ => .settling

def seatTurnStateFor (control : ControlState) (turn : Option ConversationTurnState) (previous : Option SeatTurnState) :
    Option SeatTurnState :=
  if turn = some .working ∨ turn = some .settling then some .working
  else if turn = some .waiting ∨ turn = some .needsInput then some .awaitingInput
  else if control = .ready ∧ (turn = some .interrupted ∨ turn = some .failed) then some .turnEnded
  else if control = .ready ∧ turn = some .ready then
    if previous.any fun p => p ≠ .turnEnded then some .turnEnded else none
  else if turn = none ∧ control = .starting ∧ previous = none then none
  else some .stale

def snapshotTurnState (s : AdapterSnapshot) (previous : Option SeatTurnState) (terminal : Option TurnTerminalEvidence) :
    Option SeatTurnState :=
  seatTurnStateFor s.control (terminal.elim (classifyTurn s) fun t => some (terminalTurnState t)) previous

/-! ## Observing a row -/

structure LivenessProbe where
  hysteresis : TerminalCatalogLivenessConfig
  /-- `on_control_snapshot` is set. -/
  observed : Bool
  /-- `sync_collector` is set. -/
  deferred : Bool

structure PendingInteractionSync where
  session : String
  entry : TerminalCatalogEntry
  snapshot : AdapterSnapshot

structure Observation where
  entry : TerminalCatalogEntry
  alive : Bool
  syncs : List PendingInteractionSync := []

def interruptedOrigin (entry : TerminalCatalogEntry) (terminal : TurnTerminalEvidence) : Option InterruptOrigin :=
  if terminal.outcome ≠ .interrupted then none
  else if entry.interrupt.requestedBy ≠ some .developer then some .unknown
  else
    match terminal.turnId, entry.interrupt.requestedTurnId with
    | some turnId, some requested => if requested = turnId then some .developer else some .unknown
    | _, _ => some .developer

def terminalColumns (entry : TerminalCatalogEntry) : Option TerminalEvidenceProjection → OutcomeColumns
  | none => entry.terminal
  | some t =>
    { outcome := some t.evidence.outcome
      outcomeAt := some t.observedAt
      evidenceId := some t.evidenceId
      interruptedBy := interruptedOrigin entry t.evidence }

def recordAdapterTurnState (c : Config) (session : String) (entry : TerminalCatalogEntry) (state : Option SeatTurnState)
    (checkedAt : Stamp) (terminal : Option TerminalEvidenceProjection) : CatalogScript Observation :=
  match state with
  | none => pure ⟨entry, true, []⟩
  | some state => do
    let updated ← recordTurnProjection session ⟨state, c.clock.format checkedAt, terminalColumns entry terminal⟩
    pure ⟨updated.getD entry, true, []⟩

def observeControlReadFailure (c : Config) (session : String) (entry : TerminalCatalogEntry) (error diagnostic : String)
    (checkedAt : Stamp) : CatalogScript Observation := do
  let projected ← upsertRow session entry (.readFailure error diagnostic)
  if entry.readsDisconnected then recordAdapterTurnState c session projected (some .stale) checkedAt none
  else pure ⟨projected, true, []⟩

def observeControlSnapshot (session : String) (entry : TerminalCatalogEntry) : CatalogScript TerminalCatalogEntry := do
  match ← ask (.synchronize session) with
  | none => pure entry
  | some message => upsertRow session entry (.syncError message)

def observeAlive (c : Config) (probe : LivenessProbe) (session : String) (entry : TerminalCatalogEntry) (checkedAt : Stamp) :
    CatalogScript Observation :=
  if entry.kind ≠ .harness then pure ⟨entry, true, []⟩
  else do
    let diagnostic ← ask (.pane entry.tmuxName)
    if entry.controlEndpoint = none then
      let projected ←
        if entry.control.state = some .unsupported then pure entry else upsertRow session entry .legacyUnsupported
      let projected ← upsertRow session projected (.paneDiagnostic diagnostic)
      recordAdapterTurnState c session projected (some .stale) checkedAt none
    else
      match ← ask (.snapshot session) with
      | .error error => observeControlReadFailure c session entry error diagnostic checkedAt
      | .ok snapshot =>
        let reply ← ask (.terminalEvidence session entry)
        match reply with
        | .raised => .raised
        | _ =>
          let projected ← upsertChanged session entry (.controlSnapshot snapshot)
          let projected ← upsertRow session projected (.paneDiagnostic diagnostic)
          let terminal ←
            match reply with
            | .read r => do
              let _ ← recordTerminalCursors session r.evidenceSequence r.nativeCursor
              pure r.projection
            | _ => pure none
          let syncs := if probe.observed ∧ probe.deferred then [⟨session, projected, snapshot⟩] else []
          let projected ←
            if probe.observed ∧ ¬probe.deferred then observeControlSnapshot session projected else pure projected
          let o ← recordAdapterTurnState c session projected
            (snapshotTurnState snapshot projected.turnState (terminal.map TerminalEvidenceProjection.evidence))
            checkedAt terminal
          pure { o with syncs := syncs }

def observeTerminalLiveness (c : Config) (probe : LivenessProbe) (session : String) (entry : TerminalCatalogEntry)
    (checkedAt : Stamp) : CatalogScript Observation := do
  match ← ask (.probe session entry.tmuxName) with
  | none =>
    let updated ← mutateRow session (.livenessProbe none checkedAt probe.hysteresis)
    observeAlive c probe session (updated.getD entry.withLivenessSuccess) checkedAt
  | some evidence =>
    let updated ← mutateRow session (.livenessProbe (some evidence) checkedAt probe.hysteresis)
    pure ⟨updated.getD entry, false, []⟩

/-! ## The sweeps -/

def observeRows (c : Config) (probe : LivenessProbe) (checkedAt : Stamp) :
    List (String × TerminalCatalogEntry) → CatalogScript (List PendingInteractionSync)
  | [] => pure []
  | (session, entry) :: rest =>
    if entry.status = .landed then observeRows c probe checkedAt rest
    else do
      let o ← observeTerminalLiveness c probe session entry checkedAt
      let syncs ← observeRows c probe checkedAt rest
      pure (o.syncs ++ syncs)

def runDeferredSyncs : List PendingInteractionSync → CatalogScript Unit
  | [] => pure ()
  | p :: rest => do
    let current ← getRow p.session
    let _ ← observeControlSnapshot p.session (current.getD p.entry)
    runDeferredSyncs rest

def sweepBody (c : Config) (probe : LivenessProbe) (checkedAt : Stamp) : Body Command Command.Answer := do
  let entries ← listRows false
  let syncs ← observeRows c { probe with deferred := true } checkedAt entries
  let _ ← perform (.compact checkedAt.utc)
  pure [runDeferredSyncs syncs]

def startingBody (c : Config) (probe : LivenessProbe) (checkedAt : Stamp) (starting : List (String × TerminalCatalogEntry)) :
    Body Command Command.Answer := do
  let syncs ← observeRows c { probe with deferred := true } checkedAt starting
  pure [runDeferredSyncs syncs]

def isStarting (e : TerminalCatalogEntry) : Bool :=
  e.kind = .harness ∧ e.status = .running ∧ e.control.state = some .starting

def refreshStartingRows (c : Config) (probe : LivenessProbe) (checkedAt : Stamp) : Job Command Command.Answer := do
  let entries ← listRows false
  match (entries.filter fun e => isStarting e.2).take 4 with
  | [] => pure none
  | starting => pure (some (startingBody c probe checkedAt starting))

/-! ## Sessions -/

def direct (hysteresis : TerminalCatalogLivenessConfig) : LivenessProbe := ⟨hysteresis, false, false⟩

def attachTerminalSession (c : Config) (hysteresis : TerminalCatalogLivenessConfig) (session attachedAt : String)
    (checkedAt : Stamp) : CatalogScript Unit := do
  match ← getRow session with
  | none => pure ()
  | some entry =>
    if entry.status ≠ .running ∧ entry.status ≠ .landed then pure ()
    else
      let o ← observeTerminalLiveness c (direct hysteresis) session entry checkedAt
      if o.alive = false ∨ (o.entry.status ≠ .running ∧ o.entry.status ≠ .landed) then pure ()
      else
        let _ ← mutateRow session (.attached attachedAt)
        match ← ask (.probe session o.entry.tmuxName) with
        | none => pure ()
        | some _ =>
          let _ ← mutateRow session .exited
          pure ()

def liveTarget (c : Config) (hysteresis : TerminalCatalogLivenessConfig) (session : String) (checkedAt : Stamp) :
    CatalogScript Unit := do
  match ← getRow session with
  | none => pure ()
  | some entry =>
    if entry.status ≠ .running then pure ()
    else
      let _ ← observeTerminalLiveness c (direct hysteresis) session entry checkedAt
      pure ()

def terminateSession (session terminatedAt : String) : CatalogScript Unit := do
  let entry ← getRow session
  if (entry.bind TerminalCatalogEntry.controlEndpoint).isSome then
    let _ ← ask (.stopControl session)
  let _ ← mutateRow session (.terminated terminatedAt)

def retireEntry (session : String) (entry : TerminalCatalogEntry) (closure : SeatClosure) : CatalogScript Unit := do
  if entry.controlEndpoint.isSome then
    match ← ask (.stopControl session) with
    | none => pure ()
    | some error =>
      let _ ← upsertRow session entry (.retireStopError error)
  let _ ← mutateRow session (.retired closure)

def retireSession (session : String) (closure : SeatClosure) : CatalogScript Unit := do
  match ← getRow session with
  | none => pure ()
  | some entry =>
    if entry.status = .terminated then pure ()
    else if ← ask (.retireAllowed session) then retireEntry session entry closure
    else pure ()

def retireReported (ref : TaskDocumentRef) (roles reported : List String) (closure : SeatClosure) :
    List (String × TerminalCatalogEntry) → CatalogScript Unit
  | [] => pure ()
  | (session, entry) :: rest => do
    if entry.taskDocumentRef = some ref ∧ entry.status ≠ .terminated ∧ entry.bindingRole ∈ roles ∧ session ∈ reported then
      retireEntry session entry closure
    retireReported ref roles reported closure rest

def landRows (ref : TaskDocumentRef) (roles : List String) (closure : SeatClosure) :
    List (String × TerminalCatalogEntry) → CatalogScript Unit
  | [] => pure ()
  | (session, entry) :: rest => do
    if entry.taskDocumentRef = some ref ∧ entry.status ≠ .terminated ∧ entry.bindingRole ∈ roles then
      let _ ← mutateRow session (.landed closure)
    landRows ref roles closure rest

def landSeatsForTask (ref : TaskDocumentRef) (roles : List String) (closure : SeatClosure) : CatalogScript Unit := do
  landRows ref roles closure (← listRows true)

def renameSession (session label : String) : CatalogScript Unit := do
  match ← getRow session with
  | none => pure ()
  | some entry =>
    if entry.status = .terminated then pure ()
    else
      let _ ← mutateRow session (.label label)

def bindingOwner (session : String) (ref : TaskDocumentRef) (seatRole : String) : CatalogScript (Option String) := do
  match activeForTask (← listRows false) ref seatRole with
  | .error _ => .raised
  | .ok none => pure none
  | .ok (some (owner, e)) =>
    if owner = session then pure none
    else if ← ask (.hasSession e.tmuxName) then pure (some owner)
    else
      let _ ← mutateRow owner .exited
      pure none

def assignTerminalSessionToTask (session : String) (ref : TaskDocumentRef) (role : Option String) : CatalogScript Unit := do
  match ← getRow session with
  | none => pure ()
  | some entry =>
    if entry.status ≠ .running then pure ()
    else
      match attachSeatRole role entry.spawnRole entry.seatRole entry.kind with
      | none => pure ()
      | some seatRole =>
        if ← ask (.admits ref seatRole) then
          match ← bindingOwner session ref seatRole with
          | some _ => pure ()
          | none =>
            let _ ← upsertRow session entry (.taskBinding ref seatRole)
        else pure ()

/-! ## The server's calls -/

inductive Call
  | sweep (observed : Bool) (hysteresis : TerminalCatalogLivenessConfig) (checkedAt : Stamp)
  | startingSweep (observed : Bool) (hysteresis : TerminalCatalogLivenessConfig) (checkedAt : Stamp)
  | attach (session attachedAt : String) (hysteresis : TerminalCatalogLivenessConfig) (checkedAt : Stamp)
  | proveLive (session : String) (hysteresis : TerminalCatalogLivenessConfig) (checkedAt : Stamp)
  | openTerminal (session : String) (r : OpenRequest)
  | assign (session : String) (ref : TaskDocumentRef) (role : Option String)
  | terminate (session terminatedAt : String)
  | retire (session : String) (closure : SeatClosure)
  | retireReported (ref : TaskDocumentRef) (roles reported : List String) (closure : SeatClosure)
  | land (ref : TaskDocumentRef) (roles : List String) (closure : SeatClosure)
  | rename (session label : String)
  | bindSessionLog (session entryId path : String)
  | recordTurnState (session : String) (state : SeatTurnState) (changedAt : String)
  | markExited (session : String)
  | stateSignal (session evidenceId : String)
  | nonReaction (session rowId : String)
  | compoundIdle (session signature : String)
  | interruptRequest (session at' turnId : String)

def Call.job (c : Config) : Call → Job Command Command.Answer
  | .sweep observed hysteresis checkedAt => pure (some (sweepBody c ⟨hysteresis, observed, true⟩ checkedAt))
  | .startingSweep observed hysteresis checkedAt => refreshStartingRows c ⟨hysteresis, observed, true⟩ checkedAt
  | .attach session attachedAt hysteresis checkedAt =>
    Job.plain (attachTerminalSession c hysteresis session attachedAt checkedAt)
  | .proveLive session hysteresis checkedAt => Job.plain (liveTarget c hysteresis session checkedAt)
  | .openTerminal session r => Job.plain do
      let _ ← perform (.openTerminal session r)
  | .assign session ref role => Job.plain (assignTerminalSessionToTask session ref role)
  | .terminate session terminatedAt => Job.plain (terminateSession session terminatedAt)
  | .retire session closure => Job.plain (retireSession session closure)
  | .retireReported ref roles reported closure => Job.plain do
      AgentsRemember.Catalog.retireReported ref roles reported closure (← listRows true)
  | .land ref roles closure => Job.plain (landSeatsForTask ref roles closure)
  | .rename session label => Job.plain (renameSession session label)
  | .bindSessionLog session entryId path => Job.plain (do let _ ← mutateRow session (.sessionLog entryId path))
  | .recordTurnState session state changedAt => Job.plain (do let _ ← mutateRow session (.turnState state changedAt))
  | .markExited session => Job.plain (do let _ ← mutateRow session .exited)
  | .stateSignal session evidenceId => Job.plain (do let _ ← recordStateSignalEmitted session evidenceId)
  | .nonReaction session rowId => Job.plain (do let _ ← recordNonReactionEmitted session rowId)
  | .compoundIdle session signature => Job.plain (do let _ ← recordCompoundIdleEmitted session signature)
  | .interruptRequest session at' turnId => Job.plain (do let _ ← recordInterruptRequest session at' turnId)

abbrev World := Pool Command Command.Answer TerminalCatalog

def catalogSystem (c : Config) (rows : Rows) : System World (PoolAction Call Outside) :=
  Pool.system (exec c.clock) (Call.job c) ⟨rows, []⟩

def Meets (c : Config) (ok : TerminalCatalog → Command → Prop) : World → PoolAction Call Outside → Prop :=
  Pool.Issues (exec c.clock) ok

end AgentsRemember.Catalog
