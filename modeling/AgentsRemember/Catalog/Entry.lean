import AgentsRemember.Harness.Authority
import AgentsRemember.Inbox.Records
import AgentsRemember.Lib.Lines

/-!
# Rows of the terminal catalog

`models/terminal_catalog.py`, `seat_turn_truth.py` and `hosted_control_projection.py`:
one hosted session's row, and the functions that copy a row with some columns
replaced. Columns that are always replaced together are one field.
-/

namespace AgentsRemember.Catalog

open Lib
open Inbox (TaskDocumentRef)
open Harness (ControlState ActivityState AcceptanceState)

inductive TerminalSessionKind
  | terminal | harness
  deriving DecidableEq

inductive TerminalSessionStatus
  | running | exited | landed | terminated
  deriving DecidableEq

inductive TerminalLivenessEvidence
  | tmuxCommandFailed | paneGone
  deriving DecidableEq

inductive SeatTurnState
  | working | turnEnded | awaitingInput | stale
  deriving DecidableEq

inductive TerminalOutcome
  | completed | interrupted | failed | unknown
  deriving DecidableEq

inductive InterruptOrigin
  | developer | unknown
  deriving DecidableEq

inductive RawValue
  | text (s : String)
  | int (n : Int)
  | json (text : String)
  deriving DecidableEq

abbrev Raw := List (String × RawValue)

structure LaunchColumns where
  lifecycleId : Option String := none
  command : List String := []
  spawnedBySession : Option String := none
  spawnedByLifecycle : Option String := none
  launchArgs : Option (List String) := none
  promptKeywords : Option (List String) := none
  sessionCommands : Option (List String) := none
  spawnLevel : Option String := none
  spawnLevelSource : Option String := none
  resolvedModel : Option String := none
  resolvedEffort : Option String := none
  controlProtocol : Option String := none
  deriving DecidableEq

structure LivenessColumns where
  failures : Nat := 0
  firstFailedAt : Option String := none
  lastFailedAt : Option String := none
  evidence : Option TerminalLivenessEvidence := none
  exitEvidence : Option TerminalLivenessEvidence := none
  deriving DecidableEq

structure ClosureColumns where
  at' : Option String := none
  bySession : Option String := none
  reason : Option String := none
  edge : Option String := none
  deriving DecidableEq

structure ControlColumns where
  state : Option ControlState := none
  activity : Option ActivityState := none
  acceptance : Option AcceptanceState := none
  deriving DecidableEq

structure EvidenceColumns where
  vendorSessionId : Option String := none
  pendingInteraction : Option String := none
  pendingInteractions : Option (List String) := none
  lastEventSequence : Option Int := none
  deriving DecidableEq

structure OutcomeColumns where
  outcome : Option TerminalOutcome := none
  outcomeAt : Option String := none
  evidenceId : Option String := none
  interruptedBy : Option InterruptOrigin := none
  deriving DecidableEq

structure InterruptColumns where
  requestedBy : Option InterruptOrigin := none
  requestedAt : Option String := none
  requestedTurnId : Option String := none
  deriving DecidableEq

structure TerminalCatalogEntry where
  kind : TerminalSessionKind
  harness : Option String
  cwd : String
  tmuxName : String
  createdAt : String
  spawnRole : Option String := none
  replacementForTaskDocumentRef : Option TaskDocumentRef := none
  controlEndpoint : Option String := none
  launch : LaunchColumns := {}
  label : String
  spawnedLabel : Option String := none
  lastAttachedAt : String
  status : TerminalSessionStatus
  terminatedAt : Option String := none
  taskDocumentRef : Option TaskDocumentRef := none
  seatRole : Option String := none
  sessionLogEntryId : Option String := none
  sessionLogPath : Option String := none
  control : ControlColumns := {}
  controlEvidence : EvidenceColumns := {}
  controlRaw : Option Raw := none
  liveness : LivenessColumns := {}
  retirement : ClosureColumns := {}
  landing : ClosureColumns := {}
  turnState : Option SeatTurnState := none
  turnStateChangedAt : Option String := none
  terminal : OutcomeColumns := {}
  terminalEvidenceSequence : Option Int := none
  terminalNativeCursor : Option String := none
  interrupt : InterruptColumns := {}
  stateSignalEmittedFor : Option String := none
  nonReactionEmittedFor : Option String := none
  compoundIdleEmittedFor : Option String := none
  deriving DecidableEq

structure SeatClosure where
  at' : String
  reason : String
  edge : String
  bySession : Option String := none

structure AdapterSnapshot where
  control : ControlState
  activity : ActivityState
  acceptance : AcceptanceState
  vendorSessionId : Option String
  pendingInteraction : Option String
  pendingInteractions : List String
  lastEventSequence : Int
  raw : Raw

structure TurnTerminalEvidence where
  outcome : TerminalOutcome
  turnId : Option String

structure CatalogTurnEvidence where
  state : SeatTurnState
  changedAt : String
  terminal : OutcomeColumns

structure TerminalCatalogLivenessConfig where
  failureThreshold : Nat := 3
  minimumFailureWindowMicros : Int := 5000000
  paneGoneFailureThreshold : Nat := 1

def clean (role : Option String) : Option String := (role.map Lines.stripText).filter (· ≠ "")

def migratedSeatRole (persisted spawnRole : Option String) (kind : TerminalSessionKind) : String :=
  if kind = .terminal then "terminal" else ((clean persisted).or (clean spawnRole)).getD "chat"

def attachSeatRole (requested spawnRole current : Option String) (kind : TerminalSessionKind) : Option String :=
  if kind = .terminal then some "terminal"
  else ((clean requested).or (clean spawnRole)).or ((clean current).filter (· ≠ "chat"))

def rawSet (raw : Option Raw) (key : String) (value : RawValue) : Option Raw := some (Dict.setIn key value (raw.getD []))

namespace TerminalCatalogEntry

variable (e : TerminalCatalogEntry)

def bindingRole : String := migratedSeatRole e.seatRole e.spawnRole e.kind

/-! ## Copies made under the catalog's lock -/

def withAttachment (attachedAt : String) : TerminalCatalogEntry :=
  { e with
    lastAttachedAt := attachedAt
    status := if e.status = .landed then .landed else .running
    terminatedAt := none
    liveness := {} }

def withStatus (status : TerminalSessionStatus) (at' : Option String) : TerminalCatalogEntry :=
  { e with
    status := status
    terminatedAt := if status = .terminated then at' else e.terminatedAt }

def withRetirement (closure : SeatClosure) : TerminalCatalogEntry :=
  if e.status = .terminated then e
  else { e with
    status := .terminated
    terminatedAt := some closure.at'
    retirement := ⟨some closure.at', closure.bySession, some closure.reason, some closure.edge⟩ }

def withLanding (closure : SeatClosure) : TerminalCatalogEntry :=
  if e.status = .terminated ∨ e.status = .landed then e
  else { e with
    status := .landed
    landing := ⟨some closure.at', none, some closure.reason, some closure.edge⟩
    liveness := {} }

def withLabel (label : String) : TerminalCatalogEntry :=
  { e with
    label := label
    spawnedLabel := pyOr e.spawnedLabel (some e.label) }

def withTurnState (state : SeatTurnState) (changedAt : String) : TerminalCatalogEntry :=
  if e.turnState = some state then e else { e with turnState := some state, turnStateChangedAt := some changedAt }

def withLivenessSuccess : TerminalCatalogEntry :=
  if e.status = .terminated then e
  else { e with
    status := if e.status = .landed then .landed else .running
    liveness := {} }

/-- `none` where the first failure's stamp does not parse. -/
def withLivenessFailure (clock : Clock) (evidence : TerminalLivenessEvidence) (checkedAt : Stamp)
    (hysteresis : TerminalCatalogLivenessConfig) : Option TerminalCatalogEntry :=
  if e.status ≠ .running then some e
  else
    let firstFailedAt := (e.liveness.firstFailedAt.filter (· ≠ "")).getD (clock.format checkedAt)
    let failures := e.liveness.failures + 1
    let threshold := max 1 (if evidence = .paneGone then hysteresis.paneGoneFailureThreshold else hysteresis.failureThreshold)
    let minimumWindow := if evidence = .paneGone then 0 else hysteresis.minimumFailureWindowMicros
    let exits : Option Bool :=
      if failures ≥ threshold then
        (ageMicros clock.parse firstFailedAt checkedAt.utc).map fun elapsed => decide (elapsed ≥ max 0 minimumWindow)
      else some false
    exits.map fun shouldExit =>
      { e with
        status := if shouldExit then .exited else e.status
        liveness :=
          { failures := failures
            firstFailedAt := some firstFailedAt
            lastFailedAt := some (clock.format checkedAt)
            evidence := some evidence
            exitEvidence := if shouldExit then some evidence else e.liveness.exitEvidence } }

/-! ## Copies that a writer upserts -/

def legacyUnsupported : TerminalCatalogEntry :=
  { e with
    control := ⟨some .unsupported, some .unknown, some .unsupported⟩
    controlRaw := some [("detail", .text "legacy raw-TUI session has no protocol bridge")] }

def withPaneDiagnostic (state : String) : TerminalCatalogEntry :=
  { e with controlRaw := rawSet e.controlRaw "paneDiagnostic" (.text state) }

def controlSnapshotEntry (snapshot : AdapterSnapshot) : TerminalCatalogEntry :=
  { e with
    control := ⟨some snapshot.control, some snapshot.activity, some snapshot.acceptance⟩
    controlEvidence :=
      { vendorSessionId := snapshot.vendorSessionId
        pendingInteraction := snapshot.pendingInteraction
        pendingInteractions := if snapshot.pendingInteractions = [] then none else some snapshot.pendingInteractions
        lastEventSequence := some snapshot.lastEventSequence }
    controlRaw := some snapshot.raw }

def controlReadFailures : Int :=
  match Dict.lookupIn "controlReadFailures" (e.controlRaw.getD []) with
  | some (.int n) => n + 1
  | _ => 1

def readsDisconnected : Bool := 3 ≤ e.controlReadFailures ∧ e.control.state ≠ some .starting

def withReadFailure (error paneDiagnostic : String) : TerminalCatalogEntry :=
  { e with
    control := if e.readsDisconnected then ⟨some .disconnected, some .unknown, some .unknown⟩ else e.control
    controlRaw := rawSet (rawSet (rawSet e.controlRaw "bridgeError" (.text error))
      "controlReadFailures" (.int e.controlReadFailures)) "paneDiagnostic" (.text paneDiagnostic) }

def withSyncError (message : String) : TerminalCatalogEntry :=
  { e with controlRaw := rawSet e.controlRaw "interactionSyncError" (.text message) }

def withRetireStopError (error : String) : TerminalCatalogEntry :=
  { e with controlRaw := rawSet e.controlRaw "retireControlStopError" (.text error) }

def withTerminalCursors (evidenceSequence : Option Int) (nativeCursor : Option String) : TerminalCatalogEntry :=
  { e with
    terminalEvidenceSequence := evidenceSequence.or e.terminalEvidenceSequence
    terminalNativeCursor := nativeCursor.or e.terminalNativeCursor }

def withTurnEvidence (stamp : CatalogTurnEvidence) : TerminalCatalogEntry :=
  { e with
    turnState := some stamp.state
    turnStateChangedAt := if e.turnState = some stamp.state then e.turnStateChangedAt else some stamp.changedAt
    terminal := stamp.terminal }

def withInterruptRequest (at' turnId : String) : TerminalCatalogEntry :=
  { e with interrupt := ⟨some .developer, some at', some turnId⟩ }

def withTaskBinding (ref : TaskDocumentRef) (seatRole : String) : TerminalCatalogEntry :=
  { e with
    taskDocumentRef := some ref
    seatRole := some seatRole }

end TerminalCatalogEntry

/-- A copy that a writer upserts, named by the function that makes it. -/
inductive Update
  | legacyUnsupported
  | paneDiagnostic (state : String)
  | controlSnapshot (snapshot : AdapterSnapshot)
  | readFailure (error paneDiagnostic : String)
  | syncError (message : String)
  | retireStopError (error : String)
  | terminalCursors (evidenceSequence : Option Int) (nativeCursor : Option String)
  | turnEvidence (stamp : CatalogTurnEvidence)
  | stateSignalEmitted (evidenceId : String)
  | nonReactionEmitted (rowId : String)
  | compoundIdleEmitted (signature : String)
  | interruptRequest (at' turnId : String)
  | taskBinding (ref : TaskDocumentRef) (seatRole : String)

def Update.apply : Update → TerminalCatalogEntry → TerminalCatalogEntry
  | .legacyUnsupported, e => e.legacyUnsupported
  | .paneDiagnostic state, e => e.withPaneDiagnostic state
  | .controlSnapshot snapshot, e => e.controlSnapshotEntry snapshot
  | .readFailure error diagnostic, e => e.withReadFailure error diagnostic
  | .syncError message, e => e.withSyncError message
  | .retireStopError error, e => e.withRetireStopError error
  | .terminalCursors evidenceSequence nativeCursor, e => e.withTerminalCursors evidenceSequence nativeCursor
  | .turnEvidence stamp, e => e.withTurnEvidence stamp
  | .stateSignalEmitted evidenceId, e => { e with stateSignalEmittedFor := some evidenceId }
  | .nonReactionEmitted rowId, e => { e with nonReactionEmittedFor := some rowId }
  | .compoundIdleEmitted signature, e => { e with compoundIdleEmittedFor := some signature }
  | .interruptRequest at' turnId, e => e.withInterruptRequest at' turnId
  | .taskBinding ref seatRole, e => e.withTaskBinding ref seatRole

inductive Mutation
  | attached (attachedAt : String)
  | exited
  | livenessProbe (evidence : Option TerminalLivenessEvidence) (checkedAt : Stamp) (hysteresis : TerminalCatalogLivenessConfig)
  | terminated (terminatedAt : String)
  | retired (closure : SeatClosure)
  | landed (closure : SeatClosure)
  | label (label : String)
  | sessionLog (entryId path : String)
  | turnState (state : SeatTurnState) (changedAt : String)

/-- `none` is an exception; no evidence is a live probe. -/
def Mutation.apply (clock : Clock) : Mutation → TerminalCatalogEntry → Option TerminalCatalogEntry
  | .attached attachedAt, e => some (e.withAttachment attachedAt)
  | .exited, e => some (if e.status = .landed ∨ e.status = .terminated then e else e.withStatus .exited none)
  | .livenessProbe none _ _, e => some e.withLivenessSuccess
  | .livenessProbe (some evidence) checkedAt hysteresis, e => e.withLivenessFailure clock evidence checkedAt hysteresis
  | .terminated terminatedAt, e => some (e.withStatus .terminated (some terminatedAt))
  | .retired closure, e => some (e.withRetirement closure)
  | .landed closure, e => some (e.withLanding closure)
  | .label text, e => some (e.withLabel text)
  | .sessionLog entryId path, e => some { e with sessionLogEntryId := some entryId, sessionLogPath := some path }
  | .turnState state changedAt, e => some (e.withTurnState state changedAt)

/-! ## The columns that a writer sets

A column is what one writer sets and another may not touch; `control_raw` has a
column for each of its keys. `sets` says which columns a copy or a mutation
means to set, and a column it does not set keeps its value.
-/

inductive Column
  -- Everything that only an open sets.
  | launch
  | label | attachedAt | status | terminatedAt | binding | sessionLog | control | controlEvidence
  | raw (key : String)
  | liveness | retirement | landing | turn | terminal | evidenceSequence | nativeCursor | interrupt
  | stateSignal | nonReaction | compoundIdle
  deriving DecidableEq

def Column.Value : Column → Type
  | .launch => TerminalSessionKind × Option String × String × String × String × Option String × Option TaskDocumentRef ×
      Option String × LaunchColumns
  | .label => String × Option String
  | .attachedAt => String
  | .status => TerminalSessionStatus
  | .terminatedAt => Option String
  | .binding => Option TaskDocumentRef × Option String
  | .sessionLog => Option String × Option String
  | .control => ControlColumns
  | .controlEvidence => EvidenceColumns
  | .raw _ => Option RawValue
  | .liveness => LivenessColumns
  | .retirement => ClosureColumns
  | .landing => ClosureColumns
  | .turn => Option SeatTurnState × Option String
  | .terminal => OutcomeColumns
  | .evidenceSequence => Option Int
  | .nativeCursor => Option String
  | .interrupt => InterruptColumns
  | .stateSignal => Option String
  | .nonReaction => Option String
  | .compoundIdle => Option String

def Column.read : (c : Column) → TerminalCatalogEntry → c.Value
  | .launch, e => (e.kind, e.harness, e.cwd, e.tmuxName, e.createdAt, e.spawnRole, e.replacementForTaskDocumentRef,
      e.controlEndpoint, e.launch)
  | .label, e => (e.label, e.spawnedLabel)
  | .attachedAt, e => e.lastAttachedAt
  | .status, e => e.status
  | .terminatedAt, e => e.terminatedAt
  | .binding, e => (e.taskDocumentRef, e.seatRole)
  | .sessionLog, e => (e.sessionLogEntryId, e.sessionLogPath)
  | .control, e => e.control
  | .controlEvidence, e => e.controlEvidence
  | .raw key, e => Dict.lookupIn key (e.controlRaw.getD [])
  | .liveness, e => e.liveness
  | .retirement, e => e.retirement
  | .landing, e => e.landing
  | .turn, e => (e.turnState, e.turnStateChangedAt)
  | .terminal, e => e.terminal
  | .evidenceSequence, e => e.terminalEvidenceSequence
  | .nativeCursor, e => e.terminalNativeCursor
  | .interrupt, e => e.interrupt
  | .stateSignal, e => e.stateSignalEmittedFor
  | .nonReaction, e => e.nonReactionEmittedFor
  | .compoundIdle, e => e.compoundIdleEmittedFor

def isRaw : Column → Bool
  | .raw _ => true
  | _ => false

def readFailureKeys : List String := ["bridgeError", "controlReadFailures", "paneDiagnostic"]

def Update.sets (copy : TerminalCatalogEntry) : Update → Column → Bool
  | .legacyUnsupported, c => decide (c = .control) || isRaw c
  | .paneDiagnostic _, c => c = .raw "paneDiagnostic"
  | .controlSnapshot _, c => decide (c = .control) || decide (c = .controlEvidence) || isRaw c
  | .readFailure _ _, c => (decide (c = .control) && copy.readsDisconnected) || readFailureKeys.any fun key => c = .raw key
  | .syncError _, c => c = .raw "interactionSyncError"
  | .retireStopError _, c => c = .raw "retireControlStopError"
  | .terminalCursors evidenceSequence nativeCursor, c =>
    (decide (c = .evidenceSequence) && evidenceSequence.isSome) || (decide (c = .nativeCursor) && nativeCursor.isSome)
  | .turnEvidence _, c => decide (c = .turn) || decide (c = .terminal)
  | .stateSignalEmitted _, c => c = .stateSignal
  | .nonReactionEmitted _, c => c = .nonReaction
  | .compoundIdleEmitted _, c => c = .compoundIdle
  | .interruptRequest _ _, c => c = .interrupt
  | .taskBinding _ _, c => c = .binding

def Mutation.sets : Mutation → Column → Bool
  | .attached _, c => c ∈ [.attachedAt, .status, .terminatedAt, .liveness]
  | .exited, c => c = .status
  | .livenessProbe _ _ _, c => c ∈ [.status, .liveness]
  | .terminated _, c => c ∈ [.status, .terminatedAt]
  | .retired _, c => c ∈ [.status, .terminatedAt, .retirement]
  | .landed _, c => c ∈ [.status, .landing, .liveness]
  | .label _, c => c = .label
  | .sessionLog _ _, c => c = .sessionLog
  | .turnState _ _, c => c = .turn

theorem lookupIn_rawSet {raw : Option Raw} {key key' : String} {value : RawValue} (h : key' ≠ key) :
    Dict.lookupIn key' ((rawSet raw key value).getD []) = Dict.lookupIn key' (raw.getD []) := by
  rw [rawSet, Option.getD_some, Dict.lookupIn_setIn, if_neg (Ne.symm h)]

theorem Update.frame (u : Update) (e : TerminalCatalogEntry) (c : Column) (h : u.sets e c = false) :
    c.read (u.apply e) = c.read e := by
  cases u with
  | legacyUnsupported => cases c <;> first | rfl | simp [sets, isRaw] at h
  | paneDiagnostic state =>
    cases c <;> first | rfl | skip
    exact lookupIn_rawSet fun hkey => by simp [sets, hkey] at h
  | controlSnapshot snapshot => cases c <;> first | rfl | simp [sets, isRaw] at h
  | readFailure error diagnostic =>
    cases c <;> first | rfl | skip
    · simp only [sets, Bool.or_eq_false_iff, decide_true, Bool.true_and] at h
      simp only [Column.read, apply, TerminalCatalogEntry.withReadFailure, h.1]
      rfl
    · rename_i key
      simp [sets, readFailureKeys] at h
      simp only [Column.read, apply, TerminalCatalogEntry.withReadFailure]
      rw [lookupIn_rawSet h.2.2, lookupIn_rawSet h.2.1, lookupIn_rawSet h.1]
  | syncError message =>
    cases c <;> first | rfl | skip
    exact lookupIn_rawSet fun hkey => by simp [sets, hkey] at h
  | retireStopError error =>
    cases c <;> first | rfl | skip
    exact lookupIn_rawSet fun hkey => by simp [sets, hkey] at h
  | terminalCursors evidenceSequence nativeCursor =>
    cases c <;> first | rfl | skip
    · cases evidenceSequence with
      | none => rfl
      | some n => simp [sets] at h
    · cases nativeCursor with
      | none => rfl
      | some n => simp [sets] at h
  | turnEvidence stamp => cases c <;> first | rfl | simp [sets] at h
  | stateSignalEmitted evidenceId => cases c <;> first | rfl | simp [sets] at h
  | nonReactionEmitted rowId => cases c <;> first | rfl | simp [sets] at h
  | compoundIdleEmitted signature => cases c <;> first | rfl | simp [sets] at h
  | interruptRequest at' turnId => cases c <;> first | rfl | simp [sets] at h
  | taskBinding ref seatRole => cases c <;> first | rfl | simp [sets] at h

open TerminalCatalogEntry in
theorem Mutation.frame {clock : Clock} (m : Mutation) {e e' : TerminalCatalogEntry} (c : Column)
    (he : m.apply clock e = some e') (h : m.sets c = false) : c.read e' = c.read e := by
  cases m with
  | attached attachedAt =>
    cases he
    cases c <;> first | rfl | simp [sets] at h
  | exited =>
    cases he
    split
    · rfl
    · cases c <;> first | rfl | simp [sets] at h
  | livenessProbe evidence checkedAt hysteresis =>
    cases evidence with
    | none =>
      cases he
      unfold withLivenessSuccess
      split
      · rfl
      · cases c <;> first | rfl | simp [sets] at h
    | some evidence =>
      simp only [apply, withLivenessFailure] at he
      split at he
      · cases he
        rfl
      · obtain ⟨exits, -, rfl⟩ := Option.map_eq_some_iff.mp he
        cases c <;> first | rfl | simp [sets] at h
  | terminated terminatedAt =>
    cases he
    cases c <;> first | rfl | simp [sets] at h
  | retired closure =>
    cases he
    unfold withRetirement
    split
    · rfl
    · cases c <;> first | rfl | simp [sets] at h
  | landed closure =>
    cases he
    unfold withLanding
    split
    · rfl
    · cases c <;> first | rfl | simp [sets] at h
  | label text =>
    cases he
    cases c <;> first | rfl | simp [sets] at h
  | sessionLog entryId path =>
    cases he
    cases c <;> first | rfl | simp [sets] at h
  | turnState state changedAt =>
    cases he
    unfold withTurnState
    split
    · rfl
    · cases c <;> first | rfl | simp [sets] at h

end AgentsRemember.Catalog
