import AgentsRemember.Harness.Records
import AgentsRemember.Lib.Dict

/-!
# The reliable-submit state machine

`submitMachine.ts` and `submitRetention.ts` of the dashboard: what the browser
keeps of one submit request, how an answer of the bridge changes it, how two
observations of one request settle, and which records the history retains.
-/

namespace AgentsRemember.Cockpit

open Lib
open Harness (SubmissionLifecycleState AcceptanceState ReconciliationState)

abbrev RequestId := Nat

inductive SubmitSource
  | composer | leafContext | highlight | background
  deriving DecidableEq

inductive SubmitPhase
  | sending | accepted | queued | delivering | withdrawn | rejected | unsupported | ambiguous | reconciling | endgame
  | released | generationLost | notFound | routeError
  deriving DecidableEq

structure SubmitRouteFailure where
  httpStatus : Option Nat
  status : String
  detail : String

structure SubmitRecord where
  requestId : RequestId
  text : String
  expectedBridgeEpoch : String
  source : SubmitSource
  submittedRevision : Nat
  clearDraftOnAccept : Bool
  updatedAt : Nat
  phase : SubmitPhase := .sending
  routeFailure : Option SubmitRouteFailure := none
  reconcileAttempts : Nat := 0
  reconcileWindowElapsedMs : Nat := 0
  reconcileWindowStartedAt : Option Nat := none
  detail : Option String := none
  releasedAt : Option Nat := none
  restoredAt : Option Nat := none
  recoveryDismissedAt : Option Nat := none
  serverLifecycleState : Option SubmissionLifecycleState := none
  lifecycleObservationVersion : Nat := 0
  lifecycleWatchStartedAt : Option Nat := none

def definitiveServerStates : List SubmissionLifecycleState := [.delivered, .withdrawn, .rejected, .unsupported]

def lifecycleWatchWindowMs : Nat := 120000

def reconcileWindowMs : Nat := 120000

/-! ## Observations -/

inductive SubmissionLifecycleObservation
  | server (state : SubmissionLifecycleState)
  | notFound
  | generationLost

inductive ObservationEvidence
  | queued | availabilityLoss | dispatching | unknown | definitive
  deriving DecidableEq

def observationEvidenceRank : ObservationEvidence → Nat
  | .queued => 0
  | .availabilityLoss => 1
  | .dispatching => 2
  | .unknown => 3
  | .definitive => 4

def observationEvidence : SubmissionLifecycleObservation → ObservationEvidence
  | .notFound | .generationLost => .availabilityLoss
  | .server .queued => .queued
  | .server .dispatching => .dispatching
  | .server .unknown => .unknown
  | .server state => if state ∈ definitiveServerStates then .definitive else .queued

structure SubmissionObservationSnapshot where
  observation : SubmissionLifecycleObservation
  version : Option Nat

def submissionObservationSnapshot (record : Option SubmitRecord) : Option SubmissionObservationSnapshot :=
  record.bind fun record =>
    match record.phase with
    | .notFound => some ⟨.notFound, record.lifecycleObservationVersion⟩
    | .generationLost => some ⟨.generationLost, record.lifecycleObservationVersion⟩
    | _ => record.serverLifecycleState.map fun state => ⟨.server state, record.lifecycleObservationVersion⟩

inductive SubmissionObservationSettlement
  | preserve
  | incoming (observation : SubmissionLifecycleObservation)
  -- What is known and what comes in prove together that it may have been sent.
  | possibleSendJoin

def SubmissionObservationSnapshot.newerThan (current : SubmissionObservationSnapshot) (observedVersion : Int) : Bool :=
  match current.version with
  | none => true
  | some version => decide (observedVersion < version)

def settleSubmissionObservation (current : Option SubmissionObservationSnapshot) (incoming : SubmissionLifecycleObservation)
    (observedVersion : Int) : SubmissionObservationSettlement :=
  match current with
  | none => .incoming incoming
  | some current =>
    let currentEvidence := observationEvidence current.observation
    let incomingEvidence := observationEvidence incoming
    let currentIsNewer := current.newerThan observedVersion
    if (currentEvidence = .availabilityLoss ∧ incomingEvidence = .dispatching) ∨
        (currentEvidence = .dispatching ∧ incomingEvidence = .availabilityLoss ∧ currentIsNewer = false) then
      .possibleSendJoin
    else if observationEvidenceRank currentEvidence < observationEvidenceRank incomingEvidence then .incoming incoming
    else if observationEvidenceRank incomingEvidence < observationEvidenceRank currentEvidence ∨ currentIsNewer = true then
      .preserve
    else .incoming incoming

theorem settle_recovery (incoming : SubmissionLifecycleObservation) (v : Int) :
    settleSubmissionObservation (some ⟨.server .withdrawn, none⟩) incoming v = .preserve := by
  cases incoming with
  | server state => cases state <;> rfl
  | notFound => rfl
  | generationLost => rfl

/-! ## Answers -/

structure SubmissionReceiptWire where
  acceptance : AcceptanceState
  detail : Option String
  bridgeEpoch : String

structure ReconciliationResultWire where
  state : ReconciliationState
  detail : Option String
  bridgeEpoch : String
  submissionState : Option SubmissionLifecycleState

def reduceReceipt (current : SubmitRecord) (receipt : SubmissionReceiptWire) (now : Nat) : SubmitRecord :=
  let common :=
    { current with
      updatedAt := now
      detail := receipt.detail
      expectedBridgeEpoch := receipt.bridgeEpoch }
  match receipt.acceptance with
  | .immediate =>
    { common with
      phase := .accepted
      serverLifecycleState := some .delivered }
  -- Acceptance is no report of the lifecycle.
  | .queued =>
    { common with
      phase := .queued
      serverLifecycleState := none }
  | .rejected =>
    { common with
      phase := .rejected
      serverLifecycleState := some .rejected }
  | .unsupported =>
    { common with
      phase := .unsupported
      serverLifecycleState := some .unsupported }
  | .unknown =>
    { common with
      phase := .ambiguous
      serverLifecycleState := some .unknown }

def lifecyclePhase : SubmissionLifecycleState → SubmitPhase
  | .queued => .queued
  | .dispatching => .delivering
  | .delivered => .accepted
  | .withdrawn => .withdrawn
  | .unknown => .ambiguous
  | .rejected => .rejected
  | .unsupported => .unsupported

def projectSubmissionLifecycle (current : SubmitRecord) (state : SubmissionLifecycleState) (detail : Option String)
    (now : Nat) : SubmitRecord :=
  { current with
    phase := lifecyclePhase state
    serverLifecycleState := some state
    detail := detail
    updatedAt := now
    lifecycleObservationVersion := current.lifecycleObservationVersion + 1
    -- The first word past the queue starts the watch.
    lifecycleWatchStartedAt :=
      if state = .queued ∨ state ∈ definitiveServerStates then current.lifecycleWatchStartedAt
      else some (current.lifecycleWatchStartedAt.getD now) }

inductive LifecycleWatchState
  | active | expired | inactive

def lifecycleWatchState (record : SubmitRecord) (now : Nat) : LifecycleWatchState :=
  match record.serverLifecycleState with
  | none => .inactive
  | some state =>
    if state ∈ definitiveServerStates ∨ record.phase ∉ [SubmitPhase.queued, .delivering, .ambiguous] then .inactive
    else if lifecycleWatchWindowMs < now - record.lifecycleWatchStartedAt.getD record.updatedAt then .expired
    else .active

def reduceReconciliation (current : SubmitRecord) (result : ReconciliationResultWire) (now : Nat) : SubmitRecord :=
  let common :=
    { current with
      updatedAt := now
      detail := result.detail
      expectedBridgeEpoch := result.bridgeEpoch }
  match result.submissionState.filter fun state => ¬ (result.state = .unresolved ∧ state = .unknown) with
  | some state => projectSubmissionLifecycle common state result.detail now
  | none =>
    match result.state with
    | .accepted => { common with phase := .accepted }
    | .rejected => { common with phase := .rejected }
    | .unsupported => { common with phase := .unsupported }
    | .unresolved => { common with phase := .reconciling }

/-! ## The bounded wait -/

def reconcileDelay (attempt : Nat) : Nat := ([1000, 2000, 5000][attempt]?).getD 5000

def enterReconcileWindow (record : SubmitRecord) (now windowStartedAt : Nat) : SubmitRecord :=
  { record with
    phase := .reconciling
    updatedAt := now
    reconcileWindowStartedAt := some windowStartedAt
    reconcileWindowElapsedMs := now - windowStartedAt }

def refreshReconcileElapsed (record : SubmitRecord) (now : Nat) : SubmitRecord :=
  { record with
    updatedAt := now
    reconcileWindowElapsedMs :=
      max record.reconcileWindowElapsedMs (now - record.reconcileWindowStartedAt.getD now) }

def recordReconcileDelay (record : SubmitRecord) (now : Nat) : SubmitRecord :=
  { refreshReconcileElapsed record now with
    phase := .reconciling
    reconcileAttempts := record.reconcileAttempts + 1 }

def enterEndgame (record : SubmitRecord) (now : Nat) : SubmitRecord :=
  { record with
    phase := .endgame
    updatedAt := now
    detail := some "still unresolved — keep waiting, copy requestId, or release the retained draft" }

def releaseDraft (record : SubmitRecord) (now : Nat) : SubmitRecord :=
  { record with
    phase := .released
    updatedAt := now
    releasedAt := some now }

def retryNotice (record : SubmitRecord) (candidateText : String) : Option String :=
  if candidateText = record.text then none
  else some ("request " ++ toString record.requestId ++
    " already belongs to its first message; the edited text was not sent")

def isActiveSubmit (record : SubmitRecord) : Bool :=
  record.phase ∈ [SubmitPhase.sending, .ambiguous, .reconciling, .endgame, .routeError]

/-! ## Retention -/

def submitHistoryInspectorWindow : Nat := 64

def submitQueueRetentionWindow : Nat := 64

def protectedSubmitPhases : List SubmitPhase :=
  [.sending, .queued, .delivering, .ambiguous, .reconciling, .endgame, .routeError, .generationLost]

def isProtectedSubmitRecord (record : SubmitRecord) : Bool := record.phase ∈ protectedSubmitPhases

def newestTail {α : Type} (n : Nat) (l : List α) : List α := l.drop (l.length - n)

def compactSubmitHistory (records : Dict RequestId SubmitRecord) : Dict RequestId SubmitRecord :=
  let settledIds := newestTail submitHistoryInspectorWindow
    ((records.entries.filter fun e => !isProtectedSubmitRecord e.2).map Prod.fst)
  records.filterKeys fun id => (records.get? id).any isProtectedSubmitRecord || decide (id ∈ settledIds)

def compactSubmitQueue {α : Type} (entries : List α) : List α := newestTail submitQueueRetentionWindow entries

/-! ## One session of the cockpit's store

The composer, the queue, the submit history and the withdrawal slot of
`sessionCockpitStore.ts`. `stored` and `log` are ghosts: the records that were
stored, oldest first, and what became of the text of a withdrawn message.
-/

structure Composer where
  draft : String
  draftRevision : Nat

structure QueuedSubmit where
  requestId : RequestId
  text : String
  queuedAt : Nat
  expectedBridgeEpoch : String

structure PendingWithdrawal where
  requestId : RequestId
  text : String
  expectedBridgeEpoch : String
  draftRevision : Nat
  requestedAt : Nat

inductive WithdrawalState
  | pending (w : PendingWithdrawal)
  | recovery (requestId : RequestId) (text : String) (withdrawnAt : Nat)

inductive CockpitEvent
  -- A withdrawal of the message was asked for while the draft had this revision.
  | requested (requestId : RequestId) (revision : Nat)
  -- A withdrawn answer about the message was taken up, and whether the message was under withdrawal.
  | withdrawn (requestId : RequestId) (pending : Bool)
  -- The text of the message under withdrawal replaced the draft of this revision.
  | replaced (requestId : RequestId) (text : String) (revision : Nat)
  -- The text of the message under withdrawal went to the recovery slot.
  | held (requestId : RequestId) (text : String)
  -- The operator's choices.
  | restored (requestId : RequestId) (text : String)
  | dismissed (requestId : RequestId)
  deriving DecidableEq

structure PerSessionCockpit where
  composer : Composer
  queue : List QueuedSubmit
  submitHistory : Dict RequestId SubmitRecord
  withdrawal : Option WithdrawalState
  -- `withdrawalsInFlight` has the session.
  withdrawalInFlight : Bool
  issued : Nat
  stored : List SubmitRecord
  log : List CockpitEvent

def emptyPerSession : PerSessionCockpit where
  composer := ⟨"", 0⟩
  queue := []
  submitHistory := Dict.empty
  withdrawal := none
  withdrawalInFlight := false
  issued := 0
  stored := []
  log := []

namespace PerSessionCockpit

variable (s : PerSessionCockpit)

def note (e : CockpitEvent) : PerSessionCockpit := { s with log := s.log ++ [e] }

def setComposerDraft (draft : String) : PerSessionCockpit :=
  { s with composer := ⟨draft, s.composer.draftRevision + 1⟩ }

def replaceComposerDraftIfRevision (expectedRevision : Nat) (draft : String) : Option PerSessionCockpit :=
  if s.composer.draftRevision ≠ expectedRevision then none else some (s.setComposerDraft draft)

def clearComposerDraftIfRevision (submittedRevision : Nat) : PerSessionCockpit :=
  if s.composer.draftRevision ≠ submittedRevision then s else s.setComposerDraft ""

def enqueueSubmit (submit : QueuedSubmit) : PerSessionCockpit :=
  { s with queue := compactSubmitQueue (s.queue ++ [submit]) }

def dequeueSubmit (requestId : RequestId) : PerSessionCockpit :=
  { s with queue := s.queue.filter fun item => item.requestId ≠ requestId }

def upsertSubmitRecord (record : SubmitRecord) : PerSessionCockpit :=
  { s with
    submitHistory := compactSubmitHistory (s.submitHistory.set record.requestId record)
    stored := s.stored ++ [record] }

def setWithdrawal (withdrawal : Option WithdrawalState) : PerSessionCockpit := { s with withdrawal := withdrawal }

def dismissWithdrawalRecoveryIfMatches (requestId : RequestId) (expectedDraftRevision : Nat) : Option PerSessionCockpit :=
  match s.withdrawal with
  | some (.recovery held _ _) =>
    if s.composer.draftRevision ≠ expectedDraftRevision ∨ held ≠ requestId then none else some (s.setWithdrawal none)
  | _ => none

def submissionRecord (requestId : RequestId) : Option SubmitRecord := s.submitHistory.get? requestId

variable {s} {n r : SubmitRecord} {id : RequestId}

theorem submissionRecord_upsert (h : (s.upsertSubmitRecord n).submissionRecord id = some r) :
    (id = n.requestId ∧ r = n) ∨ (id ≠ n.requestId ∧ s.submissionRecord id = some r) := by
  have hset : (s.submitHistory.set n.requestId n).get? id = some r := by
    rw [submissionRecord, upsertSubmitRecord, compactSubmitHistory, Dict.get?_filterKeys] at h
    split at h
    · exact h
    · cases h
  by_cases hid : id = n.requestId
  · subst hid
    rw [Dict.get?_set_self] at hset
    exact .inl ⟨rfl, (Option.some.inj hset).symm⟩
  · rw [Dict.get?_set_ne _ _ (Ne.symm hid)] at hset
    exact .inr ⟨hid, hset⟩

end PerSessionCockpit

end AgentsRemember.Cockpit
