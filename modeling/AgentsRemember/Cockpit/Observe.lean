import AgentsRemember.Cockpit.Store

/-!
# The reliable-submit driver

`executeReliableSubmit` and the reconcile window of `submitClient.ts`. The driver
carries its own copy of the record. From one await to the next it only writes:
a turn is the records that it hands to `onChange`, in order, and where it waits
then.
-/

namespace AgentsRemember.Cockpit

open Harness (SubmissionLifecycleState)

inductive SubmitError
  | epochMismatch (detail : String)
  | preDispatch (detail : String)
  | route (failure : SubmitRouteFailure)
  | deadline (stage : String)
  -- No evidence of what became of the request.
  | ambiguous (detail : String)

def SubmitError.message : SubmitError → String
  | .epochMismatch detail | .preDispatch detail | .ambiguous detail => detail
  | .route failure => failure.detail
  | .deadline stage => stage ++ " attempt reached the reliable-submit wall-clock deadline"

structure SubmissionStatusWire where
  state : SubmissionLifecycleState
  detail : Option String

structure ReconcileBounds where
  windowStartedAt : Nat
  deadlineAt : Nat

inductive DriverWait
  | submit (record : SubmitRecord) (bounds : ReconcileBounds) (preDispatchRetries : Nat)
  | sleep (record : SubmitRecord) (bounds : ReconcileBounds) (ms : Nat)
  | status (record : SubmitRecord) (bounds : ReconcileBounds)
  | reconcile (record : SubmitRecord) (bounds : ReconcileBounds)

def DriverWait.record : DriverWait → SubmitRecord
  | .submit record _ _ | .sleep record _ _ | .status record _ | .reconcile record _ => record

def DriverWait.bounds : DriverWait → ReconcileBounds
  | .submit _ bounds _ | .sleep _ bounds _ | .status _ bounds | .reconcile _ bounds => bounds

inductive DriverNext
  | wait (w : DriverWait)
  | final (record : SubmitRecord)

structure DriverTurn where
  writes : List SubmitRecord
  next : DriverNext

namespace DriverTurn

def wait (w : DriverWait) : DriverTurn := ⟨[], .wait w⟩

def final (record : SubmitRecord) : DriverTurn := ⟨[], .final record⟩

/-- `update`, before the rest of the turn. -/
def update (record : SubmitRecord) (rest : DriverTurn) : DriverTurn := ⟨record :: rest.writes, rest.next⟩

end DriverTurn

open DriverTurn

/-- What `boundedAttempt` makes of an answer; past the deadline none counts. -/
def boundedAttempt {α : Type} (stage : String) (deadlineAt now : Nat) : Except SubmitError α → Except SubmitError α
  | .ok a => if deadlineAt ≤ now then .error (.deadline stage) else .ok a
  | .error e => .error e

def loseGeneration (record : SubmitRecord) (detail : String) (now : Nat) : SubmitRecord :=
  { record with
    phase := .generationLost
    serverLifecycleState := none
    detail := some detail
    updatedAt := now }

def failRoute (record : SubmitRecord) (failure : SubmitRouteFailure) (now : Nat) : SubmitRecord :=
  { record with
    phase := .routeError
    routeFailure := some failure
    detail := some failure.detail
    updatedAt := now }

/-! ## The reconcile window -/

def reconcileCatchOutcome (error : SubmitError) (record : SubmitRecord) (deadlineAt now : Nat) : SubmitRecord × Bool :=
  match error with
  | .epochMismatch detail => (loseGeneration record detail now, true)
  | .deadline _ => (enterEndgame (refreshReconcileElapsed record now) now, true)
  | error =>
    if deadlineAt ≤ now then (enterEndgame (refreshReconcileElapsed record now) now, true)
    else
      let kept := { record with detail := some error.message, updatedAt := now }
      match error with
      | .route failure => if failure.httpStatus ≠ some 503 then (failRoute record failure now, true) else (kept, false)
      | _ => (kept, false)

def reconcileLoop (record : SubmitRecord) (bounds : ReconcileBounds) (now : Nat) : DriverTurn :=
  if bounds.deadlineAt ≤ now then
    let ended := enterEndgame (refreshReconcileElapsed record now) now
    update ended (final ended)
  else wait (.sleep record bounds (min (reconcileDelay record.reconcileAttempts) (bounds.deadlineAt - now)))

def reconcileCatch (error : SubmitError) (record : SubmitRecord) (bounds : ReconcileBounds) (now : Nat) : DriverTurn :=
  let outcome := reconcileCatchOutcome error record bounds.deadlineAt now
  update outcome.1 (if outcome.2 then final outcome.1 else reconcileLoop outcome.1 bounds now)

def attemptReconcile (record : SubmitRecord) (bounds : ReconcileBounds) (now : Nat) : DriverTurn :=
  if bounds.deadlineAt ≤ now then reconcileCatch (.deadline "reconcile") record bounds now
  else wait (.reconcile record bounds)

def wake (lifecycle : Bool) (record : SubmitRecord) (bounds : ReconcileBounds) (now : Nat) : DriverTurn :=
  if bounds.deadlineAt ≤ now then
    let ended := enterEndgame (refreshReconcileElapsed record now) now
    update ended (final ended)
  else
    let delayed := recordReconcileDelay record now
    update delayed (if lifecycle then wait (.status delayed bounds) else attemptReconcile delayed bounds now)

def applyLifecycleReconcile (record : SubmitRecord) (bounds : ReconcileBounds)
    (answer : Except SubmitError (Option SubmissionStatusWire)) (now : Nat) : DriverTurn :=
  match boundedAttempt "reconcile" bounds.deadlineAt now answer with
  | .error error => reconcileCatch error record bounds now
  | .ok none => attemptReconcile record bounds now
  | .ok (some submission) =>
    let projected := projectSubmissionLifecycle record submission.state submission.detail now
    update projected (if projected.phase ≠ .ambiguous then final projected else attemptReconcile projected bounds now)

def reconciled (record : SubmitRecord) (bounds : ReconcileBounds)
    (answer : Except SubmitError ReconciliationResultWire) (now : Nat) : DriverTurn :=
  match boundedAttempt "reconcile" bounds.deadlineAt now answer with
  | .error error => reconcileCatch error record bounds now
  | .ok result =>
    let reduced := reduceReconciliation record result now
    update reduced (if reduced.phase ≠ .reconciling then final reduced else reconcileLoop reduced bounds now)

def reconcileWindow (initial : SubmitRecord) (bounds : ReconcileBounds) (now : Nat) : DriverTurn :=
  let record := enterReconcileWindow initial now bounds.windowStartedAt
  update record (reconcileLoop record bounds now)

/-! ## The submit -/

def submitCatchOutcome (error : SubmitError) (record : SubmitRecord) (preDispatchRetries now : Nat) : Option SubmitRecord :=
  match error with
  | .epochMismatch detail => some (loseGeneration record detail now)
  | .preDispatch detail =>
    if preDispatchRetries = 0 then none
    else
      some (failRoute record
        { httpStatus := none
          status := "pre-dispatch-failed"
          detail := detail } now)
  | .route failure => some (failRoute record failure now)
  | error =>
    some
      { record with
        phase := .ambiguous
        detail := some error.message
        updatedAt := now }

def submitted (record : SubmitRecord) (bounds : ReconcileBounds) (now : Nat) : DriverTurn :=
  update record (if record.phase = .ambiguous then reconcileWindow record bounds now else final record)

def retrySubmit (record : SubmitRecord) (bounds : ReconcileBounds) (preDispatchRetries now : Nat) : DriverTurn :=
  if bounds.deadlineAt ≤ now then
    match submitCatchOutcome (.deadline "submit") record preDispatchRetries now with
    | some caught => submitted caught bounds now
    | none => final record
  else wait (.submit record bounds preDispatchRetries)

def submitAnswered (record : SubmitRecord) (bounds : ReconcileBounds) (preDispatchRetries : Nat)
    (answer : Except SubmitError SubmissionReceiptWire) (now : Nat) : DriverTurn :=
  match boundedAttempt "submit" bounds.deadlineAt now answer with
  | .ok receipt => submitted (reduceReceipt record receipt now) bounds now
  | .error error =>
    match submitCatchOutcome error record preDispatchRetries now with
    | some caught => submitted caught bounds now
    | none => retrySubmit record bounds (preDispatchRetries + 1) now

def windowFrom (now : Nat) : ReconcileBounds := ⟨now, now + reconcileWindowMs⟩

def executeReliableSubmit (initial : SubmitRecord) (now : Nat) : DriverTurn :=
  update initial (wait (.submit initial (windowFrom now) 0))

def continueReliableReconcile (record : SubmitRecord) (now : Nat) : DriverTurn :=
  reconcileWindow record (windowFrom now) now

/-! ## The answers, and the store -/

inductive DriverReply
  | receipt (answer : Except SubmitError SubmissionReceiptWire)
  | slept
  | status (answer : Except SubmitError (Option SubmissionStatusWire))
  | reconciliation (answer : Except SubmitError ReconciliationResultWire)

def DriverReply.due (deadlineAt now : Nat) : DriverReply → Bool
  | .receipt (.error (.deadline _)) | .status (.error (.deadline _)) | .reconciliation (.error (.deadline _)) =>
    decide (deadlineAt ≤ now)
  | _ => true

def DriverWait.resume (lifecycle : Bool) (now : Nat) : DriverWait → DriverReply → Option DriverTurn
  | .submit record bounds retries, .receipt answer => some (submitAnswered record bounds retries answer now)
  | .sleep record bounds _, .slept => some (wake lifecycle record bounds now)
  | .status record bounds, .status answer => some (applyLifecycleReconcile record bounds answer now)
  | .reconcile record bounds, .reconciliation answer => some (reconciled record bounds answer now)
  | _, _ => none

namespace PerSessionCockpit

variable (s : PerSessionCockpit)

def queueComposerSubmission (record : SubmitRecord) : PerSessionCockpit :=
  if record.source ≠ .composer ∨ record.phase ≠ .queued then s
  else if s.queue.any fun item => item.requestId = record.requestId then s
  else
    s.enqueueSubmit
      { requestId := record.requestId
        text := record.text
        queuedAt := record.updatedAt
        expectedBridgeEpoch := record.expectedBridgeEpoch }

def maybeClearDraft (record : SubmitRecord) : PerSessionCockpit :=
  if record.source = .composer ∧ record.clearDraftOnAccept = true ∧
      record.phase ∈ [SubmitPhase.accepted, .queued, .delivering] then
    s.clearComposerDraftIfRevision record.submittedRevision
  else s

def settleStoredSubmission (record : SubmitRecord) : PerSessionCockpit :=
  (s.queueComposerSubmission record).maybeClearDraft record

def upsertAll (records : List SubmitRecord) : PerSessionCockpit := records.foldl upsertSubmitRecord s

def drive (turn : DriverTurn) : PerSessionCockpit :=
  match turn.next with
  | .wait _ => s.upsertAll turn.writes
  | .final record => (s.upsertAll turn.writes).settleStoredSubmission record

end PerSessionCockpit

/-! ## Observations of the authority

`submissionLifecycleClient.ts`: an answer about a request is settled with what
its stored record shows, the poller asks about the requests that are owed a
word, and a withdrawn answer puts the text back into the draft or into the
recovery slot. The notices that these functions return for display are left
out.
-/

open Lib

def observationVersion (record : Option SubmitRecord) : Int := (record.map fun r => (r.lifecycleObservationVersion : Int)).getD (-1)

structure LifecycleObservationOptions where
  withdrawalOwner : Bool
  issuedWithdrawal : Option PendingWithdrawal

def background : LifecycleObservationOptions := ⟨false, none⟩

def ownedBy (target : PendingWithdrawal) : LifecycleObservationOptions := ⟨true, some target⟩

def possibleSendJoinDetail : String :=
  "an earlier dispatching observation proves possible send; current authority can no longer resolve delivery"

def withdrawnRecord (detail : Option String) (now : Nat) (record : SubmitRecord) : SubmitRecord :=
  projectSubmissionLifecycle record .withdrawn (some (detail.getD "withdrawn before dispatch")) now

def restoredRecord (now : Nat) (projected : SubmitRecord) : SubmitRecord := { projected with restoredAt := some now }

def projectObservation (record : SubmitRecord) (observation : SubmissionLifecycleObservation) (detail : Option String)
    (now : Nat) : SubmitRecord :=
  match observation with
  | .server state => projectSubmissionLifecycle record state detail now
  | .notFound =>
    { record with
      phase := .notFound
      serverLifecycleState := none
      detail := detail
      updatedAt := now
      lifecycleObservationVersion := record.lifecycleObservationVersion + 1 }
  | .generationLost =>
    { record with
      phase := .generationLost
      serverLifecycleState := none
      detail := detail
      updatedAt := now
      lifecycleObservationVersion := record.lifecycleObservationVersion + 1 }

namespace PerSessionCockpit

variable (s : PerSessionCockpit)

def matchingWithdrawalRecovery (requestId : RequestId) : Bool :=
  match s.withdrawal with
  | some (.recovery held _ _) => held = requestId
  | _ => false

def storedPending : Option PendingWithdrawal :=
  match s.withdrawal with
  | some (.pending w) => some w
  | _ => none

def settleLifecycleObservation (requestId : RequestId) (incoming : SubmissionLifecycleObservation) (observedVersion : Int) :
    SubmissionObservationSettlement :=
  settleSubmissionObservation
    (if s.matchingWithdrawalRecovery requestId then some ⟨.server .withdrawn, none⟩
      else submissionObservationSnapshot (s.submissionRecord requestId))
    incoming observedVersion

def pendingWithdrawalSelection (requestId : RequestId) (issuedWithdrawal : Option PendingWithdrawal) :
    Option PendingWithdrawal :=
  match issuedWithdrawal with
  | some issued => if issued.requestId = requestId then some issued else s.storedPending
  | none => s.storedPending

def applyProjectedRecord (projected : Option SubmitRecord) : PerSessionCockpit :=
  match projected with
  | some projected => s.upsertSubmitRecord projected
  | none => s

def restoreOutcome (projected : Option SubmitRecord) (now : Nat) : PerSessionCockpit :=
  (s.applyProjectedRecord (projected.map (restoredRecord now))).setWithdrawal none

def restoreOrRecoverWithdrawal (requestId : RequestId) (pending : PendingWithdrawal) (projected : Option SubmitRecord)
    (now : Nat) : PerSessionCockpit :=
  match s.replaceComposerDraftIfRevision pending.draftRevision pending.text with
  | some replaced => (replaced.note (.replaced requestId pending.text s.composer.draftRevision)).restoreOutcome projected now
  | none =>
    ((s.applyProjectedRecord projected).setWithdrawal (some (.recovery requestId pending.text now))).note
      (.held requestId pending.text)

def resolveAuthoritativeWithdrawal (requestId : RequestId) (detail : Option String) (now : Nat)
    (issuedWithdrawal : Option PendingWithdrawal) : PerSessionCockpit :=
  let record := s.submissionRecord requestId
  let projected := record.map (withdrawnRecord detail now)
  let pending := (s.pendingWithdrawalSelection requestId issuedWithdrawal).filter fun w => w.requestId = requestId
  let s' := (s.dequeueSubmit requestId).note (.withdrawn requestId pending.isSome)
  match pending with
  | none => s'.applyProjectedRecord projected
  | some pending =>
    if (record.bind (·.restoredAt)).isSome then (s'.applyProjectedRecord projected).setWithdrawal none
    else s'.restoreOrRecoverWithdrawal requestId pending projected now

/-! ## Any answer -/

def clearSettledWithdrawal (requestId : RequestId) (withdrawalOwner : Bool) : PerSessionCockpit :=
  match s.storedPending.filter fun w => w.requestId = requestId with
  | none => s
  | some _ => if withdrawalOwner = false ∧ s.withdrawalInFlight = true then s else s.setWithdrawal none

def dequeueUnlessQueued (requestId : RequestId) (observation : SubmissionLifecycleObservation)
    (options : LifecycleObservationOptions) : PerSessionCockpit :=
  match observation with
  | .server .queued => s
  | _ => (s.dequeueSubmit requestId).clearSettledWithdrawal requestId options.withdrawalOwner

def applySettled (requestId : RequestId) (observation : SubmissionLifecycleObservation) (detail : Option String)
    (now : Nat) (options : LifecycleObservationOptions) : PerSessionCockpit :=
  match observation with
  | .server .withdrawn => s.resolveAuthoritativeWithdrawal requestId detail now options.issuedWithdrawal
  | _ =>
    let projected := (s.submissionRecord requestId).map fun record => projectObservation record observation detail now
    (s.applyProjectedRecord projected).dequeueUnlessQueued requestId observation options

def applyLifecycleObservation (requestId : RequestId) (incoming : SubmissionLifecycleObservation) (detail : Option String)
    (now : Nat) (observedVersion : Int) (options : LifecycleObservationOptions) : PerSessionCockpit :=
  match s.settleLifecycleObservation requestId incoming observedVersion with
  | .preserve => if options.withdrawalOwner then s.clearSettledWithdrawal requestId true else s
  | .incoming observation => s.applySettled requestId observation detail now options
  | .possibleSendJoin => s.applySettled requestId (.server .unknown) (some possibleSendJoinDetail) now options

end PerSessionCockpit

/-! ## The poller -/

structure PollTarget where
  requestId : RequestId
  expectedBridgeEpoch : String

structure PollWait where
  page : List PollTarget
  observedVersions : List (RequestId × Int)
  rest : List (List PollTarget)
  now : Nat

inductive StatusError
  | epochMismatch (detail : String)
  | failed (detail : String)

/-- The batch has an answer for each id that was asked for; none is `not-found`. -/
abbrev StatusBatch := RequestId → Option SubmissionStatusWire

def pollPages (targets : List PollTarget) : List (List PollTarget) :=
  (targets.map (·.expectedBridgeEpoch)).reverse.dedup.reverse.flatMap fun epoch =>
    (targets.filter fun t => t.expectedBridgeEpoch = epoch).toChunks 64

namespace PerSessionCockpit

variable (s : PerSessionCockpit)

def appendWatchedTarget (now : Nat) (acc : List PollTarget × PerSessionCockpit) (record : SubmitRecord) :
    List PollTarget × PerSessionCockpit :=
  if acc.1.any fun entry => entry.requestId = record.requestId then acc
  else
    match lifecycleWatchState record now with
    | .inactive => acc
    | .expired => (acc.1, acc.2.upsertSubmitRecord (enterEndgame record now))
    | .active => (acc.1 ++ [⟨record.requestId, record.expectedBridgeEpoch⟩], acc.2)

def queuedTargets : List PollTarget :=
  let queued := s.queue.map fun entry => PollTarget.mk entry.requestId entry.expectedBridgeEpoch
  match s.storedPending with
  | some pending =>
    if queued.any fun entry => entry.requestId = pending.requestId then queued
    else queued ++ [⟨pending.requestId, pending.expectedBridgeEpoch⟩]
  | none => queued

def lifecyclePollTargets (now : Nat) : List PollTarget × PerSessionCockpit :=
  s.submitHistory.values.foldl (appendWatchedTarget now) (s.queuedTargets, s)

def nextPage (now : Nat) : List (List PollTarget) → Option PollWait
  | [] => none
  | page :: rest =>
    some
      { page := page
        observedVersions := page.map fun t => (t.requestId, observationVersion (s.submissionRecord t.requestId))
        rest := rest
        now := now }

def observedVersionFor (observedVersions : List (RequestId × Int)) (requestId : RequestId) : Int :=
  ((observedVersions.find? fun p => p.1 = requestId).map Prod.snd).getD (-1)

def startPoll (now : Nat) : PerSessionCockpit × Option PollWait :=
  let (targets, s') := s.lifecyclePollTargets now
  (s', s'.nextPage now (pollPages targets))

def applyLookup (p : PollWait) (batch : StatusBatch) (s : PerSessionCockpit) (t : PollTarget) : PerSessionCockpit :=
  match batch t.requestId with
  | some submission =>
    s.applyLifecycleObservation t.requestId (.server submission.state) submission.detail p.now
      (observedVersionFor p.observedVersions t.requestId) background
  | none =>
    s.applyLifecycleObservation t.requestId .notFound
      (some "submission is not retained by this authority; withdrawal is unavailable and it was not resent") p.now
      (observedVersionFor p.observedVersions t.requestId) background

def markLost (p : PollWait) (detail : String) (s : PerSessionCockpit) (t : PollTarget) : PerSessionCockpit :=
  s.applyLifecycleObservation t.requestId .generationLost (some detail) p.now
    (observedVersionFor p.observedVersions t.requestId) background

def pollAnswered (p : PollWait) : Except StatusError StatusBatch → PerSessionCockpit × Option PollWait
  | .ok batch =>
    let s' := p.page.foldl (applyLookup p batch) s
    (s', s'.nextPage p.now p.rest)
  | .error (.epochMismatch detail) =>
    let s' := p.page.foldl (markLost p detail) s
    (s', s'.nextPage p.now p.rest)
  | .error (.failed _) => (s, none)

end PerSessionCockpit

end AgentsRemember.Cockpit
