import AgentsRemember.Cockpit.Observe
import AgentsRemember.Lib.System

/-!
# Withdrawals

`submissionWithdrawal.ts`: the withdrawal of the last queued message, with the
status follow-up after a lost response and the retried request, and what the
operator chooses about a text in the recovery slot.
-/

namespace AgentsRemember.Cockpit

open Harness (SubmissionLifecycleState WithdrawalOutcome)

structure WithdrawalResultWire where
  outcome : WithdrawalOutcome
  state : Option SubmissionLifecycleState
  detail : Option String

inductive WithdrawalWait
  | withdraw (target : PendingWithdrawal) (activeObservedVersion : Int)
  | status (target : PendingWithdrawal) (activeObservedVersion : Int)
  | retry (target : PendingWithdrawal) (activeObservedVersion : Int)

def WithdrawalWait.target : WithdrawalWait → PendingWithdrawal
  | .withdraw target _ | .status target _ | .retry target _ => target

inductive WithdrawalReply
  | withdrawal (answer : Except StatusError WithdrawalResultWire)
  | status (answer : Except StatusError (Option SubmissionStatusWire))

namespace PerSessionCockpit

variable (s : PerSessionCockpit)

/-! ## The flow -/

def queuedEntryTarget (now : Nat) : Option PendingWithdrawal :=
  s.queue.getLast?.map fun entry =>
    { requestId := entry.requestId
      text := entry.text
      expectedBridgeEpoch := entry.expectedBridgeEpoch
      draftRevision := s.composer.draftRevision
      requestedAt := now }

/-- `withdrawalTargetFor`; none is a notice why there is nothing to withdraw. -/
def withdrawalTargetFor (now : Nat) : PerSessionCockpit × Option PendingWithdrawal :=
  match s.withdrawal with
  | some (.recovery _ _ _) => (s, none)
  | some (.pending w) => (s, some w)
  | none =>
    match s.queuedEntryTarget now with
    | some target =>
      ((s.setWithdrawal (some (.pending target))).note (.requested target.requestId s.composer.draftRevision), some target)
    | none => (s, none)

def markNotRetained (target : PendingWithdrawal) (detail : String) (now : Nat) (observedVersion : Int) : PerSessionCockpit :=
  s.applyLifecycleObservation target.requestId .notFound (some detail) now observedVersion (ownedBy target)

def markGenerationLost (target : PendingWithdrawal) (detail : String) (now : Nat) (observedVersion : Int) :
    PerSessionCockpit :=
  s.applyLifecycleObservation target.requestId .generationLost (some detail) now observedVersion (ownedBy target)

def applyWithdrawalResult (target : PendingWithdrawal) (result : WithdrawalResultWire) (observedVersion : Int) (now : Nat) :
    PerSessionCockpit :=
  match result.outcome, result.state with
  | .withdrawn, _ =>
    s.applyLifecycleObservation target.requestId (.server .withdrawn) result.detail now observedVersion (ownedBy target)
  | .notWithdrawable, some state =>
    s.applyLifecycleObservation target.requestId (.server state) result.detail now observedVersion (ownedBy target)
  | .notWithdrawable, none => s
  | .notFound, _ =>
    s.markNotRetained target
      "submission is not retained by this authority; withdrawal is unavailable and the draft was not restored" now
      observedVersion

def currentVersion (requestId : RequestId) : Int := observationVersion (s.submissionRecord requestId)

def withdrawLastQueued (now : Nat) : PerSessionCockpit × Option WithdrawalWait :=
  match s.withdrawalTargetFor now with
  | (s', some target) => (s', some (.withdraw target (s'.currentVersion target.requestId)))
  | (s', none) => (s', none)

def reconcileWithdrawalAfterLoss (target : PendingWithdrawal) : Option WithdrawalWait :=
  if s.matchingWithdrawalRecovery target.requestId then none
  else some (.status target (s.currentVersion target.requestId))

def statusFollowUp (target : PendingWithdrawal) (activeObservedVersion : Int) (now : Nat)
    (lookup : Option SubmissionStatusWire) : PerSessionCockpit × Option WithdrawalWait :=
  if s.matchingWithdrawalRecovery target.requestId then (s, none)
  else
    match lookup with
    | none =>
      (s.markNotRetained target
        ("withdraw response was lost and the request is not retained; withdrawal is unavailable and " ++
          "the draft was not restored") now (s.currentVersion target.requestId), none)
    | some submission =>
      if submission.state = .queued then (s, some (.retry target activeObservedVersion))
      else
        (s.applyLifecycleObservation target.requestId (.server submission.state) submission.detail now
          (s.currentVersion target.requestId) (ownedBy target), none)

def convergenceCatch (target : PendingWithdrawal) (error : StatusError) (activeObservedVersion : Int) (now : Nat) :
    PerSessionCockpit :=
  match error with
  | .epochMismatch detail => s.markGenerationLost target detail now activeObservedVersion
  | .failed _ => s

def withdrawalAnswered (now : Nat) : WithdrawalWait → WithdrawalReply → Option (PerSessionCockpit × Option WithdrawalWait)
  | .withdraw target version, .withdrawal (.ok result) => some (s.applyWithdrawalResult target result version now, none)
  | .withdraw target version, .withdrawal (.error (.epochMismatch detail)) =>
    some (s.markGenerationLost target detail now version, none)
  | .withdraw target _, .withdrawal (.error (.failed _)) => some (s, s.reconcileWithdrawalAfterLoss target)
  | .status target version, .status (.ok lookup) => some (s.statusFollowUp target version now lookup)
  | .status target version, .status (.error e) => some (s.convergenceCatch target e version now, none)
  | .retry target _, .withdrawal (.ok result) =>
    some (s.applyWithdrawalResult target result (s.currentVersion target.requestId) now, none)
  | .retry target version, .withdrawal (.error e) => some (s.convergenceCatch target e version now, none)
  | _, _ => none

def restoreWithdrawnRecovery (requestId : RequestId) (expectedDraftRevision now : Nat) : PerSessionCockpit :=
  match s.withdrawal with
  | some (.recovery held text _) =>
    if held ≠ requestId then s
    else
      match s.replaceComposerDraftIfRevision expectedDraftRevision text with
      | none => s
      | some replaced =>
        ((replaced.note (.restored requestId text)).applyProjectedRecord
          ((replaced.submissionRecord requestId).map fun record =>
            { record with
              restoredAt := some now
              updatedAt := now })).setWithdrawal none
  | _ => s

def dismissWithdrawnRecovery (requestId : RequestId) (expectedDraftRevision now : Nat) : PerSessionCockpit :=
  match s.dismissWithdrawalRecoveryIfMatches requestId expectedDraftRevision with
  | none => s
  | some dismissed =>
    (dismissed.note (.dismissed requestId)).applyProjectedRecord
      ((dismissed.submissionRecord requestId).map fun record =>
        { record with
          detail := some "withdrawn before dispatch · current draft kept; withdrawn text dismissed"
          recoveryDismissedAt := some now
          updatedAt := now })

end PerSessionCockpit

/-! ## A session of the browser

Everything that runs on one session's cockpit between two awaits is one step:
an operator's or a program's call, or the rest of a call after an answer.
Answers come in any order, and which come is free. A poll may be started at any
time, as several may be under way.
-/

open Lib

inductive Waiting
  -- `submitSessionText` waits for the bridge epoch.
  | authority (text : String) (source : SubmitSource) (clearDraftOnAccept : Bool) (revision : Nat)
  | driver (lifecycle : Bool) (w : DriverWait)
  | poll (p : PollWait)
  | withdrawal (w : WithdrawalWait)

inductive Call
  -- `ready` is the gate of the session.
  | submitSessionText (ready : Bool) (text : String) (source : SubmitSource) (clearDraftOnAccept : Bool)
  | submitSessionDraft (ready : Bool)
  | keepWaitingForSubmit (lifecycle : Bool) (requestId : RequestId)
  | releaseSubmitDraft (requestId : RequestId)
  | retryRouteFailure (lifecycle : Bool) (requestId : RequestId) (candidateText : String)
  | pollSubmissionLifecycleOnce
  | withdrawLastQueuedSubmission
  | restoreWithdrawnRecovery (requestId : RequestId) (expectedDraftRevision : Nat)
  | dismissWithdrawnRecovery (requestId : RequestId) (expectedDraftRevision : Nat)
  | setComposerDraft (draft : String)
  -- An interaction that took the draft as its answer.
  | clearComposerDraftIfRevision (revision : Nat)

inductive Reply
  | authority (bridgeEpoch : Option String)
  | driver (r : DriverReply)
  | statusBatch (answer : Except StatusError StatusBatch)
  | withdrawal (r : WithdrawalReply)

inductive Action
  | call (c : Call) (now : Nat)
  | resume (i : Nat) (r : Reply) (now : Nat)

/-- A task that has ended leaves its place. -/
structure World where
  cockpit : PerSessionCockpit
  tasks : List (Option Waiting)

def DriverNext.waiting (lifecycle : Bool) : DriverNext → Option Waiting
  | .wait w => some (.driver lifecycle w)
  | .final _ => none

namespace PerSessionCockpit

variable (s : PerSessionCockpit)

def driveOn (lifecycle : Bool) (turn : DriverTurn) : PerSessionCockpit × Option Waiting :=
  (s.drive turn, turn.next.waiting lifecycle)

def submitText (ready : Bool) (text : String) (source : SubmitSource) (clearDraftOnAccept : Bool) (revision : Nat) :
    PerSessionCockpit × Option Waiting :=
  if text = "" ∨ ready = false ∨ s.submitHistory.values.any isActiveSubmit then (s, none)
  else (s, some (.authority text source clearDraftOnAccept revision))

def startSubmit (text : String) (source : SubmitSource) (clearDraftOnAccept : Bool) (revision : Nat) (bridgeEpoch : String)
    (now : Nat) : PerSessionCockpit × Option Waiting :=
  { s with issued := s.issued + 1 }.driveOn true (executeReliableSubmit
    { requestId := s.issued
      text := text
      expectedBridgeEpoch := bridgeEpoch
      source := source
      submittedRevision := revision
      clearDraftOnAccept := clearDraftOnAccept
      updatedAt := now } now)

def keepWaiting (lifecycle : Bool) (requestId : RequestId) (now : Nat) : PerSessionCockpit × Option Waiting :=
  match (s.submissionRecord requestId).filter fun record => record.phase = .endgame with
  | none => (s, none)
  | some record => s.driveOn lifecycle (continueReliableReconcile record now)

def releaseSubmit (requestId : RequestId) (now : Nat) : PerSessionCockpit :=
  s.applyProjectedRecord (((s.submissionRecord requestId).filter fun record => record.phase = .endgame).map fun record =>
    releaseDraft record now)

def retryRoute (lifecycle : Bool) (requestId : RequestId) (candidateText : String) (now : Nat) :
    PerSessionCockpit × Option Waiting :=
  match (s.submissionRecord requestId).filter fun record => record.phase = .routeError with
  | none => (s, none)
  | some previous =>
    s.driveOn lifecycle (executeReliableSubmit
      { previous with
        phase := .sending
        routeFailure := none
        detail := retryNotice previous candidateText
        updatedAt := now } now)

def withdrawLast (now : Nat) : PerSessionCockpit × Option Waiting :=
  if s.withdrawalInFlight then (s, none)
  else
    match s.withdrawLastQueued now with
    | (s', some w) => ({ s' with withdrawalInFlight := true }, some (.withdrawal w))
    | (s', none) => (s', none)

def run (now : Nat) : Call → PerSessionCockpit × Option Waiting
  | .submitSessionText ready text source clear => s.submitText ready text source clear s.composer.draftRevision
  | .submitSessionDraft ready => s.submitText ready s.composer.draft .composer true s.composer.draftRevision
  | .keepWaitingForSubmit lifecycle requestId => s.keepWaiting lifecycle requestId now
  | .releaseSubmitDraft requestId => (s.releaseSubmit requestId now, none)
  | .retryRouteFailure lifecycle requestId candidateText => s.retryRoute lifecycle requestId candidateText now
  | .pollSubmissionLifecycleOnce => ((s.startPoll now).1, (s.startPoll now).2.map .poll)
  | .withdrawLastQueuedSubmission => s.withdrawLast now
  | .restoreWithdrawnRecovery requestId revision => (s.restoreWithdrawnRecovery requestId revision now, none)
  | .dismissWithdrawnRecovery requestId revision => (s.dismissWithdrawnRecovery requestId revision now, none)
  | .setComposerDraft draft => (s.setComposerDraft draft, none)
  | .clearComposerDraftIfRevision revision => (s.clearComposerDraftIfRevision revision, none)

def afterWithdrawal (w : Option WithdrawalWait) : PerSessionCockpit × Option Waiting :=
  match w with
  | some w => (s, some (.withdrawal w))
  | none => ({ s with withdrawalInFlight := false }, none)

def resume (now : Nat) : Waiting → Reply → Option (PerSessionCockpit × Option Waiting)
  | .authority text source clear revision, .authority (some bridgeEpoch) =>
    some (s.startSubmit text source clear revision bridgeEpoch now)
  | .authority .., .authority none => some (s, none)
  | .driver lifecycle w, .driver r =>
    if r.due w.bounds.deadlineAt now then (w.resume lifecycle now r).map (s.driveOn lifecycle) else none
  | .poll p, .statusBatch answer => some ((s.pollAnswered p answer).1, (s.pollAnswered p answer).2.map .poll)
  | .withdrawal w, .withdrawal r =>
    (s.withdrawalAnswered now w r).map fun next => next.1.afterWithdrawal next.2
  | _, _ => none

end PerSessionCockpit

namespace World

def step (w : World) : Action → Option World
  | .call c now => some ⟨(w.cockpit.run now c).1, w.tasks ++ [(w.cockpit.run now c).2]⟩
  | .resume i r now =>
    match w.tasks[i]? with
    | some (some waiting) => (w.cockpit.resume now waiting r).map fun next => ⟨next.1, w.tasks.set i next.2⟩
    | _ => none

end World

def cockpitSystem : System World Action := ⟨⟨emptyPerSession, []⟩, World.step⟩

end AgentsRemember.Cockpit
