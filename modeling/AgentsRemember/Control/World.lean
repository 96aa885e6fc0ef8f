import AgentsRemember.Control.Withdrawals
import AgentsRemember.Lib.System
import AgentsRemember.Lib.Trace

/-!
# Every interleaving of the calls on one channel

A call runs until it awaits: the session lock, the timeline or the bridge. One
call at a time holds the lock, and it is handed over in order. What the bridge
answers is any result; a row it reports as withdrawn is never again listed as
queued. Refs that do not decode are not passed on: such a call only sweeps.
-/

namespace AgentsRemember.Control

open Lib
open Harness (SubmissionLifecycleState SubmissionSource ControlOperationKind AssetReference WithdrawalResult)

inductive Waiter
  | withdraw (authorization : AuthorizationBinding) (ticket : WithdrawalTicket)
  | reconcile (authorization : AuthorizationBinding) (record : Nat)

inductive Driver
  | reading (authorization : AuthorizationBinding) (ticket : WithdrawalTicket)
  | crossing (authorization : AuthorizationBinding) (ticket : WithdrawalTicket)
  | redriving (authorization : AuthorizationBinding) (record : Nat)

structure RecoveryKey where
  withdrawRequestId : String
  operation : OperationIdentity

def WithdrawalRecord.key (record : WithdrawalRecord) : RecoveryKey := ⟨record.withdrawRequestId, record.operation⟩

def RecoveryRecord.key (recovery : RecoveryRecord) : RecoveryKey := ⟨recovery.withdrawRequestId, recovery.operation⟩

def WithdrawalTicket.key (ticket : WithdrawalTicket) : RecoveryKey := ⟨ticket.withdrawRequestId, ticket.identity⟩

/-- Replies, and the recoveries that were acknowledged, expired or evicted. -/
inductive Event
  | replied (key : RecoveryKey) (response : Response)
  | projected (key : RecoveryKey) (projection : WithdrawalOperationProjection)
  | fetched (key : RecoveryKey) (recovery : WithdrawalRecovery)
  | disposed (key : RecoveryKey)

structure World where
  channel : Channel
  driver : Option Driver
  waiting : List Waiter
  withdrawn : List OperationIdentity
  history : List Event

inductive CrossingOutcome
  | answered (result : WithdrawalResult)
  | epochMismatch
  | notSent
  | maybeSent (message : String)
  | controlError (message : String)

inductive Disposition
  | replaceCurrentDraft | keepCurrentDraft
  deriving DecidableEq

/-- `abandon`: the lock holder raises or is cancelled; `rowWithdrawn`: a crossing nobody waits for takes effect. -/
inductive Action
  | withdraw (authorization : AuthorizationBinding) (identity : OperationIdentity) (operationRef withdrawRequestId now : String)
  | withdrawStatus (authorization : AuthorizationBinding) (identity : OperationIdentity) (withdrawRequestId : String)
      (reconcile : Bool) (now : String)
  | fetchRecovery (recoveryRef now : String)
  | acknowledgeRecovery (recoveryRef : String) (disposition : Disposition) (now : String)
  | sweep (now : String)
  | acquire
  | cancelWaiter (position : Nat)
  | timeline (items : List OperationTimelineItem)
  | crossed (outcome : CrossingOutcome) (now : String)
  | abandon
  | submits (journal : Dict String JournalEntry) (attachments : Dict String AttachmentOperation)
  | rowWithdrawn (identity : OperationIdentity)

namespace World

def init : World := ⟨.empty, none, [], [], []⟩

def log (w : World) (events : List Event) : World := { w with history := w.history ++ events }

def disposals (recoveries : List RecoveryRecord) : List Event := recoveries.map fun recovery => .disposed recovery.key

def sweep (service : Service) (w : World) (now : String) : World :=
  let out := w.channel.sweepRecoveries service now
  { w with channel := out.1 }.log (disposals out.2)

def reply (w : World) (record : WithdrawalRecord) (response : Response) : World := w.log [.replied record.key response]

/-- The projection of a record, unless its wire model refuses it. -/
def project (w : World) (record : WithdrawalRecord) : World :=
  match withdrawalProjection record with
  | none => w
  | some projection => w.log [.projected record.key projection]

def enter (w : World) : Waiter → World
  | .withdraw authorization ticket =>
    match w.channel.withdrawal ticket.withdrawRequestId with
    | some (_, record) =>
      if record.fingerprint ≠ ticket.fingerprint then w else w.reply record (replayResponse record)
    | none => { w with driver := some (.reading authorization ticket) }
  | .reconcile authorization record => { w with driver := some (.redriving authorization record) }

def awaitLock (w : World) (waiter : Waiter) : World :=
  if w.driver = none ∧ w.waiting = [] then w.enter waiter else { w with waiting := w.waiting ++ [waiter] }

def withdraw (service : Service) (w : World) (authorization : AuthorizationBinding) (identity : OperationIdentity)
    (operationRef withdrawRequestId : String) : World :=
  let fingerprint := service.operationFingerprint authorization identity withdrawRequestId
  match w.channel.withdrawal withdrawRequestId with
  | some (_, record) =>
    if record.fingerprint ≠ fingerprint then w
    else { w with channel := w.channel.moveToEnd withdrawRequestId }.reply record (replayResponse record)
  | none => w.awaitLock (.withdraw authorization ⟨service.bridgeEpoch, identity, operationRef, fingerprint, withdrawRequestId⟩)

def withdrawStatus (w : World) (authorization : AuthorizationBinding) (identity : OperationIdentity)
    (withdrawRequestId : String) (reconcile : Bool) : World :=
  match w.channel.withdrawal withdrawRequestId with
  | none => w
  | some (i, record) =>
    if identity ≠ record.operation then w
    else
      let moved := { w with channel := w.channel.moveToEnd withdrawRequestId }
      if reconcile ∧ record.phase = .unknown then moved.awaitLock (.reconcile authorization i) else moved.project record

def fetchRecovery (w : World) (recoveryRef : String) : World :=
  match w.channel.findRecovery recoveryRef with
  | none => w
  | some (_, recovery) =>
    match recovery.text with
    | none => w
    | some text =>
      if recovery.live then
        w.log [.fetched recovery.key
          ⟨recovery.recoveryRef, text, recovery.contentDigest, recovery.submittedDraftRevision, recovery.attachmentRefs⟩]
      else w

def acknowledgeRecovery (w : World) (recoveryRef : String) (disposition : Disposition) : World :=
  match w.channel.findRecovery recoveryRef with
  | none => w
  | some (key, recovery) =>
    if !recovery.live then w
    else
      let disposed := { w with channel.recoveries := w.channel.recoveries.set key (recovery.dispose .acknowledged) }.log
        [.disposed recovery.key]
      match disposed.channel.withdrawal recovery.withdrawRequestId with
      | none => disposed
      | some (i, record) =>
        let c := disposed.channel.modifyRecord i WithdrawalRecord.acknowledge
        let c := if disposition = .keepCurrentDraft then
          { c with attachments := deleteRecoverable c.attachments record.operation.operationId } else c
        { disposed with channel := c }.project record.acknowledge

def settle (w : World) (record : WithdrawalRecord) : World :=
  { w with channel := w.channel.storeWithdrawal record, driver := none }.reply record record.response

def timeline (w : World) (items : List OperationTimelineItem) : Option World :=
  if items.any (fun item => item.state = .queued ∧ item.identity ∈ w.withdrawn) then none
  else
    match w.driver with
    | some (.reading authorization ticket) =>
      match refusal ticket items with
      | some failure => some (w.settle failure)
      | none => some { w with driver := some (.crossing authorization ticket) }
    | _ => none

def noteWithdrawn (w : World) (identity : OperationIdentity) (result : WithdrawalResult) : World :=
  if result.outcome = .withdrawn then { w with withdrawn := w.withdrawn ++ [identity] } else w

def release (w : World) : World := { w with driver := none }

def driven (service : Service) (w : World) (authorization : AuthorizationBinding) (ticket : WithdrawalTicket)
    (outcome : CrossingOutcome) (now : String) : World :=
  match outcome with
  | .answered result =>
    let noted := w.noteWithdrawn ticket.identity result
    match applyWithdrawalResult service authorization w.channel ticket result now with
    | none => noted.release
    | some (record, c, evicted) => ({ noted with channel := c }.log (disposals evicted)).settle record
  | .epochMismatch =>
    w.settle (settledFailure ticket .epochMismatch "the bridge epoch flipped while the withdrawal crossed")
  | .maybeSent message => w.settle (unknownWithdrawal ticket message)
  | .notSent => w.release
  | .controlError _ => w.release

def redriven (service : Service) (w : World) (authorization : AuthorizationBinding) (i : Nat) (record : WithdrawalRecord)
    (outcome : CrossingOutcome) (now : String) : World :=
  match outcome with
  | .answered result =>
    let noted := w.noteWithdrawn record.operation result
    match applyWithdrawalResult service authorization w.channel (redriveTicket service authorization record) result now with
    | none => noted.release
    | some (fresh, c, evicted) =>
      (({ noted with channel := c.modifyRecord i fun record => record.overwrite fresh }.log (disposals evicted)).release).project
        (record.overwrite fresh)
  | .epochMismatch => w.release
  | .notSent => w.release
  | .maybeSent _ => w.release.project record
  | .controlError message =>
    { w with channel := w.channel.modifyRecord i fun record => { record with detail := some message } }.release.project
      { record with detail := some message }

def crossed (service : Service) (w : World) (outcome : CrossingOutcome) (now : String) : Option World :=
  match w.driver with
  | some (.crossing authorization ticket) => some (w.driven service authorization ticket outcome now)
  | some (.redriving authorization i) =>
    (w.channel.records[i]?).map fun record => w.redriven service authorization i record outcome now
  | _ => none

def acquire (w : World) : Option World :=
  match w.driver, w.waiting with
  | none, waiter :: rest => some ({ w with waiting := rest }.enter waiter)
  | _, _ => none

def step (service : Service) (w : World) : Action → Option World
  | .withdraw authorization identity operationRef withdrawRequestId now =>
    some ((w.sweep service now).withdraw service authorization identity operationRef withdrawRequestId)
  | .withdrawStatus authorization identity withdrawRequestId reconcile now =>
    some ((w.sweep service now).withdrawStatus authorization identity withdrawRequestId reconcile)
  | .fetchRecovery recoveryRef now => some ((w.sweep service now).fetchRecovery recoveryRef)
  | .acknowledgeRecovery recoveryRef disposition now => some ((w.sweep service now).acknowledgeRecovery recoveryRef disposition)
  | .sweep now => some (w.sweep service now)
  | .acquire => w.acquire
  | .cancelWaiter position => some { w with waiting := w.waiting.eraseIdx position }
  | .timeline items => w.timeline items
  | .crossed outcome now => w.crossed service outcome now
  | .abandon => w.driver.map fun _ => w.release
  | .submits journal attachments => some { w with channel := { w.channel with journal := journal, attachments := attachments } }
  | .rowWithdrawn identity => some { w with withdrawn := w.withdrawn ++ [identity] }

end World

def withdrawalSystem (service : Service) : System World Action := ⟨World.init, World.step service⟩

end AgentsRemember.Control
