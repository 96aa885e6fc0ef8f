import AgentsRemember.Harness.Records
import AgentsRemember.Lib.Dict

/-!
# What a control channel retains

A withdrawal, its recovery, the submit journal and the staged assets, with the
assembly of a recovery from them. Bytes in the spool are left out; digests,
references and fingerprints are parameters.
-/

namespace AgentsRemember.Control

open Lib
open Harness (SubmissionLifecycleState SubmissionSource ControlOperationKind AssetReference WithdrawalResult)

structure AuthorizationBinding where
  principalId : String
  tenantId : String

structure OperationIdentity where
  kind : String
  operationId : String
  sequence : Nat
  deriving DecidableEq

inductive RefPurpose
  | operationRef | recoveryRef | recoveryAssetRef

structure RefTarget where
  identity : OperationIdentity
  withdrawRequestId : Option String := none
  assetId : Option String := none

/-- What one channel is given: its epoch, the clock, and the functions that hash and sign. -/
structure Service where
  bridgeEpoch : String
  clock : Lib.Clock
  payloadDigest : String → List AssetReference → String
  mintRef : AuthorizationBinding → RefPurpose → RefTarget → String
  operationFingerprint : AuthorizationBinding → OperationIdentity → String → String

/-- `none`: the stamp is no timestamp. -/
def isoSecondsAfter (clock : Lib.Clock) (stamp : String) (seconds : Nat) : Option String :=
  (clock.parse stamp).map fun moment => clock.format ⟨moment.utc + seconds * 1000000, some 0⟩

def isoExpired (clock : Lib.Clock) (stamp now : String) : Option Bool := do
  let moment ← clock.parse stamp
  let current ← clock.parse now
  some (moment.utc ≤ current.utc)

/-! ## Assets -/

inductive AltProvenance
  | suppliedDescription | filenameMimeFallback
  deriving DecidableEq

inductive AssetKind
  | image | file | resource
  deriving DecidableEq

structure AssetRecord where
  assetId : String
  kind : AssetKind
  name : String
  mimeType : String
  sizeBytes : Nat
  sha256 : String
  alt : String
  altProvenance : AltProvenance
  consumed : Bool

inductive AttachmentPhase
  | staging | staged | queued | dispatching | accepted | recoverable | failed | expired | unknown
  deriving DecidableEq

inductive AttachmentOutcome
  | pending | accepted | rejected | withdrawn | failed | expired | unknown

structure AttachmentOperation where
  revision : Nat
  phase : AttachmentPhase
  outcome : AttachmentOutcome
  assets : List AssetRecord
  recoveryExpiresAt : Option String

def markRecoverable (attachments : Dict String AttachmentOperation) (requestId recoveryExpiresAt : String) :
    Dict String AttachmentOperation × List AssetRecord :=
  match attachments.get? requestId with
  | none => (attachments, [])
  | some operation =>
    let marked : AttachmentOperation :=
      if operation.phase ∈ [.staged, .queued, .dispatching, .unknown] then
        { revision := operation.revision + 1
          phase := .recoverable
          outcome := .withdrawn
          assets := operation.assets.map fun asset => { asset with consumed := false }
          recoveryExpiresAt := some recoveryExpiresAt }
      else operation
    (attachments.set requestId marked, marked.assets.filter fun asset => !asset.consumed)

def deleteRecoverable (attachments : Dict String AttachmentOperation) (requestId : String) :
    Dict String AttachmentOperation :=
  match attachments.get? requestId with
  | none => attachments
  | some operation =>
    if operation.phase ≠ .recoverable then attachments
    else attachments.set requestId
      { operation with revision := operation.revision + 1, phase := .expired, outcome := .expired, recoveryExpiresAt := none }

structure AttachmentRecoveryRef where
  recoveryAssetRef : String
  revision : Nat
  kind : AssetKind
  name : String
  mimeType : String
  sizeBytes : Nat
  sha256 : String
  alt : String
  altProvenance : AltProvenance
  expiresAt : String
  deriving DecidableEq

def attachmentRecoveryRef (service : Service) (authorization : AuthorizationBinding) (identity : OperationIdentity)
    (withdrawRequestId : String) (asset : AssetRecord) (expiresAt : String) : AttachmentRecoveryRef where
  recoveryAssetRef := service.mintRef authorization .recoveryAssetRef ⟨identity, some withdrawRequestId, some asset.assetId⟩
  revision := 1
  kind := asset.kind
  name := asset.name
  mimeType := asset.mimeType
  sizeBytes := asset.sizeBytes
  sha256 := asset.sha256
  alt := asset.alt
  altProvenance := asset.altProvenance
  expiresAt := expiresAt

/-! ## Withdrawals and recoveries -/

structure JournalEntry where
  text : String
  contentDigest : String
  draftRevision : Option Nat

inductive RecoveryState
  | none | recoveryUnacknowledged | acknowledged | expired
  deriving DecidableEq

structure RecoveryRecord where
  recoveryRef : String
  withdrawRequestId : String
  operation : OperationIdentity
  revision : Nat
  state : RecoveryState
  text : Option String
  contentDigest : String
  submittedDraftRevision : Option Nat
  attachmentRefs : List AttachmentRecoveryRef
  expiresAt : String
  deriving DecidableEq

structure WithdrawalRecovery where
  recoveryRef : String
  text : String
  contentDigest : String
  submittedDraftRevision : Option Nat
  attachments : List AttachmentRecoveryRef

inductive WithdrawalPhase
  | requested | linearizing | settled | unknown
  deriving DecidableEq

inductive FailedOutcome
  | alreadyDispatching | deliveryUnknown | epochMismatch | notFound | requestConflict
  deriving DecidableEq

inductive WithdrawalOutcome
  | pending | withdrawn | failed (outcome : FailedOutcome)
  deriving DecidableEq

structure WithdrawnQueueResponse where
  withdrawRequestId : String
  requestFingerprint : String
  revision : Nat
  operationRef : String
  withdrawnAt : String
  recovery : WithdrawalRecovery

structure FailedWithdrawalResponse where
  withdrawRequestId : String
  requestFingerprint : String
  revision : Nat
  outcome : FailedOutcome
  operationRef : String
  detail : String

inductive Response
  | withdrawn (response : WithdrawnQueueResponse)
  | failed (response : FailedWithdrawalResponse)

def Response.operationRef : Response → String
  | withdrawn response => response.operationRef
  | failed response => response.operationRef

structure WithdrawalRecord where
  withdrawRequestId : String
  fingerprint : String
  revision : Nat
  bridgeEpoch : String
  operation : OperationIdentity
  phase : WithdrawalPhase
  outcome : WithdrawalOutcome
  detail : Option String
  withdrawnAt : Option String
  recoveryState : RecoveryState
  recoveryRef : Option String
  recoveryExpiresAt : Option String
  response : Response

structure WithdrawalOperationProjection where
  withdrawRequestId : String
  requestFingerprint : String
  operationRef : String
  revision : Nat
  phase : WithdrawalPhase
  outcome : WithdrawalOutcome
  recoveryState : RecoveryState
  recoveryExpiresAt : Option String

def allowedProducts : List (WithdrawalPhase × WithdrawalOutcome × RecoveryState) :=
  [(.requested, .pending, .none), (.linearizing, .pending, .none), (.unknown, .failed .deliveryUnknown, .none),
    (.settled, .withdrawn, .recoveryUnacknowledged), (.settled, .withdrawn, .acknowledged), (.settled, .withdrawn, .expired),
    (.settled, .failed .alreadyDispatching, .none), (.settled, .failed .epochMismatch, .none),
    (.settled, .failed .notFound, .none), (.settled, .failed .requestConflict, .none)]

/-- `none`: the wire model refuses the product of phase, outcome and recovery, or its expiry. -/
def withdrawalProjection (record : WithdrawalRecord) : Option WithdrawalOperationProjection :=
  if (record.phase, record.outcome, record.recoveryState) ∉ allowedProducts then none
  else if record.recoveryState = .recoveryUnacknowledged ∧ record.recoveryExpiresAt = none then none
  else if record.recoveryState = .none ∧ record.recoveryExpiresAt ≠ none then none
  else some
    { withdrawRequestId := record.withdrawRequestId
      requestFingerprint := record.fingerprint
      operationRef := record.response.operationRef
      revision := record.revision
      phase := record.phase
      outcome := record.outcome
      recoveryState := record.recoveryState
      recoveryExpiresAt := record.recoveryExpiresAt }

/-! ## Assembling a recovery -/

def recoveryText (recovery : Option Harness.WithdrawalRecovery) (journal : Option JournalEntry) : Option String :=
  match recovery.bind Harness.WithdrawalRecovery.text with
  | some text => some text
  | none => journal.map JournalEntry.text

def recoveryDigest (service : Service) (text : Option String) (substrateAssets : List AssetReference)
    (journal : Option JournalEntry) : String :=
  match text, journal with
  | some text, _ => service.payloadDigest text substrateAssets
  | none, some journal => journal.contentDigest
  | none, none => service.payloadDigest "" []

def recoveryPayload (recoveryRef : String) (text : Option String) (digest : String) (draftRevision : Option Nat)
    (attachmentRefs : List AttachmentRecoveryRef) : WithdrawalRecovery where
  recoveryRef := recoveryRef
  text := text.getD ""
  contentDigest := digest
  submittedDraftRevision := draftRevision
  attachments := attachmentRefs

def replayResponse (record : WithdrawalRecord) : Response :=
  match record.response with
  | .withdrawn response =>
    if record.recoveryState = .acknowledged ∨ record.recoveryState = .expired then
      .withdrawn { response with recovery := { response.recovery with text := "", attachments := [] } }
    else .withdrawn response
  | .failed response => .failed response

/-- The text a reply carries; an empty one is no content. -/
def Response.text : Response → String
  | withdrawn response => response.recovery.text
  | failed _ => ""

variable {record : WithdrawalRecord} {result : WithdrawalResult}

theorem replayResponse_text (h : (replayResponse record).text ≠ "") :
    record.recoveryState ≠ .acknowledged ∧ record.recoveryState ≠ .expired ∧ record.response.text ≠ "" := by
  unfold replayResponse at h
  cases hr : record.response with
  | failed response => simp [hr, Response.text] at h
  | withdrawn response =>
    by_cases hs : record.recoveryState = .acknowledged ∨ record.recoveryState = .expired
    · simp [hr, hs, Response.text] at h
    rw [not_or] at hs
    simp only [hr, hs, or_self, if_false] at h
    exact ⟨hs.1, hs.2, h⟩

/-! ## Withdrawals and their recoveries

What each call does between two of its awaits. A withdrawal record is an object
that a call may still hold after its request id is gone from the channel, so the
channel maps request ids to places in a list of all records ever made.
-/

def maxWithdrawalsPerChannel : Nat := 64

def maxRecoveriesPerChannel : Nat := 32

def recoveryTtlSeconds : Nat := 900

structure Channel where
  records : List WithdrawalRecord
  withdrawals : Dict String Nat
  recoveries : Dict String RecoveryRecord
  attachments : Dict String AttachmentOperation
  journal : Dict String JournalEntry

namespace Channel

def empty : Channel := ⟨[], .empty, .empty, .empty, .empty⟩

def withdrawal (c : Channel) (withdrawRequestId : String) : Option (Nat × WithdrawalRecord) := do
  let i ← c.withdrawals.get? withdrawRequestId
  let record ← c.records[i]?
  some (i, record)

def modifyRecord (c : Channel) (i : Nat) (f : WithdrawalRecord → WithdrawalRecord) : Channel :=
  { c with records := c.records.modify i f }

def moveToEnd (c : Channel) (withdrawRequestId : String) : Channel :=
  { c with withdrawals := c.withdrawals.moveToEnd withdrawRequestId }

end Channel

def WithdrawalRecord.expire (record : WithdrawalRecord) : WithdrawalRecord :=
  if record.recoveryState = .recoveryUnacknowledged then
    { record with recoveryState := .expired, revision := record.revision + 1 }
  else record

def WithdrawalRecord.acknowledge (record : WithdrawalRecord) : WithdrawalRecord :=
  { record with recoveryState := .acknowledged, revision := record.revision + 1 }

def RecoveryRecord.dispose (recovery : RecoveryRecord) (state : RecoveryState) : RecoveryRecord :=
  { recovery with state := state, revision := recovery.revision + 1, text := none }

def RecoveryRecord.live (recovery : RecoveryRecord) : Bool := recovery.state = .recoveryUnacknowledged

namespace Channel

def modifyWithdrawal (c : Channel) (withdrawRequestId : String) (f : WithdrawalRecord → WithdrawalRecord) : Channel :=
  match c.withdrawals.get? withdrawRequestId with
  | none => c
  | some i => c.modifyRecord i f

def expireRecovery (c : Channel) (key : String) (recovery : RecoveryRecord) : Channel :=
  Channel.modifyWithdrawal
    { c with
      recoveries := c.recoveries.set key (recovery.dispose .expired)
      attachments := deleteRecoverable c.attachments recovery.operation.operationId }
    recovery.withdrawRequestId WithdrawalRecord.expire

def leaseOver (service : Service) (now : String) (recovery : RecoveryRecord) : Bool :=
  recovery.live && isoExpired service.clock recovery.expiresAt now = some true

def sweepLoop (service : Service) (now : String) : Channel → List (String × RecoveryRecord) → Channel × List RecoveryRecord
  | c, [] => (c, [])
  | c, (key, recovery) :: rest =>
    if leaseOver service now recovery then
      let out := sweepLoop service now (c.expireRecovery key recovery) rest
      (out.1, recovery :: out.2)
    else sweepLoop service now c rest

def sweepRecoveries (service : Service) (c : Channel) (now : String) : Channel × List RecoveryRecord :=
  sweepLoop service now c c.recoveries.entries

/-! ## Retention -/

def disposable (c : Channel) (i : Nat) : Bool :=
  match c.records[i]? with
  | some record => record.recoveryState ≠ .recoveryUnacknowledged
  | none => false

def withdrawalVictim (c : Channel) : Option String :=
  match c.withdrawals.entries.find? fun e => c.disposable e.2 with
  | some e => some e.1
  | none => c.withdrawals.keys.head?

def evictWithdrawals : Nat → Channel → Channel
  | 0, c => c
  | n + 1, c =>
    match c.withdrawalVictim with
    | none => c
    | some victim => evictWithdrawals n { c with withdrawals := c.withdrawals.erase victim }

def storeWithdrawal (c : Channel) (record : WithdrawalRecord) : Channel :=
  let withdrawals := c.withdrawals.set record.withdrawRequestId c.records.length
  evictWithdrawals (withdrawals.entries.length - maxWithdrawalsPerChannel)
    { c with records := c.records ++ [record], withdrawals := withdrawals }

/-- The loop of `_store_recovery`: every turn pops the oldest recovery. The withdrawal of the popped one is left alone. -/
def evictRecoveries : Nat → Channel → Channel × List RecoveryRecord
  | 0, c => (c, [])
  | n + 1, c =>
    match c.recoveries.entries with
    | [] => (c, [])
    | (victimKey, victim) :: _ =>
      let attachments :=
        if victim.live then deleteRecoverable c.attachments victim.operation.operationId else c.attachments
      let out := evictRecoveries n { c with recoveries := c.recoveries.erase victimKey, attachments := attachments }
      (out.1, victim :: out.2)

def storeRecovery (c : Channel) (recovery : RecoveryRecord) : Channel × List RecoveryRecord :=
  let recoveries := c.recoveries.set recovery.withdrawRequestId recovery
  evictRecoveries (recoveries.entries.length - maxRecoveriesPerChannel) { c with recoveries := recoveries }

def findRecovery (c : Channel) (recoveryRef : String) : Option (String × RecoveryRecord) :=
  c.recoveries.entries.find? fun e => e.2.recoveryRef = recoveryRef

end Channel

/-! ## Building a withdrawal record -/

structure WithdrawalTicket where
  epoch : String
  identity : OperationIdentity
  operationRef : String
  fingerprint : String
  withdrawRequestId : String

def settledFailure (ticket : WithdrawalTicket) (outcome : FailedOutcome) (detail : String) : WithdrawalRecord where
  withdrawRequestId := ticket.withdrawRequestId
  fingerprint := ticket.fingerprint
  revision := 1
  bridgeEpoch := ticket.epoch
  operation := ticket.identity
  phase := .settled
  outcome := .failed outcome
  detail := some detail
  withdrawnAt := none
  recoveryState := .none
  recoveryRef := none
  recoveryExpiresAt := none
  response := .failed ⟨ticket.withdrawRequestId, ticket.fingerprint, 1, outcome, ticket.operationRef, detail⟩

def unknownWithdrawal (ticket : WithdrawalTicket) (detail : String) : WithdrawalRecord where
  withdrawRequestId := ticket.withdrawRequestId
  fingerprint := ticket.fingerprint
  revision := 1
  bridgeEpoch := ticket.epoch
  operation := ticket.identity
  phase := .unknown
  outcome := .failed .deliveryUnknown
  detail := some detail
  withdrawnAt := none
  recoveryState := .none
  recoveryRef := none
  recoveryExpiresAt := none
  response := .failed ⟨ticket.withdrawRequestId, ticket.fingerprint, 1, .deliveryUnknown, ticket.operationRef,
    "withdrawal response was lost after request bytes were sent: " ++ detail⟩

def stateText (state : Option SubmissionLifecycleState) : String := (state.map SubmissionLifecycleState.text).getD "None"

/-- `none`: the withdrawal took place. -/
def failureForResult (ticket : WithdrawalTicket) (result : WithdrawalResult) : Option WithdrawalRecord :=
  match result.outcome with
  | .notFound =>
    some (settledFailure ticket .notFound
      ((pyOr result.detail (some "submission is not retained for this cockpit authority")).getD ""))
  | .withdrawn => none
  | .notWithdrawable =>
    let outcome : FailedOutcome :=
      if result.state = some .dispatching then .alreadyDispatching
      else if result.state = some .unknown then .deliveryUnknown
      else .notFound
    some (settledFailure ticket outcome
      ((pyOr result.detail (some ("submission is already " ++ stateText result.state))).getD ""))

structure Offer where
  recoveryRef : String
  text : Option String
  contentDigest : String
  draftRevision : Option Nat
  attachmentRefs : List AttachmentRecoveryRef
  withdrawnAt : String
  expiresAt : String

def Offer.made (offer : Offer) : Bool := offer.text ≠ none ∨ offer.attachmentRefs ≠ []

def Offer.payload (offer : Offer) : WithdrawalRecovery :=
  recoveryPayload offer.recoveryRef offer.text offer.contentDigest offer.draftRevision offer.attachmentRefs

def withdrawnRecord (ticket : WithdrawalTicket) (detail : Option String) (offer : Offer) : WithdrawalRecord where
  withdrawRequestId := ticket.withdrawRequestId
  fingerprint := ticket.fingerprint
  revision := 1
  bridgeEpoch := ticket.epoch
  operation := ticket.identity
  phase := .settled
  outcome := .withdrawn
  detail := detail
  withdrawnAt := some offer.withdrawnAt
  recoveryState := if offer.made then .recoveryUnacknowledged else .none
  recoveryRef := if offer.made then some offer.recoveryRef else none
  recoveryExpiresAt := if offer.made then some offer.expiresAt else none
  response := .withdrawn
    ⟨ticket.withdrawRequestId, ticket.fingerprint, 1, ticket.operationRef, offer.withdrawnAt, offer.payload⟩

def offeredRecovery (ticket : WithdrawalTicket) (offer : Offer) : RecoveryRecord where
  recoveryRef := offer.recoveryRef
  withdrawRequestId := ticket.withdrawRequestId
  operation := ticket.identity
  revision := 1
  state := .recoveryUnacknowledged
  text := offer.text
  contentDigest := offer.contentDigest
  submittedDraftRevision := offer.draftRevision
  attachmentRefs := offer.attachmentRefs
  expiresAt := offer.expiresAt

/-- The offer, and the assets marked for it; `none`: the withdrawal's stamp is no timestamp. -/
def makeOffer (service : Service) (authorization : AuthorizationBinding) (c : Channel) (ticket : WithdrawalTicket)
    (result : WithdrawalResult) (now : String) : Option (Offer × Dict String AttachmentOperation) := do
  let journal := c.journal.get? ticket.identity.operationId
  let text := recoveryText result.recovery journal
  let withdrawnAt := (pyOr result.withdrawnAt (some now)).getD ""
  let expiresAt ← isoSecondsAfter service.clock withdrawnAt recoveryTtlSeconds
  let marked := markRecoverable c.attachments ticket.identity.operationId expiresAt
  some
    ({ recoveryRef := service.mintRef authorization .recoveryRef ⟨ticket.identity, some ticket.withdrawRequestId, none⟩
       text := text
       contentDigest :=
        recoveryDigest service text ((result.recovery.map Harness.WithdrawalRecovery.assets).getD []) journal
       draftRevision := journal.bind JournalEntry.draftRevision
       attachmentRefs := marked.2.map fun asset =>
        attachmentRecoveryRef service authorization ticket.identity ticket.withdrawRequestId asset expiresAt
       withdrawnAt := withdrawnAt
       expiresAt := expiresAt },
      marked.1)

def buildWithdrawnRecord (service : Service) (authorization : AuthorizationBinding) (c : Channel) (ticket : WithdrawalTicket)
    (result : WithdrawalResult) (now : String) : Option (WithdrawalRecord × Channel × List RecoveryRecord) :=
  (makeOffer service authorization c ticket result now).map fun made =>
    let c' := { c with attachments := made.2 }
    (withdrawnRecord ticket result.detail made.1,
      if made.1.made then c'.storeRecovery (offeredRecovery ticket made.1) else (c', []))

def applyWithdrawalResult (service : Service) (authorization : AuthorizationBinding) (c : Channel) (ticket : WithdrawalTicket)
    (result : WithdrawalResult) (now : String) : Option (WithdrawalRecord × Channel × List RecoveryRecord) :=
  match failureForResult ticket result with
  | some failure => some (failure, c, [])
  | none => buildWithdrawnRecord service authorization c ticket result now

variable {ticket : WithdrawalTicket}

theorem failureForResult_eq_none : failureForResult ticket result = none ↔ result.outcome = .withdrawn := by
  unfold failureForResult
  cases result.outcome <;> simp

theorem applyWithdrawalResult_cases {service : Service} {authorization : AuthorizationBinding} {c c' : Channel}
    {now : String} {evicted : List RecoveryRecord}
    (h : applyWithdrawalResult service authorization c ticket result now = some (record, c', evicted)) :
    (failureForResult ticket result = some record ∧ c' = c ∧ evicted = []) ∨
      ∃ offer attachments, result.outcome = .withdrawn ∧
        makeOffer service authorization c ticket result now = some (offer, attachments) ∧
        record = withdrawnRecord ticket result.detail offer ∧
        ((offer.made = true ∧
            Channel.storeRecovery { c with attachments := attachments } (offeredRecovery ticket offer) = (c', evicted)) ∨
          (offer.made = false ∧ c' = { c with attachments := attachments } ∧ evicted = [])) := by
  unfold applyWithdrawalResult at h
  cases hf : failureForResult ticket result with
  | some failure =>
    rw [hf] at h
    cases h
    exact Or.inl ⟨rfl, rfl, rfl⟩
  | none =>
    rw [hf] at h
    obtain ⟨⟨offer, attachments⟩, hmake, hb⟩ := Option.map_eq_some_iff.mp h
    simp only [Prod.mk.injEq] at hb
    obtain ⟨hrecord, hc⟩ := hb
    refine Or.inr ⟨offer, attachments, failureForResult_eq_none.mp hf, hmake, hrecord.symm, ?_⟩
    by_cases hm : offer.made = true
    · rw [if_pos hm] at hc
      exact Or.inl ⟨hm, hc⟩
    · rw [if_neg hm, Prod.mk.injEq] at hc
      exact Or.inr ⟨by simpa using hm, hc.1.symm, hc.2.symm⟩

def WithdrawalRecord.overwrite (record fresh : WithdrawalRecord) : WithdrawalRecord :=
  { record with
    phase := fresh.phase
    outcome := fresh.outcome
    detail := fresh.detail
    withdrawnAt := fresh.withdrawnAt
    recoveryState := fresh.recoveryState
    recoveryRef := fresh.recoveryRef
    recoveryExpiresAt := fresh.recoveryExpiresAt
    response := fresh.response
    revision := record.revision + 1 }

def redriveTicket (service : Service) (authorization : AuthorizationBinding) (record : WithdrawalRecord) : WithdrawalTicket where
  epoch := record.bridgeEpoch
  identity := record.operation
  operationRef := service.mintRef authorization .operationRef ⟨record.operation, none, none⟩
  fingerprint := record.fingerprint
  withdrawRequestId := record.withdrawRequestId

/-! ## The timeline -/

structure OperationTimelineItem where
  operationId : String
  kind : ControlOperationKind
  source : Option SubmissionSource
  state : SubmissionLifecycleState
  sequence : Nat

def OperationTimelineItem.identity (item : OperationTimelineItem) : OperationIdentity :=
  ⟨item.kind.text, item.operationId, item.sequence⟩

def liveRowStates : List SubmissionLifecycleState := [.queued, .dispatching, .unknown]

def liveRow (items : List OperationTimelineItem) (identity : OperationIdentity) : Option OperationTimelineItem :=
  items.find? fun item => item.identity = identity ∧ item.state ∈ liveRowStates

/-- Why `_drive_withdrawal` does not cross the bridge; `none`: the row is queued. -/
def refusal (ticket : WithdrawalTicket) (items : List OperationTimelineItem) : Option WithdrawalRecord :=
  match (liveRow items ticket.identity).filter fun row => row.source = some .cockpit with
  | none => some (settledFailure ticket .notFound "the operation is not a retained cockpit queue row")
  | some row =>
    if row.state = .queued then none
    else
      let outcome : FailedOutcome := if row.state = .dispatching then .alreadyDispatching else .deliveryUnknown
      some (settledFailure ticket outcome ("the queue row is already " ++ row.state.text))

end AgentsRemember.Control
