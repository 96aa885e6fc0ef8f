import AgentsRemember.Lib.Text

/-!
# Operation records

One ordinary operation's whole life: its state, its evidence, and what it answers with.
The future a submitter waits on is not part of the record.
-/

namespace AgentsRemember.Harness

open Lib

inductive ControlOperationKind
  | prompt | setModel | setEffort
  deriving DecidableEq

def ControlOperationKind.text : ControlOperationKind → String
  | prompt => "prompt"
  | setModel => "set-model"
  | setEffort => "set-effort"

inductive SubmissionLifecycleState
  | queued | dispatching | delivered | withdrawn | unknown | rejected | unsupported
  deriving DecidableEq

def SubmissionLifecycleState.text : SubmissionLifecycleState → String
  | queued => "queued"
  | dispatching => "dispatching"
  | delivered => "delivered"
  | withdrawn => "withdrawn"
  | unknown => "unknown"
  | rejected => "rejected"
  | unsupported => "unsupported"

inductive AcceptanceState
  | immediate | queued | rejected | unknown | unsupported
  deriving DecidableEq

inductive SubmissionSource
  | cockpit | terminal | durable
  deriving DecidableEq

structure ControlOperationRef where
  bridgeEpoch : String
  sequence : Nat
  operationId : String
  kind : ControlOperationKind
  deriving DecidableEq

abbrev OperationKey := ControlOperationKind × String

def refKey (ref : ControlOperationRef) : OperationKey := (ref.kind, ref.operationId)

structure AssetReference where
  assetId : String
  mimeType : String
  byteSize : Nat
  sha256 : String
  deriving DecidableEq

structure PromptRequest where
  requestId : String
  source : SubmissionSource
  text : String
  submittedAt : String
  expectedBridgeEpoch : Option String := none
  assets : List AssetReference := []
  named : requestId ≠ "" := by decide

/-! ## Answers -/

structure SubmissionReceipt where
  requestId : String
  acceptance : AcceptanceState
  submittedAt : String
  vendorCorrelationId : Option String := none
  acceptedAt : Option String := none
  detail : Option String := none
  assetIds : List String := []
  terminalCompletion : Bool := false
  bridgeEpoch : Option String := none

inductive SetAcceptance
  | echoVerified | immediate | queued | unknown | unsupported

structure SetResult where
  ok : Bool
  acceptance : SetAcceptance
  requestedValue : String
  effectiveValue : Option String := none
  detail : Option String := none

inductive ReconciliationState
  | accepted | rejected | unresolved | unsupported
  deriving DecidableEq

structure ReconciliationResult where
  requestId : String
  state : ReconciliationState
  reconciledAt : String
  vendorCorrelationId : Option String := none
  detail : Option String := none
  bridgeEpoch : Option String := none
  submissionState : Option SubmissionLifecycleState := none

inductive WithdrawalOutcome
  | withdrawn | notWithdrawable | notFound
  deriving DecidableEq

structure WithdrawalRecovery where
  text : Option String
  assets : List AssetReference := []

structure WithdrawalResult where
  requestId : String
  outcome : WithdrawalOutcome
  state : Option SubmissionLifecycleState
  withdrawnAt : Option String := none
  detail : Option String := none
  recovery : Option WithdrawalRecovery := none

inductive OperationResolution
  | applied | notApplied
  deriving DecidableEq

structure AdapterEvent where
  sequence : Int
  kind : String
  createdAt : String
  operation : Option ControlOperationRef := none

/-! ## The record -/

structure OperationRecord where
  ref : ControlOperationRef
  state : SubmissionLifecycleState
  submittedAt : String
  updatedAt : String
  source : Option SubmissionSource := none
  payloadDigest : Option String := none
  text : Option String := none
  requestedValue : Option String := none
  acceptedAt : Option String := none
  vendorCorrelationId : Option String := none
  detail : Option String := none
  bufferedCompletionSequence : Option Int := none
  assets : List AssetReference := []

namespace OperationRecord

abbrev sequence (r : OperationRecord) : Nat := r.ref.sequence

abbrev key (r : OperationRecord) : OperationKey := refKey r.ref

def live (r : OperationRecord) : Bool := r.state = .queued ∨ r.state = .dispatching ∨ r.state = .unknown

def markTerminal (r : OperationRecord) (state : SubmissionLifecycleState) (detail : Option String) (at' : String) :
    OperationRecord :=
  { r with
    state := state
    detail := detail
    updatedAt := at'
    acceptedAt := if state = .delivered ∧ r.acceptedAt = none then some at' else r.acceptedAt
    text := none
    assets := [] }

def markUnknown (r : OperationRecord) (detail : String) (vendorCorrelationId : Option String) (at' : String) :
    OperationRecord :=
  { r with
    state := .unknown
    detail := some detail
    vendorCorrelationId := vendorCorrelationId
    updatedAt := at' }

def receipt (r : OperationRecord) (acceptance : AcceptanceState) (bridgeEpoch : String) (detail : Option String) :
    SubmissionReceipt :=
  { requestId := r.ref.operationId
    acceptance := acceptance
    submittedAt := r.submittedAt
    vendorCorrelationId := r.vendorCorrelationId
    acceptedAt := r.acceptedAt
    detail := if detail = none then r.detail else detail
    assetIds := r.assets.map AssetReference.assetId
    bridgeEpoch := some bridgeEpoch }

def duplicateReceipt (r : OperationRecord) (bridgeEpoch : String) : SubmissionReceipt :=
  let acceptance : AcceptanceState :=
    match r.state with
    | .queued => .queued
    | .dispatching => .unknown
    | .delivered => .immediate
    | .withdrawn => .rejected
    | .unknown => .unknown
    | .rejected => .rejected
    | .unsupported => .unsupported
  let detail :=
    match r.state with
    | .dispatching => some "dispatch is in flight; query status/reconcile with the same request id"
    | .withdrawn => some "the queued submission was withdrawn and will not be dispatched"
    | _ => r.detail
  r.receipt acceptance bridgeEpoch detail

/-- What this record already proves about delivery; `none` while it is ambiguous. -/
def reconciliation (r : OperationRecord) (bridgeEpoch : String) : Option ReconciliationResult :=
  let known (state : ReconciliationState) : ReconciliationResult :=
    { requestId := r.ref.operationId
      state := state
      reconciledAt := (pyOr r.acceptedAt (some r.updatedAt)).getD ""
      vendorCorrelationId := r.vendorCorrelationId
      detail := r.detail
      bridgeEpoch := some bridgeEpoch
      submissionState := some r.state }
  match r.state with
  | .unknown => none
  | .queued | .dispatching | .delivered => some (known .accepted)
  | .withdrawn | .rejected => some (known .rejected)
  | .unsupported => some (known .unsupported)

variable (r : OperationRecord) (state : SubmissionLifecycleState) (detail : Option String) (at' : String)

@[simp] theorem markTerminal_ref : (r.markTerminal state detail at').ref = r.ref := rfl

theorem reconciliation_eq_none {r : OperationRecord} {e : String} : r.reconciliation e = none ↔ r.state = .unknown := by
  unfold reconciliation
  cases r.state <;> simp

end OperationRecord

end AgentsRemember.Harness
