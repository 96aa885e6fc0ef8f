import AgentsRemember.Lib.System
import AgentsRemember.Harness.Authority
import AgentsRemember.Lib.Trace

/-!
# The dispatcher and the authority as a machine

The dispatcher task advances the timeline by one operation at a time and is
suspended at its wake event, in a preflight or in a send. `Authority.step` runs
one lock body to the next await of its task; every order of actions is a run.
-/

namespace AgentsRemember.Harness

open Lib

inductive PreflightOutcome
  | clear
  | busy (detail : String)
  | disconnected (detail : String) (mayHaveSent : Bool) (vendorCorrelationId : Option String)
  -- Any other exception: no handler, the task ends.
  | failed

inductive AdapterResult
  | receipt (r : SubmissionReceipt)
  | setResult (r : SetResult)
  | other

inductive SendOutcome
  | returned (result : AdapterResult)
  | busy (detail : String)
  | disconnected (detail : String) (mayHaveSent : Bool) (vendorCorrelationId : Option String)
  | failed (detail : String)

def validateSetResult (result : SetResult) (requestedValue : String) : Except String Unit :=
  if result.requestedValue ≠ requestedValue then .error "adapter set result does not match requested value"
  else
    match result.acceptance with
    | .echoVerified =>
      if result.ok = false ∨ result.effectiveValue = none then
        .error "echo-verified setter requires effective evidence"
      else .ok ()
    | .immediate | .queued =>
      if result.ok = false ∨ result.effectiveValue ≠ none then
        .error "accepted setter result has incoherent evidence"
      else .ok ()
    | .unknown | .unsupported =>
      if result.ok = true ∨ result.effectiveValue ≠ none then
        .error "failed setter result cannot claim effect"
      else .ok ()

namespace Authority

def rest (s : Authority) : Authority := { s with dispatcher := .waiting }

def die (s : Authority) : Authority := { s with dispatcher := .stopped }

def dispatchOne (s : Authority) : Authority :=
  match s.timeline, s.active with
  | key :: _, none =>
    match s.ledger.byKey key with
    | none => s.die
    | some record =>
      if record.state = .queued ∧ s.snapshotAllowsDispatch then { s with dispatcher := .preflight record.sequence }
      else s.rest
  | _, _ => s.rest

def markDisconnected (s : Authority) : Authority := { s with control := .disconnected, activity := .unknown }

def unknownAfterPreflightClaim (s : Authority) (r : OperationRecord) (detail : String)
    (vendorCorrelationId : Option String) (at' : String) : Authority :=
  ({ s with active := some r.key }.put (r.markUnknown detail vendorCorrelationId at')).markDisconnected

def possibleSendFailure (s : Authority) (r : OperationRecord) (detail : String)
    (vendorCorrelationId : Option String) (at' : String) : Authority :=
  (s.put (r.markUnknown detail vendorCorrelationId at')).markDisconnected

def claimable (c : Config) (s : Authority) (r : OperationRecord) : Bool :=
  s.timeline.head? = some r.key ∧ s.active = none ∧ r.state = .queued ∧ r.ref.bridgeEpoch = c.bridgeEpoch ∧
    s.snapshotAllowsDispatch

def invokable (c : Config) (r : OperationRecord) : Bool :=
  if r.ref.kind = .prompt then
    r.text.isSome ∧ r.source.isSome ∧ (r.assets = [] ∨ c.assetSubmitCapable)
  else r.requestedValue.isSome

def afterPreflight (c : Config) (s : Authority) (r : OperationRecord) (outcome : PreflightOutcome) (at' : String) :
    Authority :=
  match outcome with
  | .clear =>
    if s.claimable c r then
      let claimed := { r with state := .dispatching, updatedAt := at' }
      let s := { s with active := some r.key }.put claimed
      if invokable c claimed then { s.log (.sent r.sequence) with dispatcher := .sending r.sequence }
      else (s.possibleSendFailure claimed "" none at').rest
    else s.dispatchOne
  | .busy detail => (s.put { r with detail := some detail, updatedAt := at' }).rest
  | .disconnected detail mayHaveSent vendorCorrelationId =>
    if mayHaveSent then (s.unknownAfterPreflightClaim r detail vendorCorrelationId at').rest
    else (s.put { r with detail := some detail, updatedAt := at' }).rest
  | .failed => s.die

/-! ## Settling a send -/

def certifiedPreSendBusy (s : Authority) (r : OperationRecord) (detail at' : String) : Authority :=
  if s.active ≠ some r.key ∨ r.state ≠ .dispatching then s.die
  else
    ({ s with active := none }.put { r with state := .queued, detail := some detail, updatedAt := at' }).log
      (.unsent r.sequence) |>.rest

def incoherentMethodResult (s : Authority) (r : OperationRecord) (error at' : String) : Authority :=
  if s.active ≠ some r.key ∨ r.state ≠ .dispatching then s.die
  else (s.put (r.markUnknown ("incoherent adapter HarnessControlError: " ++ error) none at')).rest

def applyPromptReceipt (c : Config) (s : Authority) (r : OperationRecord) (result : AdapterResult) (at' : String) :
    Except String (Bool × Authority) :=
  match result with
  | .receipt receipt =>
    if receipt.requestId ≠ r.ref.operationId then .error "adapter receipt request id does not match operation"
    else
      let noted :=
        { r with
          vendorCorrelationId := receipt.vendorCorrelationId
          detail := receipt.detail
          updatedAt := at' }
      let accepted :=
        { noted with state := .delivered, acceptedAt := pyOr receipt.acceptedAt (some at') }
      match receipt.acceptance with
      | .queued =>
        -- A vendor or adapter queue escaped the common authority after dispatch crossed.
        .ok (false, s.put (r.markUnknown "adapter returned forbidden queued acceptance after dispatch"
          receipt.vendorCorrelationId at'))
      | .unknown =>
        if r.bufferedCompletionSequence ≠ none then
          .ok (true, (s.retire c accepted .delivered accepted.detail at' true).setWake)
        else
          .ok (false, s.put (noted.markUnknown
            ((pyOr receipt.detail (some "adapter could not prove prompt acceptance")).getD "")
            receipt.vendorCorrelationId at'))
      | .immediate =>
        if r.bufferedCompletionSequence = none ∧ receipt.terminalCompletion = false then .ok (false, s.put accepted)
        else .ok (true, (s.retire c accepted .delivered accepted.detail at' true).setWake)
      | .rejected => .ok (true, (s.retire c noted .rejected receipt.detail at' false).setWake)
      | .unsupported => .ok (true, (s.retire c noted .unsupported receipt.detail at' false).setWake)
  | _ => .error "adapter prompt result must be a submission receipt"

def applySetResult (c : Config) (s : Authority) (r : OperationRecord) (result : AdapterResult) (at' : String) :
    Except String (Bool × Authority) :=
  match result with
  | .setResult result =>
    match validateSetResult result (r.requestedValue.getD "") with
    | .error e => .error e
    | .ok _ =>
      let noted := { r with detail := result.detail, updatedAt := at' }
      match result.acceptance with
      | .unknown =>
        if r.bufferedCompletionSequence ≠ none then
          .ok (true, (s.retire c noted .delivered noted.detail at' true).setWake)
        else .ok (false, s.put { noted with state := .unknown })
      | .unsupported => .ok (true, (s.retire c noted .unsupported result.detail at' false).setWake)
      | _ => .ok (true, (s.retire c noted .delivered result.detail at' false).setWake)
  | _ => .error "adapter setter result must be SetResult"

def applyMethodResult (c : Config) (s : Authority) (r : OperationRecord) (result : AdapterResult) (at' : String) :
    Except String (Bool × Authority) :=
  if (s.ledger.byKey r.key).map OperationRecord.sequence ≠ some r.sequence ∨ s.active ≠ some r.key then
    .error "ordinary operation changed while adapter method ran"
  else if r.ref.kind = .prompt then s.applyPromptReceipt c r result at'
  else s.applySetResult c r result at'

def afterSend (c : Config) (s : Authority) (r : OperationRecord) (outcome : SendOutcome) (at' : String) : Authority :=
  match outcome with
  | .busy detail => s.certifiedPreSendBusy r detail at'
  | .disconnected detail mayHaveSent vendorCorrelationId =>
    if mayHaveSent then (s.possibleSendFailure r detail vendorCorrelationId at').rest
    else s.certifiedPreSendBusy r detail at'
  | .failed detail => (s.possibleSendFailure r detail none at').rest
  | .returned result =>
    match s.applyMethodResult c r result at' with
    | .error e => s.incoherentMethodResult r e at'
    | .ok (true, s) => s.dispatchOne
    | .ok (false, s) => s.rest

end Authority

/-! ## The machine -/

inductive AuthorityAction
  | submit (request : PromptRequest)
  | setModel (modelKey at' : String)
  | setEffort (effort at' : String)
  | withdraw (expectedBridgeEpoch requestId : String) (cockpitOnly : Bool) (at' : String)
  | reconcile (requestId : String) (expectedBridgeEpoch : Option String)
  | reconciled (i : Nat) (answer : Except String ReconciliationResult)
  | resolve (operationId : String) (operationKind : ControlOperationKind) (resolution : OperationResolution)
      (detail at' : String)
  | observe (event : AdapterEvent)
  | install (control : ControlState) (activity : ActivityState)
  | notifySnapshotUpdated
  | woken
  | preflighted (outcome : PreflightOutcome) (at' : String)
  | sent (outcome : SendOutcome) (at' : String)
  | closeAdmission
  | cancelDispatcher

namespace Authority

def preflighting (s : Authority) : Option OperationRecord :=
  match s.dispatcher with
  | .preflight n => s.ledger.objects n
  | _ => none

def sending (s : Authority) : Option OperationRecord :=
  match s.dispatcher with
  | .sending n => s.ledger.objects n
  | _ => none

def step (c : Config) (s : Authority) : AuthorityAction → Option Authority
  | .submit request => some (s.submit c request).2
  | .setModel modelKey at' => some (s.admitSetter c .setModel modelKey at').2
  | .setEffort effort at' => some (s.admitSetter c .setEffort effort at').2
  | .withdraw epoch requestId cockpitOnly at' => some (s.withdraw c epoch requestId cockpitOnly at').2
  | .reconcile requestId epoch => some (s.reconcile c requestId epoch).2
  | .reconciled i answer =>
    s.reconciling[i]?.map fun asked =>
      ({ s with reconciling := s.reconciling.eraseIdx i }.reconciled c asked.1 asked.2 answer).2
  | .resolve operationId kind resolution detail at' =>
    some (s.resolveOperation c operationId kind resolution detail at').2
  | .observe event => some (s.observeEvent c event).2
  | .install control activity => some { s with control := control, activity := activity }
  | .notifySnapshotUpdated => some s.setWake
  | .woken => if s.dispatcher = .waiting ∧ s.wake = true then some { s with wake := false }.dispatchOne else none
  | .preflighted outcome at' => s.preflighting.map fun r => s.afterPreflight c r outcome at'
  | .sent outcome at' => s.sending.map fun r => s.afterSend c r outcome at'
  | .closeAdmission => some { s with accepting := false }
  | .cancelDispatcher => some s.die

end Authority

def authoritySystem (c : Config) : System Authority AuthorityAction := ⟨Authority.init, Authority.step c⟩

/-! ## The lane

What the authority is for, without its snapshots, receipts and eviction order: one
lane of operations that are enrolled, claimed by one dispatcher, sent, and settled
or put back. A move takes a record to its next version; the authority's lock
bodies are runs of moves (`Simulation.lean`).
-/

structure Lane where
  epoch : String
  record : Nat → Option OperationRecord
  byKey : OperationKey → Option Nat
  promptIds : String → Option OperationKey
  sequence : Nat
  timeline : List OperationKey
  active : Option OperationKey
  dispatcher : Dispatcher
  reconciling : List ControlOperationRef
  history : List Event

namespace Lane

def start (epoch : String) : Lane :=
  ⟨epoch, fun _ => none, fun _ => none, fun _ => none, 0, [], none, .waiting, [], []⟩

def put (v : Lane) (r : OperationRecord) : Lane := { v with record := Function.update v.record r.sequence (some r) }

def unlist (v : Lane) (k : OperationKey) : Lane := { v with timeline := v.timeline.erase k }

def release (v : Lane) (k : OperationKey) : Lane :=
  { v.unlist k with active := if v.active = some k then none else v.active }

def log (v : Lane) (e : Event) : Lane := { v with history := v.history ++ [e] }

def goto (v : Lane) (d : Dispatcher) : Lane := { v with dispatcher := d }

def setActive (v : Lane) (k : Option OperationKey) : Lane := { v with active := k }

def forget (v : Lane) (i : Nat) : Lane := { v with reconciling := v.reconciling.eraseIdx i }

def enter (v : Lane) (r : OperationRecord) : Lane :=
  { v.put r with
    sequence := r.sequence
    byKey := Function.update v.byKey r.key (some r.sequence)
    promptIds := if r.ref.kind = .prompt then Function.update v.promptIds r.ref.operationId (some r.key) else v.promptIds }

def drop (v : Lane) (r : OperationRecord) : Lane :=
  { v with
    byKey := Function.update v.byKey r.key none
    promptIds := if r.ref.kind = .prompt then Function.update v.promptIds r.ref.operationId none else v.promptIds }

/-- `r` is the record the ledger answers with for its key. -/
def Retained (v : Lane) (r : OperationRecord) : Prop := v.byKey r.key = some r.sequence ∧ v.record r.sequence = some r

structure Fresh (v : Lane) (r : OperationRecord) : Prop where
  epoch : r.ref.bridgeEpoch = v.epoch
  next : r.sequence = v.sequence + 1
  named : r.ref.kind ≠ .prompt → r.ref.operationId = ordinalId v.epoch r.sequence r.ref.kind
  unused : v.byKey r.key = none
  unbuffered : r.bufferedCompletionSequence = none

end Lane

inductive Move
  | enrol (r : OperationRecord)
  | refuse (r : OperationRecord)
  | evict (r : OperationRecord)
  | withdraw (r r' : OperationRecord)
  | ask (r : OperationRecord)
  | forget (i : Nat)
  -- A reconciliation answered accepted.
  | adopt (i : Nat) (r r' : OperationRecord)
  -- A reconciliation answered rejected or unsupported.
  | dismiss (i : Nat) (r r' : OperationRecord)
  -- A reconciliation answered unresolved.
  | note (i : Nat) (r r' : OperationRecord)
  | resolve (r r' : OperationRecord)
  | observe (r r' : OperationRecord)
  | complete (r r' : OperationRecord)
  | idle
  | look (r : OperationRecord)
  | decline (r r' : OperationRecord)
  -- A barrier without a send.
  | bar (r r' : OperationRecord)
  | claim (r r' : OperationRecord)
  | requeue (r r' : OperationRecord)
  -- The send ended and nobody knows how.
  | blur (r r' : OperationRecord)
  | accept (r r' : OperationRecord)
  | finish (r r' : OperationRecord)
  | stop

def OperationRecord.past (r : OperationRecord) : Prop := r.state ≠ .queued ∧ r.state ≠ .dispatching

namespace Lane

structure Writes (v : Lane) (r r' : OperationRecord) : Prop where
  known : v.record r.sequence = some r
  same : r'.ref = r.ref

def Pending (v : Lane) (i : Nat) (r : OperationRecord) : Prop :=
  ∃ ref, v.reconciling[i]? = some ref ∧ refKey ref = r.key

def enabled (v : Lane) : Move → Prop
  | .enrol r => v.Fresh r ∧ r.state = .queued
  | .refuse r => v.Fresh r ∧ r.state = .unsupported
  | .evict r => v.Retained r ∧ r.key ∉ v.timeline ∧ v.active ≠ some r.key ∧ r.state ∈ evictableStates
  | .withdraw r r' => v.Writes r r' ∧ v.Retained r ∧ r.state = .queued ∧ r'.state = .withdrawn ∧
      r'.bufferedCompletionSequence = r.bufferedCompletionSequence
  | .ask r => v.Retained r ∧ r.state = .unknown
  | .forget _ => True
  | .adopt i r r' => v.Writes r r' ∧ v.Retained r ∧ v.Pending i r ∧ r'.state = .delivered ∧
      r'.bufferedCompletionSequence = r.bufferedCompletionSequence
  | .dismiss i r r' => v.Writes r r' ∧ v.Retained r ∧ v.Pending i r ∧ r'.past ∧ r'.state ≠ .unknown ∧
      r'.bufferedCompletionSequence = none
  | .note i r r' => v.Writes r r' ∧ v.Retained r ∧ v.Pending i r ∧ r'.state = r.state ∧
      r'.bufferedCompletionSequence = r.bufferedCompletionSequence
  | .resolve r r' => v.Writes r r' ∧ v.Retained r ∧ r.state = .unknown ∧ r'.past ∧ r'.state ≠ .unknown ∧
      r'.bufferedCompletionSequence = none
  | .observe r r' => v.Writes r r' ∧ v.Retained r ∧ v.active = some r.key ∧ r.state = .dispatching ∧
      r'.state = .dispatching ∧ r'.bufferedCompletionSequence ≠ none
  | .complete r r' => v.Writes r r' ∧ v.Retained r ∧ v.active = some r.key ∧
      (r.state = .delivered ∨ r.state = .unknown) ∧ r'.state = .delivered ∧ r'.bufferedCompletionSequence = none
  | .idle => v.dispatcher = .waiting ∨ ∃ n, v.dispatcher = .preflight n
  | .look r => v.dispatcher = .waiting ∧ v.active = none ∧ v.timeline.head? = some r.key ∧ v.Retained r ∧
      r.state = .queued
  | .decline r r' => v.Writes r r' ∧ v.dispatcher = .preflight r.sequence ∧ r'.state = r.state ∧
      r'.bufferedCompletionSequence = r.bufferedCompletionSequence
  | .bar r r' => v.Writes r r' ∧ v.dispatcher = .preflight r.sequence ∧ r'.state = .unknown ∧
      r'.bufferedCompletionSequence = r.bufferedCompletionSequence
  | .claim r r' => v.Writes r r' ∧ v.dispatcher = .preflight r.sequence ∧ v.timeline.head? = some r.key ∧
      v.active = none ∧ r.state = .queued ∧ r'.state = .dispatching ∧
      r'.bufferedCompletionSequence = r.bufferedCompletionSequence
  | .requeue r r' => v.Writes r r' ∧ v.dispatcher = .sending r.sequence ∧ v.active = some r.key ∧
      r.state = .dispatching ∧ r'.state = .queued ∧ r'.bufferedCompletionSequence = r.bufferedCompletionSequence
  | .blur r r' => v.Writes r r' ∧ v.dispatcher = .sending r.sequence ∧ r'.state = .unknown ∧
      r'.bufferedCompletionSequence = r.bufferedCompletionSequence
  | .accept r r' => v.Writes r r' ∧ v.dispatcher = .sending r.sequence ∧ v.Retained r ∧ v.active = some r.key ∧
      r.bufferedCompletionSequence = none ∧ r'.state = .delivered ∧ r'.bufferedCompletionSequence = none
  | .finish r r' => v.Writes r r' ∧ v.dispatcher = .sending r.sequence ∧ v.Retained r ∧ v.active = some r.key ∧
      r'.past ∧ r'.state ≠ .unknown ∧ r'.bufferedCompletionSequence = none
  | .stop => True

def effect (v : Lane) : Move → Lane
  | .enrol r => { v.enter r with timeline := v.timeline ++ [r.key] }
  | .refuse r => (v.enter r).log (.settled r.sequence r.state)
  | .evict r => v.drop r
  | .withdraw r r' => ((v.put r').unlist r.key).log (.settled r.sequence r'.state)
  | .ask r => { v with reconciling := v.reconciling ++ [r.ref] }
  | .forget i => v.forget i
  | .adopt i _ r' => (v.put r').forget i
  | .dismiss i r r' => (((v.put r').release r.key).log (.settled r.sequence r'.state)).forget i
  | .note i _ r' => (v.put r').forget i
  | .resolve r r' => ((v.put r').release r.key).log (.settled r.sequence r'.state)
  | .observe r r' => (v.put r').log (.observed r.sequence)
  | .complete r r' => (((v.put r').release r.key).log (.observed r.sequence)).log (.settled r.sequence r'.state)
  | .idle => v.goto .waiting
  | .look r => v.goto (.preflight r.sequence)
  | .decline _ r' => (v.put r').goto .waiting
  | .bar r r' => ((v.put r').setActive (some r.key)).goto .waiting
  | .claim r r' => (((v.put r').setActive (some r.key)).log (.sent r.sequence)).goto (.sending r.sequence)
  | .requeue r r' => (((v.put r').setActive none).log (.unsent r.sequence)).goto .waiting
  | .blur _ r' => (v.put r').goto .waiting
  | .accept _ r' => (v.put r').goto .waiting
  | .finish r r' => (((v.put r').release r.key).log (.settled r.sequence r'.state)).goto .waiting
  | .stop => v.goto .stopped

open Classical in
noncomputable def step (v : Lane) (m : Move) : Option Lane := if v.enabled m then some (v.effect m) else none

theorem step_eq_some {v w : Lane} {m : Move} : v.step m = some w ↔ v.enabled m ∧ v.effect m = w := by
  unfold step
  split
  · rename_i h
    simp [h]
  · rename_i h
    simp [h]

end Lane

noncomputable def laneSystem (epoch : String) : System Lane Move := ⟨Lane.start epoch, Lane.step⟩

end AgentsRemember.Harness
