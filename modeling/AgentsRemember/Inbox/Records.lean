import AgentsRemember.Lib.FoldLog
import AgentsRemember.Lib.Text

/-!
# Operator inbox entries

One row of the inbox is a sequence of snapshots with one `id`. The fold keeps
the last of them, except that a pending snapshot never replaces a terminal one.
-/

namespace AgentsRemember.Inbox

open Lib

inductive OperatorInboxState
  | pending | landed | superseded | unresolved | expired | consumed | ladderResolved
  deriving DecidableEq

inductive OperatorInboxVia
  | chat | dashboard | cli
  deriving DecidableEq

inductive AgentRole
  | developer | operator | designer | strategist | orchestrator | manager | worker | reviewer | systemSpecialist
  | architect | curator | agent | system
  deriving DecidableEq

inductive InboxMessageKind
  | message | gateResponse | turnReport | masterHandover | nudge | escalation | degradationAlert | decisionItem
  | decisionRuling | dispatchBrief | stateSignal
  deriving DecidableEq

inductive InboxDeliveryState
  | queued | noHostedSession | delivered | unconfirmed
  deriving DecidableEq

inductive AdapterDeliveryState
  | accepted | queued | rejected | unknown | completed | unsupported
  deriving DecidableEq

structure TaskDocumentRef where
  repository : String
  path : String
  deriving DecidableEq

structure InboxAddress where
  taskDocumentRef : Option TaskDocumentRef := none
  lifecycleId : Option String := none
  agentId : Option String := none
  recipientRole : Option AgentRole := none

structure InboxOwner where
  role : Option AgentRole := none
  taskDocumentRef : Option TaskDocumentRef := none
  agentId : Option String := none
  lifecycleId : Option String := none

structure InboxRouting where
  address : InboxAddress
  owner : InboxOwner := {}

structure InboxSubject where
  taskDocumentRef : Option TaskDocumentRef := none
  seatRole : Option String := none
  agentId : Option String := none

structure InboxMessage where
  ask : String
  response : String
  messageKind : InboxMessageKind := .message
  gateId : Option String := none
  artifactPath : Option String := none
  subject : InboxSubject := {}

structure InboxPoster where
  createdBy : String
  createdVia : OperatorInboxVia
  senderAgentId : Option String := none
  senderRole : Option AgentRole := none

structure OperatorInboxEntry where
  schemaVersion : String := "1.0"
  schema : String := "ar-operator-inbox-entry/v2"
  id : String
  ts : String
  state : OperatorInboxState
  lifecycleId : Option String := none
  agentId : Option String := none
  taskDocumentRef : Option TaskDocumentRef := none
  senderAgentId : Option String := none
  senderRole : Option AgentRole := none
  recipientRole : Option AgentRole := none
  gateId : Option String := none
  messageKind : InboxMessageKind := .message
  artifactPath : Option String := none
  subjectTaskDocumentRef : Option TaskDocumentRef := none
  seatRole : Option String := none
  subjectAgentId : Option String := none
  ask : String
  response : String
  createdAt : String
  createdBy : String
  createdVia : OperatorInboxVia
  deliveryState : InboxDeliveryState := .queued
  deliveredAt : Option String := none
  deliveredToSession : Option String := none
  deliveryDetail : Option String := none
  adapterDeliveryState : Option AdapterDeliveryState := none
  adapterRequestId : Option String := none
  adapterVendorCorrelationId : Option String := none
  adapterAcceptedAt : Option String := none
  adapterCompletedAt : Option String := none
  adapterDeliveryDetail : Option String := none
  consumedAt : Option String := none
  consumedBy : Option String := none
  consumedVia : Option OperatorInboxVia := none
  ladderResolvedAt : Option String := none
  ladderResolvedReason : Option String := none
  attemptCount : Nat := 0
  lastAttemptAt : Option String := none
  nextAttemptAt : Option String := none
  terminalAt : Option String := none
  terminalReason : Option String := none
  supersededBy : Option String := none
  escalatedAt : Option String := none
  rungTransitionAt : Option String := none
  rung : Nat := 0
  ownerRole : Option AgentRole := none
  ownerTaskDocumentRef : Option TaskDocumentRef := none
  ownerAgentId : Option String := none
  ownerLifecycleId : Option String := none

def requireInboxAddress (address : InboxAddress) : Except String Unit :=
  if address.taskDocumentRef = none ∧ address.lifecycleId = none ∧ address.agentId = none ∧ address.recipientRole = none then
    .error "operator inbox requires task_document_ref, lifecycle_id, agent_id, or recipient_role"
  else .ok ()

def createOperatorInboxEntry (message : InboxMessage) (entryId now : String) (routing : InboxRouting)
    (poster : InboxPoster) : Except String OperatorInboxEntry :=
  match requireInboxAddress routing.address with
  | .error e => .error e
  | .ok _ =>
    .ok
      { id := entryId
        ts := now
        state := .pending
        lifecycleId := routing.address.lifecycleId
        agentId := routing.address.agentId
        taskDocumentRef := routing.address.taskDocumentRef
        senderAgentId := poster.senderAgentId
        senderRole := poster.senderRole
        recipientRole := routing.address.recipientRole
        gateId := message.gateId
        messageKind := message.messageKind
        artifactPath := message.artifactPath
        subjectTaskDocumentRef := message.subject.taskDocumentRef
        seatRole := message.subject.seatRole
        subjectAgentId := message.subject.agentId
        ask := message.ask
        response := message.response
        createdAt := now
        createdBy := poster.createdBy
        createdVia := poster.createdVia
        ownerRole := routing.owner.role
        ownerTaskDocumentRef := routing.owner.taskDocumentRef
        ownerAgentId := routing.owner.agentId
        ownerLifecycleId := routing.owner.lifecycleId }

/-- The attribution mark, made once; `none` is the unchanged entry. -/
def consumeOperatorInboxEntry (entry : OperatorInboxEntry) (now consumedBy : String) (consumedVia : OperatorInboxVia) :
    Option OperatorInboxEntry :=
  if entry.consumedAt ≠ none then none
  else some
    { entry with
      ts := now
      consumedAt := some now
      consumedBy := some consumedBy
      consumedVia := some consumedVia }

/-! ## The fold -/

def OperatorInboxEntry.terminal (e : OperatorInboxEntry) : Bool := e.state ≠ .pending

def dominates (previous e : OperatorInboxEntry) : Bool := previous.terminal && !e.terminal

def foldOperatorInboxEntries (entries : List OperatorInboxEntry) : Dict String OperatorInboxEntry :=
  foldLog OperatorInboxEntry.id dominates entries

variable {e u : OperatorInboxEntry} {now : String}

theorem fold_mem {log : List OperatorInboxEntry} {id : String} (h : (foldOperatorInboxEntries log).get? id = some e) :
    e ∈ log ∧ e.id = id := foldLog_mem _ _ h

theorem fold_concat (log : List OperatorInboxEntry) (r : OperatorInboxEntry) (id : String) :
    (foldOperatorInboxEntries (log ++ [r])).get? id =
      if r.id = id then some (supersede dominates ((foldOperatorInboxEntries log).get? id) r)
      else (foldOperatorInboxEntries log).get? id := get?_foldLog_concat _ _ log r id

theorem fold_filter (p : String → Bool) (log : List OperatorInboxEntry) (id : String) :
    (foldOperatorInboxEntries (log.filter fun r => p r.id)).get? id =
      if p id then (foldOperatorInboxEntries log).get? id else none := get?_foldLog_filter _ _ p log id

/-! ## What the next snapshot of a row says

Each function computes a snapshot from a row its caller has. The terminal
transitions ask whether the row is still pending; a delivery attempt and an
adapter completion do not.
-/

structure AdapterReceipt where
  deliveryState : Option AdapterDeliveryState := none
  requestId : Option String := none
  vendorCorrelationId : Option String := none
  acceptedAt : Option String := none
  detail : Option String := none

structure DeliveryAttempt where
  deliveryState : InboxDeliveryState
  deliveredToSession : Option String := none
  detail : Option String := none
  adapter : AdapterReceipt := {}
  landed : Bool := false

structure InboxRenewal where
  response : Option String := none
  subject : InboxSubject := {}
  readdressTo : Option InboxOwner := none

structure AdapterCompletion where
  vendorCorrelationId : Option String := none
  detail : Option String := none

structure ExpiryOptions where
  reason : String
  readdressTo : Option InboxOwner := none

/-! ## The redelivery schedule -/

def backoffSchedule : List Int := [30000000, 60000000, 300000000, 900000000, 3600000000, 21600000000]

def minRedeliveryInterval : Int := 900000000

def backoffForAttempt (attemptCount : Nat) : Int :=
  (backoffSchedule[min attemptCount (backoffSchedule.length - 1)]?).getD 0

def requireRedeliveryFloor (rateLimit : Option Int) (owner : String) : Except String Int :=
  match rateLimit with
  | none => .ok minRedeliveryInterval
  | some limit => if limit < minRedeliveryInterval then .error s!"{owner} must be at least 900 seconds" else .ok limit

def nextAttemptAt (clock : Clock) (now : Stamp) (attemptCount : Nat) (floor : Option Int) : Except String String :=
  match requireRedeliveryFloor floor "nextAttemptAt redelivery floor" with
  | .error e => .error e
  | .ok seconds => .ok (clock.format { now with micros := now.micros + max (backoffForAttempt attemptCount) seconds })

def readdress (entry : OperatorInboxEntry) (owner : InboxOwner) : OperatorInboxEntry :=
  { entry with
    recipientRole := owner.role
    agentId := owner.agentId
    lifecycleId := owner.lifecycleId
    taskDocumentRef := owner.taskDocumentRef
    ownerRole := owner.role
    ownerTaskDocumentRef := owner.taskDocumentRef
    ownerAgentId := owner.agentId
    ownerLifecycleId := owner.lifecycleId }

def deliveryEvidence (entry : OperatorInboxEntry) (attempt : DeliveryAttempt) (now : String) : OperatorInboxEntry :=
  { entry with
    ts := now
    deliveryState := attempt.deliveryState
    deliveredAt := if attempt.deliveryState = .delivered then some now else entry.deliveredAt
    deliveredToSession := attempt.deliveredToSession
    deliveryDetail := attempt.detail
    adapterDeliveryState := attempt.adapter.deliveryState.or entry.adapterDeliveryState
    adapterRequestId := pyOr attempt.adapter.requestId entry.adapterRequestId
    adapterVendorCorrelationId := pyOr attempt.adapter.vendorCorrelationId entry.adapterVendorCorrelationId
    adapterAcceptedAt := pyOr attempt.adapter.acceptedAt entry.adapterAcceptedAt
    adapterDeliveryDetail := attempt.adapter.detail.or entry.adapterDeliveryDetail
    attemptCount := entry.attemptCount + 1
    lastAttemptAt := some now }

def deliveryLands (entry : OperatorInboxEntry) (attempt : DeliveryAttempt) : Bool :=
  attempt.landed && attempt.adapter.deliveryState = some .accepted && !entry.terminal

def deliverySnapshot (clock : Clock) (entry : OperatorInboxEntry) (attempt : DeliveryAttempt) (now : String)
    (floor : Option Int) : Except String OperatorInboxEntry :=
  if entry.terminal then .ok (deliveryEvidence entry attempt now)
  else match clock.parse now with
    | none => .error s!"Invalid isoformat string: {textRepr now}"
    | some stamp =>
      match nextAttemptAt clock stamp (entry.attemptCount + 1) floor with
      | .error e => .error e
      | .ok next => .ok { deliveryEvidence entry attempt now with nextAttemptAt := some next }

/-! ## Terminal transitions -/

inductive Transition
  | land (attempt : DeliveryAttempt)
  | markLanded (reason : String)
  | markSuperseded (reason : String) (supersededBy : Option String)
  | markUnresolved (reason : String)
  | expire (options : ExpiryOptions)

def Transition.state : Transition → OperatorInboxState
  | land _ | markLanded _ => .landed
  | markSuperseded .. => .superseded
  | markUnresolved _ => .unresolved
  | expire _ => .expired

def terminate (entry : OperatorInboxEntry) (state : OperatorInboxState) (reason now : String) : OperatorInboxEntry :=
  { entry with
    ts := now
    state := state
    terminalAt := some now
    terminalReason := some reason
    nextAttemptAt := none }

/-- The snapshot of a transition; `none` when the row is not pending any more. -/
def Transition.apply (t : Transition) (now : String) (latest : OperatorInboxEntry) : Option OperatorInboxEntry :=
  if latest.terminal then none
  else some <| match t with
    | land attempt => terminate (deliveryEvidence latest attempt now) t.state "adapter-accepted-at-turn-boundary" now
    | markLanded reason => terminate latest t.state reason now
    | markSuperseded reason supersededBy => { terminate latest t.state reason now with supersededBy := supersededBy }
    | markUnresolved reason => terminate latest t.state reason now
    | expire options =>
      match options.readdressTo with
      | none => terminate latest t.state options.reason now
      | some owner => readdress (terminate latest t.state options.reason now) owner

def ladderResolve (entry : OperatorInboxEntry) (reason now : String) : OperatorInboxEntry :=
  { entry with
    ts := now
    state := .ladderResolved
    ladderResolvedAt := some now
    ladderResolvedReason := some reason
    nextAttemptAt := none }

def rebindSnapshot (entry : OperatorInboxEntry) (owner : InboxOwner) (now : String) : Option OperatorInboxEntry :=
  if entry.terminal then none
  else some
    { readdress entry owner with
      ts := now
      deliveryState := .queued
      deliveredAt := none
      deliveredToSession := none
      deliveryDetail := none
      adapterDeliveryState := none
      adapterRequestId := none
      adapterVendorCorrelationId := none
      adapterAcceptedAt := none
      adapterCompletedAt := none
      adapterDeliveryDetail := none
      attemptCount := 0
      lastAttemptAt := none
      nextAttemptAt := none }

def completionSnapshot (entry : OperatorInboxEntry) (completion : AdapterCompletion) (now : String) : OperatorInboxEntry :=
  { entry with
    ts := now
    adapterDeliveryState := some .completed
    adapterVendorCorrelationId := pyOr completion.vendorCorrelationId entry.adapterVendorCorrelationId
    adapterCompletedAt := some now
    adapterDeliveryDetail := completion.detail }

def refresh (entry : OperatorInboxEntry) (renewal : InboxRenewal) (now : String) : OperatorInboxEntry :=
  { entry with
    ts := now
    response := renewal.response.getD entry.response
    subjectTaskDocumentRef := renewal.subject.taskDocumentRef.or entry.subjectTaskDocumentRef
    seatRole := renewal.subject.seatRole.or entry.seatRole
    subjectAgentId := renewal.subject.agentId.or entry.subjectAgentId }

def renewSnapshot (entry : OperatorInboxEntry) (renewal : InboxRenewal) (now : String) : Option OperatorInboxEntry :=
  if entry.terminal then none
  else some <| match renewal.readdressTo with
    | none => refresh entry renewal now
    | some owner => readdress (refresh entry renewal now) owner

/-! ## What a snapshot keeps -/

structure SameRow (e u : OperatorInboxEntry) : Prop where
  id : u.id = e.id
  gateId : u.gateId = e.gateId
  createdAt : u.createdAt = e.createdAt

theorem Transition.apply_spec {t : Transition} (h : t.apply now e = some u) :
    e.terminal = false ∧ SameRow e u ∧ u.state = t.state := by
  unfold Transition.apply at h
  split at h
  · cases h
  rename_i ht
  refine ⟨by simpa using ht, ?_⟩
  cases h
  cases t with
  | expire options => cases hr : options.readdressTo <;> simp only [hr] <;> exact ⟨⟨rfl, rfl, rfl⟩, rfl⟩
  | _ => exact ⟨⟨rfl, rfl, rfl⟩, rfl⟩

theorem deliverySnapshot_spec {clock : Clock} {attempt : DeliveryAttempt} {floor : Option Int}
    (h : deliverySnapshot clock e attempt now floor = .ok u) : SameRow e u ∧ u.state = e.state := by
  unfold deliverySnapshot at h
  split at h
  · cases h
    exact ⟨⟨rfl, rfl, rfl⟩, rfl⟩
  split at h
  · cases h
  split at h
  · cases h
  · cases h
    exact ⟨⟨rfl, rfl, rfl⟩, rfl⟩

theorem rebindSnapshot_spec {owner : InboxOwner} (h : rebindSnapshot e owner now = some u) :
    SameRow e u ∧ u.state = e.state ∧ e.terminal = false := by
  unfold rebindSnapshot at h
  split at h
  · cases h
  rename_i ht
  cases h
  exact ⟨⟨rfl, rfl, rfl⟩, rfl, by simpa using ht⟩

theorem renewSnapshot_spec {renewal : InboxRenewal} (h : renewSnapshot e renewal now = some u) :
    SameRow e u ∧ u.state = e.state ∧ e.terminal = false := by
  unfold renewSnapshot at h
  split at h
  · cases h
  rename_i ht
  cases h
  refine ⟨?_, ?_, by simpa using ht⟩
  · cases renewal.readdressTo <;> exact ⟨rfl, rfl, rfl⟩
  · cases renewal.readdressTo <;> rfl

theorem consume_spec {consumedBy : String} {via : OperatorInboxVia}
    (h : consumeOperatorInboxEntry e now consumedBy via = some u) : SameRow e u ∧ u.state = e.state := by
  unfold consumeOperatorInboxEntry at h
  split at h
  · cases h
  · cases h
    exact ⟨⟨rfl, rfl, rfl⟩, rfl⟩

end AgentsRemember.Inbox
