import AgentsRemember.Inbox.Store
import AgentsRemember.Catalog.Writers

/-!
# Who an inbox row is for, and which rows a boundary wakes

`inbox_delivery.py`, `signal_routing.py` and `state_signals.py`: the session a
row is delivered to now, whether that session is at a turn boundary, and the
findings of the boundary drain. Each reads the catalog at one moment.
-/

namespace AgentsRemember.Delivery

open Lib
open Inbox (OperatorInboxEntry AgentRole InboxMessageKind TaskDocumentRef)
open Catalog (Rows TerminalCatalogEntry rowsListed currentOccupant)

def roleText : AgentRole → String
  | .developer => "developer"
  | .operator => "operator"
  | .designer => "designer"
  | .strategist => "strategist"
  | .orchestrator => "orchestrator"
  | .manager => "manager"
  | .worker => "worker"
  | .reviewer => "reviewer"
  | .systemSpecialist => "system-specialist"
  | .architect => "architect"
  | .curator => "curator"
  | .agent => "agent"
  | .system => "system"

def kindText : InboxMessageKind → String
  | .message => "message"
  | .gateResponse => "gate-response"
  | .turnReport => "turn-report"
  | .masterHandover => "master-handover"
  | .nudge => "nudge"
  | .escalation => "escalation"
  | .degradationAlert => "degradation-alert"
  | .decisionItem => "decision-item"
  | .decisionRuling => "decision-ruling"
  | .dispatchBrief => "dispatch-brief"
  | .stateSignal => "state-signal"

abbrev Seat := String × TerminalCatalogEntry

def seatAtTurnBoundary (e : TerminalCatalogEntry) : Bool :=
  e.status = .running ∧
    (e.turnState = some .turnEnded ∨ e.turnState = some .awaitingInput ∨ e.turnState = none ∧ e.control.state = some .ready)

def runningRow (rows : Rows) (session : String) : Option Seat :=
  ((rows.get? session).filter fun e => e.status = .running).map fun e => (session, e)

def isSeatDead (rows : Rows) (agentId : Option String) : Bool := (agentId.bind (runningRow rows)).isNone

/-- `_structural_target`: the occupant of the row's seat, or its staged replacement; two of them are a `ValueError`. -/
def structuralTarget (rows : Rows) (document : TaskDocumentRef) (role : AgentRole) : Except Unit (Option Seat) :=
  currentOccupant (rowsListed rows false) document (roleText role)

def correlatedTarget (rows : Rows) (entry : OperatorInboxEntry) : Option Seat :=
  (((entry.agentId.filter (· ≠ "")).bind (runningRow rows))).or
    ((entry.lifecycleId.filter (· ≠ "")).bind fun lifecycle =>
      (rowsListed rows false).find? fun e => e.2.status = .running ∧ e.2.launch.lifecycleId = some lifecycle)

/-- `target_session_for_entry`: a dispatch brief is pinned to its session, every other row follows its seat. -/
def targetSessionForEntry (rows : Rows) (entry : OperatorInboxEntry) : Except Unit (Option Seat) :=
  if entry.messageKind = .dispatchBrief then .ok (entry.agentId.bind (runningRow rows))
  else
    match entry.taskDocumentRef, entry.recipientRole with
    | some document, some role => structuralTarget rows document role
    | _, _ => .ok (correlatedTarget rows entry)

/-! ## The boundary drain -/

structure AgentNotifierFinding where
  kind : String
  detail : String
  sessionId : Option String := none
  taskDocumentRef : Option TaskDocumentRef := none
  seatRole : Option String := none
  sourceId : Option String := none
  deriving DecidableEq

def notAfter (a b : Stamp) : Option Bool := if a.offset.isSome = b.offset.isSome then some (decide (a.utc ≤ b.utc)) else none

def drainFinding (entry : OperatorInboxEntry) : AgentNotifierFinding where
  kind := "boundary-drain"
  detail := kindText entry.messageKind
  sessionId := entry.agentId
  taskDocumentRef := entry.taskDocumentRef
  seatRole := entry.seatRole
  sourceId := some entry.id

/-- The body of the drain's loop; `none` is an exception. -/
def boundaryDrain (clock : Clock) (rows : Rows) (entry : OperatorInboxEntry) : Option (List AgentNotifierFinding) :=
  if entry.terminal then some []
  else if entry.agentId.isSome ∧ isSeatDead rows entry.agentId then some []
  else
    match entry.lastAttemptAt with
    | none => some []
    | some lastAttemptAt =>
      match targetSessionForEntry rows entry with
      | .error _ => none
      | .ok none => some []
      | .ok (some (_, target)) =>
        if seatAtTurnBoundary target = false then some []
        else
          match target.turnStateChangedAt with
          | none => some []
          | some changedAt =>
            match clock.parse changedAt, clock.parse lastAttemptAt with
            | some boundaryAt, some attemptedAt =>
              (notAfter boundaryAt attemptedAt).map fun early => if early then [] else [drainFinding entry]
            | _, _ => some []

/-- `evaluate_boundary_drain_findings`, without a limit. -/
def evaluateBoundaryDrainFindings (clock : Clock) (rows : Rows) (current : Dict String OperatorInboxEntry) :
    Option (List AgentNotifierFinding) :=
  (current.values.mapM (boundaryDrain clock rows)).map List.flatten

/-! ## When a row is due -/

def ChangedAfter (clock : Clock) (attemptedAt : String) (e : TerminalCatalogEntry) : Prop :=
  ∃ changedAt a b, e.turnStateChangedAt = some changedAt ∧ clock.parse changedAt = some b ∧ clock.parse attemptedAt = some a ∧
    a.offset.isSome = b.offset.isSome ∧ a.utc < b.utc

section
variable {clock : Clock} {rows : Rows} {entry : OperatorInboxEntry} {current : Dict String OperatorInboxEntry}

variable {attemptedAt : String} {α β : Type} {f : α → Option β}

theorem boundaryDrain_iff {session : String} {target : TerminalCatalogEntry} (hp : entry.terminal = false)
    (ha : entry.lastAttemptAt = some attemptedAt) (ht : targetSessionForEntry rows entry = .ok (some (session, target)))
    (hb : seatAtTurnBoundary target = true) :
    boundaryDrain clock rows entry = some [drainFinding entry] ↔
      ¬(entry.agentId.isSome ∧ isSeatDead rows entry.agentId) ∧ ChangedAfter clock attemptedAt target := by
  rw [boundaryDrain, if_neg (by simp [hp])]
  by_cases hdead : entry.agentId.isSome = true ∧ isSeatDead rows entry.agentId = true
  · rw [if_pos hdead]
    exact iff_of_false (by simp) fun h => h.1 hdead
  rw [if_neg hdead, ha, ht]
  dsimp only
  rw [if_neg (by simp [hb])]
  simp only [hdead, not_false_eq_true, true_and]
  cases hc : target.turnStateChangedAt with
  | none => exact iff_of_false (by simp) fun h => by obtain ⟨_, _, _, hs, -⟩ := h; exact nomatch hc.symm.trans hs
  | some changedAt =>
    dsimp only
    cases hchanged : clock.parse changedAt with
    | none =>
      refine iff_of_false (by simp) fun h => ?_
      obtain ⟨_, _, _, hs, hparse, -⟩ := h
      obtain rfl := Option.some.inj (hc.symm.trans hs)
      exact nomatch hchanged.symm.trans hparse
    | some b =>
      cases hattempted : clock.parse attemptedAt with
      | none =>
        refine iff_of_false (by simp) fun h => ?_
        obtain ⟨_, _, _, -, -, hparse, -⟩ := h
        exact nomatch hattempted.symm.trans hparse
      | some a =>
        have hafter : ChangedAfter clock attemptedAt target ↔ a.offset.isSome = b.offset.isSome ∧ a.utc < b.utc := by
          constructor
          · intro h
            obtain ⟨_, a', b', hs, hb', ha', h⟩ := h
            obtain rfl := Option.some.inj (hc.symm.trans hs)
            obtain rfl := Option.some.inj (hchanged.symm.trans hb')
            obtain rfl := Option.some.inj (hattempted.symm.trans ha')
            exact h
          · exact fun h => ⟨changedAt, a, b, hc, hchanged, hattempted, h⟩
        rw [hafter]
        dsimp only
        unfold notAfter
        by_cases hoffset : b.offset.isSome = a.offset.isSome
        · rw [if_pos hoffset, Option.map_some]
          by_cases hle : b.utc ≤ a.utc
          · simp [hle]
          · simp [hoffset, hle, Int.not_le.mp hle]
        · rw [if_neg hoffset]
          exact iff_of_false (by simp) fun h => hoffset h.1.symm

def changedAfter (clock : Clock) (attemptedAt : String) (e : TerminalCatalogEntry) : Bool :=
  match e.turnStateChangedAt.bind clock.parse, clock.parse attemptedAt with
  | some b, some a => decide (a.offset.isSome = b.offset.isSome ∧ a.utc < b.utc)
  | _, _ => false

theorem changedAfter_iff {e : TerminalCatalogEntry} :
    changedAfter clock attemptedAt e = true ↔ ChangedAfter clock attemptedAt e := by
  unfold changedAfter
  constructor
  · intro h
    split at h
    · rename_i b a hb ha
      obtain ⟨changedAt, hchanged, hparse⟩ := Option.bind_eq_some_iff.mp hb
      exact ⟨changedAt, a, b, hchanged, hparse, ha, of_decide_eq_true h⟩
    · cases h
  rintro ⟨changedAt, a, b, hchanged, hb, ha, h⟩
  rw [hchanged, Option.bind_some, hb, ha]
  exact decide_eq_true h

instance (attemptedAt : String) (e : TerminalCatalogEntry) : Decidable (ChangedAfter clock attemptedAt e) :=
  decidable_of_iff _ changedAfter_iff

theorem mem_findings {fs : List AgentNotifierFinding} {id : String} {f : AgentNotifierFinding}
    (h : evaluateBoundaryDrainFindings clock rows current = some fs) (hentry : current.get? id = some entry)
    (hf : boundaryDrain clock rows entry = some [f]) : f ∈ fs := by
  obtain ⟨found, hfound, rfl⟩ := Option.map_eq_some_iff.mp h
  obtain ⟨y, hy, heq⟩ := mapM_mem hfound (Dict.mem_values.mpr ⟨id, hentry⟩)
  obtain rfl := Option.some.inj (hf.symm.trans heq)
  exact List.mem_flatten.mpr ⟨[f], hy, List.mem_singleton_self f⟩

end

/-! ## Delivery attempts

`inbox_delivery.py` and `_rebind_due`, as scripts over the catalog, the inbox
log and the bridges of the sessions. A row is read once, its target is resolved
once, and the outcome is recorded over whatever the log has by then. `ledger`
and `waiting` are ghosts: what became of submissions, and the rows whose last
attempt found its target busy.
-/

open Inbox (OperatorInboxEntry InboxLog DeliveryAttempt AdapterReceipt InboxOwner InboxDeliveryState AdapterDeliveryState
  InboxMessage InboxRouting InboxPoster)
open Catalog (TerminalCatalog TerminalCatalogEntry Rows)
open Harness (SubmissionReceipt ReconciliationResult)

structure Waiting where
  session : String
  attemptedAt : String

structure Ledger where
  tried : List (String × String) := []
  -- The bytes went out.
  sent : List (String × String) := []
  accepted : List (String × String) := []
  -- The row was rebound, away from the session.
  left : List (String × String) := []
  -- Rows with a submission that has no recorded outcome yet.
  unrecorded : List String := []

def Ledger.lastTried (l : Ledger) (id : String) : Option String := (l.tried.find? fun p => p.2 = id).map Prod.fst

structure Store where
  catalog : TerminalCatalog
  log : InboxLog
  ledger : Ledger
  waiting : Dict String Waiting

/-- How a submission ends: with a receipt, or with a `HarnessControlError` whose bytes may have been sent. -/
inductive SubmitReply
  | receipt (r : SubmissionReceipt)
  | failed (error : String) (sent : Bool)

structure Outside where
  catalog : Catalog.Outside
  -- `DispatchBriefGate.check`.
  briefGate : String → Option String
  submit : String → SubmitReply
  reconcile : String → Option ReconciliationResult

inductive Command
  | catalog (c : Catalog.Command)
  | rows
  | briefGate (session : String)
  -- `inbox_store.current()`.
  | current
  | post (message : InboxMessage) (entryId now : String) (routing : InboxRouting) (poster : InboxPoster)
  | submit (session requestId text : String)
  | reconcile (session requestId : String)
  -- `record_delivery` on the row in hand; the row that the attempt began with, and the session that was busy, are ghosts.
  | record (read entry : OperatorInboxEntry) (attempt : DeliveryAttempt) (now : String) (floor : Option Int)
    (busy : Option String)
  | rebind (entry : OperatorInboxEntry) (owner : InboxOwner) (now : String)

@[reducible] def Command.Answer : Command → Type
  | .catalog c => c.Answer
  | .rows => Rows
  | .briefGate _ => Option String
  | .current => Dict String OperatorInboxEntry
  | .post .. => Option OperatorInboxEntry
  | .submit .. => SubmitReply
  | .reconcile .. => Option ReconciliationResult
  | .record .. => Option OperatorInboxEntry
  | .rebind .. => Unit

namespace Store

variable (clock : Clock) (s : Store)

def posted (message : InboxMessage) (entryId now : String) (routing : InboxRouting) (poster : InboxPoster) :
    Option OperatorInboxEntry × Store :=
  if s.log.any fun r => r.id = entryId then (none, s)
  else
    match Inbox.createOperatorInboxEntry message entryId now routing poster with
    | .error _ => (none, s)
    | .ok entry => (some entry, { s with log := s.log ++ [entry] })

def submitted (session requestId : String) (reply : SubmitReply) : SubmitReply × Store :=
  let tried : Ledger :=
    { s.ledger with
      tried := (session, requestId) :: s.ledger.tried
      unrecorded := requestId :: s.ledger.unrecorded }
  match reply with
  | .failed _ false => (reply, { s with ledger := tried })
  | .failed _ true => (reply, { s with ledger := { tried with sent := (session, requestId) :: tried.sent } })
  | .receipt r =>
    let sent : Ledger := { tried with sent := (session, requestId) :: tried.sent }
    (.receipt { r with requestId := requestId },
      { s with ledger := if r.acceptance = .immediate then { sent with accepted := (session, requestId) :: sent.accepted } else sent })

def reconciled (session requestId : String) (answer : Option ReconciliationResult) : Option ReconciliationResult × Store :=
  match answer with
  | none => (none, s)
  | some r =>
    if r.state ≠ .accepted then (some { r with requestId := requestId }, s)
    else if (session, requestId) ∈ s.ledger.sent then
      (some { r with requestId := requestId },
        { s with ledger := { s.ledger with accepted := (session, requestId) :: s.ledger.accepted } })
    else (none, s)

def writtenRow (entry : OperatorInboxEntry) (attempt : DeliveryAttempt) (log : InboxLog) : Option OperatorInboxEntry :=
  if Inbox.deliveryLands entry attempt then (Inbox.current log).get? entry.id else log.getLast?

def recorded (entry : OperatorInboxEntry) (attempt : DeliveryAttempt) (now : String) (floor : Option Int)
    (busy : Option String) : Option OperatorInboxEntry × Store :=
  match Inbox.recordDelivery clock s.log (some entry) entry.id attempt now floor with
  | .error _ => (none, s)
  | .ok log =>
    (writtenRow entry attempt log,
      { s with
        log := log
        ledger :=
          if attempt.adapter.requestId.isSome then
            { s.ledger with unrecorded := s.ledger.unrecorded.filter fun id => id ≠ entry.id }
          else s.ledger
        waiting :=
          match busy with
          | some session => s.waiting.set entry.id ⟨session, now⟩
          | none => s.waiting.erase entry.id })

def rebound (entry : OperatorInboxEntry) (owner : InboxOwner) (now : String) : Store :=
  match Inbox.rebindEntry s.log (some entry) entry.id owner now with
  | .error _ => s
  | .ok log =>
    { s with
      log := log
      ledger := { s.ledger with left := (s.ledger.lastTried entry.id).toList.map (·, entry.id) ++ s.ledger.left }
      waiting := s.waiting.erase entry.id }

end Store

def exec (clock : Clock) (outside : Outside) (s : Store) : (c : Command) → c.Answer × Store
  | .catalog c =>
    let (answer, catalog) := Catalog.exec clock outside.catalog s.catalog c
    (answer, { s with catalog := catalog })
  | .rows => (s.catalog.rows, s)
  | .briefGate session => (outside.briefGate session, s)
  | .current => (Inbox.current s.log, s)
  | .post message entryId now routing poster => s.posted message entryId now routing poster
  | .submit session requestId _ => s.submitted session requestId (outside.submit session)
  | .reconcile session requestId => s.reconciled session requestId (outside.reconcile session)
  | .record _ entry attempt now floor busy => s.recorded clock entry attempt now floor busy
  | .rebind entry owner now => ((), s.rebound entry owner now)

abbrev DeliveryScript (α : Type) := Script Command Command.Answer α

def perform (c : Command) : DeliveryScript c.Answer := Script.command c

/-! ## One attempt -/

structure DeliveryOutcome where
  deliveryState : InboxDeliveryState
  adapterState : Option AdapterDeliveryState
  detail : String

structure AdapterCorrelation where
  requestId : Option String := none
  vendorCorrelationId : Option String := none
  acceptedAt : Option String := none

structure InboxDeliveryLog where
  entry : OperatorInboxEntry
  at' : String
  current : Option (Dict String OperatorInboxEntry) := none
  seconds : Option Int := none

structure DeliveryAdmission where
  submit : Bool := true
  boundary : Bool := false

structure Refusal where
  outcome : DeliveryOutcome
  busy : Bool := false

def pushText (entry : OperatorInboxEntry) : String :=
  "\n".intercalate (["[Agents Remember inbox:" ++ kindText entry.messageKind ++ "]",
    "from: " ++ (entry.senderRole.map roleText).getD "operator",
    "ack: reply in this chat; the control plane correlates acceptance automatically"] ++
    ((entry.artifactPath.filter (· ≠ "")).map ("artifact: " ++ ·)).toList ++ ["", entry.ask, "", entry.response])

def withPromptKeywords (target : TerminalCatalogEntry) (text : String) : String :=
  match target.launch.promptKeywords.getD [] with
  | [] => text
  | keywords => " ".intercalate keywords ++ "\n\n" ++ text

def requireEntry (log : InboxDeliveryLog) : DeliveryScript OperatorInboxEntry := do
  let entries ← match log.current with
    | some current => pure current
    | none => perform .current
  match entries.get? log.entry.id with
  | none => .raised
  | some entry => pure entry

def deliveryAttempt (entry : OperatorInboxEntry) (target : Option Seat) (outcome : DeliveryOutcome)
    (correlation : AdapterCorrelation) (landed : Bool) : DeliveryAttempt where
  deliveryState := outcome.deliveryState
  deliveredToSession := target.map Prod.fst
  detail := some outcome.detail
  adapter :=
    { deliveryState := outcome.adapterState
      requestId := pyOr entry.adapterRequestId correlation.requestId
      vendorCorrelationId := correlation.vendorCorrelationId
      acceptedAt := correlation.acceptedAt
      detail := some outcome.detail }
  landed := landed

def record (log : InboxDeliveryLog) (target : Option Seat) (outcome : DeliveryOutcome) (correlation : AdapterCorrelation)
    (landed busy : Bool) : DeliveryScript OperatorInboxEntry := do
  let entry ← requireEntry log
  let attempt := deliveryAttempt log.entry target outcome correlation landed
  match ← perform (.record log.entry entry attempt log.at' log.seconds (if busy then target.map Prod.fst else none)) with
  | none => .raised
  | some row => pure row

/-- What refuses a target before the brief gate is asked. -/
def hostRefusal (target : Seat) (admission : DeliveryAdmission) (hosted : Bool) : Option Refusal :=
  if hosted = false then some ⟨⟨.noHostedSession, none, "catalog row exists but tmux session is not running"⟩, false⟩
  else if target.2.kind ≠ .harness ∨ target.2.controlEndpoint = none then
    some ⟨⟨.unconfirmed, some .unsupported, "legacy or ordinary terminal session has no protocol delivery adapter"⟩, false⟩
  else if admission.submit = false then
    some ⟨⟨.unconfirmed, some .rejected, "durable inbox delivery requires a committed adapter submission"⟩, false⟩
  else none

/-- What refuses it after: the closed brief gate, and the availability gate. -/
def gateRefusal (entry : OperatorInboxEntry) (target : Seat) (admission : DeliveryAdmission) (closed : Option String) :
    Option Refusal :=
  match closed with
  | some detail => some ⟨⟨.unconfirmed, some .rejected, detail⟩, false⟩
  | none =>
    if (entry.messageKind = .stateSignal ∨ admission.boundary) ∧ seatAtTurnBoundary target.2 = false then
      some ⟨⟨.queued, some .queued,
        if entry.messageKind = .stateSignal then "availability gate: state-signal rows push only at a turn boundary"
        else "availability gate: target seat is not at a turn boundary"⟩, true⟩
    else none

def deliveryRefusal (entry : OperatorInboxEntry) (target : Seat) (admission : DeliveryAdmission) :
    DeliveryScript (Option Refusal) := do
  match hostRefusal target admission (← perform (.catalog (.ask (.hasSession target.2.tmuxName)))) with
  | some refusal => pure (some refusal)
  | none => do
    let closed ← if entry.messageKind = .dispatchBrief then perform (.briefGate target.1) else pure none
    pure (gateRefusal entry target admission closed)

def reconciledRequest (entry : OperatorInboxEntry) : Option ReconciliationResult → Option String
  | some r => some r.requestId
  | none => pyOr entry.adapterRequestId (some entry.id)

def recordReconciliation (log : InboxDeliveryLog) (target : Seat) (reconciliation : Option ReconciliationResult)
    (fallbackDetail : String) (atBoundary : Bool) : DeliveryScript OperatorInboxEntry :=
  let unresolved : AdapterDeliveryState × String := (.unknown, fallbackDetail)
  let (state, detail) :=
    match reconciliation with
    | none => unresolved
    | some r =>
      match r.state with
      | .unresolved => unresolved
      | .accepted => (.accepted, (r.detail.filter (· ≠ "")).getD "adapter reconciliation accepted the request")
      | .rejected => (.rejected, (r.detail.filter (· ≠ "")).getD "adapter reconciliation rejected")
      | .unsupported => (.unsupported, (r.detail.filter (· ≠ "")).getD "adapter reconciliation unsupported")
  record log (some target) ⟨if state = .accepted then .delivered else .unconfirmed, some state, detail⟩
    { requestId := reconciledRequest log.entry reconciliation
      vendorCorrelationId := reconciliation.bind fun r => r.vendorCorrelationId }
    (atBoundary && state = .accepted) false

def adapterText : AdapterDeliveryState → String
  | .accepted => "accepted"
  | .queued => "queued"
  | .rejected => "rejected"
  | .unknown => "unknown"
  | .completed => "completed"
  | .unsupported => "unsupported"

def redelivery (log : InboxDeliveryLog) (target : Seat) (requestId : String) (atBoundary : Bool) :
    DeliveryScript OperatorInboxEntry :=
  match log.entry.adapterDeliveryState.filter fun d => d = .accepted ∨ d = .queued ∨ d = .completed with
  | some state =>
    record log (some target) ⟨.delivered, some state, "adapter-" ++ adapterText state ++ ": already correlated"⟩ {}
      (atBoundary && state = .accepted) false
  | none => do
    let reconciliation ← perform (.reconcile target.1 requestId)
    recordReconciliation log target reconciliation "adapter request remains ambiguous; not resubmitted" atBoundary

def receiptState (r : SubmissionReceipt) : AdapterDeliveryState :=
  match r.acceptance with
  | .immediate => .accepted
  | .queued => .queued
  | .rejected => .rejected
  | .unknown => .unknown
  | .unsupported => .unsupported

def recordReceipt (log : InboxDeliveryLog) (target : Seat) (r : SubmissionReceipt) (atBoundary : Bool) :
    DeliveryScript OperatorInboxEntry :=
  let state := receiptState r
  record log (some target)
    ⟨if state = .accepted ∨ state = .queued then .delivered else .unconfirmed, some state,
      "adapter-" ++ adapterText state ++ ((r.detail.filter (· ≠ "")).map (": " ++ ·)).getD ""⟩
    ⟨some r.requestId, r.vendorCorrelationId, r.acceptedAt⟩ (atBoundary && state = .accepted) false

def deliverInboxEntry (log : InboxDeliveryLog) (admission : DeliveryAdmission) : DeliveryScript OperatorInboxEntry := do
  match targetSessionForEntry (← perform .rows) log.entry with
  | .error _ => .raised
  | .ok none =>
    record log none ⟨.noHostedSession, none, "no running hosted session matched the inbox address"⟩ {} false false
  | .ok (some target) =>
    match ← deliveryRefusal log.entry target admission with
    | some refusal => record log (some target) refusal.outcome {} false refusal.busy
    | none =>
      let atBoundary := seatAtTurnBoundary target.2
      match log.entry.adapterRequestId with
      | some requestId => redelivery log target requestId atBoundary
      | none =>
        let text := pushText log.entry
        let text := if log.entry.messageKind = .dispatchBrief then withPromptKeywords target.2 text else text
        match ← perform (.submit target.1 log.entry.id text) with
        | .receipt r => recordReceipt log target r atBoundary
        | .failed error _ =>
          let reconciliation ← perform (.reconcile target.1 log.entry.id)
          recordReconciliation log target reconciliation ("ambiguous adapter transport: " ++ error) atBoundary

/-! ## The calls -/

inductive Call
  | catalog (c : Catalog.Call)
  | post (message : InboxMessage) (entryId now : String) (routing : InboxRouting) (poster : InboxPoster)
  -- A redelivery of a sweep, with the sweep's fold, or a delivery that folds again as it records.
  | deliver (entryId at' : String) (seconds : Option Int) (admission : DeliveryAdmission) (folded : Bool)
  | rebind (entryId at' : String) (owner : InboxOwner)

def Call.job (c : Catalog.Config) : Call → Job Command Command.Answer
  | .catalog call => Job.embed Command.catalog (fun _ a => a) (call.job c)
  | .post message entryId now routing poster => Job.plain (do let _ ← perform (.post message entryId now routing poster))
  | .deliver entryId at' seconds admission folded => Job.plain do
      let entries ← perform .current
      match entries.get? entryId with
      | none => pure ()
      | some entry =>
        if entry.terminal then pure ()
        else
          let _ ← deliverInboxEntry ⟨entry, at', if folded then some entries else none, seconds⟩ admission
          pure ()
  | .rebind entryId at' owner => Job.plain do
      let entries ← perform .current
      match entries.get? entryId with
      | none => pure ()
      | some entry =>
        if entry.terminal ∨ owner.agentId = none ∨ owner.agentId = entry.agentId then pure ()
        else perform (.rebind entry owner at')

abbrev World := Pool Command Command.Answer Store

def startedStore (rows : Rows) (log : InboxLog) : Store := ⟨⟨rows, []⟩, log, {}, Dict.empty⟩

def deliverySystem (c : Catalog.Config) (rows : Rows) (log : InboxLog) : System World (PoolAction Call Outside) :=
  Pool.system (exec c.clock) (Call.job c) (startedStore rows log)

end AgentsRemember.Delivery
