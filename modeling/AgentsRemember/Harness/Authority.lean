import AgentsRemember.Lib.Dict
import AgentsRemember.Harness.Records

/-!
# The submission ledger

Every ordinary operation admitted, in admission order, bounded by one eviction
rule. `objects` is the heap: a record lives on after its eviction, since the
dispatcher may hold it across an await; `records` maps a key to the ordinal of
the record retained under it.
-/

namespace AgentsRemember.Harness

open Lib

structure SubmissionLedger where
  objects : Nat → Option OperationRecord
  records : Dict OperationKey Nat
  promptIds : Dict String OperationKey
  sequence : Nat
  evictedBeforeSequence : Nat

def evictableStates : List SubmissionLifecycleState := [.delivered, .withdrawn, .rejected, .unsupported]

def ordinalId (bridgeEpoch : String) (sequence : Nat) (kind : ControlOperationKind) : String :=
  bridgeEpoch ++ ":" ++ toString sequence ++ ":" ++ kind.text

variable {m n : Nat}

theorem natText_injective (h : toString n = toString m) : n = m := by
  have hd : Nat.toDigits 10 n = Nat.toDigits 10 m := by
    rw [← Nat.toList_repr, ← Nat.toList_repr]
    exact congrArg String.toList h
  calc n = Nat.ofDigitChars 10 (Nat.toDigits 10 n) 0 := Nat.ofDigitChars_ten_toDigits.symm
    _ = Nat.ofDigitChars 10 (Nat.toDigits 10 m) 0 := by rw [hd]
    _ = m := Nat.ofDigitChars_ten_toDigits

theorem ordinalId_injective {epoch : String} {kind : ControlOperationKind}
    (h : ordinalId epoch n kind = ordinalId epoch m kind) : n = m := by
  simp only [ordinalId, String.append_left_inj, String.append_right_inj] at h
  exact natText_injective h

namespace SubmissionLedger

def empty : SubmissionLedger := ⟨fun _ => none, Dict.empty, Dict.empty, 0, 0⟩

def byKey (l : SubmissionLedger) (key : OperationKey) : Option OperationRecord := (l.records.get? key).bind l.objects

def byRequestId (l : SubmissionLedger) (requestId : String) : Option OperationRecord :=
  (l.promptIds.get? requestId).bind l.byKey

def put (l : SubmissionLedger) (r : OperationRecord) : SubmissionLedger :=
  { l with objects := Function.update l.objects r.sequence (some r) }

def nextRef (l : SubmissionLedger) (bridgeEpoch : String) (kind : ControlOperationKind) (operationId : Option String) :
    ControlOperationRef × SubmissionLedger :=
  let sequence := l.sequence + 1
  let operationId := (pyOr operationId (some (ordinalId bridgeEpoch sequence kind))).getD ""
  (⟨bridgeEpoch, sequence, operationId, kind⟩, { l with sequence := sequence })

def enrol (l : SubmissionLedger) (r : OperationRecord) : SubmissionLedger :=
  { l.put r with
    records := l.records.set r.key r.sequence
    promptIds := if r.ref.kind = .prompt then l.promptIds.set r.ref.operationId r.key else l.promptIds }

def touch (l : SubmissionLedger) (r : OperationRecord) : SubmissionLedger :=
  { l with records := l.records.moveToEnd r.key }

def rows (l : SubmissionLedger) : List OperationRecord := l.records.values.filterMap l.objects

def liveCount (l : SubmissionLedger) (active : Option OperationKey) : Nat :=
  l.rows.countP fun r => r.live || decide (active = some r.key)

def evictable (l : SubmissionLedger) (pinned : OperationKey → Bool) : Option OperationRecord :=
  l.rows.find? fun r => !pinned r.key && decide (r.state ∈ evictableStates)

def evict (l : SubmissionLedger) (r : OperationRecord) : SubmissionLedger :=
  { l with
    records := l.records.erase r.key
    evictedBeforeSequence := max l.evictedBeforeSequence r.sequence
    promptIds := if r.ref.kind = .prompt then l.promptIds.erase r.ref.operationId else l.promptIds }

def makeRoomIn (limit : Nat) (pinned : OperationKey → Bool) : Nat → SubmissionLedger → Bool × SubmissionLedger
  | 0, l => (decide (l.records.keys.length < limit), l)
  | fuel + 1, l =>
    if l.records.keys.length < limit then (true, l)
    else
      match l.evictable pinned with
      | none => (false, l)
      | some r => makeRoomIn limit pinned fuel (l.evict r)

def makeRoom (l : SubmissionLedger) (limit : Nat) (pinned : OperationKey → Bool) : Bool × SubmissionLedger :=
  makeRoomIn limit pinned l.records.keys.length l

/-! ## Lookups -/

section
variable (l : SubmissionLedger) (r : OperationRecord)

variable {k : OperationKey} {l : SubmissionLedger} {r : OperationRecord}

theorem byKey_eq_some :
    l.byKey k = some r ↔ ∃ n, l.records.get? k = some n ∧ l.objects n = some r := Option.bind_eq_some_iff

theorem mem_rows :
    r ∈ l.rows ↔ ∃ k, l.byKey k = some r := by
  simp only [rows, List.mem_filterMap, Dict.mem_values, byKey_eq_some]
  constructor
  · intro hex
    obtain ⟨n, ⟨k, hk⟩, hn⟩ := hex
    exact ⟨k, n, hk, hn⟩
  intro hex
  obtain ⟨k, n, hk, hn⟩ := hex
  exact ⟨n, ⟨k, hk⟩, hn⟩

variable {epoch : String}

theorem nextRef_prompt {id : String} (h : id ≠ "") :
    l.nextRef epoch .prompt (some id) =
      (⟨epoch, l.sequence + 1, id, .prompt⟩, { l with sequence := l.sequence + 1 }) := by
  simp [nextRef, pyOr, truthy, h]

theorem nextRef_none {kind : ControlOperationKind} :
    l.nextRef epoch kind none = (⟨epoch, l.sequence + 1, ordinalId epoch (l.sequence + 1) kind, kind⟩,
      { l with sequence := l.sequence + 1 }) := by
  simp [nextRef, pyOr, truthy]

variable {pinned : OperationKey → Bool}

theorem evictable_eq_some
    (h : l.evictable pinned = some r) : (∃ k, l.byKey k = some r) ∧ pinned r.key = false ∧ r.state ∈ evictableStates := by
  have hp := List.find?_some h
  simp only [Bool.and_eq_true, Bool.not_eq_true', decide_eq_true_eq] at hp
  exact ⟨mem_rows.mp (List.mem_of_find?_eq_some h), hp⟩

theorem makeRoom_fits {limit : Nat}
    (h : (l.makeRoom limit pinned).1 = true) : (l.makeRoom limit pinned).2.records.keys.length < limit := by
  unfold makeRoom at h ⊢
  generalize l.records.keys.length = fuel at h ⊢
  induction fuel generalizing l with
  | zero => simpa [makeRoomIn] using h
  | succ fuel ih =>
    unfold makeRoomIn at h ⊢
    split at h
    · rename_i hlt
      simp [hlt]
    rename_i hlt
    cases he : l.evictable pinned with
    | none => rw [he] at h; cases h
    | some r =>
      rw [he] at h
      simpa [hlt, he] using ih h

/-! ## The rows of a ledger -/

def Filled (l : SubmissionLedger) : Prop :=
  ∀ k n, l.records.get? k = some n → ∃ r, l.objects n = some r ∧ r.key = k ∧ r.sequence = n

theorem Filled.rows_map_key (h : l.Filled) : l.rows.map OperationRecord.key = l.records.keys := by
  have hall : ∀ entries : List (OperationKey × Nat), (∀ e ∈ entries, e ∈ l.records.entries) →
      ((entries.map Prod.snd).filterMap l.objects).map OperationRecord.key = entries.map Prod.fst := by
    intro entries
    induction entries with
    | nil => intro _; rfl
    | cons e entries ih =>
      intro hin
      obtain ⟨r, hr, hkey, -⟩ := h e.1 e.2 (Dict.get?_eq_some.mpr (hin e (by simp)))
      rw [List.map_cons, List.filterMap_cons_some hr, List.map_cons, List.map_cons, hkey,
        ih fun e' he' => hin e' (List.mem_cons_of_mem _ he')]
  exact hall l.records.entries fun _ => id

theorem Filled.length_rows (h : l.Filled) : l.rows.length = l.records.keys.length := by
  rw [← h.rows_map_key, List.length_map]

theorem Filled.of_mem_rows (h : l.Filled) (hr : r ∈ l.rows) :
    l.records.get? r.key = some r.sequence ∧ l.objects r.sequence = some r := by
  obtain ⟨k, hk⟩ := mem_rows.mp hr
  obtain ⟨n, hn, hobject⟩ := byKey_eq_some.mp hk
  obtain ⟨r₀, hr₀, rfl, rfl⟩ := h k n hn
  rw [hobject, Option.some.injEq] at hr₀
  subst hr₀
  exact ⟨hn, hobject⟩

theorem evict_get? {n : Nat}
    (h : (l.evict r).records.get? k = some n) : k ≠ r.key ∧ l.records.get? k = some n := by
  rw [evict, Dict.get?_erase] at h
  split at h
  · cases h
  · rename_i hne
    exact ⟨hne, h⟩

theorem Filled.evict (h : l.Filled) (r : OperationRecord) : (l.evict r).Filled :=
  fun k n hk => h k n (evict_get? hk).2

theorem rows_evict_sublist (l : SubmissionLedger) (r : OperationRecord) : (l.evict r).rows.Sublist l.rows :=
  (List.filter_sublist.map _).filterMap _

end

end SubmissionLedger

/-! ## The submission authority

One bridge's ordinary-operation timeline above a protocol adapter. A lock body is
one function here; what an adapter answers at an await comes in as an argument,
and so does each reading of the clock. `history` is a ghost: the calls, the
certificates, the exact completions and the tombstones so far, in order.
-/

inductive ControlState
  | starting | ready | disconnected | failed | unsupported
  deriving DecidableEq

inductive ActivityState
  | idle | running | blocked | settling | unknown
  deriving DecidableEq

/-- What the constructor is given. A ledger shorter than its timeline cannot answer for the operations still in it. -/
structure Config where
  bridgeEpoch : String
  timelineLimit : Nat
  ledgerLimit : Nat
  assetSubmitCapable : Bool
  payloadDigest : String → List AssetReference → String
  positive : 0 < timelineLimit := by decide
  covers : timelineLimit ≤ ledgerLimit := by decide

inductive Event
  -- The adapter's submit or setter was called.
  | sent (n : Nat)
  -- An outcome certified that nothing was sent.
  | unsent (n : Nat)
  -- The exact completion arrived.
  | observed (n : Nat)
  -- The record became terminal.
  | settled (n : Nat) (state : SubmissionLifecycleState)
  deriving DecidableEq

inductive Dispatcher
  | waiting
  | preflight (n : Nat)
  | sending (n : Nat)
  | stopped
  deriving DecidableEq

structure Authority where
  ledger : SubmissionLedger
  timeline : List OperationKey
  active : Option OperationKey
  dispatcher : Dispatcher
  wake : Bool
  accepting : Bool
  control : ControlState
  activity : ActivityState
  lastAdapterSequence : Int
  consumedCompletions : List ControlOperationRef
  /-- The reconciliations suspended in the adapter: the request id asked for and the reference it named. -/
  reconciling : List (String × ControlOperationRef)
  history : List Event

def Config.requireEpoch (c : Config) : Option String → Except String Unit
  | none => .ok ()
  | some expected =>
    if expected = c.bridgeEpoch then .ok ()
    else .error ("submission authority epoch changed (expected " ++ textRepr expected ++ ", actual " ++
      textRepr c.bridgeEpoch ++ ")")

namespace Authority

def init : Authority :=
  ⟨SubmissionLedger.empty, [], none, .waiting, false, true, .starting, .unknown, 0, [], [], []⟩

def put (s : Authority) (r : OperationRecord) : Authority := { s with ledger := s.ledger.put r }

def log (s : Authority) (e : Event) : Authority := { s with history := s.history ++ [e] }

def setWake (s : Authority) : Authority := { s with wake := true }

def activeRecord (s : Authority) : Option OperationRecord := s.active.bind s.ledger.byKey

def snapshotAllowsDispatch (s : Authority) : Bool := s.control = .ready ∧ s.activity = .idle

def headIsDispatchable (s : Authority) (key : OperationKey) : Bool :=
  s.timeline = [key] ∧ s.active = none ∧ s.snapshotAllowsDispatch

def pinned (s : Authority) (key : OperationKey) : Bool := s.active = some key ∨ key ∈ s.timeline

def markTerminal (s : Authority) (r : OperationRecord) (state : SubmissionLifecycleState) (detail : Option String)
    (at' : String) : Authority :=
  (s.put (r.markTerminal state detail at')).log (.settled r.sequence state)

def lastItems {α : Type} (maxlen : Nat) (l : List α) : List α := l.drop (l.length - maxlen)

def releaseHead (c : Config) (s : Authority) (r : OperationRecord) (consumeCompletion : Bool) : Authority :=
  { s with
    active := if s.active = some r.key then none else s.active
    timeline := s.timeline.erase r.key
    consumedCompletions :=
      if consumeCompletion then lastItems c.ledgerLimit (s.consumedCompletions ++ [r.ref]) else s.consumedCompletions
    ledger := (s.ledger.put { r with bufferedCompletionSequence := none }).touch r }

/-- `mark_terminal` followed by `_release_head`, as every path but withdrawal and refusal retires a record. -/
def retire (c : Config) (s : Authority) (r : OperationRecord) (state : SubmissionLifecycleState)
    (detail : Option String) (at' : String) (consumeCompletion : Bool) : Authority :=
  (s.markTerminal r state detail at').releaseHead c (r.markTerminal state detail at') consumeCompletion

/-! ## Admission -/

def hasAdmissionRoom (c : Config) (s : Authority) : Bool × Authority :=
  if s.ledger.liveCount s.active < c.timelineLimit then
    let (room, ledger) := s.ledger.makeRoom c.ledgerLimit s.pinned
    (room, { s with ledger := ledger })
  else (false, s)

def preAdmissionReceipt (c : Config) (s : Authority) (request : PromptRequest) (digest : String) :
    Except String (Option SubmissionReceipt) × Authority :=
  match s.ledger.byRequestId request.requestId with
  | some prior =>
    if prior.source ≠ some request.source ∨ prior.payloadDigest ≠ some digest then
      (.error ("request id " ++ textRepr request.requestId ++ " already belongs to its first source/payload"), s)
    else (.ok (some (prior.duplicateReceipt c.bridgeEpoch)), { s with ledger := s.ledger.touch prior })
  | none =>
    match s.hasAdmissionRoom c with
    | (true, s) => (.ok none, s)
    | (false, s) =>
      (.ok (some
        { requestId := request.requestId
          acceptance := .rejected
          submittedAt := request.submittedAt
          detail := some "submission ledger is full of live or unresolved operations"
          bridgeEpoch := some c.bridgeEpoch }), s)

def enrolPrompt (c : Config) (s : Authority) (request : PromptRequest) (digest : String) :
    OperationRecord × Authority :=
  let (ref, ledger) := s.ledger.nextRef c.bridgeEpoch .prompt (some request.requestId)
  let record : OperationRecord :=
    { ref := ref
      state := .queued
      submittedAt := request.submittedAt
      updatedAt := request.submittedAt
      source := some request.source
      payloadDigest := some digest
      text := some request.text
      detail := some "queued inside the authoritative control bridge"
      assets := request.assets }
  (record, { s with ledger := ledger.enrol record })

def unsupportedPrompt (c : Config) (s : Authority) (request : PromptRequest) : Option String :=
  if s.control = .unsupported then some "hosted harness does not support native prompt control"
  else if request.assets ≠ [] ∧ c.assetSubmitCapable = false then
    some "hosted harness does not support asset submissions"
  else none

def admitPrompt (c : Config) (s : Authority) (request : PromptRequest) (digest : String) :
    Except String (Option SubmissionReceipt) × Authority :=
  let (record, s) := s.enrolPrompt c request digest
  match s.unsupportedPrompt c request with
  | some detail =>
    (.ok (some ((record.markTerminal .unsupported (some detail) request.submittedAt).receipt
        .unsupported c.bridgeEpoch none)),
      s.markTerminal record .unsupported (some detail) request.submittedAt)
  | none =>
    let s := { s with timeline := s.timeline ++ [record.key] }
    if s.headIsDispatchable record.key then (.ok none, s.setWake)
    else (.ok (some (record.receipt .queued c.bridgeEpoch none)), s.setWake)

/-- The lock body of `submit`. No receipt: the caller waits, within its grace, for the dispatch it woke. -/
def submit (c : Config) (s : Authority) (request : PromptRequest) :
    Except String (Option SubmissionReceipt) × Authority :=
  if s.accepting = false then (.error "submission authority is stopped", s)
  else
    match c.requireEpoch request.expectedBridgeEpoch with
    | .error e => (.error e, s)
    | .ok _ =>
      let digest := c.payloadDigest request.text request.assets
      match s.preAdmissionReceipt c request digest with
      | (.error e, s) => (.error e, s)
      | (.ok (some settled), s) => (.ok (some settled), s)
      | (.ok none, s) => s.admitPrompt c request digest

def enrolSetter (c : Config) (s : Authority) (kind : ControlOperationKind) (requestedValue at' : String) : Authority :=
  let (ref, ledger) := s.ledger.nextRef c.bridgeEpoch kind none
  let record : OperationRecord :=
    { ref := ref
      state := .queued
      submittedAt := at'
      updatedAt := at'
      requestedValue := some requestedValue
      detail := some "queued in the authoritative ordinary-operation timeline" }
  { s with ledger := ledger.enrol record, timeline := s.timeline ++ [record.key] }.setWake

def admitSetter (c : Config) (s : Authority) (kind : ControlOperationKind) (requestedValue at' : String) :
    Except String (Option SetResult) × Authority :=
  if s.accepting = false then (.error "submission authority is stopped", s)
  else if s.control = .unsupported then
    (.ok (some
      { ok := false
        acceptance := .unsupported
        requestedValue := requestedValue
        detail := some "hosted harness does not support native capability control" }), s)
  else
    match s.hasAdmissionRoom c with
    | (false, s) =>
      (.ok (some
        { ok := false
          acceptance := .unknown
          requestedValue := requestedValue
          detail := some "operation ledger is full of live or unresolved operations" }), s)
    | (true, s) => (.ok none, s.enrolSetter c kind requestedValue at')

/-! ## Withdrawal, reconciliation, resolution -/

def visible (cockpitOnly : Bool) (r : OperationRecord) : Bool := !cockpitOnly || decide (r.source = some .cockpit)

def withdraw (c : Config) (s : Authority) (expectedBridgeEpoch requestId : String) (cockpitOnly : Bool)
    (at' : String) : Except String WithdrawalResult × Authority :=
  match c.requireEpoch (some expectedBridgeEpoch) with
  | .error e => (.error e, s)
  | .ok _ =>
    match (s.ledger.byRequestId requestId).filter (visible cockpitOnly) with
    | none =>
      (.ok
        { requestId := requestId
          outcome := .notFound
          state := none
          detail := some "submission is not retained for this cockpit authority" }, s)
    | some record =>
      if record.state = .withdrawn then
        (.ok
          { requestId := requestId
            outcome := .withdrawn
            state := some .withdrawn
            withdrawnAt := some record.updatedAt
            detail := record.detail }, s)
      else if record.state ≠ .queued then
        (.ok
          { requestId := requestId
            outcome := .notWithdrawable
            state := some record.state
            detail := some ("submission is already " ++ record.state.text) }, s)
      else if record.key ∉ s.timeline then (.error "deque.remove(x): x not in deque", s)
      else
        let detail := "queued submission was withdrawn"
        (.ok
          { requestId := requestId
            outcome := .withdrawn
            state := some .withdrawn
            withdrawnAt := some at'
            detail := some detail
            recovery := some ⟨record.text, record.assets⟩ },
          ({ s with timeline := s.timeline.erase record.key }.markTerminal record .withdrawn (some detail) at').setWake)

/-- `reconcile` up to its await. No result: the adapter is asked. -/
def reconcile (c : Config) (s : Authority) (requestId : String) (expectedBridgeEpoch : Option String) :
    Except String (Option ReconciliationResult) × Authority :=
  match c.requireEpoch expectedBridgeEpoch with
  | .error e => (.error e, s)
  | .ok _ =>
    match s.ledger.byRequestId requestId with
    | none => (.error ("submission " ++ textRepr requestId ++ " is no longer retained for reconciliation"), s)
    | some record =>
      match record.reconciliation c.bridgeEpoch with
      | some known => (.ok (some known), { s with ledger := s.ledger.touch record })
      | none => (.ok none, { s with reconciling := s.reconciling ++ [(requestId, record.ref)] })

def reconciled (c : Config) (s : Authority) (requestId : String) (ref : ControlOperationRef)
    (answer : Except String ReconciliationResult) : Except String ReconciliationResult × Authority :=
  match answer with
  | .error e => (.error e, s)
  | .ok result =>
    if result.requestId ≠ requestId then (.error "adapter reconciliation request id does not match", s)
    else
      match s.ledger.byKey (refKey ref) with
      | none => (.error "submission disappeared during reconciliation", s)
      | some current =>
        let projected (state : SubmissionLifecycleState) : Except String ReconciliationResult :=
          .ok { result with bridgeEpoch := some c.bridgeEpoch, submissionState := some state }
        match result.state with
        | .accepted =>
          -- Accepted proves delivery, not turn completion; the active gate stays pinned.
          (projected .delivered,
            (s.put
              { current with
                state := .delivered
                acceptedAt := some result.reconciledAt
                vendorCorrelationId := result.vendorCorrelationId
                detail := result.detail
                updatedAt := result.reconciledAt }).setWake)
        | .rejected =>
          (projected .rejected, (s.retire c current .rejected result.detail result.reconciledAt false).setWake)
        | .unsupported =>
          (projected .unsupported, (s.retire c current .unsupported result.detail result.reconciledAt false).setWake)
        | .unresolved =>
          (projected current.state,
            (s.put { current with detail := result.detail, updatedAt := result.reconciledAt }).setWake)

def resolveOperation (c : Config) (s : Authority) (operationId : String) (operationKind : ControlOperationKind)
    (resolution : OperationResolution) (detail at' : String) : Except String Unit × Authority :=
  match (s.ledger.byKey (operationKind, operationId)).filter fun r => decide (r.state = .unknown) with
  | none => (.error "only an unknown operation can be operator-resolved", s)
  | some record =>
    let state : SubmissionLifecycleState := if resolution = .applied then .delivered else .rejected
    (.ok (), (s.retire c record state (some detail) at' false).setWake)

def observeCompleted (c : Config) (s : Authority) (event : AdapterEvent) : Except String Unit × Authority :=
  match event.operation with
  | none => (.error "completed adapter event requires exact operation ref", s)
  | some ref =>
    if ref.bridgeEpoch ≠ c.bridgeEpoch then (.error "completed adapter event bridge epoch mismatch", s)
    else if ref ∈ s.consumedCompletions then (.error "duplicate adapter completion cannot release a successor", s)
    else
      match s.activeRecord.filter fun r => decide (r.ref = ref) with
      | none => (.error "adapter completion does not match the active operation", s)
      | some active =>
        if active.state = .dispatching then
          if active.bufferedCompletionSequence ≠ none then (.error "operation already has a buffered completion", s)
          else
            (.ok (),
              (s.put { active with bufferedCompletionSequence := some event.sequence }).log (.observed active.sequence))
        else if active.state ≠ .delivered ∧ active.state ≠ .unknown then
          (.error "active operation is not completion-eligible", s)
        else
          (.ok (), ((s.log (.observed active.sequence)).retire c active .delivered active.detail event.createdAt
            true).setWake)

def observeEvent (c : Config) (s : Authority) (event : AdapterEvent) : Except String Unit × Authority :=
  if event.sequence ≤ s.lastAdapterSequence then
    (.error "adapter event sequence is stale at submission authority", s)
  else
    let s := { s with lastAdapterSequence := event.sequence }
    if event.kind ≠ "completed" then (.ok (), s.setWake) else s.observeCompleted c event

end Authority

end AgentsRemember.Harness
