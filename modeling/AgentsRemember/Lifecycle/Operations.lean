import Mathlib.Data.List.Basic
import AgentsRemember.Lib.Text

/-!
# Lifecycle operation records

The one current snapshot a task keeps for each kind of operation. A digest is
the text of a hash: nothing below looks inside one, so the hash functions are
a parameter.
-/

namespace AgentsRemember.Lifecycle

open Lib

inductive OperationKind
  | closeout | integrate
  deriving DecidableEq

def OperationKind.text : OperationKind → String
  | closeout => "closeout"
  | integrate => "integrate"

inductive OperationStatus
  | queued | running | inputRequired | completed | failed | cancelled
  deriving DecidableEq

def OperationStatus.text : OperationStatus → String
  | queued => "queued"
  | running => "running"
  | inputRequired => "input-required"
  | completed => "completed"
  | failed => "failed"
  | cancelled => "cancelled"

def OperationStatus.terminal : OperationStatus → Bool
  | completed | failed | cancelled => true
  | _ => false

inductive OperationPhase
  | queued | preflight | memoryPreflight | quality | approvalClaim | recoveringAfterClaim | codeCommit | memoryRefresh
  | memoryCommit | ledgerCommit | integrationReplay | integrationQuality | sourceMerge | contractFinalization
  | completed | failed | cancelled
  deriving DecidableEq

def OperationPhase.text : OperationPhase → String
  | queued => "queued"
  | preflight => "preflight"
  | memoryPreflight => "memory-preflight"
  | quality => "quality"
  | approvalClaim => "approval-claim"
  | recoveringAfterClaim => "recovering-after-claim"
  | codeCommit => "code-commit"
  | memoryRefresh => "memory-refresh"
  | memoryCommit => "memory-commit"
  | ledgerCommit => "ledger-commit"
  | integrationReplay => "integration-replay"
  | integrationQuality => "integration-quality"
  | sourceMerge => "source-merge"
  | contractFinalization => "contract-finalization"
  | completed => "completed"
  | failed => "failed"
  | cancelled => "cancelled"

/-! ## Recovery commits -/

def isCommitId (s : String) : Bool :=
  decide (40 ≤ s.length) && decide (s.length ≤ 64) && s.toList.all fun c => c.isDigit || decide ('a' ≤ c ∧ c ≤ 'f')

def isCommitCell (s : String) : Bool := s = "" || isCommitId s

structure RecoveryCommits where
  codeCommit : String
  memoryContentCommit : String := ""
  ledgerCommit : String := ""
  code_ok : isCommitId codeCommit = true
  memory_ok : isCommitCell memoryContentCommit = true := by decide
  ledger_ok : isCommitCell ledgerCommit = true := by decide
  deriving DecidableEq

def keepsCell (before after : String) : Bool := before = "" || after = before

def RecoveryCommits.fillsOnly (before after : RecoveryCommits) : Bool :=
  keepsCell before.codeCommit after.codeCommit && keepsCell before.memoryContentCommit after.memoryContentCommit &&
    keepsCell before.ledgerCommit after.ledgerCommit

/-! ## Durable input -/

structure GatePolicyRuleSnapshot where
  kind : String
  delegatedRole : Option String := none
  requireReviewerVerdict : Bool := false
  deriving DecidableEq

structure CloseoutOperationInput where
  configPath : String
  contractPath : String
  codeCommitMessage : String
  memoryCommitMessage : String := ""
  ledgerCommitMessage : String := ""
  approvalNote : String
  gatePolicy : List GatePolicyRuleSnapshot := []
  deriving DecidableEq

inductive IntegrateStrategy
  | ffOnly | replay
  deriving DecidableEq

structure IntegrateOperationInput where
  configPath : String
  contractPath : String
  strategy : IntegrateStrategy := .ffOnly
  ledgerCommitMessage : String := ""
  gatePolicy : List GatePolicyRuleSnapshot := []
  autoCompleteSeats : Bool := true
  deriving DecidableEq

inductive OperationInput
  | closeout (input : CloseoutOperationInput)
  | integrate (input : IntegrateOperationInput)
  deriving DecidableEq

namespace OperationInput

def kind : OperationInput → OperationKind
  | closeout _ => .closeout
  | integrate _ => .integrate

def contractPath : OperationInput → String
  | closeout input => input.contractPath
  | integrate input => input.contractPath

end OperationInput

structure OperationResult where
  text : String
  reason : Option String := none
  summary : Option String := none
  developerDecisionRequired : Bool := false
  deriving DecidableEq

def OperationResult.failure (result : OperationResult) : String :=
  (pyOr result.reason (pyOr result.summary (some result.text))).getD ""

structure OperationRecord where
  taskId : String
  taskName : String
  contractPath : String
  operationKind : OperationKind
  candidateState : String
  candidateTree : Option String
  fingerprint : String
  operationKey : String
  input : OperationInput
  status : OperationStatus
  phase : OperationPhase
  queuedAt : String
  startedAt : Option String := none
  heartbeatAt : Option String := none
  finishedAt : Option String := none
  currentCommand : String := ""
  reportPath : String
  result : Option OperationResult := none
  failure : Option String := none
  guidance : Option String := none
  cancelRequested : Bool := false
  irreversibleBoundaryEntered : Bool := false
  approvalClaimed : Bool := false
  recoveryCommits : Option RecoveryCommits := none
  attempt : Nat := 1
  workerPid : Option Nat := none
  attempt_pos : 0 < attempt := by decide
  deriving DecidableEq

def OperationRecord.attemptAfter (record : OperationRecord) (n : Nat) : OperationRecord :=
  { record with attempt := n + 1, attempt_pos := Nat.succ_pos n }

/-! ## The contract a call loads -/

structure OperationContract where
  taskId : String
  taskName : String
  contractPath : String
  worktreeGroup : String
  closeoutStatus : String
  codeCommit : String
  memoryContentCommit : String
  ledgerCommit : String
  integrationStatus : String
  integratedCodeCommit : String
  integratedMemoryContentCommit : String
  integratedLedgerCommit : String
  cleanup : String

structure Hashing where
  stateFingerprint : OperationContract → String
  fingerprint : OperationInput → String → Option String → String
  operationKey : String → OperationKind → String → String

def operationReportPath (worktreeGroup : String) (kind : OperationKind) : String :=
  worktreeGroup ++ "/reports/" ++ kind.text ++ "-operation.log"

/-! ## The operation store

One record a task and kind, or none yet. Each operation reads and writes it
under one lock: `update` checks what a transition may change, the two
replacements check only the record they replace.
-/

abbrev OperationStore := Option OperationRecord

def allowed : OperationStatus → List OperationStatus
  | .queued => [.queued, .running, .failed, .cancelled]
  | .running => [.queued, .running, .inputRequired, .completed, .failed, .cancelled]
  | .inputRequired => [.queued, .inputRequired, .cancelled]
  | .completed => [.completed]
  | .failed => [.failed]
  | .cancelled => [.cancelled]

def firstChanged (fields : List (String × Bool)) : Option String := (fields.find? Prod.snd).map Prod.fst

def changedImmutable (current updated : OperationRecord) : Option String :=
  firstChanged
    [("taskId", current.taskId ≠ updated.taskId), ("taskName", current.taskName ≠ updated.taskName),
      ("contractPath", current.contractPath ≠ updated.contractPath),
      ("operationKind", current.operationKind ≠ updated.operationKind),
      ("candidateState", current.candidateState ≠ updated.candidateState),
      ("candidateTree", current.candidateTree ≠ updated.candidateTree),
      ("fingerprint", current.fingerprint ≠ updated.fingerprint)]

def require (ok : Bool) (message : String) : Except String Unit := if ok then .ok () else .error message

def validateRecoveryCommitsTransition (current updated : OperationRecord) : Except String Unit :=
  match current.recoveryCommits, updated.recoveryCommits with
  | none, _ => .ok ()
  | some _, none => .error "recorded lifecycle recovery commits cannot be cleared"
  | some before, some after =>
    require (before.fillsOnly after) "recorded lifecycle recovery commits can only fill empty cells"

def validateTransition (current updated : OperationRecord) : Except String Unit := do
  let changed := changedImmutable current updated
  require changed.isNone ("lifecycle operation transition cannot change " ++ changed.getD "")
  require (updated.operationKey = current.operationKey && updated.input = current.input)
    "lifecycle operation transition cannot change its durable input"
  require (updated.status ∈ allowed current.status)
    s!"invalid lifecycle operation transition {current.status.text} -> {updated.status.text}"
  require (!current.approvalClaimed || updated.approvalClaimed) "a claimed approval cannot become unclaimed"
  validateRecoveryCommitsTransition current updated
  require (!current.irreversibleBoundaryEntered || updated.irreversibleBoundaryEntered)
    "an entered irreversible boundary cannot be cleared"
  require (!(updated.status = .cancelled && current.irreversibleBoundaryEntered))
    "a lifecycle operation cannot cancel after its irreversible boundary"

namespace OperationStore

def create (store : OperationStore) (record : OperationRecord) : OperationRecord × Bool :=
  match store with
  | some current => (current, false)
  | none => (record, true)

def update (store : OperationStore) (transform : OperationRecord → Except String OperationRecord) :
    Except String OperationRecord :=
  match store with
  | none => .error "lifecycle operation record does not exist"
  | some current => do
    let updated ← transform current
    validateTransition current updated
    return updated

def replaceForRecovery (store : OperationStore) (transform : OperationRecord → OperationRecord) (expectedAttempt : Nat) :
    Except String (OperationRecord × Bool) :=
  match store with
  | none => .error "a completed lifecycle operation cannot recover in place"
  | some current =>
    if current.attempt ≠ expectedAttempt then .ok (current, false)
    else if current.status = .completed then .error "a completed lifecycle operation cannot recover in place"
    else if (current.status = .failed ∨ current.status = .cancelled) ∧ current.irreversibleBoundaryEntered then
      .error "a terminal operation past its boundary cannot restart"
    else
      let updated := transform current
      if updated.fingerprint ≠ current.fingerprint then
        .error "lifecycle operation recovery cannot change its fingerprint"
      else .ok (updated, true)

def changedIdentity (current candidate : OperationRecord) : Option String :=
  firstChanged
    [("taskId", candidate.taskId ≠ current.taskId), ("taskName", candidate.taskName ≠ current.taskName),
      ("contractPath", candidate.contractPath ≠ current.contractPath),
      ("operationKind", candidate.operationKind ≠ current.operationKind)]

def replaceTerminal (store : OperationStore) (candidate : OperationRecord) : Except String OperationRecord :=
  match store with
  | none => .error "an active lifecycle operation cannot be replaced"
  | some current =>
    if ¬ current.status.terminal then .error "an active lifecycle operation cannot be replaced"
    else match changedIdentity current candidate with
      | some field => .error s!"a sequential lifecycle operation cannot change {field}"
      | none => .ok (candidate.attemptAfter current.attempt)

end OperationStore

/-! ## What a write can change -/

structure ValidTransition (current updated : OperationRecord) : Prop where
  operationKey : updated.operationKey = current.operationKey
  fingerprint : updated.fingerprint = current.fingerprint
  candidateState : updated.candidateState = current.candidateState
  status : updated.status ∈ allowed current.status
  approvalClaimed : current.approvalClaimed = true → updated.approvalClaimed = true
  recoveryCommits : ∀ before, current.recoveryCommits = some before →
    ∃ after, updated.recoveryCommits = some after ∧ before.fillsOnly after = true
  boundary : current.irreversibleBoundaryEntered = true → updated.irreversibleBoundaryEntered = true
  uncancelled : updated.status = .cancelled → current.irreversibleBoundaryEntered = false

theorem firstChanged_eq_none {fields : List (String × Bool)} : firstChanged fields = none ↔ ∀ f ∈ fields, f.2 = false := by
  simp [firstChanged, List.find?_eq_none]

variable {u : Unit} {current updated : OperationRecord}

theorem require_ok {b : Bool} {message : String} (h : require b message = .ok u) : b = true := by
  unfold require at h
  split at h
  · assumption
  · cases h

theorem bind_ok {α β : Type} {x : Except String α} {f : α → Except String β} {b : β} (h : (x >>= f) = .ok b) :
    ∃ a, x = .ok a ∧ f a = .ok b := by
  cases x with
  | error e => cases h
  | ok a => exact ⟨a, rfl, h⟩

theorem validateRecoveryCommits_ok (h : validateRecoveryCommitsTransition current updated = .ok u) :
    ∀ before, current.recoveryCommits = some before →
      ∃ after, updated.recoveryCommits = some after ∧ before.fillsOnly after = true := by
  intro before hb
  unfold validateRecoveryCommitsTransition at h
  rw [hb] at h
  cases ha : updated.recoveryCommits with
  | none =>
    rw [ha] at h
    cases h
  | some after =>
    rw [ha] at h
    exact ⟨after, rfl, require_ok h⟩

theorem validateTransition_ok (h : validateTransition current updated = .ok u) : ValidTransition current updated := by
  obtain ⟨_, hc, h⟩ := bind_ok h
  obtain ⟨_, hkey, h⟩ := bind_ok h
  obtain ⟨_, hstatus, h⟩ := bind_ok h
  obtain ⟨_, hclaim, h⟩ := bind_ok h
  obtain ⟨_, hcommits, h⟩ := bind_ok h
  obtain ⟨_, hbound, hcancel⟩ := bind_ok h
  have hsame := firstChanged_eq_none.mp (Option.isNone_iff_eq_none.mp (require_ok hc))
  simp only [List.mem_cons, List.not_mem_nil, or_false, forall_eq_or_imp, forall_eq, decide_eq_false_iff_not,
    ne_eq, Classical.not_not] at hsame
  obtain ⟨-, -, -, -, hstate, -, hfp⟩ := hsame
  have hkey' := require_ok hkey
  have hclaim' := require_ok hclaim
  have hbound' := require_ok hbound
  have hcancel' := require_ok hcancel
  simp only [Bool.and_eq_true, decide_eq_true_eq] at hkey'
  exact
    { operationKey := hkey'.1
      fingerprint := hfp.symm
      candidateState := hstate.symm
      status := of_decide_eq_true (require_ok hstatus)
      approvalClaimed := fun hc => by simpa [hc] using hclaim'
      recoveryCommits := validateRecoveryCommits_ok hcommits
      boundary := fun hb => by simpa [hb] using hbound'
      uncancelled := fun hs => by simpa [hs] using hcancel' }

namespace OperationStore

variable {store : OperationStore} {updated : OperationRecord}

theorem update_ok {transform : OperationRecord → Except String OperationRecord} (h : store.update transform = .ok updated) :
    ∃ current, store = some current ∧ transform current = .ok updated ∧ ValidTransition current updated := by
  cases store with
  | none => cases h
  | some current =>
    obtain ⟨u, ht, h⟩ := bind_ok h
    obtain ⟨_, hv, h⟩ := bind_ok h
    cases h
    exact ⟨current, rfl, ht, validateTransition_ok hv⟩

theorem replaceForRecovery_ok {transform : OperationRecord → OperationRecord} {expected : Nat} {wrote : Bool}
    (h : store.replaceForRecovery transform expected = .ok (updated, wrote)) :
    ∃ current, store = some current ∧
      ((wrote = false ∧ updated = current ∧ current.attempt ≠ expected) ∨
        (wrote = true ∧ updated = transform current ∧ current.attempt = expected ∧ current.status ≠ .completed ∧
          (current.status.terminal = true → current.irreversibleBoundaryEntered = false))) := by
  cases store with
  | none => cases h
  | some current =>
    refine ⟨current, rfl, ?_⟩
    unfold replaceForRecovery at h
    simp only at h
    split at h
    · rename_i ha
      cases h
      exact Or.inl ⟨rfl, rfl, ha⟩
    rename_i ha
    split at h
    · cases h
    rename_i hc
    split at h
    · cases h
    rename_i hb
    split at h
    · cases h
    cases h
    refine Or.inr ⟨rfl, rfl, Classical.not_not.mp ha, hc, ?_⟩
    intro ht
    cases hs : current.status <;> simp [OperationStatus.terminal, hs] at ht hc hb ⊢
    · exact hb
    · exact hb

theorem replaceTerminal_ok {candidate : OperationRecord} (h : store.replaceTerminal candidate = .ok updated) :
    ∃ current, store = some current ∧ current.status.terminal = true ∧ current.attempt < updated.attempt ∧
      updated = { candidate with attempt := updated.attempt, attempt_pos := updated.attempt_pos } := by
  cases store with
  | none => cases h
  | some current =>
    unfold replaceTerminal at h
    simp only at h
    split at h
    · cases h
    rename_i ht
    split at h
    · cases h
    · cases h
      exact ⟨current, rfl, by simpa using ht, Nat.lt_succ_self _, rfl⟩

end OperationStore

/-! ## Starting, recovering, cancelling, working

Each call is a chain of store operations with decisions between them; what a
call decides and what each of its writes does to the record is here, the
order in which calls and workers take their steps is not.
-/

def staleHeartbeat : Int := 30 * 1000000

/-! ## Starting -/

def validateInputIdentity (contract : OperationContract) (input : OperationInput) : Except String Unit := do
  require (input.contractPath = contract.contractPath) "lifecycle operation input does not resolve to its loaded contract"
  match input with
  | .closeout closeout => require (!blank closeout.approvalNote) "closeout apply requires a non-empty approval intent note"
  | .integrate _ => .ok ()

def queuedRecord (hash : Hashing) (contract : OperationContract) (input : OperationInput) (tree : Option String)
    (stamp : String) : OperationRecord :=
  let candidateState := hash.stateFingerprint contract
  let candidateTree := match input.kind with
    | .closeout => tree
    | .integrate => none
  let fingerprint := hash.fingerprint input candidateState candidateTree
  { taskId := contract.taskId
    taskName := contract.taskName
    contractPath := contract.contractPath
    operationKind := input.kind
    candidateState := candidateState
    candidateTree := candidateTree
    fingerprint := fingerprint
    operationKey := hash.operationKey contract.contractPath input.kind fingerprint
    input := input
    status := .queued
    phase := .queued
    queuedAt := stamp
    currentCommand := s!"waiting to start {input.kind.text}"
    reportPath := operationReportPath contract.worktreeGroup input.kind }

def recoverableStale (parse : String → Option Stamp) (record : OperationRecord) (now : Int) : Except String Bool :=
  if record.status = .queued ∨ record.status = .running then
    match ageMicros parse ((pyOr record.heartbeatAt (some record.queuedAt)).getD "") now with
    | none => .error "Invalid isoformat string"
    | some age => .ok (decide (staleHeartbeat < age))
  else .ok false

def shouldRecover (parse : String → Option Stamp) (record : OperationRecord) (now : Int) : Except String Bool := do
  let stale ← recoverableStale parse record now
  return stale || (record.status = .inputRequired && record.irreversibleBoundaryEntered) ||
    ((record.status = .failed || record.status = .cancelled) && !record.irreversibleBoundaryEntered)

inductive StartNext
  | observe | launch | replace | recover

def afterCreate (parse : String → Option Stamp) (candidate current : OperationRecord) (created : Bool) (now : Int) :
    Except String StartNext :=
  if current.fingerprint ≠ candidate.fingerprint then
    if ¬ current.status.terminal then
      .error s!"conflicting {candidate.operationKind.text} operation already exists for task {candidate.taskName}; wait for or resolve that task-bound operation"
    else if current.status = .completed ∧ current.candidateState = candidate.candidateState then
      .error s!"conflicting {candidate.operationKind.text} parameters target an already completed task state for {candidate.taskName}; the task state has not advanced"
    else .ok .replace
  else if created then .ok .launch
  else do
    let recover ← shouldRecover parse current now
    return if recover then .recover else .observe

def requeued (stamp : String) (record : OperationRecord) : OperationRecord :=
  { record.attemptAfter record.attempt with
    status := .queued
    phase := if record.irreversibleBoundaryEntered then .recoveringAfterClaim else .queued
    queuedAt := stamp
    heartbeatAt := none
    finishedAt := none
    failure := none
    guidance := none
    currentCommand := "recovering the same task-bound operation"
    workerPid := none
    cancelRequested := false }

def recordPid (launched : OperationRecord) (pid : Nat) (record : OperationRecord) : OperationRecord :=
  if record.status = .queued ∧ record.fingerprint = launched.fingerprint then { record with workerPid := some pid }
  else record

def launchFailed (error stamp : String) (record : OperationRecord) : OperationRecord :=
  { record with
    status := .failed
    phase := .failed
    finishedAt := some stamp
    failure := some s!"detached worker could not start: {error}"
    guidance := some "Fix the native runner environment, then start the same task operation again." }

/-! ## Cancelling -/

def requestCancel (kind : OperationKind) (stamp : String) (record : OperationRecord) : Except String OperationRecord :=
  if record.status.terminal then .ok record
  else if record.irreversibleBoundaryEntered then
    .error s!"{kind.text} has entered its irreversible boundary; cancellation is refused and recovery must reconcile or complete the same task-bound operation"
  else .ok { record with
    status := .cancelled
    phase := .cancelled
    cancelRequested := true
    finishedAt := some stamp
    guidance := some "The task-bound operation was cancelled before approval claim."
    workerPid := none }

def cancellable (record : OperationRecord) : Bool := !record.status.terminal && !record.irreversibleBoundaryEntered

/-! ## Working -/

structure Evidence where
  currentCommand : Option String := none
  irreversibleBoundary : Bool := false
  approvalClaimed : Bool := false
  recoveryCommits : Option RecoveryCommits := none

def running (stamp : String) (pid : Nat) (record : OperationRecord) : OperationRecord :=
  if record.status ≠ .queued then record
  else
    { record with
      status := .running
      phase := if record.irreversibleBoundaryEntered then .recoveringAfterClaim else .preflight
      startedAt := pyOr record.startedAt (some stamp)
      heartbeatAt := some stamp
      currentCommand := if record.irreversibleBoundaryEntered then "recover task state" else "validate lifecycle operation"
      workerPid := some pid }

def advance (phase : OperationPhase) (evidence : Evidence) (stamp : String) (record : OperationRecord) : OperationRecord :=
  if record.cancelRequested ∨ record.status = .cancelled then record
  else
    { record with
      status := .running
      phase := phase
      heartbeatAt := some stamp
      currentCommand := (pyOr evidence.currentCommand (some phase.text)).getD ""
      irreversibleBoundaryEntered := record.irreversibleBoundaryEntered || evidence.irreversibleBoundary
      approvalClaimed := record.approvalClaimed || evidence.approvalClaimed
      recoveryCommits := evidence.recoveryCommits.or record.recoveryCommits }

def beat (stamp : String) (command : Option String) (record : OperationRecord) : OperationRecord :=
  if record.status ≠ .running then record
  else
    { record with
      heartbeatAt := some stamp
      currentCommand := (pyOr command (some record.currentCommand)).getD "" }

def terminalGuidance (needsRecovery needsInput : Bool) : String :=
  if needsRecovery then
    "Restart this exact task operation; its consumed approval remains bound to the same internal fingerprint and recovery will not replay a different mutation."
  else if needsInput then
    "Resolve the reported developer decision, cancel this pre-boundary attempt, then start the task operation with the selected input."
  else "Fix the reported preflight failure, then restart this task operation."

def finished (result : OperationResult) (ok : Bool) (stamp : String) (record : OperationRecord) : OperationRecord :=
  if record.status = .cancelled then record
  else if ok then
    { record with
      status := .completed
      phase := .completed
      heartbeatAt := some stamp
      finishedAt := some stamp
      currentCommand := "operation completed"
      result := some result
      guidance := some "Observe the task contract for the next lifecycle edge."
      workerPid := none }
  else
    let needsRecovery := record.irreversibleBoundaryEntered
    let needsInput := needsRecovery || result.developerDecisionRequired
    { record with
      status := if needsInput then .inputRequired else .failed
      phase := if needsRecovery then .contractFinalization else .failed
      heartbeatAt := some stamp
      finishedAt := if needsInput then none else some stamp
      currentCommand := if needsRecovery then "reconcile the same operation" else "operation failed"
      result := some result
      failure := some result.failure
      guidance := some (terminalGuidance needsRecovery needsInput)
      workerPid := none }

end AgentsRemember.Lifecycle
