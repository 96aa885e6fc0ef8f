import Mathlib.Data.Nat.Notation

/-!
# Gate records

A gate is a decision point on a lifecycle. Every change of it is a fresh
snapshot with the same `id` and a new `ts`; the functions below make them.
-/

namespace AgentsRemember.Gate

inductive GateKind
  | planApproval | worktreeIntent | closeoutApproval | pushApproval | integrationApproval
  | masterHandoverApproval | cleanupApproval | agentQuestion | providerRetry | alarmAck
  deriving DecidableEq

def GateKind.text : GateKind → String
  | planApproval => "plan-approval"
  | worktreeIntent => "worktree-intent"
  | closeoutApproval => "closeout-approval"
  | pushApproval => "push-approval"
  | integrationApproval => "integration-approval"
  | masterHandoverApproval => "master-handover-approval"
  | cleanupApproval => "cleanup-approval"
  | agentQuestion => "agent-question"
  | providerRetry => "provider-retry"
  | alarmAck => "alarm-ack"

inductive GateState
  | «open» | approved | rejected | revisionRequested | applied | cancelled | expired
  deriving DecidableEq

def GateState.text : GateState → String
  | «open» => "open"
  | approved => "approved"
  | rejected => "rejected"
  | revisionRequested => "revision-requested"
  | applied => "applied"
  | cancelled => "cancelled"
  | expired => "expired"

inductive DecidedVia
  | chat | dashboard | cli | orchestration
  deriving DecidableEq

inductive GateEvidenceKind
  | reviewerVerdict
  deriving DecidableEq

structure GateEvidenceRef where
  kind : GateEvidenceKind
  ref : String
  verdict : Option String
  deriving DecidableEq

abbrev Packet := List (String × String)

structure GateRecord where
  schemaVersion : String := "1.0"
  schema : String := "ar-gate-record/v1"
  id : String
  ts : String
  kind : GateKind
  state : GateState
  lifecycleId : Option String := none
  enclosure : Option String := none
  repoId : Option String := none
  packet : Packet := []
  requiredDecision : Option (List String) := none
  decidedBy : Option String := none
  decidedVia : Option DecidedVia := none
  decidingRole : Option String := none
  decisionNote : Option String := none
  decidedAt : Option String := none
  evidenceRefs : List GateEvidenceRef := []
  appliedOperation : Option String := none
  deriving DecidableEq

def decisionStates : List (String × GateState) :=
  [("approve", .approved), ("reject", .rejected), ("request-revision", .revisionRequested), ("cancel", .cancelled)]

structure GateAnchor where
  lifecycleId : Option String := none
  enclosure : Option String := none
  repoId : Option String := none

structure GateRequest where
  packet : Option Packet := none
  requiredDecision : Option (List String) := none
  evidenceRefs : Option (List GateEvidenceRef) := none

structure GateVerdict where
  decision : String
  via : DecidedVia
  by' : Option String := none
  note : Option String := none
  decidingRole : Option String := none

/-! ## Snapshots -/

def createGate (kind : GateKind) (gateId now : String) (anchor : GateAnchor) (request : GateRequest) : GateRecord where
  id := gateId
  ts := now
  kind := kind
  state := .open
  lifecycleId := anchor.lifecycleId
  enclosure := anchor.enclosure
  repoId := anchor.repoId
  packet := request.packet.getD []
  requiredDecision := request.requiredDecision
  evidenceRefs := request.evidenceRefs.getD []

/-- The snapshot carrying a decision; `none` is the `KeyError` of an unknown verb. -/
def decideGate (gate : GateRecord) (verdict : GateVerdict) (now : String) (evidenceRefs : List GateEvidenceRef) :
    Option GateRecord :=
  (decisionStates.lookup verdict.decision).map fun state =>
    { gate with
      ts := now
      state := state
      decidedBy := verdict.by'
      decidedVia := some verdict.via
      decidingRole := verdict.decidingRole
      decisionNote := verdict.note
      decidedAt := some now
      evidenceRefs := gate.evidenceRefs ++ evidenceRefs }

def expireGate (gate : GateRecord) (now : String) : GateRecord := { gate with ts := now, state := .expired }

def applyGate (gate : GateRecord) (now : String) (operationKey : Option String) : GateRecord :=
  { gate with ts := now, state := .applied, appliedOperation := operationKey }

def reopenGate (gate : GateRecord) (now : String) : GateRecord :=
  { gate with
    ts := now
    state := .open
    decidedBy := none
    decidedVia := none
    decidingRole := none
    decisionNote := none
    decidedAt := none }

structure SameGate (g h : GateRecord) : Prop where
  id : h.id = g.id
  kind : h.kind = g.kind
  lifecycleId : h.lifecycleId = g.lifecycleId

theorem decisionStates_state {d : String} {s : GateState} (h : decisionStates.lookup d = some s) :
    s = .approved ∨ s = .rejected ∨ s = .revisionRequested ∨ s = .cancelled := by
  have hm : (d, s) ∈ decisionStates := by
    obtain ⟨l₁, l₂, heq, -⟩ := List.lookup_eq_some_iff.mp h
    rw [heq]
    simp
  simp only [decisionStates, List.mem_cons, Prod.mk.injEq, List.not_mem_nil, or_false] at hm
  rcases hm with ⟨-, hs⟩ | ⟨-, hs⟩ | ⟨-, hs⟩ | ⟨-, hs⟩
  · exact Or.inl hs
  · exact Or.inr (Or.inl hs)
  · exact Or.inr (Or.inr (Or.inl hs))
  · exact Or.inr (Or.inr (Or.inr hs))

variable {g u : GateRecord} {v : GateVerdict} {now : String} {refs : List GateEvidenceRef}

theorem decideGate_spec (h : decideGate g v now refs = some u) :
    SameGate g u ∧ decisionStates.lookup v.decision = some u.state ∧ u.decidedVia = some v.via ∧ u.decidedBy = v.by' ∧
      u.decidingRole = v.decidingRole ∧ u.ts = now := by
  obtain ⟨s, hs, rfl⟩ := Option.map_eq_some_iff.mp h
  exact ⟨⟨rfl, rfl, rfl⟩, hs, rfl, rfl, rfl, rfl⟩

theorem decideGate_state (h : decideGate g v now refs = some u) :
    u.state ≠ .open ∧ u.state ≠ .applied ∧ u.state ≠ .expired := by
  have hs := decisionStates_state (decideGate_spec h).2.1
  rcases hs with hs | hs | hs | hs <;> simp [hs]

end AgentsRemember.Gate
