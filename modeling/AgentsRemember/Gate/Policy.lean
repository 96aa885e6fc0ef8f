import Mathlib.Data.List.Sort
import AgentsRemember.Lib.Dict
import AgentsRemember.Lib.Text
import AgentsRemember.Gate.Records
import Mathlib.Data.String.Basic

/-!
# Gate delegation policy

The default is that a human decides every gate. A policy adds one role for some
kinds; it never takes the human path away and never touches the pinned kinds.
The second half reads a recorded decision and says whether it satisfies a
policy.
-/

namespace AgentsRemember.Gate

open Lib

inductive DecisionRole
  | human | manager | orchestrator
  deriving DecidableEq

def DecisionRole.text : DecisionRole → String
  | human => "human"
  | manager => "manager"
  | orchestrator => "orchestrator"

def humanDecider : String := "developer"

def humanPinnedGateKinds : List GateKind := [.integrationApproval, .pushApproval, .cleanupApproval]

def delegableGateKinds : List GateKind := [.planApproval, .closeoutApproval, .masterHandoverApproval]

def seamGateKinds : List GateKind := [.masterHandoverApproval]

structure GatePolicyRule where
  kind : GateKind
  delegatedRole : Option DecisionRole := none
  requireReviewerVerdict : Bool := false

def GatePolicyRule.allowsRole (rule : GatePolicyRule) (role : DecisionRole) : Bool :=
  role = .human || some role = rule.delegatedRole

structure GatePolicy where
  rules : List GatePolicyRule := []

def GatePolicy.ruleFor (policy : GatePolicy) (kind : GateKind) : GatePolicyRule :=
  (policy.rules.find? fun rule => rule.kind = kind).getD { kind := kind }

def defaultGatePolicy : GatePolicy := {}

def coerceDecisionRole (raw : String) : Except String DecisionRole :=
  match [DecisionRole.human, .manager, .orchestrator].find? fun role => role.text = raw with
  | some role => .ok role
  | none => .error s!"unknown decision role {textRepr raw}; expected one of ['human', 'manager', 'orchestrator']"

/-! ## Building a policy -/

def normalizeRule (rule : GatePolicyRule) : GatePolicyRule :=
  if rule.delegatedRole = some .human then { rule with delegatedRole := none } else rule

def checkRule (rule : GatePolicyRule) : Except String GatePolicyRule :=
  let normalized := normalizeRule rule
  match normalized.delegatedRole with
  | some role =>
    if normalized.kind ∈ humanPinnedGateKinds then
      .error s!"{normalized.kind.text} is human-pinned and cannot delegate to {role.text}"
    else if normalized.kind ∉ delegableGateKinds then
      .error s!"{normalized.kind.text} cannot be delegated; allowed delegated kinds: closeout-approval, master-handover-approval, plan-approval"
    else .ok normalized
  | none =>
    if normalized.requireReviewerVerdict then
      .error s!"{normalized.kind.text} cannot require reviewer verdicts without a delegated role"
    else .ok normalized

def collectRules : Dict GateKind GatePolicyRule → List GatePolicyRule → Except String (Dict GateKind GatePolicyRule)
  | byKind, [] => .ok byKind
  | byKind, rule :: rules =>
    match checkRule rule with
    | .error e => .error e
    | .ok normalized => collectRules (byKind.set normalized.kind normalized) rules

def makeGatePolicy (rules : List GatePolicyRule) : Except String GatePolicy :=
  match collectRules Dict.empty rules with
  | .error e => .error e
  | .ok byKind => .ok ⟨(byKind.keys.insertionSort fun a b => a.text ≤ b.text).filterMap byKind.get?⟩

def namedGatePolicy (name : String) : Except String GatePolicy :=
  if name = "all-human" then .ok defaultGatePolicy
  else if name = "manager-decides-leaf-gates" then
    makeGatePolicy
      [{ kind := .planApproval, delegatedRole := some .manager },
        { kind := .closeoutApproval, delegatedRole := some .manager },
        { kind := .masterHandoverApproval, delegatedRole := some .orchestrator }]
  else .error s!"unknown gate delegation policy {textRepr name}; expected one of ['all-human', 'manager-decides-leaf-gates']"

def applySeamVerdictRequirement (policy : GatePolicy) : GatePolicy :=
  ⟨policy.rules.map fun rule =>
    if rule.kind ∈ seamGateKinds ∧ rule.delegatedRole ≠ none then { rule with requireReviewerVerdict := true } else rule⟩

/-! ## Attribution of a recorded decision -/

def hasReviewerVerdictEvidence (gate : GateRecord) : Bool :=
  gate.evidenceRefs.any fun ref => ref.kind = .reviewerVerdict

def decisionRoleForGate (gate : GateRecord) : Except String (Option DecisionRole) :=
  if gate.decidedBy = some humanDecider then .ok (some .human)
  else match gate.decidedVia, gate.decidingRole with
    | some .orchestration, some raw =>
      match coerceDecisionRole raw with
      | .ok role => .ok (some role)
      | .error e => .error e
    | _, _ => .ok none

def decisionAttributionFailureReason (gate : GateRecord) : Option String :=
  if gate.decidedVia ≠ some .orchestration then some s!"gate {gate.id} was not decided through orchestration"
  else if truthy gate.decidedBy = false then some s!"gate {gate.id} has no deciding lifecycle identity"
  else if truthy gate.lifecycleId ∧ gate.decidedBy = gate.lifecycleId then
    some s!"gate {gate.id} cannot be decided by its owning lifecycle {textReprOpt gate.lifecycleId}"
  else if gate.decidingRole = none then some s!"gate {gate.id} has no deciding role"
  else none

/-- `.error` is the `ValueError` of an unknown role; `.ok none` is a policy-valid decision. -/
def delegatedDecisionFailureReason (gate : GateRecord) (policy : GatePolicy) : Except String (Option String) :=
  match decisionAttributionFailureReason gate with
  | some reason => .ok (some reason)
  | none =>
    match coerceDecisionRole (gate.decidingRole.getD "") with
    | .error e => .error e
    | .ok role =>
      let rule := policy.ruleFor gate.kind
      if rule.allowsRole role = false ∨ role = .human then
        .ok (some s!"{gate.kind.text} is not delegated to role {textRepr role.text}")
      else if rule.requireReviewerVerdict ∧ hasReviewerVerdictEvidence gate = false then
        .ok (some s!"{gate.kind.text} requires reviewer verdict evidence before delegated decisions")
      else .ok none

def approvalFailureReason (gate : GateRecord) (policy : GatePolicy) : Option String :=
  match decisionRoleForGate gate with
  | .error e => some e
  | .ok (some .human) => none
  | .ok none =>
    some s!"{gate.kind.text} gate {gate.id} was approved by {textReprOpt gate.decidedBy}, not the developer or a configured orchestration role"
  | .ok (some _) =>
    match delegatedDecisionFailureReason gate policy with
    | .ok failure => failure
    | .error e => some e

/-! ## Gate enforcement

Whether a lifecycle's current gates permit a mutation. The newest gate of the
kind governs; without one the action is permitted and another approval channel
governs it.
-/

structure GateGuard where
  kind : GateKind
  permitted : Bool
  reason : String
  gateId : Option String := none

def relevantGates (gates : Dict String GateRecord) (kind : GateKind) : List GateRecord :=
  gates.values.filter fun gate => gate.kind = kind

/-- The gate whose state decides: the newest of its kind, the first of several with one `ts`. -/
def governingGate (gates : Dict String GateRecord) (kind : GateKind) : Option GateRecord :=
  firstMaxOn GateRecord.ts (relevantGates gates kind)

def guardOf (gate : GateRecord) (kind : GateKind) (policy : GatePolicy) (operationKey : Option String) : GateGuard :=
  match gate.state with
  | .approved =>
    match approvalFailureReason gate policy with
    | none => ⟨kind, true, s!"{kind.text} gate approved by policy-valid decider", some gate.id⟩
    | some failure => ⟨kind, false, failure, some gate.id⟩
  | .open =>
    ⟨kind, false, s!"{kind.text} gate {gate.id} is open; await a policy-valid decision through the lifecycle gate channel",
      some gate.id⟩
  | .applied =>
    if operationKey ≠ none ∧ gate.appliedOperation = operationKey then
      ⟨kind, true, s!"{kind.text} gate {gate.id} is already bound to this recovering operation", some gate.id⟩
    else
      ⟨kind, false, s!"{kind.text} gate {gate.id} was already applied; open a fresh gate for a new mutation", some gate.id⟩
  | state =>
    let note := if truthy gate.decisionNote then gate.decisionNote.getD "" else state.text
    ⟨kind, false, s!"{kind.text} gate {gate.id} is {state.text}: {note}", some gate.id⟩

def evaluateGate (gates : Dict String GateRecord) (kind : GateKind) (policy : GatePolicy)
    (operationKey : Option String) : GateGuard :=
  match governingGate gates kind with
  | none => ⟨kind, true, s!"no {kind.text} gate; existing approval channel governs", none⟩
  | some gate => guardOf gate kind policy operationKey

def evaluateCloseoutGate (gates : Dict String GateRecord) (policy : GatePolicy) (operationKey : Option String) : GateGuard :=
  evaluateGate gates .closeoutApproval policy operationKey

variable {gates : Dict String GateRecord} {kind : GateKind} {g : GateRecord} {policy : GatePolicy}
  {key : Option String}

theorem governingGate_mem (h : governingGate gates kind = some g) : g ∈ gates.values ∧ g.kind = kind := by
  have hm := List.mem_filter.mp (firstMaxOn_mem _ h)
  exact ⟨hm.1, of_decide_eq_true hm.2⟩

theorem evaluateGate_of_governing (h : governingGate gates kind = some g) (policy : GatePolicy) (key : Option String) :
    evaluateGate gates kind policy key = guardOf g kind policy key := by
  rw [evaluateGate, h]

theorem evaluateGate_of_none (h : governingGate gates kind = none) (policy : GatePolicy) (key : Option String) :
    (evaluateGate gates kind policy key).permitted = true ∧ (evaluateGate gates kind policy key).gateId = none := by
  rw [evaluateGate, h]
  exact ⟨rfl, rfl⟩

/-! ## What a governing gate permits -/

@[simp] theorem guardOf_gateId (g : GateRecord) (kind : GateKind) (policy : GatePolicy) (key : Option String) :
    (guardOf g kind policy key).gateId = some g.id := by
  unfold guardOf
  cases g.state with
  | approved => cases approvalFailureReason g policy <;> rfl
  | applied => dsimp only; split <;> rfl
  | _ => rfl

theorem guardOf_permitted :
    (guardOf g kind policy key).permitted = true ↔
      (g.state = .approved ∧ approvalFailureReason g policy = none) ∨
        (g.state = .applied ∧ key ≠ none ∧ g.appliedOperation = key) := by
  unfold guardOf
  cases hs : g.state with
  | approved => cases approvalFailureReason g policy <;> simp
  | applied =>
    dsimp only
    split
    · rename_i h; simp [h]
    · rename_i h; simpa using h
  | _ => simp

theorem evaluateGate_gateId {id : String} (h : (evaluateGate gates kind policy key).gateId = some id) :
    ∃ g, governingGate gates kind = some g ∧ g.id = id := by
  cases hg : governingGate gates kind with
  | none => rw [(evaluateGate_of_none hg policy key).2] at h; cases h
  | some g =>
    rw [evaluateGate_of_governing hg, guardOf_gateId] at h
    exact ⟨g, rfl, Option.some.inj h⟩

end AgentsRemember.Gate
