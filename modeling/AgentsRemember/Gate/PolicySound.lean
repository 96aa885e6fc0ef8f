import AgentsRemember.Gate.Policy

/-!
# No self-approval

A configured policy delegates only delegable kinds and never to the human role.
An approval it accepts was decided by the developer or by a delegated role of
another lifecycle, unless the record claims the human role through the
orchestration channel.
-/

namespace AgentsRemember.Gate

open Lib

theorem coerceDecisionRole_ok {raw : String} {role : DecisionRole} :
    coerceDecisionRole raw = .ok role ↔ raw = role.text := by
  unfold coerceDecisionRole
  constructor
  · intro h
    split at h
    · rename_i r hf
      cases h
      have hr := List.find?_some hf
      exact (of_decide_eq_true hr).symm
    · cases h
  intro heq
  subst heq
  cases role <;> rfl

/-! ## Sound policies -/

structure GatePolicyRule.Sound (rule : GatePolicyRule) : Prop where
  delegable : ∀ role, rule.delegatedRole = some role →
    role ≠ .human ∧ rule.kind ∈ delegableGateKinds ∧ rule.kind ∉ humanPinnedGateKinds
  verdict : rule.requireReviewerVerdict = true → rule.delegatedRole ≠ none

def GatePolicy.Sound (policy : GatePolicy) : Prop := ∀ rule ∈ policy.rules, rule.Sound

theorem normalizeRule_ne_human (rule : GatePolicyRule) : (normalizeRule rule).delegatedRole ≠ some .human := by
  unfold normalizeRule
  split
  · simp
  · assumption

theorem checkRule_sound {rule normalized : GatePolicyRule} (h : checkRule rule = .ok normalized) : normalized.Sound := by
  unfold checkRule at h
  have hh := normalizeRule_ne_human rule
  generalize normalizeRule rule = n at h hh
  dsimp only at h
  split at h
  · rename_i role hr
    split at h
    · cases h
    split at h
    · cases h
    rename_i hp hd
    cases h
    refine ⟨fun r hr' => ⟨?_, not_not.mp hd, hp⟩, fun _ => by simp [hr]⟩
    intro heq
    subst heq
    exact hh hr'
  · rename_i hr
    split at h
    · cases h
    rename_i hv
    cases h
    refine ⟨fun r hr' => ?_, fun hv' => absurd hv' hv⟩
    rw [hr] at hr'
    cases hr'

variable {rules : List GatePolicyRule} {policy : GatePolicy} {gate : GateRecord}

theorem collectRules_sound : ∀ {byKind d : Dict GateKind GatePolicyRule},
    (∀ k rule, byKind.get? k = some rule → rule.Sound) → collectRules byKind rules = .ok d →
      ∀ k rule, d.get? k = some rule → rule.Sound := by
  induction rules with
  | nil =>
    intro byKind d hb h
    cases h
    exact hb
  | cons rule rules ih =>
    intro byKind d hb h
    rw [collectRules] at h
    split at h
    · cases h
    rename_i normalized hc
    refine ih (fun k r hr => ?_) h
    rw [Dict.get?_set] at hr
    split at hr
    · cases hr
      exact checkRule_sound hc
    · exact hb k r hr

theorem makeGatePolicy_sound (h : makeGatePolicy rules = .ok policy) : policy.Sound := by
  unfold makeGatePolicy at h
  split at h
  · cases h
  rename_i byKind hc
  cases h
  intro rule hr
  obtain ⟨k, -, hk⟩ := List.mem_filterMap.mp hr
  exact collectRules_sound (fun _ _ he => by cases he) hc k rule hk

theorem applySeamVerdictRequirement_sound (h : policy.Sound) : (applySeamVerdictRequirement policy).Sound := by
  intro rule hr
  obtain ⟨r, hm, rfl⟩ := List.mem_map.mp hr
  have hs := h r hm
  split
  · rename_i hk
    exact ⟨hs.delegable, fun _ => hk.2⟩
  · exact hs

theorem namedGatePolicy_sound {name : String} (h : namedGatePolicy name = .ok policy) : policy.Sound := by
  unfold namedGatePolicy at h
  split at h
  · cases h
    intro rule hr
    cases hr
  split at h
  · exact makeGatePolicy_sound h
  · cases h

inductive Configured : GatePolicy → Prop
  | made {rules : List GatePolicyRule} {policy : GatePolicy} (h : makeGatePolicy rules = .ok policy) : Configured policy
  | seam {policy : GatePolicy} (h : Configured policy) : Configured (applySeamVerdictRequirement policy)

theorem Configured.sound (h : Configured policy) : policy.Sound := by
  induction h with
  | made h => exact makeGatePolicy_sound h
  | seam _ ih => exact applySeamVerdictRequirement_sound ih

theorem GatePolicy.Sound.ruleFor (h : policy.Sound) (kind : GateKind) :
    (policy.ruleFor kind).Sound ∧ (policy.ruleFor kind).kind = kind := by
  unfold GatePolicy.ruleFor
  cases hf : policy.rules.find? fun rule => rule.kind = kind with
  | none =>
    refine ⟨⟨?_, ?_⟩, rfl⟩
    · intro role hr; cases hr
    · intro hv; cases hv
  | some rule =>
    have hk := List.find?_some hf
    exact ⟨h rule (List.mem_of_find?_eq_some hf), of_decide_eq_true hk⟩

theorem applySeam_requires {kind : GateKind} (hk : kind ∈ seamGateKinds)
    (hd : ((applySeamVerdictRequirement policy).ruleFor kind).delegatedRole ≠ none) :
    ((applySeamVerdictRequirement policy).ruleFor kind).requireReviewerVerdict = true := by
  unfold GatePolicy.ruleFor at hd ⊢
  cases hf : (applySeamVerdictRequirement policy).rules.find? fun rule => rule.kind = kind with
  | none => rw [hf] at hd; exact absurd rfl hd
  | some rule =>
    rw [hf] at hd
    have hk' := List.find?_some hf
    have hkind : rule.kind = kind := of_decide_eq_true hk'
    obtain ⟨r, -, rfl⟩ := List.mem_map.mp (List.mem_of_find?_eq_some hf)
    by_cases hc : r.kind ∈ seamGateKinds ∧ r.delegatedRole ≠ none
    · simp [hc]
    simp only [hc, ite_false] at hkind
    simp only [hc, ite_false, Option.getD_some] at hd
    exact absurd ⟨hkind ▸ hk, hd⟩ hc

/-- A delegated seam gate waits for its reviewer's verdict. -/
def GatePolicy.SeamSound (policy : GatePolicy) : Prop := policy.Sound ∧ ∀ kind ∈ seamGateKinds,
  (policy.ruleFor kind).delegatedRole ≠ none → (policy.ruleFor kind).requireReviewerVerdict = true

/-- **Every policy that can be named or made is sound** once the seam's requirement is applied to it. -/
theorem seam_policy_sound (h : Configured policy ∨ ∃ name, namedGatePolicy name = .ok policy) :
    (applySeamVerdictRequirement policy).SeamSound := by
  have hs : policy.Sound := by
    rcases h with hmade | ⟨name, hname⟩
    · exact hmade.sound
    · exact namedGatePolicy_sound hname
  exact ⟨applySeamVerdictRequirement_sound hs, fun _ hk => applySeam_requires hk⟩

/-! ## What an accepted decision is -/

structure DelegatedDecision (gate : GateRecord) (policy : GatePolicy) (role : DecisionRole) : Prop where
  via : gate.decidedVia = some .orchestration
  decidingRole : gate.decidingRole = some role.text
  decider : truthy gate.decidedBy = true
  notOwner : gate.decidedBy ≠ gate.lifecycleId
  notHuman : role ≠ .human
  delegated : (policy.ruleFor gate.kind).delegatedRole = some role
  notPinned : gate.kind ∉ humanPinnedGateKinds
  verdict : (policy.ruleFor gate.kind).requireReviewerVerdict = true → hasReviewerVerdictEvidence gate = true

theorem decisionAttributionFailureReason_eq_none (h : decisionAttributionFailureReason gate = none) :
    gate.decidedVia = some .orchestration ∧ truthy gate.decidedBy = true ∧ gate.decidedBy ≠ gate.lifecycleId ∧
      ∃ raw, gate.decidingRole = some raw := by
  unfold decisionAttributionFailureReason at h
  split at h
  · cases h
  rename_i hv
  split at h
  · cases h
  rename_i hb
  have hb' : truthy gate.decidedBy = true := by simpa using hb
  split at h
  · cases h
  rename_i ho
  split at h
  · cases h
  rename_i hr
  refine ⟨not_not.mp hv, hb', ?_, Option.ne_none_iff_exists'.mp hr⟩
  intro he
  exact ho ⟨he ▸ hb', he⟩

theorem delegatedDecisionFailureReason_sound (hp : policy.Sound)
    (h : delegatedDecisionFailureReason gate policy = .ok none) : ∃ role, DelegatedDecision gate policy role := by
  unfold delegatedDecisionFailureReason at h
  split at h
  · cases h
  rename_i ha
  obtain ⟨hv, hb, ho, raw, hr⟩ := decisionAttributionFailureReason_eq_none ha
  rw [hr] at h
  split at h
  · cases h
  rename_i role hc
  have hraw : raw = role.text := coerceDecisionRole_ok.mp hc
  dsimp only at h
  split at h
  · cases h
  rename_i hd
  obtain ⟨hallow, hhuman⟩ := not_or.mp hd
  have hdel : some role = (policy.ruleFor gate.kind).delegatedRole := by
    simpa [GatePolicyRule.allowsRole, hhuman] using hallow
  split at h
  · cases h
  rename_i hverdict
  obtain ⟨hs, hk⟩ := hp.ruleFor gate.kind
  refine ⟨role, hv, by rw [hr, hraw], hb, ho, hhuman, hdel.symm, ?_, ?_⟩
  · exact hk ▸ (hs.delegable role hdel.symm).2.2
  · intro hreq
    simpa [hreq] using hverdict

/-- A record that names the human role through the orchestration channel. -/
def ClaimsHumanRole (gate : GateRecord) : Prop :=
  gate.decidedBy ≠ some humanDecider ∧ gate.decidedVia = some .orchestration ∧
    gate.decidingRole = some DecisionRole.human.text

instance (gate : GateRecord) : Decidable (ClaimsHumanRole gate) := by unfold ClaimsHumanRole; infer_instance

theorem decisionRoleForGate_human (h : decisionRoleForGate gate = .ok (some .human)) :
    gate.decidedBy = some humanDecider ∨ ClaimsHumanRole gate := by
  by_cases hb : gate.decidedBy = some humanDecider
  · exact Or.inl hb
  refine Or.inr ?_
  rw [decisionRoleForGate, if_neg hb] at h
  split at h
  · rename_i raw hv hr
    split at h
    · rename_i role hc
      cases h
      exact ⟨hb, hv, hr.trans (congrArg some (coerceDecisionRole_ok.mp hc))⟩
    · cases h
  · cases h

theorem approvalFailureReason_eq_none (hp : policy.Sound) (h : approvalFailureReason gate policy = none) :
    gate.decidedBy = some humanDecider ∨ (∃ role, DelegatedDecision gate policy role) ∨ ClaimsHumanRole gate := by
  unfold approvalFailureReason at h
  split at h
  · cases h
  · rename_i hr
    rcases decisionRoleForGate_human hr with hb | hc
    · exact Or.inl hb
    · exact Or.inr (Or.inr hc)
  · cases h
  split at h
  · rename_i failure hd
    subst h
    exact Or.inr (Or.inl (delegatedDecisionFailureReason_sound hp hd))
  · cases h

theorem approvalFailureReason_of_claimsHumanRole (h : ClaimsHumanRole gate) (policy : GatePolicy) :
    approvalFailureReason gate policy = none := by
  have hr : decisionRoleForGate gate = .ok (some .human) := by
    rw [decisionRoleForGate, if_neg h.1, h.2.1, h.2.2]
    rfl
  rw [approvalFailureReason, hr]

/-! ## The permission of an approved gate -/

/-- An approved gate that permits was decided by the developer or by a delegated role of another lifecycle. -/
def NoSelfApproval (gates : Dict String GateRecord) (kind : GateKind) (policy : GatePolicy) (key : Option String) : Prop :=
  ∀ g, governingGate gates kind = some g → g.state = .approved → (evaluateGate gates kind policy key).permitted = true →
    g.decidedBy = some humanDecider ∨ ∃ role, DelegatedDecision g policy role

/-- Self-approval is excluded exactly when the governing gate does not claim the human role through orchestration. -/
theorem noSelfApproval_iff (gates : Dict String GateRecord) (kind : GateKind) {policy : GatePolicy}
    (hp : Configured policy) (key : Option String) :
    NoSelfApproval gates kind policy key ↔
      ¬ ∃ g, governingGate gates kind = some g ∧ g.state = .approved ∧ ClaimsHumanRole g := by
  constructor
  · intro hno hex
    obtain ⟨g, hg, hs, hc⟩ := hex
    have hperm : (evaluateGate gates kind policy key).permitted = true := by
      rw [evaluateGate_of_governing hg]
      exact guardOf_permitted.mpr (Or.inl ⟨hs, approvalFailureReason_of_claimsHumanRole hc policy⟩)
    rcases hno g hg hs hperm with hd | ⟨role, hd⟩
    · exact hc.1 hd
    have htext : DecisionRole.human.text = role.text := Option.some.inj (hc.2.2.symm.trans hd.decidingRole)
    apply hd.notHuman
    revert htext
    cases role <;> decide
  · intro hno g hg hs hperm
    rw [evaluateGate_of_governing hg] at hperm
    have hfail : approvalFailureReason g policy = none := by
      rcases guardOf_permitted.mp hperm with ⟨-, h⟩ | ⟨h, -⟩
      · exact h
      · rw [hs] at h; cases h
    rcases approvalFailureReason_eq_none hp.sound hfail with h | h | h
    · exact Or.inl h
    · exact Or.inr h
    · exact absurd ⟨g, hg, hs, h⟩ hno

def selfApprovedGate : GateRecord where
  id := "gate-1"
  ts := "2026-08-05T10:00:00+00:00"
  kind := .closeoutApproval
  state := .approved
  lifecycleId := some "lc-1"
  decidedBy := some "lc-1"
  decidedVia := some .orchestration
  decidingRole := some "human"
  decidedAt := some "2026-08-05T10:00:00+00:00"

def selfApprovedGates : Dict String GateRecord := Dict.empty.set selfApprovedGate.id selfApprovedGate

def leafPolicy : GatePolicy :=
  ⟨[{ kind := .closeoutApproval, delegatedRole := some .manager },
    { kind := .masterHandoverApproval, delegatedRole := some .orchestrator, requireReviewerVerdict := true },
    { kind := .planApproval, delegatedRole := some .manager }]⟩

theorem leafPolicy_configured : Configured leafPolicy :=
  .seam (@Configured.made
    [{ kind := .planApproval, delegatedRole := some .manager },
      { kind := .closeoutApproval, delegatedRole := some .manager },
      { kind := .masterHandoverApproval, delegatedRole := some .orchestrator }]
    ⟨[{ kind := .closeoutApproval, delegatedRole := some .manager },
      { kind := .masterHandoverApproval, delegatedRole := some .orchestrator },
      { kind := .planApproval, delegatedRole := some .manager }]⟩ rfl)

theorem seam_policy_sound_leaf : (applySeamVerdictRequirement leafPolicy).SeamSound := seam_policy_sound (.inl leafPolicy_configured)

def delegatedGate : GateRecord := { selfApprovedGate with decidedBy := some "lc-2", decidingRole := some "manager" }

def delegatedGates : Dict String GateRecord := Dict.empty.set delegatedGate.id delegatedGate

theorem noSelfApproval_delegatedGate :
    (evaluateGate delegatedGates .closeoutApproval leafPolicy none).permitted = true ∧
      NoSelfApproval delegatedGates .closeoutApproval leafPolicy none := by
  refine ⟨by decide, (noSelfApproval_iff delegatedGates .closeoutApproval leafPolicy_configured none).mpr ?_⟩
  intro hex
  obtain ⟨g, hg, -, hc⟩ := hex
  have hd : governingGate delegatedGates .closeoutApproval = some delegatedGate := by decide
  rw [hd] at hg
  cases hg
  exact absurd hc (by decide)

theorem selfApprovedGate_permitted :
    (evaluateGate selfApprovedGates .closeoutApproval leafPolicy none).permitted = true ∧
      selfApprovedGate.decidedBy = selfApprovedGate.lifecycleId ∧
      ¬ ∀ gates kind policy key, Configured policy → NoSelfApproval gates kind policy key := by
  refine ⟨by decide, rfl, fun hall => ?_⟩
  have hg : governingGate selfApprovedGates .closeoutApproval = some selfApprovedGate := by decide
  rcases hall selfApprovedGates .closeoutApproval leafPolicy none leafPolicy_configured selfApprovedGate hg rfl
    (by decide) with hd | ⟨role, hd⟩
  · exact absurd hd (by decide)
  · exact hd.notOwner rfl

end AgentsRemember.Gate
