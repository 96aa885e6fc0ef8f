import AgentsRemember.Gate.World

/-!
# Approvals are spent once

Every approve decision adds at most one unspent approval to its gate, and a
grant takes one away. So grants never outnumber approvals, whatever the order
of the writers; and the key of an applied gate is the key of its last grant.
-/

namespace AgentsRemember.Gate

open Lib

theorem unspent_le_one (s : GateStore) (p : LogPath) (id : String) : unspent s p id ≤ 1 := by
  unfold unspent
  split <;> omega

theorem unspent_append (s : GateStore) (r : GateRecord) (p : LogPath) (id : String) :
    unspent (s.append r) p id =
      if logPath r.lifecycleId = p ∧ r.id = id then if r.state = .approved then 1 else 0 else unspent s p id := by
  unfold unspent
  rw [GateStore.fold_append]
  by_cases h : logPath r.lifecycleId = p ∧ r.id = id
  · rw [if_pos h, if_pos h]
    simp
  · rw [if_neg h, if_neg h]

variable {s : GateStore} {p : LogPath} {id : String} {parse : String → Option Stamp} {w w' : World}
  {ok : World → GateAction → Prop}

theorem unspent_mono {s' : GateStore} (h : ∀ g, (s'.fold p).get? id = some g → (s.fold p).get? id = some g) :
    unspent s' p id ≤ unspent s p id := by
  unfold unspent
  cases hg : (s'.fold p).get? id with
  | none => simp
  | some g => rw [h g hg]

theorem unspent_approved {g : GateRecord} (h : (s.fold p).get? id = some g) (hs : g.state = .approved) :
    unspent s p id = 1 := by
  simp [unspent, h, hs]

/-! ## Counting events -/

theorem grants_append (p : LogPath) (id : String) (h e : List GateEvent) :
    grants p id (h ++ e) = grants p id h + grants p id e := List.countP_append ..

theorem approvals_append (p : LogPath) (id : String) (h e : List GateEvent) :
    approvals p id (h ++ e) = approvals p id h + approvals p id e := List.countP_append ..

theorem grants_approvalEvents (p : LogPath) (id : String) (r : GateRecord) :
    grants p id (World.approvalEvents r) = 0 := by
  unfold World.approvalEvents
  split <;> simp [grants, GateEvent.isGrantOf]

theorem approvals_approvalEvents (p : LogPath) (id : String) (r : GateRecord) :
    approvals p id (World.approvalEvents r) =
      if (logPath r.lifecycleId = p ∧ r.id = id) ∧ r.state = .approved then 1 else 0 := by
  unfold World.approvalEvents
  by_cases hs : r.state = .approved
  · by_cases hp : logPath r.lifecycleId = p <;> by_cases hi : r.id = id <;>
      simp [approvals, GateEvent.isApprovalOf, GateEvent.path, hs, hp, hi]
  · simp [approvals, hs]

theorem approvals_granted (p p' : LogPath) (id id' : String) (key : Option String) :
    approvals p id [.granted p' id' key] = 0 := by simp [approvals, GateEvent.isApprovalOf]

theorem grants_granted (p p' : LogPath) (id id' : String) (key : Option String) :
    grants p id [.granted p' id' key] = if p' = p ∧ id' = id then 1 else 0 := by
  by_cases hp : p' = p <;> by_cases hi : id' = id <;>
    simp [grants, GateEvent.isGrantOf, GateEvent.path, hp, hi]

theorem lastGrantKey_append_of_not {h e : List GateEvent} (he : grants p id e = 0) :
    lastGrantKey p id (h ++ e) = lastGrantKey p id h := by
  have hf : e.filter (fun e => e.isGrantOf id && decide (e.path = p)) = [] := by
    rw [List.filter_eq_nil_iff]
    exact List.countP_eq_zero.mp he
  rw [lastGrantKey, List.filter_append, hf, List.append_nil, lastGrantKey]

theorem lastGrantKey_granted (p : LogPath) (id : String) (key : Option String) (h : List GateEvent) :
    lastGrantKey p id (h ++ [.granted p id key]) = some key := by
  simp [lastGrantKey, List.filter_append, GateEvent.isGrantOf, GateEvent.path, GateEvent.key]

/-! ## One step -/

section
variable {parse : String → Option Stamp} {w w' : World} {a : GateAction}

variable {s : GateStore}

theorem routed_append (h : Routed s) (r : GateRecord) : Routed (s.append r) := by
  intro p r' hr
  rw [GateStore.log_append] at hr
  split at hr
  · rename_i hp
    rcases List.mem_append.mp hr with hr | hr
    · exact h p r' hr
    · rw [List.mem_singleton.mp hr]
      exact hp
  · exact h p r' hr

theorem routed_step (h : Routed w.store) (hs : w.step parse a = some w') :
    Routed w'.store := by
  rcases World.step_cases hs with ⟨r, -, rfl⟩ | ⟨l, kind, now, policy, key, g, -, -, rfl⟩ | rfl |
    ⟨id, l, -, rfl⟩ | ⟨l, now, -, rfl⟩
  · exact routed_append h r
  · exact routed_append h _
  · exact h
  · intro p r hr
    change r ∈ (w.store.delete id l).2.log p at hr
    rw [GateStore.log_delete] at hr
    split at hr
    · exact h p r (List.mem_filter.mp hr).1
    · exact h p r hr
  intro p r hr
  change r ∈ (w.store.compact parse l now).2.log p at hr
  rw [GateStore.log_compact] at hr
  split at hr
  · exact h p r (List.mem_filter.mp hr).1
  · exact h p r hr

theorem grantOf_routed (h : Routed s) {l : Option String} {kind : GateKind} {policy : GatePolicy} {key : Option String}
    {g : GateRecord} (hg : s.grantOf l kind policy key = some g) : logPath g.lifecycleId = logPath l :=
  h _ g (GateStore.fold_mem (GateStore.grantOf_fold hg).1).1

theorem budget_step (h : Routed w.store) (hs : w.step parse a = some w')
    (p : LogPath) (id : String) :
    grants p id w'.history + unspent w'.store p id + approvals p id w.history ≤
      grants p id w.history + unspent w.store p id + approvals p id w'.history := by
  rcases World.step_cases hs with ⟨r, -, rfl⟩ | ⟨l, kind, now, policy, key, g, -, hg, rfl⟩ | rfl |
    ⟨id', l, -, rfl⟩ | ⟨l, now, -, rfl⟩
  · simp only [World.advance, grants_append, approvals_append, unspent_append, grants_approvalEvents,
      approvals_approvalEvents]
    by_cases hr : logPath r.lifecycleId = p ∧ r.id = id
    · by_cases ha : r.state = .approved <;> simp only [hr, ha, and_self, and_false, ite_true, ite_false] <;> omega
    · simp only [hr, false_and, ite_false]
      omega
  · have hp := grantOf_routed h hg
    simp only [World.advance, grants_append, approvals_append, unspent_append, grants_granted, approvals_granted]
    by_cases hr : logPath l = p ∧ g.id = id
    · have hr' : logPath (applyGate g now key).lifecycleId = p ∧ (applyGate g now key).id = id := ⟨hp.trans hr.1, hr.2⟩
      have hu : unspent w.store p id = 1 := by
        obtain ⟨rfl, rfl⟩ := hr
        exact unspent_approved (GateStore.grantOf_fold hg).1 (GateStore.grantOf_fold hg).2
      have ha : (applyGate g now key).state ≠ .approved := by simp [applyGate]
      rw [if_pos hr, if_pos hr', if_neg ha, hu]
      omega
    have hr' : ¬ (logPath (applyGate g now key).lifecycleId = p ∧ (applyGate g now key).id = id) :=
      fun hc => hr ⟨hp.symm.trans hc.1, hc.2⟩
    rw [if_neg hr, if_neg hr']
    omega
  · simp [World.advance]
  · have hm : unspent (w.store.delete id' l).2 p id ≤ unspent w.store p id :=
      unspent_mono fun g hg => GateStore.fold_of_delete hg
    simp only [World.advance, List.append_nil]
    omega
  · have hm : unspent (w.store.compact parse l now).2 p id ≤ unspent w.store p id :=
      unspent_mono fun g hg => GateStore.fold_of_compact hg
    simp only [World.advance, List.append_nil]
    omega

theorem keyed_step (h : Accounted w) (hs : w.step parse a = some w') (p : LogPath) (id : String) (g : GateRecord)
    (hg : (w'.store.fold p).get? id = some g) (ha : g.state = .applied) :
    lastGrantKey p id w'.history = some g.appliedOperation := by
  rcases World.step_cases hs with ⟨r, hr, rfl⟩ | ⟨l, kind, now, policy, key, g', -, hg', rfl⟩ | rfl |
    ⟨id', l, -, rfl⟩ | ⟨l, now, -, rfl⟩
  · simp only [World.advance, GateStore.fold_append] at hg ⊢
    rw [lastGrantKey_append_of_not (grants_approvalEvents p id r)]
    split at hg
    · cases hg
      exact absurd ha (World.appended_not_applied hr)
    · exact h.keyed p id g hg ha
  · have hp := grantOf_routed h.routed hg'
    simp only [World.advance, GateStore.fold_append] at hg ⊢
    split at hg
    · rename_i hc
      cases hg
      obtain ⟨hc1, rfl⟩ := hc
      rw [← hp.symm.trans hc1]
      exact lastGrantKey_granted _ _ key _
    rename_i hc
    have hn : grants p id [.granted (logPath l) g'.id key] = 0 := by
      rw [grants_granted, if_neg]
      exact fun he => hc ⟨hp.trans he.1, he.2⟩
    rw [lastGrantKey_append_of_not hn]
    exact h.keyed p id g hg ha
  · simp only [World.advance, List.append_nil] at hg ⊢
    exact h.keyed p id g hg ha
  · simp only [World.advance, List.append_nil] at hg ⊢
    exact h.keyed p id g (GateStore.fold_of_delete hg) ha
  · simp only [World.advance, List.append_nil] at hg ⊢
    exact h.keyed p id g (GateStore.fold_of_compact hg) ha

end

theorem accounted_init : Accounted World.init where
  routed := by
    intro p r h
    cases h
  budget := by
    intro p id
    simp [World.init, grants, unspent, approvals]
  keyed := by
    intro p id g h
    cases h

theorem accounted_step {a : GateAction} (h : Accounted w) (hs : w.step parse a = some w') : Accounted w' where
  routed := routed_step h.routed hs
  budget := fun p id => by
    have h1 := budget_step h.routed hs p id
    have h2 := h.budget p id
    omega
  keyed := keyed_step h hs

theorem accounted_reachable (h : Reachable (gateSystem parse) ok w) : Accounted w := by
  refine h.invariant accounted_init ?_
  intro s a t hi _ hs
  have hs' : s.step parse a = some t := hs
  exact accounted_step hi hs'

theorem grants_le_approvals (h : Accounted w) (id : String) :
    w.history.countP (GateEvent.isGrantOf id) ≤ w.history.countP (GateEvent.isApprovalOf id) := by
  refine countP_le_of_fibers GateEvent.path fun p => ?_
  have := h.budget p id
  unfold grants approvals at this
  omega

theorem granted_at_most_once (hw : Accounted w) (h : Steps (gateSystem parse) ok w w') (p : LogPath) (id : String)
    (ha : approvals p id w'.history = approvals p id w.history) :
    grants p id w'.history ≤ grants p id w.history + unspent w.store p id := by
  have hb : Accounted w' ∧ grants p id w'.history + unspent w'.store p id + approvals p id w.history ≤
      grants p id w.history + unspent w.store p id + approvals p id w'.history := by
    clear ha
    induction h with
    | refl => exact ⟨hw, by omega⟩
    | @tail t u a _ _ hs ih =>
      have hs' : t.step parse a = some u := hs
      refine ⟨accounted_step ih.1 hs', ?_⟩
      have h1 := budget_step ih.1.routed hs' p id
      have h2 := ih.2
      omega
  have := hb.2
  omega

/-! ## Claims one after another -/

structure ApprovalClaim where
  now : String
  policy : GatePolicy
  key : Option String

def runClaims (s : GateStore) (l : Option String) (kind : GateKind) : List ApprovalClaim → List GateGuard
  | [] => []
  | c :: cs =>
    let result := s.claimApproval l kind c.now c.policy c.key
    result.1 :: runClaims result.2 l kind cs

def succeedsOn (id : String) (guard : GateGuard) : Bool := guard.permitted && guard.gateId = some id

def ApprovalClaim.accepts (g : GateRecord) (c : ApprovalClaim) : Bool := (approvalFailureReason g c.policy).isNone

section
variable {s : GateStore} {p : LogPath} {l : Option String} {kind : GateKind} {id : String} {g : GateRecord}

theorem routed_claim (h : Routed s) (now : String) (policy : GatePolicy) (key : Option String) :
    Routed (s.claimApproval l kind now policy key).2 := by
  rw [GateStore.claimApproval_store]
  split
  · exact routed_append h _
  · exact h

theorem claim_keeps_applied (h : Routed s) (hg : (s.fold p).get? id = some g) (ha : g.state = .applied) (now : String)
    (policy : GatePolicy) (key : Option String) :
    ((s.claimApproval l kind now policy key).2.fold p).get? id = some g := by
  rw [GateStore.claimApproval_store]
  split
  · rename_i g' hg'
    rw [GateStore.fold_append, if_neg, hg]
    intro hex
    obtain ⟨hp, rfl⟩ := hex
    have hl : logPath l = p := (grantOf_routed h hg').symm.trans hp
    obtain ⟨hf, hs⟩ := GateStore.grantOf_fold hg'
    rw [hl] at hf
    have he : some g' = some g := hf.symm.trans hg
    cases he
    rw [ha] at hs
    cases hs
  · exact hg

theorem claim_on_applied (hg : (s.fold (logPath l)).get? id = some g) (ha : g.state = .applied) (now : String)
    (policy : GatePolicy) (key : Option String)
    (hs : succeedsOn id (s.claimApproval l kind now policy key).1 = true) : key ≠ none ∧ g.appliedOperation = key := by
  rw [succeedsOn, GateStore.claimApproval_guard, Bool.and_eq_true, decide_eq_true_eq] at hs
  obtain ⟨g', hg', hid⟩ := evaluateGate_gateId hs.2
  have hf : (s.fold (logPath l)).get? g'.id = some g' := (governingGate_fold hg').1
  rw [hid, hg] at hf
  cases hf
  have hp := hs.1
  rw [evaluateGate_of_governing hg'] at hp
  rcases guardOf_permitted.mp hp with ⟨hst, -⟩ | ⟨-, hk⟩
  · rw [ha] at hst
    cases hst
  · exact hk

variable {cs : List ApprovalClaim}

theorem runClaims_spent : ∀ {s : GateStore}, Routed s →
    (s.fold (logPath l)).get? id = some g → g.state = .applied → (∀ c ∈ cs, c.key ≠ g.appliedOperation) →
    (runClaims s l kind cs).countP (succeedsOn id) = 0 := by
  induction cs with
  | nil => intros; rfl
  | cons c cs ih =>
    intro s hr hg ha hk
    have hc : ¬ succeedsOn id (s.claimApproval l kind c.now c.policy c.key).1 = true := fun hs =>
      hk c (by simp) (claim_on_applied hg ha c.now c.policy c.key hs).2.symm
    rw [runClaims, List.countP_cons_of_neg hc]
    exact ih (routed_claim hr c.now c.policy c.key) (claim_keeps_applied hr hg ha c.now c.policy c.key) ha
      fun c' hc' => hk c' (List.mem_cons_of_mem _ hc')

theorem runClaims_approved : ∀ {s : GateStore}, Routed s → (cs.map ApprovalClaim.key).Nodup →
    governingGate (s.current l) kind = some g → g.state = .approved →
    (runClaims s l kind cs).countP (succeedsOn g.id) = if cs.any (ApprovalClaim.accepts g) then 1 else 0 := by
  induction cs with
  | nil => intros; rfl
  | cons c cs ih =>
    intro s hr hn hg hs
    rw [List.map_cons, List.nodup_cons] at hn
    rcases s.claimApproval_cases l kind c.now c.policy c.key with ⟨g', hg', -, hf, he⟩ | ⟨he, hno⟩
    · rw [hg] at hg'
      cases hg'
      have hguard : succeedsOn g.id (guardOf g kind c.policy c.key) = true := by
        rw [succeedsOn, guardOf_gateId, guardOf_permitted.mpr (Or.inl ⟨hs, hf⟩)]
        simp
      have hlog : logPath g.lifecycleId = logPath l := hr _ g (GateStore.fold_mem (governingGate_fold hg).1).1
      have hspent : ((s.append (applyGate g c.now c.key)).fold (logPath l)).get? g.id =
          some (applyGate g c.now c.key) := by
        rw [GateStore.fold_append]
        exact if_pos ⟨hlog, rfl⟩
      have hkeys : ∀ c' ∈ cs, c'.key ≠ (applyGate g c.now c.key).appliedOperation := fun c' hc' he' =>
        hn.1 (List.mem_map.mpr ⟨c', hc', he'⟩)
      have hrest : (runClaims (s.append (applyGate g c.now c.key)) l kind cs).countP (succeedsOn g.id) = 0 :=
        runClaims_spent (routed_append hr (applyGate g c.now c.key)) hspent rfl hkeys
      have hacc : c.accepts g = true := by simp [ApprovalClaim.accepts, hf]
      simp only [runClaims, he]
      rw [List.countP_cons_of_pos hguard, hrest]
      simp [hacc]
    · have hf : approvalFailureReason g c.policy ≠ none := hno g hg hs
      have hguard : ¬ succeedsOn g.id (evaluateGate (s.current l) kind c.policy c.key) = true := by
        rw [succeedsOn, evaluateGate_of_governing hg, Bool.and_eq_true, guardOf_permitted]
        intro hex
        obtain ⟨⟨-, h⟩ | ⟨h, -⟩, -⟩ := hex
        · exact hf h
        · rw [hs] at h
          cases h
      have hacc : ¬ c.accepts g = true := by simpa [ApprovalClaim.accepts] using hf
      simp only [runClaims, he]
      rw [List.countP_cons_of_neg hguard, ih hr hn.2 hg hs]
      simp [hacc]

end

/-- **Each approval is spent at most once.** In every reachable world: grants do not outnumber approve decisions; a
run without a new approve decision grants a gate at most once more; of claims with distinct keys on an approved gate
exactly one succeeds; a claim recovers only the operation of the last grant. -/
theorem approval_spent_at_most_once (parse : String → Option Stamp) {w : World}
    (h : Reachable (gateSystem parse) always w) :
    (∀ id, w.history.countP (GateEvent.isGrantOf id) ≤ w.history.countP (GateEvent.isApprovalOf id)) ∧
    (∀ w' p id, Steps (gateSystem parse) always w w' → approvals p id w'.history = approvals p id w.history →
      grants p id w'.history ≤ grants p id w.history + 1) ∧
    (∀ l kind g (claims : List ApprovalClaim), governingGate (w.store.current l) kind = some g → g.state = .approved →
      (claims.map ApprovalClaim.key).Nodup →
      (runClaims w.store l kind claims).countP (succeedsOn g.id) = if claims.any (ApprovalClaim.accepts g) then 1 else 0) ∧
    (∀ l kind now policy key g, governingGate (w.store.current l) kind = some g → g.state = .applied →
      (w.store.claimApproval l kind now policy key).1.permitted = true →
      key ≠ none ∧ lastGrantKey (logPath l) g.id w.history = some key) := by
  have hw := accounted_reachable h
  refine ⟨grants_le_approvals hw, ?_, ?_, ?_⟩
  · intro w' p id hs ha
    have h1 := granted_at_most_once hw hs p id ha
    have h2 := unspent_le_one w.store p id
    omega
  · intro l kind g claims hg hs hn
    exact runClaims_approved hw.routed hn hg hs
  intro l kind now policy key g hg ha hp
  have hf : (w.store.fold (logPath l)).get? g.id = some g := (governingGate_fold hg).1
  have hs : succeedsOn g.id (w.store.claimApproval l kind now policy key).1 = true := by
    rw [succeedsOn, hp, GateStore.claimApproval_guard, evaluateGate_of_governing hg, guardOf_gateId]
    simp
  obtain ⟨hk, ho⟩ := claim_on_applied hf ha now policy key hs
  exact ⟨hk, ho ▸ hw.keyed _ _ g hf ha⟩

def approvedWorld : World := (runFrom (gateSystem fromisoformat) World.init openAndApprove).get (by decide)

theorem approvedWorld_reachable : Reachable (gateSystem fromisoformat) always approvedWorld :=
  reachable_of_runFrom (Option.some_get _).symm

theorem approval_spent_closeout :
    (runClaims approvedWorld.store (some "lc-1") .closeoutApproval
      [⟨"2026-08-05T11:00:00+00:00", defaultGatePolicy, none⟩,
        ⟨"2026-08-05T11:00:01+00:00", defaultGatePolicy, some "op-1"⟩,
        ⟨"2026-08-05T11:00:02+00:00", defaultGatePolicy, some "op-2"⟩]).countP (succeedsOn "gate-1") = 1 := by
  have hg : governingGate (approvedWorld.store.current (some "lc-1")) .closeoutApproval = some approvedCloseout := by decide
  have h := (approval_spent_at_most_once fromisoformat approvedWorld_reachable).2.2.1 (some "lc-1") .closeoutApproval
    approvedCloseout
    [⟨"2026-08-05T11:00:00+00:00", defaultGatePolicy, none⟩,
      ⟨"2026-08-05T11:00:01+00:00", defaultGatePolicy, some "op-1"⟩,
      ⟨"2026-08-05T11:00:02+00:00", defaultGatePolicy, some "op-2"⟩] hg rfl (by decide)
  exact h.trans (by decide)

/-! ## Applied gates stay applied

Claims, compactions and fresh gates leave the snapshot of an applied gate of a
consumed kind alone. A decision or an expiry does not look at the state it
overwrites, and a cancellation deletes whatever the log then holds: the gate
stays applied in the runs where neither meets an applied gate.
-/

def IsApplied (s : GateStore) (p : LogPath) (id : String) : Prop :=
  ((s.fold p).get? id).map GateRecord.state = some .applied

instance (s : GateStore) (p : LogPath) (id : String) : Decidable (IsApplied s p id) := by unfold IsApplied; infer_instance

/-- No decision, expiry or deletion of the gate meets it applied. -/
def SparesApplied (p : LogPath) (id : String) (w : World) : GateAction → Prop
  | .delete id' l => logPath l = p ∧ id' = id → ¬ IsApplied w.store p id
  | a => ∀ r, w.appended a = some r → logPath r.lifecycleId = p ∧ r.id = id → ¬ IsApplied w.store p id

section
variable {parse : String → Option Stamp} {w w' : World} {a : GateAction} {p : LogPath} {id : String} {g : GateRecord}

theorem SparesApplied.appended {r : GateRecord} (h : SparesApplied p id w a) (hr : w.appended a = some r) :
    logPath r.lifecycleId = p ∧ r.id = id → ¬ IsApplied w.store p id := by
  cases a with
  | delete => cases hr
  | _ => exact h r hr

theorem applied_step (hr : Routed w.store) (hg : (w.store.fold p).get? id = some g) (ha : g.state = .applied)
    (hk : g.kind ∈ consumedApprovalGateKinds) (hok : SparesApplied p id w a) (hs : w.step parse a = some w') :
    (w'.store.fold p).get? id = some g := by
  have happ : IsApplied w.store p id := by rw [IsApplied, hg, Option.map_some, ha]
  rcases World.step_cases hs with ⟨r, hap, rfl⟩ | ⟨l, kind, now, policy, key, g', -, hg', rfl⟩ | rfl |
    ⟨id', l, rfl, rfl⟩ | ⟨l, now, -, rfl⟩
  · simp only [World.advance, GateStore.fold_append]
    rw [if_neg, hg]
    exact fun hc => hok.appended hap hc happ
  · have hc : ((w.store.claimApproval l kind now policy key).2.fold p).get? id = some g :=
      claim_keeps_applied hr hg ha now policy key
    rw [GateStore.claimApproval_store, hg'] at hc
    exact hc
  · exact hg
  · simp only [World.advance, GateStore.fold_delete]
    rw [if_neg, hg]
    exact fun hc => hok ⟨hc.1, hc.2.symm⟩ happ
  · exact GateStore.fold_compact_of_keep l hg (keepGate_applied ha hk)

/-- **Applied is absorbing** in every run whose decisions, expiries and deletions spare the gate while it is applied:
the snapshot stays as it is, and it admits no operation but the one that applied it. -/
theorem applied_absorbing (hw : Reachable (gateSystem parse) always w)
    (hg : (w.store.fold p).get? id = some g) (ha : g.state = .applied) (hk : g.kind ∈ consumedApprovalGateKinds)
    (h : Steps (gateSystem parse) (SparesApplied p id) w w') :
    (w'.store.fold p).get? id = some g ∧
      ∀ kind policy key, (guardOf g kind policy key).permitted = true → key ≠ none ∧ key = g.appliedOperation := by
  constructor
  · refine (h.stays (I := fun w => Routed w.store) (P := fun w => (w.store.fold p).get? id = some g) ?_ ?_
      (accounted_reachable hw).routed hg).2
    · intro s a t hr _ hs
      have hs' : s.step parse a = some t := hs
      exact routed_step hr hs'
    · intro s a t hr hf hok hs
      exact applied_step hr hf ha hk hok hs
  intro kind policy key hp
  rcases guardOf_permitted.mp hp with ⟨hs, -⟩ | ⟨-, hkey, ho⟩
  · rw [ha] at hs
    cases hs
  · exact ⟨hkey, ho.symm⟩

end

/-! ## The approval of `gate-1`, spent -/

def spend : GateAction := .claim (some "lc-1") .closeoutApproval "2026-08-05T11:00:00+00:00" defaultGatePolicy (some "op-1")

def spentWorld : World := (runFrom (gateSystem fromisoformat) World.init (openAndApprove ++ [spend])).get (by decide)

def spentCloseout : GateRecord := applyGate approvedCloseout "2026-08-05T11:00:00+00:00" (some "op-1")

theorem spentWorld_reachable : Reachable (gateSystem fromisoformat) always spentWorld :=
  reachable_of_runFrom (Option.some_get _).symm

def laterActions : List GateAction :=
  [.claim (some "lc-1") .closeoutApproval "2026-08-05T12:00:00+00:00" defaultGatePolicy (some "op-2"),
    .compact (some "lc-1") 1786100000000000]

theorem laterActions_spare : ∀ a ∈ laterActions, ∀ w, SparesApplied (.lifecycle "lc-1") "gate-1" w a := by
  intro a ha w
  rcases List.mem_cons.mp ha with rfl | ha
  · intro r hr
    cases hr
  rw [List.mem_singleton.mp ha]
  intro r hr
  cases hr

theorem spentCloseout_stays :
    ((((runFrom (gateSystem fromisoformat) spentWorld laterActions).get (by decide)).store.fold
      (.lifecycle "lc-1")).get? "gate-1") = some spentCloseout :=
  (applied_absorbing spentWorld_reachable (g := spentCloseout) (by decide) rfl (by decide)
    (steps_of_runFrom laterActions_spare (Option.some_get _).symm)).1

def approveAgain : GateAction :=
  .decide (fun _ => 0) defaultGatePolicy "gate-1" (some "lc-1")
    { decision := "approve", via := .dashboard, by' := some humanDecider } [] "2026-08-05T12:00:00+00:00"

theorem spent_approval_approved_again :
    ¬ ∀ (w w' : World) (p : LogPath) (id : String) (g : GateRecord), Reachable (gateSystem fromisoformat) always w →
        (w.store.fold p).get? id = some g → g.state = .applied → g.kind ∈ consumedApprovalGateKinds →
        Steps (gateSystem fromisoformat) always w w' →
        ∀ g', (w'.store.fold p).get? id = some g' → g'.state ≠ .open ∧ g'.state ≠ .approved := by
  intro hall
  have hs : Steps (gateSystem fromisoformat) always spentWorld
      ((runFrom (gateSystem fromisoformat) spentWorld [approveAgain]).get (by decide)) :=
    steps_of_runFrom (fun _ _ _ => trivial) (Option.some_get _).symm
  have h := hall spentWorld _ (.lifecycle "lc-1") "gate-1" spentCloseout spentWorld_reachable (by decide) rfl (by decide)
    hs { approvedCloseout with ts := "2026-08-05T12:00:00+00:00", decidedAt := some "2026-08-05T12:00:00+00:00",
                               appliedOperation := some "op-1" } (by decide)
  exact h.2 rfl

end AgentsRemember.Gate
