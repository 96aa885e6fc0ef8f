import AgentsRemember.Lib.System
import AgentsRemember.Inbox.Store

/-!
# The inbox under any interleaving

A world is the log and every log there was before it. A writer that reads first
works on a row of the fold of some earlier log, or on a row it kept from an
append of its own; every other operation is one step on the log there is.
-/

namespace AgentsRemember.Inbox

open Lib

/-- Where a caller has its row from: a fold taken `ago` logs ago, or one row of that log. -/
inductive Seen
  | fold (ago : Nat)
  | row (ago index : Nat)

inductive Update
  | consume (now consumedBy : String) (consumedVia : OperatorInboxVia)
  | recordDelivery (attempt : DeliveryAttempt) (now : String) (floor : Option Int)
  | rebind (owner : InboxOwner) (now : String)
  | renew (renewal : InboxRenewal) (now : String)
  | recordAdapterCompletion (completion : AdapterCompletion) (now : String)

inductive InboxAction
  | append (message : InboxMessage) (entryId now : String) (routing : InboxRouting) (poster : InboxPoster)
  | transition (entryId now : String) (t : Transition)
  | transitionMany (now : String) (ts : List (String × Transition))
  | update (seen : Seen) (entryId : String) (u : Update)
  | delete (entryId : String)
  | deleteByGate (gateId : String)
  | compact (now : Stamp)
  | reconcileAndCompact (now : Stamp) (reasons : List (String × String))

/-- An update on the log there is, with the row `seen` in hand; `consume` reads for itself. -/
def Update.run (clock : Clock) (u : Update) (log : InboxLog) (seen : Option OperatorInboxEntry) (entryId : String) :
    Except String InboxLog :=
  match u with
  | consume now consumedBy consumedVia => Inbox.consume log entryId now consumedBy consumedVia
  | recordDelivery attempt now floor => Inbox.recordDelivery clock log seen entryId attempt now floor
  | rebind owner now => rebindEntry log seen entryId owner now
  | renew renewal now => Inbox.renew log seen entryId renewal now
  | recordAdapterCompletion completion now => Inbox.recordAdapterCompletion log seen entryId completion now

structure World where
  log : InboxLog
  past : List InboxLog

namespace World

def init : World := ⟨[], []⟩

def advance (w : World) (log : InboxLog) : World := ⟨log, w.log :: w.past⟩

def logAt (w : World) (ago : Nat) : InboxLog := (w.log :: w.past).getD ago w.log

def seenRow (w : World) (seen : Seen) (id : String) : Option OperatorInboxEntry :=
  match seen with
  | .fold ago => (current (w.logAt ago)).get? id
  | .row ago index => ((w.logAt ago)[index]?).filter fun r => r.id = id

def fresh (w : World) (id : String) : Bool := (w.log :: w.past).all fun log => log.all fun r => r.id ≠ id

def result (clock : Clock) (w : World) : InboxAction → Except String InboxLog
  | .append message id now routing poster =>
    if w.fresh id then
      match createOperatorInboxEntry message id now routing poster with
      | .error e => .error e
      | .ok entry => .ok (w.log ++ [entry])
    else .error id
  | .transition id now t => Inbox.transition w.log id (t.apply now)
  | .transitionMany now ts => Inbox.transitionMany w.log now ts
  | .update seen id u => u.run clock w.log (w.seenRow seen id) id
  | .delete id => .ok (Inbox.delete w.log id)
  | .deleteByGate gate => .ok (Inbox.deleteByGate w.log gate)
  | .compact now => .ok (Inbox.compact clock w.log now)
  | .reconcileAndCompact now reasons => .ok (Inbox.reconcileAndCompact clock w.log now reasons)

def step (clock : Clock) (w : World) (a : InboxAction) : Option World :=
  match w.result clock a with
  | .ok log => some (w.advance log)
  | .error _ => none

end World

def inboxSystem (clock : Clock) : System World InboxAction := ⟨World.init, World.step clock⟩

def post : InboxAction :=
  .append { ask := "Closeout ready", response := "" } "row-1" "2026-08-01T10:00:00+00:00"
    { address := { lifecycleId := some "lc-1" } } { createdBy := "developer", createdVia := .dashboard }

/-! ## What an update appends -/

inductive FieldGroup
  | consumption | target | content | delivery | adapter

def Update.writes : Update → FieldGroup → Bool
  | consume .., .consumption => true
  | recordDelivery .., .delivery => true
  | recordDelivery .., .adapter => true
  | rebind .., .target => true
  | rebind .., .delivery => true
  | rebind .., .adapter => true
  | renew .., .content => true
  | renew renewal _, .target => renewal.readdressTo.isSome
  | recordAdapterCompletion .., .adapter => true
  | _, _ => false

def SameGroup (e u : OperatorInboxEntry) : FieldGroup → Prop
  | .consumption => u.consumedAt = e.consumedAt ∧ u.consumedBy = e.consumedBy ∧ u.consumedVia = e.consumedVia
  | .target => u.recipientRole = e.recipientRole ∧ u.agentId = e.agentId ∧ u.lifecycleId = e.lifecycleId ∧
      u.taskDocumentRef = e.taskDocumentRef ∧ u.ownerRole = e.ownerRole ∧
      u.ownerTaskDocumentRef = e.ownerTaskDocumentRef ∧ u.ownerAgentId = e.ownerAgentId ∧
      u.ownerLifecycleId = e.ownerLifecycleId
  | .content => u.response = e.response ∧ u.subjectTaskDocumentRef = e.subjectTaskDocumentRef ∧
      u.seatRole = e.seatRole ∧ u.subjectAgentId = e.subjectAgentId
  | .delivery => u.deliveryState = e.deliveryState ∧ u.deliveredAt = e.deliveredAt ∧
      u.deliveredToSession = e.deliveredToSession ∧ u.deliveryDetail = e.deliveryDetail ∧
      u.attemptCount = e.attemptCount ∧ u.lastAttemptAt = e.lastAttemptAt ∧ u.nextAttemptAt = e.nextAttemptAt
  | .adapter => u.adapterDeliveryState = e.adapterDeliveryState ∧ u.adapterRequestId = e.adapterRequestId ∧
      u.adapterVendorCorrelationId = e.adapterVendorCorrelationId ∧ u.adapterAcceptedAt = e.adapterAcceptedAt ∧
      u.adapterCompletedAt = e.adapterCompletedAt ∧ u.adapterDeliveryDetail = e.adapterDeliveryDetail

attribute [local simp] Update.writes SameGroup

theorem SameGroup.refl (e : OperatorInboxEntry) (G : FieldGroup) : SameGroup e e G := by
  cases G <;> simp

theorem SameGroup.trans {e u v : OperatorInboxEntry} {G : FieldGroup} (h₁ : SameGroup e u G) (h₂ : SameGroup u v G) :
    SameGroup e v G := by
  cases G <;> simp only [SameGroup] at h₁ h₂ ⊢ <;> simp [h₁, h₂]

def Update.guarded : Update → Bool
  | recordDelivery .. | recordAdapterCompletion .. => false
  | _ => true

def Keeps (u : Update) (e r : OperatorInboxEntry) : Prop := ∀ G, u.writes G = false → SameGroup e r G

section
variable {clock : Clock} {u : Update} {e r : OperatorInboxEntry} {now : String}

theorem keeps_consume {consumedBy : String} {via : OperatorInboxVia}
    (h : consumeOperatorInboxEntry e now consumedBy via = some r) : Keeps (.consume now consumedBy via) e r := by
  unfold consumeOperatorInboxEntry at h
  split at h
  · cases h
  cases h
  intro G hG
  cases G <;> simp_all

variable {attempt : DeliveryAttempt} {floor : Option Int}

theorem keeps_delivery (h : deliverySnapshot clock e attempt now floor = .ok r) :
    Keeps (.recordDelivery attempt now floor) e r := by
  unfold deliverySnapshot at h
  split at h
  · cases h
    intro G hG
    cases G <;> simp_all [deliveryEvidence]
  split at h
  · cases h
  split at h
  · cases h
  cases h
  intro G hG
  cases G <;> simp_all [deliveryEvidence]

theorem keeps_land (h : (Transition.land attempt).apply now e = some r) :
    Keeps (.recordDelivery attempt now floor) e r := by
  unfold Transition.apply at h
  split at h
  · cases h
  cases h
  intro G hG
  cases G <;> simp_all [deliveryEvidence, terminate]

theorem keeps_rebind {owner : InboxOwner} (h : rebindSnapshot e owner now = some r) : Keeps (.rebind owner now) e r := by
  unfold rebindSnapshot at h
  split at h
  · cases h
  cases h
  intro G hG
  cases G <;> simp_all [readdress]

theorem keeps_renew {renewal : InboxRenewal} (h : renewSnapshot e renewal now = some r) : Keeps (.renew renewal now) e r := by
  unfold renewSnapshot at h
  split at h
  · cases h
  cases h
  intro G hG
  cases hr : renewal.readdressTo <;> cases G <;> simp_all [readdress, refresh]

theorem keeps_completion (completion : AdapterCompletion) :
    Keeps (.recordAdapterCompletion completion now) e (completionSnapshot e completion now) := by
  intro G hG
  cases G <;> simp_all [completionSnapshot]

theorem Update.run_cases {log log' : InboxLog} {seen : Option OperatorInboxEntry} {id : String}
    (h : u.run clock log seen id = .ok log') :
    log' = log ∨
    (∃ e r, seen = some e ∧ (u.guarded = true → e.terminal = false) ∧ SameRow e r ∧ r.state = e.state ∧ Keeps u e r ∧
      log' = log ++ [r]) ∨
    (∃ e r, (current log).get? id = some e ∧ e.terminal = false ∧ SameRow e r ∧ Keeps u e r ∧ log' = log ++ [r]) := by
  cases u with
  | consume now consumedBy via =>
    rcases consume_cases h with rfl | ⟨e, r, he, ht, hr, rfl⟩
    · exact Or.inl rfl
    · exact Or.inr (Or.inr ⟨e, r, he, ht, (consume_spec hr).1, keeps_consume hr, rfl⟩)
  | recordDelivery attempt now floor =>
    cases seen with
    | none => cases h
    | some e =>
      simp only [run, Inbox.recordDelivery] at h
      split at h
      · rcases transition_cases h with rfl | ⟨e', r, he', hr, rfl⟩
        · exact Or.inl rfl
        · obtain ⟨ht, hrow, -⟩ := Transition.apply_spec hr
          exact Or.inr (Or.inr ⟨e', r, he', ht, hrow, keeps_land hr, rfl⟩)
      split at h
      · cases h
      rename_i r hr
      cases h
      obtain ⟨hrow, hs⟩ := deliverySnapshot_spec hr
      exact Or.inr (Or.inl ⟨e, r, rfl, fun hg => (by cases hg), hrow, hs, keeps_delivery hr, rfl⟩)
  | rebind owner now =>
    cases seen with
    | none => cases h
    | some e =>
      simp only [run, rebindEntry] at h
      split at h
      · cases h
        exact Or.inl rfl
      rename_i r hr
      cases h
      obtain ⟨hrow, hs, ht⟩ := rebindSnapshot_spec hr
      exact Or.inr (Or.inl ⟨e, r, rfl, fun _ => ht, hrow, hs, keeps_rebind hr, rfl⟩)
  | renew renewal now =>
    cases seen with
    | none => cases h
    | some e =>
      simp only [run, Inbox.renew] at h
      split at h
      · cases h
        exact Or.inl rfl
      rename_i r hr
      cases h
      obtain ⟨hrow, hs, ht⟩ := renewSnapshot_spec hr
      exact Or.inr (Or.inl ⟨e, r, rfl, fun _ => ht, hrow, hs, keeps_renew hr, rfl⟩)
  | recordAdapterCompletion completion now =>
    cases seen with
    | none => cases h
    | some e =>
      cases h
      exact Or.inr (Or.inl ⟨e, completionSnapshot e completion now, rfl, fun hg => (by cases hg), ⟨rfl, rfl, rfl⟩, rfl,
        keeps_completion completion, rfl⟩)

end

variable {clock : Clock} {w w' : World} {a : InboxAction}

theorem World.logAt_mem (w : World) (ago : Nat) : w.logAt ago ∈ w.log :: w.past := by
  unfold logAt
  rw [List.getD_eq_getElem?_getD]
  cases h : (w.log :: w.past)[ago]? with
  | none => simp
  | some log => exact List.mem_of_getElem? h

theorem World.seenRow_mem {seen : Seen} {id : String} {e : OperatorInboxEntry} (h : w.seenRow seen id = some e) :
    (∃ log ∈ w.log :: w.past, e ∈ log) ∧ e.id = id := by
  cases seen with
  | fold ago => exact ⟨⟨_, w.logAt_mem ago, (fold_mem h).1⟩, (fold_mem h).2⟩
  | row ago index =>
    obtain ⟨h1, h2⟩ := Option.filter_eq_some_iff.mp h
    exact ⟨⟨_, w.logAt_mem ago, List.mem_of_getElem? h1⟩, of_decide_eq_true h2⟩

theorem World.step_cases (h : w.step clock a = some w') :
    (∃ r, w.fresh r.id = true ∧ r.state = .pending ∧ w' = w.advance (w.log ++ [r])) ∨
    (∃ seen id u e r, a = .update seen id u ∧ w.seenRow seen id = some e ∧ (u.guarded = true → e.terminal = false) ∧
      SameRow e r ∧ r.state = e.state ∧ w' = w.advance (w.log ++ [r])) ∨
    (∃ log, LiveAppends w.log log ∧ w' = w.advance log) ∨
    (∃ p : String → Bool, w' = w.advance (w.log.filter fun r => p r.id)) ∨
    (∃ gate, w' = w.advance (deleteByGate w.log gate)) := by
  unfold step at h
  split at h
  · rename_i log hr
    cases h
    cases a with
    | append message id now routing poster =>
      simp only [result] at hr
      split at hr
      · rename_i hf
        split at hr
        · cases hr
        rename_i entry he
        cases hr
        unfold createOperatorInboxEntry at he
        split at he
        · cases he
        · cases he
          exact Or.inl ⟨_, hf, rfl, rfl⟩
      · cases hr
    | transition id now t => exact Or.inr (Or.inr (Or.inl ⟨log, transition_live hr, rfl⟩))
    | transitionMany now ts => exact Or.inr (Or.inr (Or.inl ⟨log, transitionMany_live hr, rfl⟩))
    | update seen id u =>
      rcases u.run_cases hr with rfl | ⟨e, r, he, hg, hrow, hs, -, rfl⟩ | ⟨e, r, he, ht, hrow, -, rfl⟩
      · exact Or.inr (Or.inr (Or.inl ⟨w.log, .done _, rfl⟩))
      · exact Or.inr (Or.inl ⟨seen, id, u, e, r, rfl, he, hg, hrow, hs, rfl⟩)
      · exact Or.inr (Or.inr (Or.inl ⟨_, .one he ht hrow, rfl⟩))
    | delete id =>
      cases hr
      exact Or.inr (Or.inr (Or.inr (Or.inl ⟨fun i => decide (i ≠ id), rfl⟩)))
    | deleteByGate gate =>
      cases hr
      exact Or.inr (Or.inr (Or.inr (Or.inr ⟨gate, rfl⟩)))
    | compact now =>
      cases hr
      obtain ⟨p, hp⟩ := compact_eq_filter clock w.log now
      exact Or.inr (Or.inr (Or.inr (Or.inl ⟨p, by rw [hp]⟩)))
    | reconcileAndCompact now reasons =>
      cases hr
      obtain ⟨p, hp⟩ := reconcileAndCompact_eq_filter clock w.log now reasons
      exact Or.inr (Or.inr (Or.inr (Or.inl ⟨p, by rw [hp]⟩)))
  · cases h

end AgentsRemember.Inbox
