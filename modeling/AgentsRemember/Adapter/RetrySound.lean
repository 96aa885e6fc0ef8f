import AgentsRemember.Adapter.Pi
import AgentsRemember.Adapter.ClaudeSound
import AgentsRemember.Adapter.CodexSound

/-!
# What a Pi refusal leaves

The write lock's refusals discard the row of their submit. The claim comes
after the row is made and before anything discards it.
-/

namespace AgentsRemember.Adapter.Pi

open Lib
open Harness (ControlOperationRef SendOutcome)

variable {limit interactionLimit : Nat} {s t u : PiRpcAdapter} {id : String}

namespace PiRpcAdapter

def known (s : PiRpcAdapter) (id : String) : Bool := (s.submissions.get? id).isSome

def Keeps (s t : PiRpcAdapter) : Prop := ∀ id, s.known id = false → t.known id = false

def Reserves (requestId : String) (s t : PiRpcAdapter) : Prop := ∀ id, id ≠ requestId → s.known id = false → t.known id = false

theorem Keeps.of_eq (h : t.submissions = s.submissions) : Keeps s t := fun id hid => by rw [known, h]; exact hid

variable {rows : Dict String PiSubmissionEvidence} {requestId : String} {request : PromptRequest}
  {operation : ControlOperationRef} {prepared : Prepared}

theorem known_mark {state : SubmissionKnowledge} (h : mark s.submissions requestId state = some rows) (id : String) :
    (rows.get? id).isSome = s.known id := by
  obtain ⟨e, he, rfl⟩ := Option.map_eq_some_iff.mp h
  rw [Dict.get?_set, known]
  split
  · subst_vars
    rw [he]
    rfl
  · rfl

theorem known_discard (s : PiRpcAdapter) (requestId : String) : (s.discard requestId).known requestId = false := by
  simp [discard, known, Dict.get?_erase]

theorem keeps_discard (s : PiRpcAdapter) (requestId : String) : Keeps s (s.discard requestId) := by
  intro id hid
  simp only [discard, known, Dict.get?_erase]
  split
  · rfl
  · exact hid

/-! ## The ends of a submit -/

def LetsGo (request : PromptRequest) (p : PiRpcAdapter × Option Ended) : Prop :=
  ∀ r o, p.2 = some (r, o) → r = request ∧ (requeued o = true → p.1.known request.requestId = false)

/-- What a step that may end the submit of this request does to the ledger. -/
structure Ends (s : PiRpcAdapter) (request : PromptRequest) (p : PiRpcAdapter × Option Ended) : Prop where
  keeps : Keeps s p.1
  letsGo : LetsGo request p

theorem Ends.of_eq {p : PiRpcAdapter × Option Ended} (h : Ends t request p) (hst : t.submissions = s.submissions) :
    Ends s request p :=
  ⟨fun id hid => h.keeps id (by rw [known, hst]; exact hid), h.letsGo⟩

theorem letsGo_of_not {o : SendOutcome} (ho : requeued o = false) : LetsGo request (s, some (request, o)) := by
  intro r o' h
  obtain ⟨rfl, rfl⟩ := Prod.mk.inj (Option.some.inj h)
  exact ⟨rfl, fun ho' => nomatch ho.symm.trans ho'⟩

theorem disconnectedCall_ends (s : PiRpcAdapter) (request : PromptRequest) (operation : ControlOperationRef) (detail : String)
    (mayHaveSent : Bool) : Ends s request (s.disconnectedCall request operation detail mayHaveSent) := by
  unfold disconnectedCall
  split
  · exact ⟨fun _ h => h, letsGo_of_not rfl⟩
  rename_i rows hrows
  have hknown : ∀ id, known { s with submissions := rows } id = s.known id := known_mark hrows
  cases mayHaveSent with
  | true => exact ⟨fun id h => (hknown id).trans h, letsGo_of_not rfl⟩
  | false =>
    refine ⟨fun id h => keeps_discard _ request.requestId id ((hknown id).trans h), fun r o h => ?_⟩
    obtain ⟨rfl, rfl⟩ := Prod.mk.inj (Option.some.inj h)
    exact ⟨rfl, fun _ => known_discard _ request.requestId⟩

theorem failedCall_ends (s : PiRpcAdapter) (request : PromptRequest) (operation : ControlOperationRef) (failure : PiFailure) :
    Ends s request (s.failedCall request operation failure) := by
  cases failure with
  | disconnected detail => exact disconnectedCall_ends s request operation detail false
  | failed detail => exact ⟨fun _ h => h, letsGo_of_not rfl⟩

theorem request_ends (s : PiRpcAdapter) (k : Call) : Ends s k.request (s.request k) := by
  unfold request
  split
  · exact ⟨fun _ h => h, letsGo_of_not rfl⟩
  split
  · exact ⟨fun _ h => h, letsGo_of_not rfl⟩
  split
  · exact failedCall_ends s k.request _ _
  · exact ⟨fun _ h => h, fun r o h => nomatch h⟩

theorem write_ends (s : PiRpcAdapter) (k : Call) (t : PiTransport) (broken : Option Broken) :
    Ends s k.request (s.write k t broken) := by
  unfold write
  dsimp only
  split
  · exact (failedCall_ends _ k.request _ _).of_eq rfl
  split
  · exact (disconnectedCall_ends _ k.request _ _ false).of_eq rfl
  split
  · rename_i detail _
    refine ⟨fun id h => keeps_discard _ k.request.requestId id h, fun r o h => ?_⟩
    obtain ⟨rfl, rfl⟩ := Prod.mk.inj (Option.some.inj h)
    exact ⟨rfl, fun _ => known_discard _ k.request.requestId⟩
  · exact (disconnectedCall_ends _ k.request _ _ false).of_eq rfl
  · exact (disconnectedCall_ends _ k.request _ _ true).of_eq rfl
  · exact ⟨fun _ h => h, fun r o h => nomatch h⟩

theorem answered_ends (s : PiRpcAdapter) (k : Call) (answer : PromptAnswer) : Keeps s (s.answered k answer).1 ∧
    ∀ r o, (s.answered k answer).2 = some (r, o) → requeued o = false := by
  cases answer with
  | failed detail =>
    refine ⟨fun _ h => h, fun r o h => ?_⟩
    cases h
    rfl
  | disconnected detail =>
    refine ⟨(disconnectedCall_ends s k.request k.prepared.operation detail true).keeps, fun r o h => ?_⟩
    simp only [answered, disconnectedCall] at h
    split at h <;> cases h <;> rfl
  | response success =>
    simp only [answered]
    split
    · refine ⟨fun _ h => h, fun r o h => ?_⟩
      cases h
      rfl
    rename_i rows hrows
    have hknown : ∀ id, known { s with submissions := rows } id = s.known id := known_mark hrows
    cases success with
    | true =>
      refine ⟨fun id h => (hknown id).trans h, fun r o h => ?_⟩
      cases h
      rfl
    | false =>
      refine ⟨fun id h => (hknown id).trans h, fun r o h => ?_⟩
      cases h
      rfl

/-! ## The reservation -/

theorem get?_remember {items : Dict String PiSubmissionEvidence} {e : PiSubmissionEvidence}
    (h : remember limit items requestId e = some rows) : rows.get? requestId = some e ∧
      ∀ id, id ≠ requestId → items.get? id = none → rows.get? id = none := by
  unfold remember at h
  split at h
  · split at h
    · cases h
    rename_i key _
    cases h
    refine ⟨Dict.get?_set_self .., fun id hid hout => ?_⟩
    rw [Dict.get?_set_ne _ _ hid.symm, Dict.get?_erase]
    split
    · rfl
    · exact hout
  · cases h
    refine ⟨Dict.get?_set_self .., fun id hid hout => ?_⟩
    rw [Dict.get?_set_ne _ _ hid.symm]
    exact hout

theorem claim_ok (h : s.claim operation = .ok prepared) :
    s.preparedOperation = some prepared ∧ prepared.operation = operation ∧ s.activeOperation = none := by
  unfold claim at h
  split at h
  · cases h
  split at h
  · cases h
  rename_i hop
  split at h
  · cases h
  rename_i hactive
  cases h
  exact ⟨‹_›, not_not.mp hop, by simpa using hactive⟩

theorem claim_error {detail : String} (h : s.claim operation = .error detail) :
    ¬(s.activeOperation = none ∧ ∃ p, s.preparedOperation = some p ∧ p.operation = operation) := by
  rintro ⟨hactive, p, hp, rfl⟩
  simp [claim, hp, hactive] at h

/-- Whether a refusal on this answer about the entries lets the request go. -/
def meetsEntries (s : PiRpcAdapter) (request : PromptRequest) : EntriesAnswer → Prop
  | .disconnected => s.known request.requestId = false
  | .read _ => s.claimable request = true
  | .failed _ => False

theorem claimable_iff (hop : request.promptOperation = some operation) :
    s.claimable request = true ↔ s.activeOperation = none ∧ ∃ p, s.preparedOperation = some p ∧ p.operation = operation := by
  simp only [claimable, hop, Bool.and_eq_true, Option.isNone_iff_eq_none, Option.any_eq_true, decide_eq_true_eq, Option.some.injEq]
  exact and_congr_right fun _ => exists_congr fun p => and_congr_right fun _ => eq_comm

theorem entriesRead_ends (s : PiRpcAdapter) {request : PromptRequest} {operation : ControlOperationRef}
    (hop : request.promptOperation = some operation) (answer : EntriesAnswer) :
    Reserves request.requestId s (s.entriesRead limit request operation answer).1 ∧
      ∀ r o, (s.entriesRead limit request operation answer).2 = some (r, o) → r = request ∧ (requeued o = true →
        ((s.entriesRead limit request operation answer).1.known request.requestId = false ↔ s.meetsEntries request answer)) := by
  have hrefused : ∀ (t : PiRpcAdapter) (o : SendOutcome) (P : Prop), requeued o = false →
      ∀ r o', some (request, o) = some (r, o') → r = request ∧ (requeued o' = true → (t.known request.requestId = false ↔ P)) := by
    intro t o P ho r o' h
    obtain ⟨rfl, rfl⟩ := Prod.mk.inj (Option.some.inj h)
    exact ⟨rfl, fun ho' => nomatch ho.symm.trans ho'⟩
  cases answer with
  | failed detail => exact ⟨fun _ _ h => h, hrefused s _ _ rfl⟩
  | disconnected =>
    refine ⟨fun _ _ h => h, fun r o h => ?_⟩
    obtain ⟨rfl, rfl⟩ := Prod.mk.inj (Option.some.inj h)
    exact ⟨rfl, fun _ => Iff.rfl⟩
  | read verified =>
    unfold entriesRead
    dsimp only
    split
    · exact ⟨fun _ _ h => h, hrefused s _ _ rfl⟩
    rename_i rows hrows
    obtain ⟨hheld, hothers⟩ := get?_remember hrows
    have hreserves : ∀ t : PiRpcAdapter, t.submissions = rows → Reserves request.requestId s t := by
      intro t ht id hid hout
      simpa [known, ht] using hothers id hid (by simpa [known] using hout)
    split
    · exact ⟨hreserves _ rfl, hrefused _ _ _ rfl⟩
    split
    · rename_i detail hclaim
      refine ⟨hreserves _ rfl, fun r o h => ?_⟩
      obtain ⟨rfl, rfl⟩ := Prod.mk.inj (Option.some.inj h)
      refine ⟨rfl, fun _ => ⟨fun hout => ?_, fun hm => ?_⟩⟩
      · simp [known, hheld] at hout
      · exact absurd ((claimable_iff hop).mp hm) (claim_error hclaim)
    rename_i prepared hclaim
    obtain ⟨hprepared, rfl, hactive⟩ := claim_ok hclaim
    have hends := request_ends
      { s with submissions := rows, activeOperation := some prepared.operation } ⟨request, prepared, s.transport⟩
    refine ⟨fun id hid hout => hends.keeps id (hreserves _ rfl id hid hout), fun r o h => ?_⟩
    obtain ⟨rfl, hout⟩ := hends.letsGo r o h
    exact ⟨rfl, fun ho => ⟨fun _ => (claimable_iff hop).mpr ⟨hactive, prepared, hprepared, rfl⟩, fun _ => hout ho⟩⟩

theorem submit_ends (s : PiRpcAdapter) (request : PromptRequest) (verified : Bool) :
    (s.submit request verified).1.submissions = s.submissions ∧
      ∀ r o, (s.submit request verified).2 = some (r, o) → requeued o = false := by
  have hrefused : ∀ o : SendOutcome, requeued o = false → ∀ r o', some (request, o) = some (r, o') → requeued o' = false := by
    intro o ho r o' h
    obtain ⟨rfl, rfl⟩ := Prod.mk.inj (Option.some.inj h)
    exact ho
  unfold submit
  split
  · exact ⟨rfl, hrefused _ rfl⟩
  split
  · exact ⟨rfl, hrefused _ rfl⟩
  split
  · exact ⟨rfl, hrefused _ rfl⟩
  split
  · exact ⟨rfl, hrefused _ rfl⟩
  split
  · exact ⟨rfl, hrefused _ rfl⟩
  · exact ⟨rfl, fun r o h => nomatch h⟩

theorem prepare_ledger (s : PiRpcAdapter) (operation : ControlOperationRef) (state : PiSessionState) :
    (s.prepare operation state).submissions = s.submissions := by
  unfold prepare
  dsimp only
  split <;> rfl

theorem settled_ledger (s : PiRpcAdapter) (operation : Option ControlOperationRef) (state : PiSessionState) :
    (s.settled operation state).submissions = s.submissions := by
  unfold settled
  dsimp only
  split
  · rfl
  · split <;> rfl

theorem keeps_reconciled (s : PiRpcAdapter) (requestId : String) :
    Keeps s { s with submissions := (mark s.submissions requestId .accepted).getD s.submissions } := by
  intro id hid
  cases hm : mark s.submissions requestId .accepted with
  | none => exact hid
  | some rows => exact (known_mark hm id).trans hid

theorem stepped {i : PiStep} {e : Option Ended} (h : s.step limit interactionLimit i = some (t, e)) :
    (∃ request operation answer, i = .entriesRead request answer ∧ request.promptOperation = some operation ∧
      (t, e) = PiRpcAdapter.entriesRead limit { s with reading := s.reading.erase request } request operation answer) ∨
    (∃ k broken, i = .write k broken ∧ Ends s k.request (t, e)) ∨
    (Keeps s t ∧ ∀ r o, e = some (r, o) → requeued o = false) := by
  have hquiet : ∀ {u : PiRpcAdapter}, some (u, none) = some (t, e) → u.submissions = s.submissions →
      Keeps s t ∧ ∀ r o, e = some (r, o) → requeued o = false := by
    intro u h hu
    obtain ⟨rfl, rfl⟩ := Prod.mk.inj (Option.some.inj h)
    exact ⟨.of_eq hu, fun _ _ h => nomatch h⟩
  cases i with
  | entriesRead request answer =>
    simp only [step] at h
    split at h
    · cases h
    rename_i operation hop
    split at h
    · exact .inl ⟨request, operation, answer, rfl, hop, (Option.some.inj h).symm⟩
    · cases h
  | write k broken =>
    simp only [step] at h
    split at h
    · cases h
    rename_i tr _
    split at h
    · refine .inr (.inl ⟨k, broken, rfl, ?_⟩)
      rw [← Option.some.inj h]
      exact write_ends s k tr broken
    · cases h
  | submit request verified =>
    refine .inr (.inr ?_)
    obtain ⟨hledger, hends⟩ := submit_ends s request verified
    have hp := Option.some.inj h
    exact ⟨.of_eq (by rw [← hledger, hp]), fun r o he => hends r o (by rw [hp]; exact he)⟩
  | answered k answer =>
    simp only [step] at h
    split at h
    · refine .inr (.inr ?_)
      have hp := Option.some.inj h
      have hends := answered_ends { s.modifyTransport k.transport (fun t => { t with pending := t.pending.erase k.request.requestId }) with
        awaiting := s.awaiting.erase k } k answer
      exact ⟨by rw [show t = _ from (congrArg Prod.fst hp).symm]; exact hends.1,
        fun r o he => hends.2 r o (by rw [show e = _ from (congrArg Prod.snd hp).symm] at he; exact he)⟩
    · cases h
  | preflight operation =>
    simp only [step] at h
    split at h
    · cases h
    · exact .inr (.inr (hquiet h rfl))
  | preflightRead operation state =>
    simp only [step] at h
    split at h
    · exact .inr (.inr (hquiet h (prepare_ledger s operation state)))
    · cases h
  | setterClaimed operation =>
    simp only [step] at h
    split at h
    · cases h
    · exact .inr (.inr (hquiet h rfl))
  | settled state =>
    obtain ⟨operation, -, h⟩ := Option.map_eq_some_iff.mp h
    exact .inr (.inr (hquiet (congrArg some h) (settled_ledger s operation state)))
  | respond interactionId operation =>
    simp only [step] at h
    split at h
    · exact .inr (.inr (hquiet h rfl))
    · cases h
  | responded interactionId =>
    simp only [step] at h
    split at h
    · exact .inr (.inr (hquiet h rfl))
    · cases h
  | reconciled requestId =>
    cases h
    exact .inr (.inr ⟨keeps_reconciled s requestId, fun _ _ h => nomatch h⟩)
  | setterEnded operation => exact .inr (.inr (hquiet h rfl))
  | committed state => exact .inr (.inr (hquiet h rfl))
  | stateRead state => exact .inr (.inr (hquiet h rfl))
  | transportEvent ref => exact .inr (.inr (hquiet h rfl))
  | transportFailed ref failure => exact .inr (.inr (hquiet h rfl))
  | stdinClosed ref => exact .inr (.inr (hquiet h rfl))
  | frame f => exact .inr (.inr (hquiet h rfl))
  | agentSettled => exact .inr (.inr (hquiet h rfl))
  | streamEnded failed => exact .inr (.inr (hquiet h rfl))
  | reconnecting => exact .inr (.inr (hquiet h rfl))
  | reconnected state => exact .inr (.inr (hquiet h rfl))
  | stop => exact .inr (.inr (hquiet h rfl))

theorem known_step {i : PiStep} {e : Option Ended} (h : s.step limit interactionLimit i = some (t, e))
    (hi : (pi limit interactionLimit).submits i ≠ some id) (hout : s.known id = false) : t.known id = false := by
  rcases stepped h with ⟨request, operation, answer, rfl, hop, hp⟩ | ⟨k, broken, -, hends⟩ | ⟨hkeeps, -⟩
  · have hends := (@entriesRead_ends limit { s with reading := s.reading.erase request } request operation hop answer).1
    rw [← hp] at hends
    exact hends id (fun hid => hi (hid ▸ rfl)) hout
  · exact hends.keeps id hout
  · exact hkeeps id hout

/-! ## An uninterrupted dispatch -/

theorem guard_ready (hactive : s.activeOperation = some prepared.operation)
    (hprepared : s.preparedOperation = some prepared) (hgeneration : s.transportGeneration = prepared.generation)
    (hactivity : s.activityToken = prepared.activityToken) (hevent : s.currentEventToken = prepared.eventToken)
    (hstate : s.state = some idleState) (hquiet : s.events.pendingInteraction = none)
    (hidle : s.events.activity = .idle) : s.guard prepared = none := by
  simp [guard, hactive, hprepared, hgeneration, hactivity, hevent, hstate, hquiet, hidle, idleState, PiSessionState.busy]

theorem write_ready {k : Call} {tr : PiTransport} (htransport : s.transports[k.transport]? = some tr) (hk : k ∈ s.calls)
    (halive : tr.failure = none) (hstdin : tr.stdinOpen = true) (hguard : s.guard k.prepared = none) :
    ∃ u, (pi limit interactionLimit).step s (.write k none) = some (u, none) ∧ u.wire = s.wire ++ [k.request.requestId] := by
  have hguard' : guard { s with calls := s.calls.erase k } k.prepared = none := hguard
  exact ⟨{ s with
    calls := s.calls.erase k
    awaiting := s.awaiting ++ [k]
    wire := s.wire ++ [k.request.requestId] }, by simp [pi, step, htransport, hk, write, halive, hstdin, hguard'], rfl⟩

def claimed (s : PiRpcAdapter) (request : PromptRequest) (prepared : Prepared) (rows : Dict String PiSubmissionEvidence) :
    PiRpcAdapter :=
  let s := { s with
    reading := s.reading.erase request
    submissions := rows
    activeOperation := some prepared.operation }
  let s := s.modifyTransport s.transport fun t => { t with pending := t.pending ++ [request.requestId] }
  { s with calls := s.calls ++ [⟨request, prepared, s.transport⟩] }

theorem entriesRead_ready {tr : PiTransport} (hop : request.promptOperation = some prepared.operation)
    (hreading : request ∈ s.reading) (hprepared : s.preparedOperation = some prepared)
    (hactive : s.activeOperation = none)
    (hrows : remember limit s.submissions request.requestId ⟨request, .pending⟩ = some rows)
    (htransport : s.transports[s.transport]? = some tr) (halive : tr.failure = none)
    (hpending : request.requestId ∉ tr.pending) :
    (pi limit interactionLimit).step s (.entriesRead request (.read true)) = some (s.claimed request prepared rows, none) := by
  simp [pi, step, hop, hreading, entriesRead, hrows, claim, hprepared, hactive, PiRpcAdapter.request, htransport, halive, hpending,
    claimed, modifyTransport]

theorem prepare_ready {operation : ControlOperationRef} (hdialogs : s.events.dialogs = []) :
    s.prepare operation idleState =
      { s with
        state := some idleState
        activityToken := s.activityToken + 1
        events := s.events.applyState idleState
        preflights := s.preflights.erase operation
        preparedOperation := some ⟨operation, s.transportGeneration, s.activityToken + 1, s.currentEventToken⟩ } := by
  simp [prepare, readState, idleState, PiSessionState.busy, PiRpcEventMapper.applyState, hdialogs, currentEventToken]

theorem lawful : (pi limit interactionLimit).Lawful where
  holds := known_step
  writes := by
    intro s request minted hout hidle _
    simp only [pi, connected, Bool.and_eq_true, Bool.not_eq_true', Option.isNone_iff_eq_none, List.isEmpty_iff,
      Option.any_eq_true, decide_eq_true_eq, Option.isSome_iff_exists] at hidle
    obtain ⟨⟨⟨⟨⟨hstopped, hactive⟩, hdialogs⟩, tr, htransport, ⟨halive, hstdin⟩, hpending⟩, rows, hrows⟩, operation, hop, hid⟩ := hidle
    have hnew : (s.submissions.get? request.requestId).isSome = false := hout
    let prepared : Prepared := ⟨operation, s.transportGeneration, s.activityToken + 1, s.currentEventToken⟩
    let s₁ := { s with preflights := s.preflights ++ [operation] }
    let s₂ := { s₁ with
      state := some idleState
      activityToken := s.activityToken + 1
      events := s.events.applyState idleState
      preflights := (s.preflights ++ [operation]).erase operation
      preparedOperation := some prepared }
    let s₃ := { s₂ with reading := s.reading ++ [request] }
    have h₁ : (pi limit interactionLimit).step s (.preflight operation) = some (s₁, none) := by
      simp [pi, step, hstopped, hactive, s₁]
    have h₂ : (pi limit interactionLimit).step s₁ (.preflightRead operation idleState) = some (s₂, none) := by
      simp [pi, step, s₁, prepare_ready (s := s₁) hdialogs, s₂, prepared, currentEventToken]
    have h₃ : (pi limit interactionLimit).step s₂ (.submit request true) = some (s₃, none) := by
      simp [pi, step, submit, s₁, s₂, s₃, hstopped, hop, hid, hnew]
    have h₄ : (pi limit interactionLimit).step s₃ (.entriesRead request (.read true)) =
        some (s₃.claimed request prepared rows, none) :=
      entriesRead_ready hop (by simp [s₃]) rfl hactive hrows htransport halive hpending
    have htransport' : (s₃.claimed request prepared rows).transports[s.transport]? =
        some { tr with pending := tr.pending ++ [request.requestId] } := by
      simp [claimed, modifyTransport, s₁, s₂, s₃, htransport]
    have hevent : (s₃.claimed request prepared rows).currentEventToken = s.currentEventToken := by
      simp [claimed, modifyTransport, currentEventToken, s₁, s₂, s₃, htransport]
    have hguard : (s₃.claimed request prepared rows).guard prepared = none := by
      refine guard_ready rfl rfl rfl rfl hevent rfl ?_ ?_
      · exact congrArg List.head? hdialogs
      show idleState.activity s.events.dialogs.head?.isSome = .idle
      rw [hdialogs]
      rfl
    obtain ⟨u, h₅, hwire⟩ := @write_ready limit interactionLimit _ ⟨request, prepared, s.transport⟩ _ htransport' (by simp [claimed, s₃, s₂, s₁, modifyTransport]) halive hstdin hguard
    refine ⟨u, ?_, hwire⟩
    simp only [pi, hop]
    exact (Machine.runFrom_step h₁).trans ((Machine.runFrom_step h₂).trans ((Machine.runFrom_step h₃).trans
      ((Machine.runFrom_step h₄).trans (Machine.runFrom_step h₅))))

/-- A submit refused under the write lock, or before that with the ledger as the submit found it. -/
def meets (s : PiRpcAdapter) : PiStep → Prop
  | .entriesRead request answer => s.meetsEntries request answer
  | .write _ _ => True
  | _ => False

theorem refused_step {i : PiStep} {request : PromptRequest} {o : SendOutcome}
    (h : s.step limit interactionLimit i = some (t, some (request, o))) (ho : requeued o = true) :
    t.known request.requestId = false ↔ s.meets i := by
  rcases stepped h with ⟨request', operation, answer, rfl, hop, hp⟩ | ⟨k, broken, rfl, hends⟩ | ⟨-, hends⟩
  · obtain ⟨rfl, hiff⟩ := (@entriesRead_ends limit { s with reading := s.reading.erase request' } request' operation hop answer).2 request o
      (by rw [← hp])
    rw [← hp] at hiff
    exact hiff ho
  · obtain ⟨rfl, hout⟩ := hends.letsGo request o rfl
    exact ⟨fun _ => trivial, fun _ => hout ho⟩
  · exact nomatch (hends request o rfl).symm.trans ho

end PiRpcAdapter

theorem retryableExactlyWhen (limit interactionLimit : Nat) :
    (pi limit interactionLimit).RetryableExactlyWhen PiRpcAdapter.Started PiRpcAdapter.meets :=
  PiRpcAdapter.lawful.exactlyWhen (I := fun _ => True) (fun _ _ => trivial) (fun _ _ _ _ _ _ => trivial)
    fun _ _ _ _ _ _ h ho => PiRpcAdapter.refused_step h ho

end AgentsRemember.Adapter.Pi

/-! ## Which certified refusals are retryable

The authority takes a refusal it may queue again for one that left nothing. The
Codex adapter lets go of a request only where it refused before its evidence,
the Claude adapter only under the write lock, and the Pi adapter in both places
but not in between, where it claims its operation.
-/

namespace AgentsRemember.Adapter

open Lib
open Harness (ControlOperationRef)

/-- **Certified refusals.** For each adapter, in every reachable state, the step of a refusal that the authority takes back
to queued lets the request go, and a later submit of it through, exactly when it meets the adapter's condition. -/
theorem certified_refusal_retryable_iff (c : Claude.ClaudeConfig) (limit completedTurnLimit piLimit interactionLimit : Nat) :
    (Claude.claude c).RetryableExactlyWhen Claude.ClaudeStreamState.Started Claude.ClaudeStreamState.meets ∧
    (Codex.codex limit completedTurnLimit).RetryableExactlyWhen Codex.CodexAdapter.Started Codex.CodexAdapter.meets ∧
    (Pi.pi piLimit interactionLimit).RetryableExactlyWhen Pi.PiRpcAdapter.Started Pi.PiRpcAdapter.meets :=
  ⟨Claude.retryableExactlyWhen c, Codex.retryableExactlyWhen limit completedTurnLimit,
    Pi.retryableExactlyWhen piLimit interactionLimit⟩

namespace Codex

def freshAdapter : CodexAdapter where
  stopped := false
  control := .ready
  connected := true
  parent := ⟨none, .empty, .empty, none, []⟩
  submissions := .empty
  pendingOperation := none
  activeOperation := none
  call := none
  wire := []

def firstPrompt : PromptRequest where
  requestId := "op-1"
  text := "hello"
  submittedAt := "2026-01-01T00:00:00+00:00"
  operation := some ⟨"epoch", 1, "op-1", .prompt⟩

def overtaken : CodexAdapter :=
  { freshAdapter with
    parent := { freshAdapter.parent with activeTurnId := some "turn-9" }
    submissions := Dict.empty.set "op-1" ⟨firstPrompt, .queued, none⟩
    pendingOperation := some ⟨"epoch", 1, "op-1", .prompt⟩
    call := some ⟨firstPrompt, ⟨"epoch", 1, "op-1", .prompt⟩, false⟩ }

theorem overtaken_reachable : Reachable ((codex 256 256).system freshAdapter) always overtaken :=
  @steps_of_runFrom _ _ _ _ [.submit firstPrompt (true, true), .turnStarted "turn-9"] _ _ (fun _ _ _ => trivial) rfl

end Codex

/-- The Codex guard's refusal leaves the evidence of its submit in the ledger. -/
theorem certified_refusal_sticks :
    ¬((Claude.claude ⟨[], 256⟩).RefusalsRetryable Claude.ClaudeStreamState.Started ∧
      (Codex.codex 256 256).RefusalsRetryable Codex.CodexAdapter.Started ∧
      (Pi.pi 256 64).RefusalsRetryable Pi.PiRpcAdapter.Started) := by
  rintro ⟨-, h, -⟩
  have hretry := h Codex.freshAdapter Codex.overtaken ⟨rfl, rfl, rfl, rfl, rfl⟩ Codex.overtaken_reachable (.write false) _
    Codex.firstPrompt (.busy "Codex became busy before the guarded turn/start write") rfl rfl
  exact nomatch hretry.1

end AgentsRemember.Adapter
