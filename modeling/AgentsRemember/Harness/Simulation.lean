import AgentsRemember.Harness.LaneSound

/-!
# The authority runs on the lane

Every lock body of the authority is a run of moves of its lane. `Explains` says
where the moves that matter come from: a claim, a barrier, a requeue or a blur is
the first move of its step, made for the record the dispatcher holds, and a
reconciliation rewrites the record its reference finds.
-/

namespace AgentsRemember.Harness

open Lib

def PreflightOutcome.declined : PreflightOutcome → Prop
  | .busy _ => True
  | .disconnected _ mayHaveSent _ => mayHaveSent = false
  | _ => False

def PreflightOutcome.claimsSend : PreflightOutcome → Prop
  | .disconnected _ mayHaveSent _ => mayHaveSent = true
  | _ => False

def SendOutcome.certified : SendOutcome → Prop
  | .busy _ => True
  | .disconnected _ mayHaveSent _ => mayHaveSent = false
  | _ => False

def SendOutcome.lost : SendOutcome → Prop
  | .failed _ => True
  | .disconnected _ mayHaveSent _ => mayHaveSent = true
  | _ => False

namespace Authority

def lane (c : Config) (s : Authority) : Lane where
  epoch := c.bridgeEpoch
  record := s.ledger.objects
  byKey := s.ledger.records.get?
  promptIds := s.ledger.promptIds.get?
  sequence := s.ledger.sequence
  timeline := s.timeline
  active := s.active
  dispatcher := s.dispatcher
  reconciling := s.reconciling.map Prod.snd
  history := s.history

structure Answered (s : Authority) (a : AuthorityAction) (ref : ControlOperationRef) (r : OperationRecord)
    (result : ReconciliationResult) : Prop where
  answer : ∃ i, a = .reconciled i (.ok result) ∧ s.reconciling[i]? = some (result.requestId, ref)
  found : s.ledger.byKey (refKey ref) = some r

def Explains (c : Config) (s : Authority) (a : AuthorityAction) (v : Lane) : Move → Prop
  | .claim _ _ => v = s.lane c
  | .decline r _ => v = s.lane c ∧ s.preflighting = some r ∧ ∃ outcome at', a = .preflighted outcome at' ∧ outcome.declined
  | .bar r _ => v = s.lane c ∧ s.preflighting = some r ∧
      (s.timeline.head? = some r.key ∧ r.state = .queued ∨ ∃ outcome at', a = .preflighted outcome at' ∧ outcome.claimsSend)
  | .requeue r _ => v = s.lane c ∧ s.sending = some r ∧ ∃ outcome at', a = .sent outcome at' ∧ outcome.certified
  | .blur r _ => v = s.lane c ∧ s.sending = some r ∧
      ((∃ outcome at', a = .sent outcome at' ∧ outcome.lost) ∨ r.state = .dispatching ∨
        s.active = some r.key ∧ v.Retained r)
  | .adopt i r _ => v = s.lane c ∧ ∃ ref result, v.reconciling[i]? = some ref ∧ s.Answered a ref r result ∧
      result.state = .accepted
  | .dismiss i r _ => v = s.lane c ∧ ∃ ref result, v.reconciling[i]? = some ref ∧ s.Answered a ref r result
  | .note i r _ => v = s.lane c ∧ ∃ ref result, v.reconciling[i]? = some ref ∧ s.Answered a ref r result
  | _ => True

end Authority

variable {c : Config} {s s₀ t : Authority} {a : AuthorityAction} {r r' : OperationRecord} {v w : Lane} {m : Move}

namespace Lane

abbrev Moves (c : Config) (s₀ : Authority) (a : AuthorityAction) : Lane → Lane → Prop :=
  Steps (laneSystem c.bridgeEpoch) (s₀.Explains c a)

theorem Moves.one (hm : v.enabled m) (ho : s₀.Explains c a v m) (he : v.effect m = w) : Moves c s₀ a v w :=
  .tail .refl ho (step_eq_some.mpr ⟨hm, he⟩)

theorem Moves.sound (h : Moves c s₀ a v w) (hs : v.Sound) : w.Sound :=
  (h.stays (I := Sound) (P := fun _ => True) (fun _ _ _ h _ hm => h.step hm) (fun _ _ _ _ _ _ _ => trivial) hs trivial).1

end Lane

open Lane (Moves)

namespace Authority

/-! ## The lane of an updated authority -/

@[simp] theorem lane_put : (s.put r).lane c = (s.lane c).put r := rfl

@[simp] theorem lane_setWake : s.setWake.lane c = s.lane c := rfl

@[simp] theorem lane_rest : s.rest.lane c = (s.lane c).goto .waiting := rfl

@[simp] theorem lane_touch : lane c { s with ledger := s.ledger.touch r } = s.lane c := by
  simp [lane, SubmissionLedger.touch, funext_iff]

theorem put_put (h : r'.sequence = r.sequence) : (v.put r).put r' = v.put r' := by
  simp [Lane.put, h, Function.update_idem]

theorem lane_markTerminal (st : SubmissionLifecycleState) (detail : Option String) (at' : String) :
    (s.markTerminal r st detail at').lane c = ((s.lane c).put (r.markTerminal st detail at')).log (.settled r.sequence st) :=
  rfl

def retired (r : OperationRecord) (st : SubmissionLifecycleState) (detail : Option String) (at' : String) :
    OperationRecord := { r.markTerminal st detail at' with bufferedCompletionSequence := none }

theorem lane_retire (st : SubmissionLifecycleState) (detail : Option String) (at' : String) (b : Bool) :
    (s.retire c r st detail at' b).lane c =
      (((s.lane c).put (retired r st detail at')).release r.key).log (.settled r.sequence st) := by
  have hobj : (s.retire c r st detail at' b).ledger.objects =
      Function.update s.ledger.objects r.sequence (some (retired r st detail at')) :=
    Function.update_idem ..
  have hkeys : (s.retire c r st detail at' b).ledger.records.get? = s.ledger.records.get? := by
    funext k
    exact Dict.get?_moveToEnd ..
  simp only [lane, hobj, hkeys]
  rfl

theorem lane_enrol :
    lane c { s with ledger := { s.ledger with sequence := r.sequence }.enrol r } = (s.lane c).enter r := by
  have hkeys : (s.ledger.records.set r.key r.sequence).get? =
      Function.update s.ledger.records.get? r.key (some r.sequence) := by
    funext k
    rw [Dict.get?_set, Function.update_apply]
    simp only [eq_comm]
  have hids : (s.ledger.promptIds.set r.ref.operationId r.key).get? =
      Function.update s.ledger.promptIds.get? r.ref.operationId (some r.key) := by
    funext k
    rw [Dict.get?_set, Function.update_apply]
    simp only [eq_comm]
  simp only [lane, SubmissionLedger.enrol, SubmissionLedger.put, Lane.enter, Lane.put, hkeys, apply_ite Dict.get?, hids]

theorem lane_evict : lane c { s with ledger := s.ledger.evict r } = (s.lane c).drop r := by
  have hkeys : (s.ledger.records.erase r.key).get? = Function.update s.ledger.records.get? r.key none := by
    funext k
    rw [Dict.get?_erase, Function.update_apply]
  have hids : (s.ledger.promptIds.erase r.ref.operationId).get? =
      Function.update s.ledger.promptIds.get? r.ref.operationId none := by
    funext k
    rw [Dict.get?_erase, Function.update_apply]
  simp only [lane, SubmissionLedger.evict, Lane.drop, hkeys, apply_ite Dict.get?, hids]

/-! ## Lookups -/

theorem retained_of_byKey (hs : (s.lane c).Shape) {k : OperationKey} (h : s.ledger.byKey k = some r) :
    r.key = k ∧ (s.lane c).Retained r := by
  obtain ⟨n, hk, hn⟩ := SubmissionLedger.byKey_eq_some.mp h
  exact hs.retained hk hn

variable {id at' : String} {kind : ControlOperationKind} {result : AdapterResult} {b : Bool}

theorem retained_of_byRequestId (hs : (s.lane c).Shape) (h : s.ledger.byRequestId id = some r) :
    (s.lane c).Retained r := by
  obtain ⟨k, -, hk⟩ := Option.bind_eq_some_iff.mp h
  exact (retained_of_byKey hs hk).2

theorem unused_of_byRequestId (hs : (s.lane c).Shape) (h : s.ledger.byRequestId id = none) :
    s.ledger.records.get? (.prompt, id) = none := by
  cases hk : s.ledger.records.get? (.prompt, id) with
  | none => rfl
  | some n =>
    obtain ⟨r, hn, -⟩ := hs.keyed _ n hk
    have hi : s.ledger.promptIds.get? id = some (.prompt, id) := hs.indexed id n hk
    have hb : s.ledger.byKey (.prompt, id) = some r := SubmissionLedger.byKey_eq_some.mpr ⟨n, hk, hn⟩
    rw [SubmissionLedger.byRequestId, hi, Option.bind_some, hb] at h
    cases h

theorem filled_of_shape (hs : (s.lane c).Shape) : s.ledger.Filled := by
  intro k n hk
  obtain ⟨r, hr, hkey⟩ := hs.keyed k n hk
  exact ⟨r, hr, hkey, (hs.ordinal n r hr).1⟩

theorem preflighting_eq_some (hs : (s.lane c).Shape) (h : s.preflighting = some r) :
    s.dispatcher = .preflight r.sequence ∧ s.ledger.objects r.sequence = some r := by
  unfold preflighting at h
  split at h
  · rename_i n hn
    have hr := (hs.ordinal n r h).1
    subst hr
    exact ⟨hn, h⟩
  · cases h

theorem sending_eq_some (hs : (s.lane c).Shape) (h : s.sending = some r) :
    s.dispatcher = .sending r.sequence ∧ s.ledger.objects r.sequence = some r := by
  unfold sending at h
  split at h
  · rename_i n hn
    have hr := (hs.ordinal n r h).1
    subst hr
    exact ⟨hn, h⟩
  · cases h

theorem makeRoomIn_moves {limit : Nat} {pinned : OperationKey → Bool} (hp : ∀ k, pinned k = false → s.pinned k = false)
    (fuel : Nat) : ∀ l : SubmissionLedger, (lane c { s with ledger := l }).Sound →
      Moves c s₀ a (lane c { s with ledger := l })
        (lane c { s with ledger := (SubmissionLedger.makeRoomIn limit pinned fuel l).2 }) ∧
      ∀ k, l.records.get? k = none → (SubmissionLedger.makeRoomIn limit pinned fuel l).2.records.get? k = none := by
  induction fuel with
  | zero => exact fun l _ => ⟨.refl, fun _ => id⟩
  | succ fuel ih =>
    intro l hs
    unfold SubmissionLedger.makeRoomIn
    split
    · exact ⟨.refl, fun _ => id⟩
    cases he : l.evictable pinned with
    | none => exact ⟨.refl, fun _ => id⟩
    | some r =>
      obtain ⟨⟨k, hk⟩, hpin, hst⟩ := SubmissionLedger.evictable_eq_some he
      obtain ⟨rfl, hret⟩ := retained_of_byKey hs.shape hk
      have hpin' := hp _ hpin
      simp only [Authority.pinned, decide_eq_false_iff_not, not_or] at hpin'
      have hmove : Moves c s₀ a (lane c { s with ledger := l }) (lane c { s with ledger := l.evict r }) :=
        .one (m := .evict r) ⟨hret, hpin'.2, hpin'.1, hst⟩ trivial (lane_evict (s := { s with ledger := l })).symm
      obtain ⟨hrest, hnone⟩ := ih (l.evict r) (hmove.sound hs)
      refine ⟨hmove.trans hrest, fun k hk => hnone k ?_⟩
      simp [SubmissionLedger.evict, Dict.get?_erase, hk]

theorem hasAdmissionRoom_moves (hs : (s.lane c).Sound) :
    Moves c s₀ a (s.lane c) ((s.hasAdmissionRoom c).2.lane c) ∧
      (∀ k, s.ledger.records.get? k = none → (s.hasAdmissionRoom c).2.ledger.records.get? k = none) := by
  unfold hasAdmissionRoom
  split
  · exact makeRoomIn_moves (fun _ => id) _ s.ledger hs
  · exact ⟨.refl, fun _ => id⟩

/-! ## Admission -/

theorem preAdmission_moves (hs : (s.lane c).Sound) {request : PromptRequest} {digest : String} :
    Moves c s₀ a (s.lane c) ((s.preAdmissionReceipt c request digest).2.lane c) ∧
      ((s.preAdmissionReceipt c request digest).1 = .ok none →
        (s.preAdmissionReceipt c request digest).2.ledger.records.get? (.prompt, request.requestId) = none) := by
  unfold preAdmissionReceipt
  cases hb : s.ledger.byRequestId request.requestId with
  | some prior =>
    simp only
    split
    · exact ⟨.refl, by simp⟩
    · exact ⟨by rw [lane_touch]; exact .refl, by simp⟩
  | none =>
    obtain ⟨hmoves, hnone⟩ := @hasAdmissionRoom_moves c s s₀ a hs
    have hfree := hnone _ (unused_of_byRequestId hs.shape hb)
    rcases hroom : s.hasAdmissionRoom c with ⟨room, s'⟩
    rw [hroom] at hmoves hfree
    cases room
    · exact ⟨hmoves, by simp⟩
    · exact ⟨hmoves, fun _ => hfree⟩

theorem enrolPrompt_spec (request : PromptRequest) (digest : String) : ∃ r : OperationRecord,
    s.enrolPrompt c request digest = (r, { s with ledger := { s.ledger with sequence := r.sequence }.enrol r }) ∧
      r.ref = ⟨c.bridgeEpoch, s.ledger.sequence + 1, request.requestId, .prompt⟩ ∧ r.state = .queued ∧
      r.bufferedCompletionSequence = none := by
  unfold enrolPrompt
  rw [SubmissionLedger.nextRef_prompt request.named]
  exact ⟨_, rfl, rfl, rfl, rfl⟩

theorem enter_put (h : r'.ref = r.ref) : (v.enter r).put r' = v.enter r' := by
  have hs : r'.sequence = r.sequence := by rw [OperationRecord.sequence, h]
  have hk : r'.key = r.key := by rw [OperationRecord.key, h]
  simp only [Lane.enter, Lane.put, hs, hk, h, Function.update_idem]

theorem admitPrompt_moves (request : PromptRequest) (digest : String)
    (hfree : s.ledger.records.get? (.prompt, request.requestId) = none) :
    Moves c s₀ a (s.lane c) ((s.admitPrompt c request digest).2.lane c) := by
  obtain ⟨r, he, href, hst, hb⟩ := enrolPrompt_spec (c := c) (s := s) request digest
  have hfresh : ∀ r' : OperationRecord, r'.ref = r.ref → r'.bufferedCompletionSequence = none →
      (s.lane c).Fresh r' := by
    intro r' hr hb
    rw [href] at hr
    refine ⟨by rw [hr]; rfl, by rw [OperationRecord.sequence, hr]; rfl, fun hk => ?_, ?_, hb⟩
    · rw [hr] at hk
      exact absurd rfl hk
    · rw [OperationRecord.key, hr]
      exact hfree
  unfold admitPrompt
  simp only [he]
  split
  · rename_i detail _
    have hf := hfresh (r.markTerminal .unsupported (some detail) request.submittedAt) rfl hb
    refine .one (m := .refuse _) ⟨hf, rfl⟩ trivial ?_
    rw [lane_markTerminal, lane_enrol, enter_put (OperationRecord.markTerminal_ref ..)]
    rfl
  have hmove : Moves c s₀ a (s.lane c) ((s.lane c).effect (.enrol r)) :=
    .one (m := .enrol r) ⟨hfresh r rfl hb, hst⟩ trivial rfl
  rw [Lane.effect, ← lane_enrol] at hmove
  split <;> exact hmove

theorem enrolSetter_spec (kind : ControlOperationKind) (value at' : String) : ∃ r : OperationRecord,
    s.enrolSetter c kind value at' = { s with
      ledger := { s.ledger with sequence := r.sequence }.enrol r
      timeline := s.timeline ++ [r.key] }.setWake ∧
    r.ref = ⟨c.bridgeEpoch, s.ledger.sequence + 1, ordinalId c.bridgeEpoch (s.ledger.sequence + 1) kind, kind⟩ ∧
    r.state = .queued ∧ r.bufferedCompletionSequence = none := by
  unfold enrolSetter
  rw [SubmissionLedger.nextRef_none]
  exact ⟨_, rfl, rfl, rfl, rfl⟩

theorem setter_unused (hs : (s.lane c).Shape) (hk : kind ≠ .prompt) :
    s.ledger.records.get? (kind, ordinalId c.bridgeEpoch (s.ledger.sequence + 1) kind) = none := by
  cases hk' : s.ledger.records.get? (kind, ordinalId c.bridgeEpoch (s.ledger.sequence + 1) kind) with
  | none => rfl
  | some n =>
    obtain ⟨r₀, hn, hkey⟩ := hs.keyed _ n hk'
    obtain ⟨hkind, hid⟩ := Prod.mk.inj hkey
    have hname := hs.named n r₀ hn (hkind ▸ hk)
    rw [hid, hkind] at hname
    have hseq := ordinalId_injective hname
    obtain ⟨-, hle⟩ := hs.ordinal n r₀ hn
    have hlt : r₀.sequence ≤ s.ledger.sequence := by
      rw [(hs.ordinal n r₀ hn).1]
      exact hle
    omega

theorem enrolSetter_moves (hs : (s.lane c).Shape) (hk : kind ≠ .prompt) (value at' : String) :
    Moves c s₀ a (s.lane c) ((s.enrolSetter c kind value at').lane c) := by
  obtain ⟨r, he, href, hst, hb⟩ := enrolSetter_spec (c := c) (s := s) kind value at'
  have hfree : s.ledger.records.get? r.key = none := by
    rw [OperationRecord.key, href]
    exact setter_unused hs hk
  have hfresh : (s.lane c).Fresh r := by
    refine ⟨by rw [href]; rfl, by rw [OperationRecord.sequence, href]; rfl, fun _ => ?_, hfree, hb⟩
    rw [OperationRecord.sequence, href]
    rfl
  have hmove : Moves c s₀ a (s.lane c) ((s.lane c).effect (.enrol r)) := .one (m := .enrol r) ⟨hfresh, hst⟩ trivial rfl
  rw [Lane.effect, ← lane_enrol] at hmove
  rw [he]
  exact hmove

theorem admitSetter_moves (hs : (s.lane c).Sound) (hk : kind ≠ .prompt) (value at' : String) :
    Moves c s₀ a (s.lane c) ((s.admitSetter c kind value at').2.lane c) := by
  unfold admitSetter
  split
  · exact .refl
  split
  · exact .refl
  obtain ⟨hmoves, -⟩ := @hasAdmissionRoom_moves c s s₀ a hs
  rcases hroom : s.hasAdmissionRoom c with ⟨room, s'⟩
  rw [hroom] at hmoves
  cases room
  · exact hmoves
  · exact hmoves.trans (enrolSetter_moves (hmoves.sound hs).shape hk value at')

theorem submit_moves (hs : (s.lane c).Sound) (request : PromptRequest) :
    Moves c s₀ a (s.lane c) ((s.submit c request).2.lane c) := by
  unfold submit
  split
  · exact .refl
  split
  · exact .refl
  obtain ⟨hmoves, hfree⟩ := @preAdmission_moves c s s₀ a hs request
    (c.payloadDigest request.text request.assets)
  rcases hpre : s.preAdmissionReceipt c request (c.payloadDigest request.text request.assets) with ⟨answer, s'⟩
  rw [hpre] at hmoves hfree
  rcases answer with e | _ | settled
  · simpa only [hpre] using hmoves
  · simp only [hpre]
    exact hmoves.trans (admitPrompt_moves request _ (hfree rfl))
  · simpa only [hpre] using hmoves

/-! ## Withdrawal, reconciliation, resolution -/

theorem writes_of_retained (h : v.Retained r) (hr : r'.ref = r.ref) : v.Writes r r' := ⟨h.2, hr⟩

theorem withdraw_moves (hs : (s.lane c).Sound) (epoch requestId : String) (cockpitOnly : Bool) (at' : String) :
    Moves c s₀ a (s.lane c) ((s.withdraw c epoch requestId cockpitOnly at').2.lane c) := by
  unfold withdraw
  split
  · exact .refl
  split
  · exact .refl
  rename_i r hr
  have hret := retained_of_byRequestId hs.shape (Option.filter_eq_some_iff.mp hr).1
  split_ifs with hw hq ht
  · exact .refl
  · exact .refl
  · exact .one (m := .withdraw r (r.markTerminal .withdrawn (some "queued submission was withdrawn") at'))
      ⟨writes_of_retained hret rfl, hret, not_not.mp hq, rfl, rfl⟩ trivial rfl
  · exact .refl

theorem reconcile_moves (hs : (s.lane c).Sound) (requestId : String) (epoch : Option String) :
    Moves c s₀ a (s.lane c) ((s.reconcile c requestId epoch).2.lane c) := by
  unfold reconcile
  split
  · exact .refl
  split
  · exact .refl
  rename_i r hr
  have hret := retained_of_byRequestId hs.shape hr
  split
  · rw [lane_touch]
    exact .refl
  rename_i hn
  refine .one (m := .ask r) ⟨hret, OperationRecord.reconciliation_eq_none.mp hn⟩ trivial ?_
  simp [Lane.effect, lane]

theorem lane_forget (i : Nat) : lane c { s with reconciling := s.reconciling.eraseIdx i } = (s.lane c).forget i := by
  simp [lane, Lane.forget, List.eraseIdx_map]

theorem reconciled_moves (hs : (s.lane c).Sound) {i : Nat} {asked : String × ControlOperationRef}
    (hi : s.reconciling[i]? = some asked) (answer : Except String ReconciliationResult) :
    Moves c s (.reconciled i answer) (s.lane c)
      (({ s with reconciling := s.reconciling.eraseIdx i }.reconciled c asked.1 asked.2 answer).2.lane c) := by
  obtain ⟨requestId, ref⟩ := asked
  have hforget : Moves c s (.reconciled i answer) (s.lane c)
      (lane c { s with reconciling := s.reconciling.eraseIdx i }) :=
    .one (m := .forget i) trivial trivial (lane_forget i).symm
  unfold reconciled
  cases answer with
  | error e => exact hforget
  | ok result =>
    simp only
    split_ifs with hid
    · exact hforget
    have hid : result.requestId = requestId := not_not.mp hid
    subst hid
    split
    · exact hforget
    rename_i r hr
    obtain ⟨hkey, hret⟩ := retained_of_byKey hs.shape hr
    have hi' : (s.lane c).reconciling[i]? = some ref := by simp [lane, hi]
    have hpend : (s.lane c).Pending i r := ⟨ref, hi', hkey.symm⟩
    have hans : s.Answered (.reconciled i (.ok result)) ref r result := ⟨⟨i, rfl, hi⟩, hr⟩
    have hdismiss : ∀ st, st ≠ .queued → st ≠ .dispatching → st ≠ .unknown →
        Moves c s (.reconciled i (.ok result)) (s.lane c)
          ((({ s with reconciling := s.reconciling.eraseIdx i }.retire c r st result.detail
            result.reconciledAt false).setWake).lane c) := by
      intro st hq hd hu
      refine .one (m := .dismiss i r (retired r st result.detail result.reconciledAt))
        ⟨writes_of_retained hret rfl, hret, hpend, ⟨hq, hd⟩, hu, rfl⟩ ⟨rfl, ref, result, hi', hans⟩ ?_
      rw [lane_setWake, lane_retire, lane_forget]
      rfl
    split
    · rename_i hst
      refine .one (m := .adopt i r { r with
          state := .delivered
          acceptedAt := some result.reconciledAt
          vendorCorrelationId := result.vendorCorrelationId
          detail := result.detail
          updatedAt := result.reconciledAt }) ⟨writes_of_retained hret rfl, hret, hpend, rfl, rfl⟩
        ⟨rfl, ref, result, hi', hans, hst⟩ ?_
      rw [lane_setWake, lane_put, lane_forget]
      rfl
    · exact hdismiss .rejected (by simp) (by simp) (by simp)
    · exact hdismiss .unsupported (by simp) (by simp) (by simp)
    · refine .one (m := .note i r { r with detail := result.detail, updatedAt := result.reconciledAt })
        ⟨writes_of_retained hret rfl, hret, hpend, rfl, rfl⟩ ⟨rfl, ref, result, hi', hans⟩ ?_
      rw [lane_setWake, lane_put, lane_forget]
      rfl

theorem resolveOperation_moves (hs : (s.lane c).Sound) (id : String) (kind : ControlOperationKind)
    (resolution : OperationResolution) (detail at' : String) :
    Moves c s₀ a (s.lane c) ((s.resolveOperation c id kind resolution detail at').2.lane c) := by
  unfold resolveOperation
  split
  · exact .refl
  rename_i r hr
  obtain ⟨hb, hst⟩ := Option.filter_eq_some_iff.mp hr
  obtain ⟨-, hret⟩ := retained_of_byKey hs.shape hb
  have hmove : ∀ st, st ≠ .queued → st ≠ .dispatching → st ≠ .unknown →
      Moves c s₀ a (s.lane c) ((s.retire c r st (some detail) at' false).setWake.lane c) := by
    intro st hq hd hu
    refine .one (m := .resolve r (retired r st (some detail) at'))
      ⟨writes_of_retained hret rfl, hret, by simpa using hst, ⟨hq, hd⟩, hu, rfl⟩ trivial ?_
    rw [lane_setWake, lane_retire]
    rfl
  simp only
  split_ifs
  · exact hmove .delivered (by simp) (by simp) (by simp)
  · exact hmove .rejected (by simp) (by simp) (by simp)

theorem observeEvent_moves (hs : (s.lane c).Sound) (event : AdapterEvent) :
    Moves c s₀ a (s.lane c) ((s.observeEvent c event).2.lane c) := by
  unfold observeEvent
  split
  · exact .refl
  simp only
  split
  · exact .refl
  unfold observeCompleted
  split
  · exact .refl
  split_ifs
  · exact .refl
  · exact .refl
  split
  · exact .refl
  rename_i r hr
  obtain ⟨hact, -⟩ := Option.filter_eq_some_iff.mp hr
  obtain ⟨k, hk, hb⟩ := Option.bind_eq_some_iff.mp hact
  obtain ⟨rfl, hret⟩ := retained_of_byKey (c := c) hs.shape hb
  have hk : s.active = some r.key := hk
  split_ifs with hd hbuf hst
  · exact .refl
  · exact .one (m := .observe r { r with bufferedCompletionSequence := some event.sequence })
      ⟨writes_of_retained hret rfl, hret, hk, hd, hd, by simp⟩ trivial rfl
  · exact .refl
  refine .one (m := .complete r (retired r .delivered r.detail event.createdAt))
    ⟨writes_of_retained hret rfl, hret, hk, ?_, rfl, rfl⟩ trivial ?_
  · by_contra hne
    exact hst (not_or.mp hne)
  · rw [lane_setWake, lane_retire]
    rfl

/-! ## The dispatcher -/

theorem dispatchOne_rest : s.rest.dispatchOne = s.dispatchOne := rfl

theorem dispatchOne_moves (hs : (s.lane c).Sound) (hd : s.dispatcher = .waiting ∨ ∃ n, s.dispatcher = .preflight n) :
    Moves c s₀ a (s.lane c) (s.dispatchOne.lane c) := by
  have hidle : Moves c s₀ a (s.lane c) (s.rest.lane c) := .one (m := .idle) hd trivial rfl
  unfold dispatchOne
  split
  · rename_i key rest ht ha
    split
    · exact .one (m := .stop) trivial trivial rfl
    rename_i r hr
    obtain ⟨hkey, hret⟩ := retained_of_byKey hs.shape hr
    split
    · rename_i hq
      have hhead : s.timeline.head? = some r.key := by rw [ht, hkey]; rfl
      exact hidle.trans (Moves.one (m := .look r) ⟨rfl, ha, hhead, hret, hq.1⟩ trivial rfl)
    · exact hidle
  · exact hidle

theorem afterPreflight_moves (hs : (s.lane c).Sound) (hr : s.preflighting = some r) (outcome : PreflightOutcome)
    (at' : String) :
    Moves c s (.preflighted outcome at') (s.lane c) ((s.afterPreflight c r outcome at').lane c) := by
  obtain ⟨hd, hn⟩ := preflighting_eq_some hs.shape hr
  have hw : ∀ r' : OperationRecord, r'.ref = r.ref → (s.lane c).Writes r r' := fun r' h => ⟨hn, h⟩
  have hdecline : ∀ detail, outcome.declined → Moves c s (.preflighted outcome at') (s.lane c)
      ((s.put { r with detail := some detail, updatedAt := at' }).rest.lane c) := fun detail ho =>
    .one (m := .decline r { r with detail := some detail, updatedAt := at' }) ⟨hw _ rfl, hd, rfl, rfl⟩
      ⟨rfl, hr, outcome, at', rfl, ho⟩ rfl
  unfold afterPreflight
  cases outcome with
  | clear =>
    simp only
    split
    · rename_i hc
      simp only [claimable, decide_eq_true_eq] at hc
      obtain ⟨hhead, ha, hq, -, -⟩ := hc
      split
      · exact .one (m := .claim r { r with state := .dispatching, updatedAt := at' })
          ⟨hw _ rfl, hd, hhead, ha, hq, rfl, rfl⟩ rfl rfl
      -- The assertion failed before any call: the barrier stands without a send.
      let claimed : OperationRecord := { r with state := .dispatching, updatedAt := at' }
      have hput : ((s.lane c).put claimed).put (claimed.markUnknown "" none at') =
          (s.lane c).put (claimed.markUnknown "" none at') := put_put rfl
      exact .one (m := .bar r (claimed.markUnknown "" none at')) ⟨hw _ rfl, hd, rfl, rfl⟩
        ⟨rfl, hr, Or.inl ⟨hhead, hq⟩⟩ (congrArg (fun u : Lane => (u.setActive (some r.key)).goto .waiting) hput.symm)
    · exact dispatchOne_moves hs (Or.inr ⟨_, hd⟩)
  | busy detail => exact hdecline detail trivial
  | disconnected detail mayHaveSent corr =>
    simp only
    split
    · rename_i hm
      exact .one (m := .bar r (r.markUnknown detail corr at')) ⟨hw _ rfl, hd, rfl, rfl⟩
        ⟨rfl, hr, Or.inr ⟨_, at', rfl, hm⟩⟩ rfl
    · rename_i hm
      exact hdecline detail (by simpa [PreflightOutcome.declined] using hm)
  | failed => exact .one (m := .stop) trivial trivial rfl

theorem blur_moves (hs : (s.lane c).Sound) (hr : s.sending = some r) (href : r'.ref = r.ref) (hst : r'.state = .unknown)
    (hb : r'.bufferedCompletionSequence = r.bufferedCompletionSequence)
    (hwhy : (∃ outcome at', a = .sent outcome at' ∧ outcome.lost) ∨ r.state = .dispatching ∨
      s.active = some r.key ∧ (s.lane c).Retained r) :
    Moves c s a (s.lane c) ((s.put r').rest.lane c) := by
  obtain ⟨hd, hn⟩ := sending_eq_some hs.shape hr
  exact .one (m := .blur r r') ⟨⟨hn, href⟩, hd, hst, hb⟩ ⟨rfl, hr, hwhy⟩ rfl

theorem certifiedPreSendBusy_moves (hs : (s.lane c).Sound) (hr : s.sending = some r) (detail at' : String)
    (outcome : SendOutcome) (ho : outcome.certified) (ha : a = .sent outcome at') :
    Moves c s a (s.lane c) ((s.certifiedPreSendBusy r detail at').lane c) := by
  obtain ⟨hd, hn⟩ := sending_eq_some hs.shape hr
  unfold certifiedPreSendBusy
  split
  · exact .one (m := .stop) trivial trivial rfl
  rename_i hc
  obtain ⟨hact, hst⟩ := not_or.mp hc
  exact .one (m := .requeue r { r with state := .queued, detail := some detail, updatedAt := at' })
    ⟨⟨hn, rfl⟩, hd, not_not.mp hact, not_not.mp hst, rfl, rfl⟩ ⟨rfl, hr, outcome, at', ha, ho⟩ rfl

theorem incoherent_moves (hs : (s.lane c).Sound) (hr : s.sending = some r) (e at' : String) :
    Moves c s a (s.lane c) ((s.incoherentMethodResult r e at').lane c) := by
  unfold incoherentMethodResult
  split
  · exact .one (m := .stop) trivial trivial rfl
  · rename_i hc
    exact blur_moves hs hr rfl rfl rfl (Or.inr (Or.inl (not_not.mp (not_or.mp hc).2)))

inductive Applied (s : Authority) (c : Config) (r : OperationRecord) : Bool → Authority → Prop
  | settled (r₁ : OperationRecord) (hr : r₁.ref = r.ref) (st : SubmissionLifecycleState) (hq : st ≠ .queued)
      (hd : st ≠ .dispatching) (hu : st ≠ .unknown) (detail : Option String) (at' : String) (b : Bool) :
      Applied s c r true (s.retire c r₁ st detail at' b).setWake
  | accepted (r₁ : OperationRecord) (hr : r₁.ref = r.ref) (hst : r₁.state = .delivered)
      (hb : r.bufferedCompletionSequence = none) (hb' : r₁.bufferedCompletionSequence = none) :
      Applied s c r false (s.put r₁)
  | unknown (r₁ : OperationRecord) (hr : r₁.ref = r.ref) (hst : r₁.state = .unknown)
      (hb : r₁.bufferedCompletionSequence = r.bufferedCompletionSequence) : Applied s c r false (s.put r₁)

theorem applyPromptReceipt_applied (h : s.applyPromptReceipt c r result at' = .ok (b, t)) : s.Applied c r b t := by
  unfold applyPromptReceipt at h
  split at h
  · rename_i receipt
    split at h
    · cases h
    simp only at h
    split at h
    · cases h
      exact .unknown _ rfl rfl rfl
    · split at h
      · cases h
        exact .settled _ (by rfl) _ (by simp) (by simp) (by simp) ..
      · cases h
        exact .unknown _ rfl rfl rfl
    · split at h
      · rename_i hb
        cases h
        exact .accepted _ rfl rfl hb.1 hb.1
      · cases h
        exact .settled _ (by rfl) _ (by simp) (by simp) (by simp) ..
    · cases h
      exact .settled _ (by rfl) _ (by simp) (by simp) (by simp) ..
    · cases h
      exact .settled _ (by rfl) _ (by simp) (by simp) (by simp) ..
  · cases h

theorem applySetResult_applied (h : s.applySetResult c r result at' = .ok (b, t)) : s.Applied c r b t := by
  unfold applySetResult at h
  split at h
  · split at h
    · cases h
    simp only at h
    split at h
    · split at h
      · cases h
        exact .settled _ (by rfl) _ (by simp) (by simp) (by simp) ..
      · cases h
        exact .unknown _ rfl rfl rfl
    · cases h
      exact .settled _ (by rfl) _ (by simp) (by simp) (by simp) ..
    · cases h
      exact .settled _ (by rfl) _ (by simp) (by simp) (by simp) ..
  · cases h

theorem applyMethodResult_applied (h : s.applyMethodResult c r result at' = .ok (b, t)) :
    s.Applied c r b t ∧ s.active = some r.key ∧ (s.ledger.byKey r.key).map OperationRecord.sequence = some r.sequence := by
  unfold applyMethodResult at h
  split at h
  · cases h
  rename_i hc
  obtain ⟨hcur, hact⟩ := not_or.mp hc
  refine ⟨?_, not_not.mp hact, not_not.mp hcur⟩
  split at h
  · exact applyPromptReceipt_applied h
  · exact applySetResult_applied h

theorem applied_moves (hs : (s.lane c).Sound) (hr : s.sending = some r) (h : s.Applied c r b t)
    (hact : s.active = some r.key) (hcur : (s.ledger.byKey r.key).map OperationRecord.sequence = some r.sequence) :
    Moves c s a (s.lane c) (t.rest.lane c) := by
  obtain ⟨hd, hn⟩ := sending_eq_some hs.shape hr
  have hret : (s.lane c).Retained r := by
    obtain ⟨r₀, hb, hseq⟩ := Option.map_eq_some_iff.mp hcur
    obtain ⟨-, hk, hn₀⟩ := retained_of_byKey (c := c) hs.shape hb
    rw [show r₀.sequence = r.sequence from hseq] at hn₀
    cases hn₀.symm.trans hn
    exact ⟨hk, hn⟩
  cases h with
  | settled r₁ href st hq hd' hu detail at' b =>
    have hkey : r₁.key = r.key := by rw [OperationRecord.key, href]
    have hseq : r₁.sequence = r.sequence := by rw [OperationRecord.sequence, href]
    refine .one (m := .finish r (retired r₁ st detail at')) ⟨⟨hn, href⟩, hd, hret, hact, ⟨hq, hd'⟩, hu, rfl⟩ trivial ?_
    rw [lane_rest, lane_setWake, lane_retire, hkey, hseq]
    rfl
  | accepted r₁ href hst hb hb' =>
    exact .one (m := .accept r r₁) ⟨⟨hn, href⟩, hd, hret, hact, hb, hst, hb'⟩ trivial rfl
  | unknown r₁ href hst hb => exact blur_moves hs hr href hst hb (Or.inr (Or.inr ⟨hact, hret⟩))

theorem afterSend_moves (hs : (s.lane c).Sound) (hr : s.sending = some r) (outcome : SendOutcome) (at' : String) :
    Moves c s (.sent outcome at') (s.lane c) ((s.afterSend c r outcome at').lane c) := by
  unfold afterSend
  cases outcome with
  | busy detail => exact certifiedPreSendBusy_moves hs hr detail at' (.busy detail) trivial rfl
  | disconnected detail mayHaveSent corr =>
    simp only
    split
    · rename_i hm
      exact blur_moves hs hr rfl rfl rfl (Or.inl ⟨_, at', rfl, hm⟩)
    rename_i hm
    exact certifiedPreSendBusy_moves hs hr detail at' (.disconnected detail mayHaveSent corr)
      (by simpa [SendOutcome.certified] using hm) rfl
  | failed detail => exact blur_moves hs hr rfl rfl rfl (Or.inl ⟨_, at', rfl, trivial⟩)
  | returned result =>
    simp only
    split
    · exact incoherent_moves hs hr _ at'
    · rename_i t ht
      obtain ⟨happ, hact, hcur⟩ := applyMethodResult_applied ht
      have hmoves := applied_moves (a := .sent (.returned result) at') hs hr happ hact hcur
      rw [← dispatchOne_rest]
      exact hmoves.trans (dispatchOne_moves (hmoves.sound hs) (Or.inl rfl))
    rename_i t ht
    obtain ⟨happ, hact, hcur⟩ := applyMethodResult_applied ht
    exact applied_moves hs hr happ hact hcur

theorem step_moves (hs : (s.lane c).Sound) (h : s.step c a = some t) : Moves c s a (s.lane c) (t.lane c) := by
  cases a with
  | submit request => cases h; exact submit_moves hs request
  | setModel value at' => cases h; exact admitSetter_moves hs (by simp) value at'
  | setEffort value at' => cases h; exact admitSetter_moves hs (by simp) value at'
  | withdraw epoch requestId cockpitOnly at' => cases h; exact withdraw_moves hs epoch requestId cockpitOnly at'
  | reconcile requestId epoch => cases h; exact reconcile_moves hs requestId epoch
  | reconciled i answer =>
    obtain ⟨asked, hi, rfl⟩ := Option.map_eq_some_iff.mp h
    exact reconciled_moves hs hi answer
  | resolve id kind resolution detail at' => cases h; exact resolveOperation_moves hs id kind resolution detail at'
  | observe event => cases h; exact observeEvent_moves hs event
  | install | notifySnapshotUpdated | closeAdmission => cases h; exact .refl
  | woken =>
    simp only [step] at h
    split at h
    · rename_i hw
      cases h
      exact dispatchOne_moves (s := { s with wake := false }) hs (Or.inl hw.1)
    · cases h
  | preflighted outcome at' =>
    obtain ⟨r, hr, rfl⟩ := Option.map_eq_some_iff.mp h
    exact afterPreflight_moves hs hr outcome at'
  | sent outcome at' =>
    obtain ⟨r, hr, rfl⟩ := Option.map_eq_some_iff.mp h
    exact afterSend_moves hs hr outcome at'
  | cancelDispatcher => cases h; exact .one (m := .stop) trivial trivial rfl

theorem sound_init : (init.lane c).Sound := Lane.sound_start c.bridgeEpoch

end Authority

end AgentsRemember.Harness
