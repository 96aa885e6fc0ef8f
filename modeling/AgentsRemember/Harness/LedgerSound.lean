import AgentsRemember.Harness.RoomSound

/-!
# A bounded ledger

Admission alone adds and evicts rows. No more rows than the limit are retained,
what is evicted is over and not pinned, every ordinal above the watermark has its
row, and a request id is answered by its first operation while that is retained.
-/

namespace AgentsRemember.Harness

open Lib

structure OperationRecord.Same (r r' : OperationRecord) : Prop where
  ref : r'.ref = r.ref
  source : r'.source = r.source
  payloadDigest : r'.payloadDigest = r.payloadDigest

theorem OperationRecord.Same.refl (r : OperationRecord) : r.Same r := ⟨rfl, rfl, rfl⟩

variable {r : OperationRecord}

theorem OperationRecord.Same.trans {r' r'' : OperationRecord} (h : r.Same r') (h' : r'.Same r'') : r.Same r'' :=
  ⟨h'.ref.trans h.ref, h'.source.trans h.source, h'.payloadDigest.trans h.payloadDigest⟩

namespace SubmissionLedger

structure Kept (l l' : SubmissionLedger) : Prop where
  get : ∀ k, l'.records.get? k = l.records.get? k
  count : l'.records.keys.length = l.records.keys.length
  sequence : l'.sequence = l.sequence
  floor : l'.evictedBeforeSequence = l.evictedBeforeSequence
  same : ∀ n r, l.objects n = some r → ∃ r', l'.objects n = some r' ∧ r.Same r'

/-- Every ordinal above the watermark has its row. -/
def Whole (l : SubmissionLedger) : Prop :=
  ∀ n, l.evictedBeforeSequence < n → n ≤ l.sequence → ∃ k, l.records.get? k = some n

section
variable {l l' l'' : SubmissionLedger} {r r' : OperationRecord}

theorem Kept.refl (l : SubmissionLedger) : l.Kept l := ⟨fun _ => rfl, rfl, rfl, rfl, fun _ r hr => ⟨r, hr, .refl r⟩⟩

theorem Kept.trans (h : l.Kept l') (h' : l'.Kept l'') : l.Kept l'' := by
  refine ⟨fun k => (h'.get k).trans (h.get k), h'.count.trans h.count, h'.sequence.trans h.sequence,
    h'.floor.trans h.floor, fun n r hr => ?_⟩
  obtain ⟨r', hr', hsame⟩ := h.same n r hr
  obtain ⟨r'', hr'', hsame'⟩ := h'.same n r' hr'
  exact ⟨r'', hr'', hsame.trans hsame'⟩

theorem Kept.put (hr : l.objects r.sequence = some r) (hs : r.Same r') : l.Kept (l.put r') := by
  refine ⟨fun _ => rfl, rfl, rfl, rfl, fun n r₀ hr₀ => ?_⟩
  have hseq : r'.sequence = r.sequence := congrArg ControlOperationRef.sequence hs.ref
  by_cases hn : n = r.sequence
  · subst hn
    rw [hr, Option.some.injEq] at hr₀
    subst hr₀
    exact ⟨r', by rw [SubmissionLedger.put, hseq]; exact Function.update_self .., hs⟩
  · exact ⟨r₀, by rw [SubmissionLedger.put, hseq]; exact (Function.update_of_ne hn ..).trans hr₀, .refl r₀⟩

theorem put_objects (l : SubmissionLedger) (r : OperationRecord) : (l.put r).objects r.sequence = some r :=
  Function.update_self ..

theorem Kept.touch (l : SubmissionLedger) (r : OperationRecord) : l.Kept (l.touch r) := by
  refine ⟨fun k => Dict.get?_moveToEnd _ _ k, ?_, rfl, rfl, fun _ r hr => ⟨r, hr, .refl r⟩⟩
  rw [Dict.keys, Dict.keys, List.length_map, List.length_map]
  exact Dict.length_moveToEnd _ _

/-! ## Eviction -/

structure Evicted (pinned : OperationKey → Bool) (l l' : SubmissionLedger) : Prop where
  objects : l'.objects = l.objects
  sequence : l'.sequence = l.sequence
  floor : l.evictedBeforeSequence ≤ l'.evictedBeforeSequence
  count : l'.records.keys.length ≤ l.records.keys.length
  get : ∀ k n, l'.records.get? k = some n → l.records.get? k = some n
  dropped : ∀ k n r, l.records.get? k = some n → l.objects n = some r → l'.records.get? k = some n ∨
    (r.state ∈ evictableStates ∧ pinned k = false ∧ n ≤ l'.evictedBeforeSequence)

theorem Evicted.refl (pinned : OperationKey → Bool) (l : SubmissionLedger) : Evicted pinned l l :=
  ⟨rfl, rfl, Nat.le_refl _, Nat.le_refl _, fun _ _ h => h, fun _ _ _ h _ => Or.inl h⟩

variable {pinned : OperationKey → Bool}

theorem evicted_evict (hk : l.records.get? r.key = some r.sequence)
    (hr : l.objects r.sequence = some r) (hst : r.state ∈ evictableStates) (hp : pinned r.key = false) :
    Evicted pinned l (l.evict r) := by
  refine ⟨rfl, rfl, Nat.le_max_left _ _, ?_, fun k n h => (evict_get? h).2, fun k n r₀ hn hr₀ => ?_⟩
  · rw [Dict.keys, Dict.keys, List.length_map, List.length_map]
    exact List.length_filter_le _ _
  by_cases hkey : k = r.key
  · subst hkey
    rw [hk, Option.some.injEq] at hn
    subst hn
    rw [hr, Option.some.injEq] at hr₀
    subst hr₀
    exact Or.inr ⟨hst, hp, Nat.le_max_right _ _⟩
  left
  rw [SubmissionLedger.evict, Dict.get?_erase, if_neg hkey]
  exact hn

theorem Evicted.trans (h : Evicted pinned l l') (h' : Evicted pinned l' l'') :
    Evicted pinned l l'' := by
  refine ⟨h'.objects.trans h.objects, h'.sequence.trans h.sequence, Nat.le_trans h.floor h'.floor,
    Nat.le_trans h'.count h.count, fun k n hn => h.get k n (h'.get k n hn), fun k n r hn hr => ?_⟩
  rcases h.dropped k n r hn hr with hn' | ⟨hst, hp, hle⟩
  · exact h'.dropped k n r hn' (by rw [h.objects]; exact hr)
  · exact Or.inr ⟨hst, hp, Nat.le_trans hle h'.floor⟩

theorem makeRoomIn_evicted (limit : Nat) (pinned : OperationKey → Bool) : ∀ (fuel : Nat) (l : SubmissionLedger), l.Filled →
    Evicted pinned l (makeRoomIn limit pinned fuel l).2
  | 0, l, _ => .refl pinned l
  | fuel + 1, l, hfilled => by
    rw [makeRoomIn]
    split
    · exact .refl pinned l
    cases he : l.evictable pinned with
    | none => exact .refl pinned l
    | some r =>
      obtain ⟨⟨k, hk⟩, hp, hst⟩ := evictable_eq_some he
      obtain ⟨hkey, hobject⟩ := hfilled.of_mem_rows (mem_rows.mpr ⟨k, hk⟩)
      exact (evicted_evict hkey hobject hst hp).trans (makeRoomIn_evicted limit pinned fuel _ (hfilled.evict r))

theorem Whole.evicted (h : l.Whole) (hfilled : l.Filled) (he : Evicted pinned l l') :
    l'.Whole := by
  intro n hlow hhigh
  obtain ⟨k, hk⟩ := h n (Nat.lt_of_le_of_lt he.floor hlow) (by rw [← he.sequence]; exact hhigh)
  obtain ⟨r, hr, -, -⟩ := hfilled k n hk
  rcases he.dropped k n r hk hr with hkept | ⟨-, -, hle⟩
  · exact ⟨k, hkept⟩
  · omega

theorem Whole.kept (h : l.Whole) (hk : l.Kept l') : l'.Whole := by
  intro n hlow hhigh
  obtain ⟨k, hn⟩ := h n (by rw [← hk.floor]; exact hlow) (by rw [← hk.sequence]; exact hhigh)
  exact ⟨k, (hk.get k).trans hn⟩

end

end SubmissionLedger

open SubmissionLedger

/-! ## The steps that keep the rows -/

namespace Authority

section
variable {c : Config} {s t : Authority} {r r₀ : OperationRecord}

theorem known_of_byKey (hf : s.ledger.Filled) {k : OperationKey} (h : s.ledger.byKey k = some r) :
    s.ledger.objects r.sequence = some r := (hf.of_mem_rows (mem_rows.mpr ⟨k, h⟩)).2

theorem known_of_byRequestId (hf : s.ledger.Filled) {id : String} (h : s.ledger.byRequestId id = some r) :
    s.ledger.objects r.sequence = some r := by
  obtain ⟨k, -, hk⟩ := Option.bind_eq_some_iff.mp h
  exact known_of_byKey hf hk

theorem kept_retire (hr : s.ledger.objects r₀.sequence = some r₀) (hs : r₀.Same r) (state : SubmissionLifecycleState)
    (detail : Option String) (at' : String) (consume : Bool) :
    s.ledger.Kept (s.retire c r state detail at' consume).setWake.ledger := by
  have hfirst : s.ledger.Kept (s.ledger.put (r.markTerminal state detail at')) :=
    Kept.put hr (hs.trans ⟨rfl, rfl, rfl⟩)
  have hsecond := Kept.put (put_objects s.ledger (r.markTerminal state detail at'))
    (⟨rfl, rfl, rfl⟩ : (r.markTerminal state detail at').Same
      { r.markTerminal state detail at' with bufferedCompletionSequence := none })
  exact (hfirst.trans hsecond).trans (Kept.touch _ _)

theorem kept_withdraw (hf : s.ledger.Filled) (epoch requestId : String) (cockpitOnly : Bool) (at' : String) :
    s.ledger.Kept (s.withdraw c epoch requestId cockpitOnly at').2.ledger := by
  unfold withdraw
  split
  · exact .refl _
  split
  · exact .refl _
  rename_i record hrecord
  have hknown := known_of_byRequestId hf (Option.filter_eq_some_iff.mp hrecord).1
  split
  · exact .refl _
  split
  · exact .refl _
  split
  · exact .refl _
  · exact Kept.put hknown ⟨rfl, rfl, rfl⟩

theorem kept_reconcile (requestId : String) (epoch : Option String) :
    s.ledger.Kept (s.reconcile c requestId epoch).2.ledger := by
  unfold reconcile
  split
  · exact .refl _
  split
  · exact .refl _
  split
  · exact Kept.touch _ _
  · exact .refl _

theorem kept_reconciled (hf : s.ledger.Filled) (requestId : String) (ref : ControlOperationRef)
    (answer : Except String ReconciliationResult) : s.ledger.Kept (s.reconciled c requestId ref answer).2.ledger := by
  unfold reconciled
  split
  · exact .refl _
  split
  · exact .refl _
  split
  · exact .refl _
  rename_i current hcurrent
  have hknown := known_of_byKey hf hcurrent
  dsimp only
  split
  · exact Kept.put hknown ⟨rfl, rfl, rfl⟩
  · exact kept_retire hknown (.refl _) ..
  · exact kept_retire hknown (.refl _) ..
  · exact Kept.put hknown ⟨rfl, rfl, rfl⟩

theorem kept_resolveOperation (hf : s.ledger.Filled) (id : String) (kind : ControlOperationKind)
    (resolution : OperationResolution) (detail at' : String) :
    s.ledger.Kept (s.resolveOperation c id kind resolution detail at').2.ledger := by
  unfold resolveOperation
  split
  · exact .refl _
  · rename_i record hrecord
    exact kept_retire (known_of_byKey hf (Option.filter_eq_some_iff.mp hrecord).1) (.refl _) ..

theorem kept_observeCompleted (hf : s.ledger.Filled) (event : AdapterEvent) :
    s.ledger.Kept (s.observeCompleted c event).2.ledger := by
  unfold observeCompleted
  split
  · exact .refl _
  split
  · exact .refl _
  split
  · exact .refl _
  split
  · exact .refl _
  rename_i active hactive
  obtain ⟨k, -, hk⟩ := Option.bind_eq_some_iff.mp (Option.filter_eq_some_iff.mp hactive).1
  have hknown := known_of_byKey hf hk
  split
  · split
    · exact .refl _
    · exact Kept.put hknown ⟨rfl, rfl, rfl⟩
  split
  · exact .refl _
  · exact kept_retire (s := s.log (.observed active.sequence)) hknown (.refl _) ..

theorem kept_observeEvent (hf : s.ledger.Filled) (event : AdapterEvent) :
    s.ledger.Kept (s.observeEvent c event).2.ledger := by
  unfold observeEvent
  split
  · exact .refl _
  dsimp only
  split
  · exact .refl _
  · exact kept_observeCompleted (s := { s with lastAdapterSequence := event.sequence }) hf event

theorem dispatchOne_ledger (s : Authority) : s.dispatchOne.ledger = s.ledger := by
  unfold dispatchOne
  split
  · split
    · rfl
    · split <;> rfl
  · rfl

theorem kept_afterPreflight (hr : s.ledger.objects r.sequence = some r) (outcome : PreflightOutcome) (at' : String) :
    s.ledger.Kept (s.afterPreflight c r outcome at').ledger := by
  unfold afterPreflight
  cases outcome with
  | clear =>
    dsimp only
    have hclaimed : s.ledger.Kept (s.ledger.put { r with state := .dispatching, updatedAt := at' }) :=
      Kept.put hr ⟨rfl, rfl, rfl⟩
    split
    · split
      · exact hclaimed
      · exact hclaimed.trans (Kept.put (put_objects _ _) ⟨rfl, rfl, rfl⟩)
    · rw [dispatchOne_ledger]
      exact .refl _
  | busy detail => exact Kept.put hr ⟨rfl, rfl, rfl⟩
  | disconnected detail mayHaveSent vendorCorrelationId =>
    dsimp only
    split
    · exact Kept.put hr ⟨rfl, rfl, rfl⟩
    · exact Kept.put hr ⟨rfl, rfl, rfl⟩
  | failed => exact .refl _

theorem kept_certifiedPreSendBusy (hr : s.ledger.objects r.sequence = some r) (detail at' : String) :
    s.ledger.Kept (s.certifiedPreSendBusy r detail at').ledger := by
  unfold certifiedPreSendBusy
  split
  · exact .refl _
  · exact Kept.put hr ⟨rfl, rfl, rfl⟩

theorem kept_incoherentMethodResult (hr : s.ledger.objects r.sequence = some r) (error at' : String) :
    s.ledger.Kept (s.incoherentMethodResult r error at').ledger := by
  unfold incoherentMethodResult
  split
  · exact .refl _
  · exact Kept.put hr ⟨rfl, rfl, rfl⟩

variable {at' : String} {b : Bool} {result : AdapterResult}

theorem kept_applyPromptReceipt (hr : s.ledger.objects r.sequence = some r) (h : s.applyPromptReceipt c r result at' = .ok (b, t)) : s.ledger.Kept t.ledger := by
  unfold applyPromptReceipt at h
  split at h
  · split at h
    · cases h
    dsimp only at h
    split at h
    · cases h
      exact Kept.put hr ⟨rfl, rfl, rfl⟩
    · split at h
      · cases h
        refine kept_retire hr ?_ ..
        exact ⟨rfl, rfl, rfl⟩
      · cases h
        exact Kept.put hr ⟨rfl, rfl, rfl⟩
    · split at h
      · cases h
        exact Kept.put hr ⟨rfl, rfl, rfl⟩
      cases h
      refine kept_retire hr ?_ ..
      exact ⟨rfl, rfl, rfl⟩
    · cases h
      refine kept_retire hr ?_ ..
      exact ⟨rfl, rfl, rfl⟩
    cases h
    refine kept_retire hr ?_ ..
    exact ⟨rfl, rfl, rfl⟩
  · cases h

theorem kept_applySetResult (hr : s.ledger.objects r.sequence = some r) (h : s.applySetResult c r result at' = .ok (b, t)) : s.ledger.Kept t.ledger := by
  unfold applySetResult at h
  split at h
  · split at h
    · cases h
    dsimp only at h
    split at h
    · split at h
      · cases h
        refine kept_retire hr ?_ ..
        exact ⟨rfl, rfl, rfl⟩
      · cases h
        exact Kept.put hr ⟨rfl, rfl, rfl⟩
    · cases h
      refine kept_retire hr ?_ ..
      exact ⟨rfl, rfl, rfl⟩
    cases h
    refine kept_retire hr ?_ ..
    exact ⟨rfl, rfl, rfl⟩
  · cases h

theorem kept_applyMethodResult (hr : s.ledger.objects r.sequence = some r) (h : s.applyMethodResult c r result at' = .ok (b, t)) : s.ledger.Kept t.ledger := by
  unfold applyMethodResult at h
  split at h
  · cases h
  split at h
  · exact kept_applyPromptReceipt hr h
  · exact kept_applySetResult hr h

theorem kept_afterSend (hr : s.ledger.objects r.sequence = some r) (outcome : SendOutcome) (at' : String) :
    s.ledger.Kept (s.afterSend c r outcome at').ledger := by
  unfold afterSend
  cases outcome with
  | busy detail => exact kept_certifiedPreSendBusy hr detail at'
  | disconnected detail mayHaveSent vendorCorrelationId =>
    dsimp only
    split
    · exact Kept.put hr ⟨rfl, rfl, rfl⟩
    · exact kept_certifiedPreSendBusy hr detail at'
  | failed detail => exact Kept.put hr ⟨rfl, rfl, rfl⟩
  | returned result =>
    dsimp only
    split
    · exact kept_incoherentMethodResult hr _ at'
    · rename_i t ht
      rw [dispatchOne_ledger]
      exact kept_applyMethodResult hr ht
    · rename_i t ht
      exact kept_applyMethodResult (t := t) hr ht

end

end Authority

/-! ## Every step -/

structure Stepped (c : Config) (s t : Authority) : Prop where
  bounded : s.ledger.records.keys.length ≤ c.ledgerLimit → t.ledger.records.keys.length ≤ c.ledgerLimit
  whole : s.ledger.Whole → t.ledger.Whole
  dropped : ∀ k n r, s.ledger.records.get? k = some n → s.ledger.objects n = some r → t.ledger.records.get? k = some n ∨
    (r.state ∈ evictableStates ∧ s.pinned k = false)
  sequence : s.ledger.sequence ≤ t.ledger.sequence
  same : ∀ n r, s.ledger.objects n = some r → ∃ r', t.ledger.objects n = some r' ∧ r.Same r'

namespace Authority

section
variable {c : Config} {s t : Authority} {r : OperationRecord}

theorem stepped_of_kept (h : s.ledger.Kept t.ledger) : Stepped c s t :=
  ⟨fun hb => h.count ▸ hb, fun hw => hw.kept h, fun k _ _ hn _ => Or.inl ((h.get k).trans hn), h.sequence.ge, h.same⟩

theorem stepped_of_evicted (hf : s.ledger.Filled) (h : Evicted s.pinned s.ledger t.ledger) : Stepped c s t := by
  refine ⟨fun hb => Nat.le_trans h.count hb, fun hw => hw.evicted hf h, fun k n r hn hr => ?_, h.sequence.ge,
    fun n r hr => ⟨r, by rw [h.objects]; exact hr, .refl r⟩⟩
  exact (h.dropped k n r hn hr).imp_right fun hover => ⟨hover.1, hover.2.1⟩

theorem stepped_of_enrol {l : SubmissionLedger} (hf : s.ledger.Filled) (h : Evicted s.pinned s.ledger l)
    (hold : ∀ n r, s.ledger.objects n = some r → n ≤ s.ledger.sequence) (hroom : l.records.keys.length < c.ledgerLimit)
    (hseq : r.sequence = l.sequence + 1) (hfree : l.records.get? r.key = none)
    (hl : ({ l with sequence := r.sequence }.enrol r).Kept t.ledger) : Stepped c s t := by
  have hget : ∀ k n, l.records.get? k = some n → (l.records.set r.key r.sequence).get? k = some n := by
    intro k n hk
    rw [Dict.get?_set, if_neg fun heq => by rw [← heq, hfree] at hk; cases hk]
    exact hk
  refine ⟨fun _ => ?_, fun hw => ?_, fun k n r₀ hn hr₀ => ?_, ?_, fun n r₀ hr₀ => ?_⟩
  · have hcount : (l.records.set r.key r.sequence).keys.length = l.records.keys.length + 1 := by
      rw [Dict.keys_set_of_none hfree, List.length_append, List.length_singleton]
    rw [hl.count]
    exact hcount.trans_le hroom
  · refine SubmissionLedger.Whole.kept ?_ hl
    intro n hlow hhigh
    have hhigh : n ≤ r.sequence := hhigh
    by_cases hlast : n = r.sequence
    · exact ⟨r.key, by rw [hlast]; exact Dict.get?_set_self _ _ _⟩
    · obtain ⟨k, hk⟩ := hw.evicted hf h n hlow (by omega)
      exact ⟨k, hget k n hk⟩
  · rcases h.dropped k n r₀ hn hr₀ with hkept | hover
    · exact Or.inl ((hl.get k).trans (hget k n hkept))
    · exact Or.inr ⟨hover.1, hover.2.1⟩
  · rw [hl.sequence]
    show s.ledger.sequence ≤ r.sequence
    rw [hseq, h.sequence]
    exact Nat.le_succ _
  refine hl.same n r₀ ?_
  have hne : n ≠ r.sequence := by
    have := hold n r₀ hr₀
    rw [hseq, h.sequence]
    omega
  show Function.update l.objects r.sequence (some r) n = some r₀
  rw [Function.update_of_ne hne, h.objects]
  exact hr₀

theorem hasAdmissionRoom_evicted (hf : s.ledger.Filled) :
    Evicted s.pinned s.ledger (s.hasAdmissionRoom c).2.ledger ∧
      ((s.hasAdmissionRoom c).1 = true → (s.hasAdmissionRoom c).2.ledger.records.keys.length < c.ledgerLimit) := by
  unfold hasAdmissionRoom
  split
  · exact ⟨makeRoomIn_evicted _ _ _ _ hf, makeRoom_fits⟩
  · exact ⟨.refl _ _, by simp⟩

theorem ordinal_le (hs : (s.lane c).Shape) (n : Nat) (r : OperationRecord) (hr : s.ledger.objects n = some r) :
    n ≤ s.ledger.sequence := (hs.ordinal n r hr).2

theorem admitPrompt_kept (request : PromptRequest) (digest : String) {r : OperationRecord}
    (he : s.enrolPrompt c request digest = (r, { s with ledger := { s.ledger with sequence := r.sequence }.enrol r })) :
    ({ s.ledger with sequence := r.sequence }.enrol r).Kept (s.admitPrompt c request digest).2.ledger := by
  unfold admitPrompt
  rw [he]
  dsimp only
  split
  · exact Kept.put (put_objects _ _) ⟨rfl, rfl, rfl⟩
  · split <;> exact .refl _

variable {prior : OperationRecord} {request : PromptRequest}

theorem submit_prior
    (h : s.ledger.byRequestId request.requestId = some prior) :
    (s.submit c request).2 = s ∨ (s.submit c request).2 = { s with ledger := s.ledger.touch prior } := by
  unfold submit
  split
  · exact Or.inl rfl
  split
  · exact Or.inl rfl
  dsimp only
  unfold preAdmissionReceipt
  rw [h]
  dsimp only
  by_cases hother : prior.source ≠ some request.source ∨
      prior.payloadDigest ≠ some (c.payloadDigest request.text request.assets)
  · rw [if_pos hother]
    exact Or.inl rfl
  · rw [if_neg hother]
    exact Or.inr rfl

theorem submit_conflict
    (h : s.ledger.byRequestId request.requestId = some prior)
    (hother : prior.source ≠ some request.source ∨
      prior.payloadDigest ≠ some (c.payloadDigest request.text request.assets)) :
    (s.submit c request).2 = s ∧ ∃ e, (s.submit c request).1 = .error e := by
  unfold submit
  split
  · exact ⟨rfl, _, rfl⟩
  split
  · exact ⟨rfl, _, rfl⟩
  dsimp only
  unfold preAdmissionReceipt
  rw [h]
  dsimp only
  rw [if_pos hother]
  exact ⟨rfl, _, rfl⟩

theorem kept_of_prior
    (h : s.ledger.byRequestId request.requestId = some prior) : s.ledger.Kept (s.submit c request).2.ledger := by
  rcases submit_prior (c := c) h with heq | heq
  · rw [heq]
    exact .refl _
  · rw [heq]
    exact Kept.touch _ _

theorem stepped_submit (hs : (s.lane c).Sound) (request : PromptRequest) : Stepped c s (s.submit c request).2 := by
  have hf := filled_of_shape hs.shape
  cases hprior : s.ledger.byRequestId request.requestId with
  | some prior => exact stepped_of_kept (kept_of_prior hprior)
  | none =>
    unfold submit
    split
    · exact stepped_of_kept (.refl _)
    split
    · exact stepped_of_kept (.refl _)
    dsimp only
    rw [preAdmissionReceipt, hprior]
    dsimp only
    obtain ⟨hevicted, hroom⟩ := hasAdmissionRoom_evicted (c := c) hf
    rcases hresult : s.hasAdmissionRoom c with ⟨room, s'⟩
    rw [hresult] at hevicted hroom
    cases room with
    | false => exact stepped_of_evicted hf hevicted
    | true =>
      obtain ⟨r, he, href, -, -⟩ := enrolPrompt_spec (c := c) (s := s') request
        (c.payloadDigest request.text request.assets)
      have hseq : r.sequence = s'.ledger.sequence + 1 := by rw [OperationRecord.sequence, href]
      have hfree : s'.ledger.records.get? r.key = none := by
        rw [OperationRecord.key, href]
        cases hk : s'.ledger.records.get? (.prompt, request.requestId) with
        | none => exact hk
        | some n =>
          have := hevicted.get _ _ hk
          rw [unused_of_byRequestId hs.shape hprior] at this
          cases this
      exact stepped_of_enrol hf hevicted (ordinal_le hs.shape) (hroom rfl) hseq hfree (admitPrompt_kept _ _ he)

theorem stepped_admitSetter (hs : (s.lane c).Sound) {kind : ControlOperationKind} (hk : kind ≠ .prompt)
    (value at' : String) : Stepped c s (s.admitSetter c kind value at').2 := by
  have hf := filled_of_shape hs.shape
  unfold admitSetter
  split
  · exact stepped_of_kept (.refl _)
  split
  · exact stepped_of_kept (.refl _)
  obtain ⟨hevicted, hroom⟩ := hasAdmissionRoom_evicted (c := c) hf
  rcases hresult : s.hasAdmissionRoom c with ⟨room, s'⟩
  rw [hresult] at hevicted hroom
  cases room with
  | false => exact stepped_of_evicted hf hevicted
  | true =>
    obtain ⟨r, he, href, -, -⟩ := enrolSetter_spec (c := c) (s := s') kind value at'
    have hseq : r.sequence = s'.ledger.sequence + 1 := by rw [OperationRecord.sequence, href]
    have hfree : s'.ledger.records.get? r.key = none := by
      rw [OperationRecord.key, href]
      cases hget : s'.ledger.records.get? (kind, ordinalId c.bridgeEpoch (s'.ledger.sequence + 1) kind) with
      | none => exact hget
      | some n =>
        have hold := hevicted.get _ _ hget
        rw [hevicted.sequence, setter_unused hs.shape hk] at hold
        cases hold
    refine stepped_of_enrol hf hevicted (ordinal_le hs.shape) (hroom rfl) hseq hfree ?_
    dsimp only
    rw [he]
    exact .refl _

theorem stepped_of_step (hs : (s.lane c).Sound) {a : AuthorityAction} (h : s.step c a = some t) : Stepped c s t := by
  have hf := filled_of_shape hs.shape
  cases a with
  | submit request =>
    cases h
    exact stepped_submit hs request
  | setModel value at' =>
    cases h
    exact stepped_admitSetter hs (by simp) value at'
  | setEffort value at' =>
    cases h
    exact stepped_admitSetter hs (by simp) value at'
  | withdraw epoch requestId cockpitOnly at' =>
    cases h
    exact stepped_of_kept (kept_withdraw hf epoch requestId cockpitOnly at')
  | reconcile requestId epoch =>
    cases h
    exact stepped_of_kept (kept_reconcile requestId epoch)
  | reconciled i answer =>
    obtain ⟨asked, -, rfl⟩ := Option.map_eq_some_iff.mp h
    exact stepped_of_kept (kept_reconciled (s := { s with reconciling := s.reconciling.eraseIdx i }) hf ..)
  | resolve id kind resolution detail at' =>
    cases h
    exact stepped_of_kept (kept_resolveOperation hf id kind resolution detail at')
  | observe event =>
    cases h
    exact stepped_of_kept (kept_observeEvent hf event)
  | install | notifySnapshotUpdated | closeAdmission | cancelDispatcher =>
    cases h
    exact stepped_of_kept (.refl _)
  | woken =>
    rw [step] at h
    split at h
    · cases h
      refine stepped_of_kept ?_
      rw [dispatchOne_ledger]
      exact .refl _
    · cases h
  | preflighted outcome at' =>
    obtain ⟨r, hr, rfl⟩ := Option.map_eq_some_iff.mp h
    exact stepped_of_kept (kept_afterPreflight (preflighting_eq_some hs.shape hr).2 outcome at')
  | sent outcome at' =>
    obtain ⟨r, hr, rfl⟩ := Option.map_eq_some_iff.mp h
    exact stepped_of_kept (kept_afterSend (sending_eq_some hs.shape hr).2 outcome at')

/-! ## Runs -/

structure Later (s t : Authority) (r : OperationRecord) : Prop where
  sequence : s.ledger.sequence ≤ t.ledger.sequence
  same : ∃ r', t.ledger.objects r.sequence = some r' ∧ r.Same r'

theorem Later.step {u : Authority} (h : s.Later t r) (hs : Stepped c t u) : s.Later u r := by
  obtain ⟨r', hr', hsame⟩ := h.same
  obtain ⟨r'', hr'', hsame'⟩ := hs.same _ r' hr'
  exact ⟨Nat.le_trans h.sequence hs.sequence, r'', hr'', hsame.trans hsame'⟩

theorem sound_of_reachable (h : Reachable (authoritySystem c) always s) : (s.lane c).Sound := by
  have hstep : ∀ s a t, (lane c s).Sound → always s a → (authoritySystem c).step s a = some t → (lane c t).Sound :=
    fun _ _ _ hs _ ht => (step_moves hs ht).sound hs
  exact h.invariant (I := fun s => (s.lane c).Sound) sound_init hstep

theorem whole_of_reachable (h : Reachable (authoritySystem c) always s) :
    s.ledger.records.keys.length ≤ c.ledgerLimit ∧ s.ledger.Whole := by
  have hall : (s.lane c).Sound ∧ s.ledger.records.keys.length ≤ c.ledgerLimit ∧ s.ledger.Whole := by
    refine Reachable.invariant (I := fun s => (lane c s).Sound ∧ s.ledger.records.keys.length ≤ c.ledgerLimit ∧ s.ledger.Whole)
      ⟨sound_init, Nat.zero_le _, fun n hlow hhigh => ?_⟩ ?_ h
    · have hhigh : n ≤ 0 := hhigh
      omega
    intro s a t hs _ ht
    have hstepped := stepped_of_step hs.1 ht
    exact ⟨(step_moves hs.1 ht).sound hs.1, hstepped.bounded hs.2.1, hstepped.whole hs.2.2⟩
  exact hall.2

theorem found_of_later (h : Reachable (authoritySystem c) always t) (hl : s.Later t r)
    (hr : r.sequence ≤ s.ledger.sequence) (hfloor : t.ledger.evictedBeforeSequence < r.sequence) {id : String}
    (hkey : r.key = (.prompt, id)) : ∃ r', t.ledger.byRequestId id = some r' ∧ r.Same r' := by
  have hshape := (sound_of_reachable h).shape
  obtain ⟨r', hr', hsame⟩ := hl.same
  obtain ⟨k, hk⟩ := (whole_of_reachable h).2 r.sequence hfloor (Nat.le_trans hr hl.sequence)
  obtain ⟨r₀, hr₀, hkey₀, -⟩ := filled_of_shape hshape k r.sequence hk
  rw [hr', Option.some.injEq] at hr₀
  subst hr₀
  have hid : k = (.prompt, id) := by
    rw [← hkey₀, ← hkey, OperationRecord.key, OperationRecord.key, hsame.ref]
  subst hid
  have hindex : t.ledger.promptIds.get? id = some (.prompt, id) := hshape.indexed id _ hk
  refine ⟨r', ?_, hsame⟩
  rw [SubmissionLedger.byRequestId, hindex, Option.bind_some]
  exact byKey_eq_some.mpr ⟨_, hk, hr'⟩

end

end Authority

/-! ## The ledger of every run -/

/-- No second operation under the request id: the first one's rows and ordinals stay, and what conflicts is refused. -/
structure NoSecond (c : Config) (s : Authority) (first : OperationRecord) (request : PromptRequest) : Prop where
  sequence : (s.submit c request).2.ledger.sequence = s.ledger.sequence
  rows : ∀ k, (s.submit c request).2.ledger.byKey k = s.ledger.byKey k
  timeline : (s.submit c request).2.timeline = s.timeline
  refused : first.source ≠ some request.source ∨
      first.payloadDigest ≠ some (c.payloadDigest request.text request.assets) →
    (s.submit c request).2 = s ∧ ∃ e, (s.submit c request).1 = .error e

theorem noSecond_of_found {c : Config} {s : Authority} {first : OperationRecord} {request : PromptRequest}
    (h : s.ledger.byRequestId request.requestId = some r) (hsame : first.Same r) : NoSecond c s first request := by
  have hother := Authority.submit_conflict (c := c) h
  rw [hsame.source, hsame.payloadDigest] at hother
  rcases Authority.submit_prior (c := c) h with heq | heq
  · exact ⟨by rw [heq], fun _ => by rw [heq], by rw [heq], hother⟩
  refine ⟨by rw [heq]; rfl, fun k => ?_, by rw [heq], hother⟩
  rw [heq]
  show (Dict.get? (s.ledger.records.moveToEnd r.key) k).bind s.ledger.objects = s.ledger.byKey k
  rw [Dict.get?_moveToEnd]
  rfl

structure LedgerBounded (c : Config) : Prop where
  bounded : ∀ s, Reachable (authoritySystem c) always s → s.ledger.records.keys.length ≤ c.ledgerLimit
  evicted : ∀ s a t, Reachable (authoritySystem c) always s → s.step c a = some t →
    ∀ r, s.ledger.byKey r.key = some r → t.ledger.records.get? r.key = some r.sequence ∨
      (r.state ∈ evictableStates ∧ s.pinned r.key = false)
  retained : ∀ s, Reachable (authoritySystem c) always s →
    ∀ n, s.ledger.evictedBeforeSequence < n → n ≤ s.ledger.sequence → ∃ r, s.ledger.byKey r.key = some r ∧ r.sequence = n
  room : ∀ s, Reachable (authoritySystem c) Authority.FindsSent s → s.ledger.liveCount s.active < c.timelineLimit →
    (s.hasAdmissionRoom c).1 = true
  admitted : ∀ s request, Reachable (authoritySystem c) Authority.FindsSent s →
    s.ledger.liveCount s.active < c.timelineLimit → s.accepting = true →
    c.requireEpoch request.expectedBridgeEpoch = .ok () → s.ledger.byRequestId request.requestId = none →
    (s.submit c request).2.ledger.records.get? (.prompt, request.requestId) = some (s.ledger.sequence + 1)
  once : ∀ s t r request, Reachable (authoritySystem c) always s → Steps (authoritySystem c) always s t →
    s.ledger.byKey r.key = some r → r.key = (.prompt, request.requestId) →
    t.ledger.evictedBeforeSequence < r.sequence → NoSecond c t r request

section
variable {c : Config} {s : Authority}

theorem admitted_of_room {request : PromptRequest} (hf : s.ledger.Filled) (hroom : (s.hasAdmissionRoom c).1 = true)
    (haccepting : s.accepting = true) (hepoch : c.requireEpoch request.expectedBridgeEpoch = .ok ())
    (hnew : s.ledger.byRequestId request.requestId = none) :
    (s.submit c request).2.ledger.records.get? (.prompt, request.requestId) = some (s.ledger.sequence + 1) := by
  obtain ⟨hevicted, -⟩ := Authority.hasAdmissionRoom_evicted (c := c) hf
  rcases hresult : s.hasAdmissionRoom c with ⟨room, s'⟩
  rw [hresult] at hevicted hroom
  cases hroom
  obtain ⟨r, he, href, -, -⟩ := Authority.enrolPrompt_spec (c := c) (s := s') request
    (c.payloadDigest request.text request.assets)
  have hkept := Authority.admitPrompt_kept request (c.payloadDigest request.text request.assets) he
  have hkey : r.key = (.prompt, request.requestId) := by rw [OperationRecord.key, href]; rfl
  have hseq : r.sequence = s.ledger.sequence + 1 := by
    rw [OperationRecord.sequence, href, ← hevicted.sequence]
  rw [Authority.submit, if_neg (by simp [haccepting]), hepoch]
  dsimp only
  rw [Authority.preAdmissionReceipt, hnew]
  dsimp only
  rw [hresult]
  dsimp only
  rw [hkept.get, ← hkey, ← hseq]
  exact Dict.get?_set_self _ _ _

end

def oneRowConfig : Config where
  bridgeEpoch := "epoch-1"
  timelineLimit := 1
  ledgerLimit := 1
  assetSubmitCapable := false
  payloadDigest := fun text _ => text
  positive := Nat.one_pos

def promptOf (requestId : String) (named : requestId ≠ "") : PromptRequest :=
  { requestId := requestId
    source := .cockpit
    text := "hello"
    submittedAt := "2026-08-05T10:00:00+00:00"
    named := named }

theorem named_first : "request-1" ≠ "" := by decide

def firstPrompt : PromptRequest := promptOf "request-1" named_first

def secondPrompt : PromptRequest := promptOf "request-2" (by decide)

end AgentsRemember.Harness
