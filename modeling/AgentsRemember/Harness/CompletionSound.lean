import AgentsRemember.Harness.FinalSound

/-!
# No completion is lost and none is reused

An operation whose exact completion was observed awaits its acceptance as the
active one or is settled and released, and a queued operation carries no
completion, in every run where no certified pre-send busy outcome and no accepted
reconciliation finds a buffered completion. The requeue keeps the buffer, and an
acceptance by reconciliation does not drain it.
-/

namespace AgentsRemember.Harness

open Lib

/-! ## On the lane -/

namespace Lane

def Observed (v : Lane) (n : Nat) : Prop := .observed n ∈ v.history

def Drained (v : Lane) : Move → Prop
  | .requeue r _ => r.bufferedCompletionSequence = none
  | .adopt _ r _ => v.active = some r.key → r.bufferedCompletionSequence = none
  | _ => True

structure Completing (v : Lane) : Prop where
  awaiting : ∀ n r, v.record n = some r → v.byKey r.key = some n → v.active = some r.key → v.Observed n →
    (r.state = .dispatching ∨ r.state = .unknown) ∧ r.bufferedCompletionSequence ≠ none
  kept : ∀ n, v.Observed n → v.Settled n ∨ ∃ k, v.active = some k ∧ v.byKey k = some n
  released : ∀ n k, v.Observed n → v.Settled n → v.active = some k → v.byKey k ≠ some n
  waiting : ∀ n r, v.record n = some r → r.state = .queued → ¬ v.Observed n ∧ r.bufferedCompletionSequence = none
  aimed : ∀ n r, v.record n = some r → v.dispatcher = .preflight n → ∀ i, v.byKey r.key = some i → ¬ v.Observed i
  since : ∀ n r, v.record n = some r → r.bufferedCompletionSequence ≠ none →
    OccursSince (· = .sent n) (· = .observed n) v.history

section
variable {v w : Lane} {r r' : OperationRecord} {m : Move} {e : Event} {n : Nat}

theorem Completing.congr (h : v.Completing) (hr : w.record = v.record) (hk : w.byKey = v.byKey)
    (ha : w.active = v.active) (hd : w.dispatcher = v.dispatcher) (hh : w.history = v.history) : w.Completing := by
  obtain ⟨h1, h2, h3, h4, h5, h6⟩ := h
  unfold Settled Observed at *
  constructor <;> simp only [Settled, Observed, hr, hk, ha, hd, hh] <;> assumption

variable {d : Dispatcher}

theorem Completing.goto (h : v.Completing) (hd : ∀ n, d ≠ .preflight n) : (v.goto d).Completing :=
  { h with aimed := fun n _ _ hn => absurd hn (hd n) }

theorem Completing.put (h : v.Completing) (hw : v.Writes r r')
    (hb : r'.bufferedCompletionSequence = r.bufferedCompletionSequence) (hq : r'.state = .queued → r.state = .queued)
    (ha : v.byKey r.key = some r.sequence → v.active = some r.key → v.Observed r.sequence →
      r'.state = .dispatching ∨ r'.state = .unknown) : (v.put r').Completing := by
  refine ⟨?_, h.kept, h.released, ?_, ?_, ?_⟩
  · apply forall_put h.awaiting
    rw [hw.key, hw.seq, hb]
    exact fun hk hact ho => ⟨ha hk hact ho, (h.awaiting _ r hw.known hk hact ho).2⟩
  · apply forall_put h.waiting
    rw [hw.seq, hb]
    exact fun hst => h.waiting _ r hw.known (hq hst)
  · apply forall_put h.aimed
    rw [hw.seq, hw.key]
    exact h.aimed _ r hw.known
  apply forall_put h.since
  rw [hw.seq, hb]
  exact h.since _ r hw.known

theorem Completing.retire (h : v.Completing) (hv : v.Sound) (hw : v.Writes r r') (hr : v.Retained r) (hp : r'.past)
    (hb : r'.bufferedCompletionSequence = none) {es : List Event} (st : SubmissionLifecycleState)
    (hes : es = [.settled r.sequence st] ∨
      es = [.observed r.sequence, .settled r.sequence st] ∧ v.active = some r.key ∧ r.state ≠ .queued) :
    Completing { (v.put r').release r.key with history := v.history ++ es } := by
  have hobs : ∀ n, .observed n ∈ v.history ++ es → v.Observed n ∨
      n = r.sequence ∧ v.active = some r.key ∧ r.state ≠ .queued := by
    intro n hn
    rcases List.mem_append.mp hn with hn | hn
    · exact Or.inl hn
    rcases hes with rfl | ⟨rfl, ha⟩
    · simp at hn
    · exact Or.inr ⟨by simpa using hn, ha⟩
  have hset : ∀ n st', .settled n st' ∈ v.history ++ es → v.Settled n ∨ n = r.sequence := by
    intro n st' hn
    rcases List.mem_append.mp hn with hn | hn
    · exact Or.inl ⟨st', hn⟩
    rcases hes with rfl | ⟨rfl, -⟩
    · exact Or.inr (by simp at hn; exact hn.1)
    · exact Or.inr (by simp at hn; exact hn.1)
  have hmine : Event.settled r.sequence st ∈ v.history ++ es := by
    rcases hes with rfl | ⟨rfl, -⟩ <;> simp
  have hcalls : ∀ n, ∀ e ∈ es, e ≠ .sent n := by
    rcases hes with rfl | ⟨rfl, -⟩ <;> simp
  refine ⟨?_, ?_, ?_, ?_, ?_, ?_⟩
  · refine forall_put (fun n r₀ hn hk ha ho => ?_) fun _ ha => ?_
    · obtain ⟨ha, hne⟩ := release_active ha
      rcases hobs n ho with ho | ⟨rfl, ha', -⟩
      · exact h.awaiting n r₀ hn hk ha ho
      · exact absurd (Option.some.inj (ha.symm.trans ha')) hne
    · exact absurd hw.key (release_active ha).2
  · intro n hn
    rcases hobs n hn with ho | ⟨rfl, -⟩
    · rcases h.kept n ho with ⟨st', hs⟩ | ⟨k, ha, hk⟩
      · exact Or.inl ⟨st', List.mem_append_left _ hs⟩
      by_cases hkr : k = r.key
      · subst hkr
        rw [hr.1] at hk
        cases hk
        exact Or.inl ⟨st, hmine⟩
      · refine Or.inr ⟨k, ?_, hk⟩
        simp [Lane.release, unlist, Lane.put, ha, hkr]
    · exact Or.inl ⟨st, hmine⟩
  · intro n k ho hex ha hk
    obtain ⟨st', hs⟩ := hex
    obtain ⟨ha, hne⟩ := release_active ha
    have hseq : n ≠ r.sequence := by
      intro heq
      subst heq
      exact hne (hv.shape.retained hk hw.known).1.symm
    exact h.released n k ((hobs n ho).resolve_right fun hn => hseq hn.1) ((hset n st' hs).resolve_right hseq) ha hk
  · refine forall_put (fun n r₀ hn hq => ?_) fun hq => absurd hq hp.1
    obtain ⟨ho, hb₀⟩ := h.waiting n r₀ hn hq
    refine ⟨fun ho' => ?_, hb₀⟩
    rcases hobs n ho' with ho' | ⟨rfl, -, hne⟩
    · exact ho ho'
    · cases hn.symm.trans hw.known
      exact hne hq
  · have haimed : ∀ n k, v.dispatcher = .preflight n → (∀ i, v.byKey k = some i → ¬ v.Observed i) →
        ∀ i, v.byKey k = some i → .observed i ∉ v.history ++ es := by
      intro n k hd h₀ i hk ho
      rcases hobs i ho with ho | ⟨-, ha, -⟩
      · exact h₀ i hk ho
      · rw [hv.queue.free n hd] at ha
        cases ha
    refine forall_put (fun n r₀ hn hd => haimed n _ hd (h.aimed n r₀ hn hd)) fun hd => ?_
    rw [hw.seq] at hd
    rw [hw.key]
    exact haimed _ _ hd (h.aimed _ r hw.known hd)
  · refine forall_put (fun n r₀ hn hb₀ => (h.since n r₀ hn hb₀).append fun e he => ?_) fun hb₀ => absurd hb hb₀
    exact hcalls n e he

theorem Completing.enter (h : v.Completing) (hv : v.Sound) (hf : v.Fresh r) : (v.enter r).Completing := by
  have hnew : ¬ v.Observed r.sequence := by
    intro ho
    have : r.sequence ≤ v.sequence := hv.traced.known _ ho
    have := hf.next
    omega
  have hkey : ∀ k n, (v.enter r).byKey k = some n → v.Observed n → v.byKey k = some n := by
    intro k n hk ho
    by_cases hkr : k = r.key
    · subst hkr
      rw [enter_byKey_self] at hk
      cases hk
      exact absurd ho hnew
    · rwa [enter_byKey_ne hkr] at hk
  refine ⟨?_, ?_, ?_, ?_, ?_, ?_⟩
  · exact forall_put (fun n r₀ hn hk ha ho => h.awaiting n r₀ hn (hkey _ n hk ho) ha ho) fun _ _ ho => absurd ho hnew
  · exact fun n ho => (h.kept n ho).imp_right fun ⟨k, ha, hk⟩ => ⟨k, ha, hf.keeps hk⟩
  · exact fun n k ho hs ha hk => h.released n k ho hs ha (hkey k n hk ho)
  · exact forall_put h.waiting fun _ => ⟨hnew, hf.unbuffered⟩
  · refine forall_put (fun n r₀ hn hd i hk ho => h.aimed n r₀ hn hd i (hkey _ i hk ho) ho) fun _ i hk ho => ?_
    rw [enter_byKey_self] at hk
    cases hk
    exact hnew ho
  · exact forall_put h.since fun hb => absurd hf.unbuffered hb

theorem Completing.log_settled (h : v.Completing) {st : SubmissionLifecycleState} (ho : ¬ v.Observed n) :
    (v.log (.settled n st)).Completing := by
  have hobs : ∀ i, (v.log (.settled n st)).Observed i → v.Observed i := by
    intro i hi
    rcases List.mem_append.mp hi with hi | hi
    · exact hi
    · simp at hi
  refine ⟨fun i r hn hk ha hi => h.awaiting i r hn hk ha (hobs i hi), fun i hi => ?_, fun i k hi hs => ?_,
    fun i r hn hq => ?_, fun i r hn hd j hk hj => h.aimed i r hn hd j hk (hobs j hj),
    fun i r hn hb => (h.since i r hn hb).append (by simp)⟩
  · exact (h.kept i (hobs i hi)).imp_left fun hs => settled_log.mpr (Or.inl hs)
  · rcases settled_log.mp hs with hs | ⟨st', he⟩
    · exact h.released i k (hobs i hi) hs
    · cases he
      exact absurd (hobs _ hi) ho
  · exact ⟨fun hi => (h.waiting i r hn hq).1 (hobs i hi), (h.waiting i r hn hq).2⟩

theorem Completing.log_call (h : v.Completing) (ho : ∀ n, e ≠ .observed n) (hs : ∀ n st, e ≠ .settled n st)
    (hcall : ∀ n r, v.record n = some r → r.bufferedCompletionSequence ≠ none → e ≠ .sent n) : (v.log e).Completing := by
  have hobs : ∀ n, (v.log e).Observed n → v.Observed n := fun n hn =>
    (List.mem_append.mp hn).resolve_right fun he => ho n (List.mem_singleton.mp he).symm
  have hset : ∀ n, (v.log e).Settled n → v.Settled n := fun n hn =>
    (settled_log.mp hn).resolve_right fun ⟨st, he⟩ => hs n st he
  refine ⟨fun n r hn hk ha hi => h.awaiting n r hn hk ha (hobs n hi), fun n hi => ?_,
    fun n k hi hs => h.released n k (hobs n hi) (hset n hs), fun n r hn hq => ?_,
    fun n r hn hd j hk hj => h.aimed n r hn hd j hk (hobs j hj), fun n r hn hb => ?_⟩
  · exact (h.kept n (hobs n hi)).imp_left fun hs => settled_log.mpr (Or.inl hs)
  · exact (h.waiting n r hn hq).imp_left fun hno hi => hno (hobs n hi)
  refine (h.since n r hn hb).append fun e' he => ?_
  rw [List.mem_singleton.mp he]
  exact hcall n r hn hb

theorem Completing.activate (h : v.Completing) (hw : v.Writes r r') (hact : v.active = none)
    (ho : ∀ i, v.byKey r.key = some i → ¬ v.Observed i)
    (hb : r'.bufferedCompletionSequence = r.bufferedCompletionSequence) (hq : r'.state ≠ .queued)
    (hd : ∀ n, d ≠ .preflight n) : (((v.put r').setActive (some r.key)).goto d).Completing := by
  have hput := h.put hw hb (fun hq' => absurd hq' hq) fun _ ha => by simp [hact] at ha
  refine ⟨fun n r₀ _ hk ha hobs => ?_, fun n hobs => ?_, fun n k hobs _ ha hk => ?_, hput.waiting,
    fun n _ _ hn => absurd hn (hd n), hput.since⟩
  · have hkey : r.key = r₀.key := Option.some.inj ha
    exact absurd hobs (ho n (hkey ▸ hk))
  · refine Or.inl ((h.kept n hobs).resolve_right ?_)
    intro hex
    obtain ⟨k, ha, -⟩ := hex
    rw [hact] at ha
    cases ha
  · cases ha
    exact ho n hk hobs

theorem Completing.drop (h : v.Completing) (hact : v.active ≠ some r.key) : (v.drop r).Completing := by
  have hkey : ∀ k n, (v.drop r).byKey k = some n → v.byKey k = some n := by
    intro k n hk
    by_cases hkr : k = r.key
    · subst hkr
      rw [drop_byKey_self] at hk
      cases hk
    · rwa [drop_byKey_ne hkr] at hk
  refine ⟨fun n r₀ hn hk => h.awaiting n r₀ hn (hkey _ n hk), fun n ho => ?_,
    fun n k ho hs ha hk => h.released n k ho hs ha (hkey k n hk), h.waiting,
    fun n r₀ hn hd i hk => h.aimed n r₀ hn hd i (hkey _ i hk), h.since⟩
  refine (h.kept n ho).imp_right fun ⟨k, ha, hk⟩ => ⟨k, ha, (drop_byKey_ne ?_).trans hk⟩
  intro heq
  subst heq
  exact hact ha

theorem Completing.observe (h : v.Completing) (hv : v.Sound) (hm : v.enabled (.observe r r')) :
    (v.effect (.observe r r')).Completing := by
  obtain ⟨hw, hr, hact, hd, hst, hb⟩ := hm
  have hopen := hv.open_of_dispatching hw.known hd
  have hobs : ∀ n, .observed n ∈ v.history ++ [.observed r.sequence] → v.Observed n ∨ n = r.sequence := by
    intro n hn
    rcases List.mem_append.mp hn with hn | hn
    · exact Or.inl hn
    · exact Or.inr (by simpa using hn)
  have hset : ∀ n st, .settled n st ∈ v.history ++ [.observed r.sequence] → .settled n st ∈ v.history := by
    intro n st hn
    rcases List.mem_append.mp hn with hn | hn
    · exact hn
    · simp at hn
  refine ⟨?_, ?_, ?_, ?_, ?_, ?_⟩
  · intro n r₀ hn hk ha ho
    rw [show (v.effect (.observe r r')).record = (v.put r').record from rfl, put_record] at hn
    split at hn
    · cases hn
      exact ⟨Or.inl hst, hb⟩
    · rename_i hne
      exact h.awaiting n r₀ hn hk ha ((hobs n ho).resolve_right fun he => hne (by rw [he, hw.seq]))
  · intro n hn
    rcases hobs n hn with ho | rfl
    · exact (h.kept n ho).imp_left fun ⟨st, hs⟩ => ⟨st, List.mem_append_left _ hs⟩
    · exact Or.inr ⟨r.key, hact, hr.1⟩
  · intro n k ho hex ha hk
    obtain ⟨st, hs⟩ := hex
    have hs := hset n st hs
    rcases hobs n ho with ho | rfl
    · exact h.released n k ho ⟨st, hs⟩ ha hk
    · exact hopen ⟨st, hs⟩
  · refine forall_put (fun n r₀ hn hq => ?_) fun hq => by rw [hst] at hq; cases hq
    obtain ⟨ho, hb₀⟩ := h.waiting n r₀ hn hq
    refine ⟨fun ho' => ?_, hb₀⟩
    rcases hobs n ho' with ho' | rfl
    · exact ho ho'
    cases hn.symm.trans hw.known
    rw [hd] at hq
    cases hq
  · intro n _ _ hn
    rw [show v.active = none from hv.queue.free n hn] at hact
    cases hact
  have hcalled := hv.traced.called _ r hw.known hd
  refine forall_put (fun n r₀ hn hb₀ => (h.since n r₀ hn hb₀).append (by simp)) fun _ => ?_
  rw [hw.seq]
  exact occursSince_concat ⟨_, hcalled, rfl⟩ (by simp) rfl

theorem Completing.requeue (h : v.Completing) (hv : v.Sound) (hm : v.enabled (.requeue r r'))
    (hok : v.Drained (.requeue r r')) : (v.effect (.requeue r r')).Completing := by
  obtain ⟨hw, -, ha, hd, hst, hb⟩ := hm
  obtain ⟨-, hk, -⟩ := hv.queue.dispatching _ r hw.known hd
  have hno : ¬ v.Observed r.sequence := fun ho => (h.awaiting _ r hw.known hk ha ho).2 hok
  have hb₀ : r'.bufferedCompletionSequence = none := hb.trans hok
  have hback : (((v.put r').setActive none).goto .waiting).Completing := by
    refine ⟨fun n r₀ _ _ ha₀ => ?_, fun n ho => ?_, fun n k _ _ ha₀ => ?_, ?_, fun n _ _ hn => ?_, ?_⟩
    · cases ha₀
    · refine Or.inl ((h.kept n ho).resolve_right ?_)
      intro hex
      obtain ⟨k, ha', hk'⟩ := hex
      cases ha.symm.trans ha'
      cases hk.symm.trans hk'
      exact hno ho
    · cases ha₀
    · exact forall_put h.waiting fun _ => ⟨by rwa [hw.seq], hb₀⟩
    · cases hn
    · exact forall_put h.since fun hb' => absurd hb₀ hb'
  exact (hback.log_call (e := .unsent r.sequence) (by simp) (by simp) (by simp)).congr rfl rfl rfl rfl rfl

theorem Completing.effect (hv : v.Sound) (h : v.Completing) (hm : v.enabled m) (hok : v.Drained m) :
    (v.effect m).Completing := by
  cases m with
  | enrol r => exact (h.enter hv hm.1).congr rfl rfl rfl rfl rfl
  | refuse r =>
    refine (h.enter hv hm.1).log_settled fun ho => ?_
    have : r.sequence ≤ v.sequence := hv.traced.known _ ho
    have := hm.1.next
    omega
  | evict r => exact h.drop hm.2.2.1
  | withdraw r r' =>
    obtain ⟨hw, hr, hq, hst, hb⟩ := hm
    have hno := (h.waiting _ r hw.known hq).1
    exact ((h.put hw hb (by simp [hst]) fun _ _ ho => absurd ho hno).log_settled hno).congr rfl rfl rfl rfl rfl
  | ask | forget => exact h.congr rfl rfl rfl rfl rfl
  | idle | stop => exact h.goto (by simp)
  | adopt i r r' =>
    obtain ⟨hw, -, -, hst, hb⟩ := hm
    refine (h.put hw hb (by simp [hst]) fun hk ha ho => ?_).congr rfl rfl rfl rfl rfl
    exact absurd (hok ha) (h.awaiting _ r hw.known hk ha ho).2
  | dismiss i r r' =>
    obtain ⟨hw, hr, -, hp, -, hb⟩ := hm
    exact (h.retire hv hw hr hp hb r'.state (Or.inl rfl)).congr rfl rfl rfl rfl rfl
  | note i r r' =>
    obtain ⟨hw, -, -, hst, hb⟩ := hm
    refine (h.put hw hb (fun hq => hst ▸ hq) fun hk ha ho => ?_).congr rfl rfl rfl rfl rfl
    exact hst ▸ (h.awaiting _ r hw.known hk ha ho).1
  | resolve r r' =>
    obtain ⟨hw, hr, -, hp, -, hb⟩ := hm
    exact (h.retire hv hw hr hp hb r'.state (Or.inl rfl)).congr rfl rfl rfl rfl rfl
  | observe r r' => exact h.observe hv hm
  | complete r r' =>
    obtain ⟨hw, hr, hact, hdel, hst, hb⟩ := hm
    have hq : r.state ≠ .queued := by
      rcases hdel with hs | hs <;> simp [hs]
    have hdone := h.retire hv hw hr (past_of_state hst (by simp) (by simp)) hb r'.state (Or.inr ⟨rfl, hact, hq⟩)
    refine hdone.congr rfl rfl rfl rfl ?_
    simp [Lane.effect, Lane.log, Lane.release, unlist, Lane.put]
  | look r =>
    obtain ⟨-, -, -, hr, hq⟩ := hm
    refine { h with aimed := fun n r₀ hn hd i hk => ?_ }
    cases hd
    have he : some r = some r₀ := hr.2.symm.trans hn
    cases he
    cases hr.1.symm.trans hk
    exact (h.waiting _ r hr.2 hq).1
  | decline r r' =>
    obtain ⟨hw, -, hst, hb⟩ := hm
    refine (h.put hw hb (fun hq => hst ▸ hq) fun hk ha ho => ?_).goto (by simp)
    exact hst ▸ (h.awaiting _ r hw.known hk ha ho).1
  | bar r r' =>
    obtain ⟨hw, hd, hst, hb⟩ := hm
    exact h.activate hw (hv.queue.free _ hd) (h.aimed _ r hw.known hd) hb (by simp [hst]) (by simp)
  | claim r r' =>
    obtain ⟨hw, hd, -, ha, hq, hst, hb⟩ := hm
    have hact := h.activate hw ha (h.aimed _ r hw.known hd) hb (by simp [hst]) (d := .sending r.sequence) (by simp)
    refine (hact.log_call (e := .sent r.sequence) (by simp) (by simp) fun n r₀ hn hb₀ => ?_).congr rfl rfl rfl rfl rfl
    intro he
    cases he
    cases (put_known hw).symm.trans hn
    exact hb₀ (hb.trans (h.waiting _ r hw.known hq).2)
  | requeue r r' => exact h.requeue hv hm hok
  | blur r r' =>
    obtain ⟨hw, -, hst, hb⟩ := hm
    exact (h.put hw hb (by simp [hst]) fun _ _ _ => Or.inr hst).goto (by simp)
  | accept r r' =>
    obtain ⟨hw, -, hr, ha, hb, hst, hb'⟩ := hm
    refine (h.put hw (hb'.trans hb.symm) (by simp [hst]) fun hk ha ho => ?_).goto (by simp)
    exact absurd hb (h.awaiting _ r hw.known hk ha ho).2
  | finish r r' =>
    obtain ⟨hw, -, hr, -, hp, -, hb⟩ := hm
    exact ((h.retire hv hw hr hp hb r'.state (Or.inl rfl)).goto (d := .waiting) (by simp)).congr rfl rfl rfl rfl rfl

end

end Lane

/-! ## On the authority -/

namespace Authority

def Observed (s : Authority) (n : Nat) : Prop := .observed n ∈ s.history

/-- No busy outcome requeues, and no reconciliation accepts, over a buffered completion of the active operation. -/
structure BufferEmpty (s : Authority) (a : AuthorityAction) : Prop where
  busy : ∀ outcome at' r, a = .sent outcome at' → outcome.certified → s.sending = some r → r.state = .dispatching →
    r.bufferedCompletionSequence = none
  accepted : ∀ ref r result, s.Answered a ref r result → result.state = .accepted → s.active = some r.key →
    r.bufferedCompletionSequence = none

structure CompletionSafe (s : Authority) : Prop where
  -- An observed operation is settled and released, or is active and its acceptance is not known yet.
  drained : ∀ n, s.Observed n →
    s.Settled n ∧ (∀ r, s.activeRecord = some r → r.sequence ≠ n) ∨
    ∃ r, s.activeRecord = some r ∧ r.sequence = n ∧ (r.state = .dispatching ∨ r.state = .unknown) ∧
      r.bufferedCompletionSequence ≠ none
  -- A queued operation carries no completion.
  empty : ∀ n r, s.ledger.objects n = some r → r.state = .queued → r.bufferedCompletionSequence = none
  -- A buffered completion was observed after the last call of its operation.
  since : ∀ n r, s.ledger.objects n = some r → r.bufferedCompletionSequence ≠ none →
    OccursSince (· = .sent n) (· = .observed n) s.history

section
variable {c : Config} {s t : Authority} {a : AuthorityAction} {r : OperationRecord} {v : Lane} {m : Move}

theorem drained_of_explains (hok : s.BufferEmpty a) (hm : v.enabled m) (he : s.Explains c a v m) : v.Drained m := by
  cases m with
  | requeue r r' =>
    obtain ⟨rfl, hr, outcome, at', rfl, ho⟩ := he
    exact hok.busy outcome at' r rfl ho hr hm.2.2.2.1
  | adopt i r r' =>
    obtain ⟨rfl, ref, result, -, hans, hst⟩ := he
    exact hok.accepted ref r result hans hst
  | _ => trivial

theorem completing_init : (init.lane c).Completing := by
  refine ⟨?_, ?_, ?_, ?_, ?_, ?_⟩ <;> simp [init, lane, SubmissionLedger.empty, Lane.Observed]

theorem completing_of_reachable (h : Reachable (authoritySystem c) BufferEmpty s) :
    (s.lane c).Sound ∧ (s.lane c).Completing := by
  refine Steps.simulated (f := lane c) (I := fun v => v.Sound ∧ v.Completing) (fun _ _ _ hs ht => step_moves hs.1 ht)
    ?_ h ⟨sound_init, completing_init⟩
  intro s a v m w _ hok hv he hw
  obtain ⟨hm, rfl⟩ := Lane.step_eq_some.mp hw
  exact ⟨hv.1.step hw, hv.2.effect hv.1 hm (drained_of_explains hok hm he)⟩

end

theorem completion_safe {c : Config} {s : Authority} (h : Reachable (authoritySystem c) BufferEmpty s) :
    s.CompletionSafe := by
  obtain ⟨hs, hc⟩ := completing_of_reachable h
  refine ⟨fun n ho => ?_, fun n r hn hq => (hc.waiting n r hn hq).2, hc.since⟩
  by_cases hset : s.Settled n
  · refine Or.inl ⟨hset, ?_⟩
    intro r ha heq
    subst heq
    obtain ⟨hact, hret⟩ := (activeRecord_eq_some (c := c) hs.shape).mp ha
    exact hc.released _ _ ho hset hact hret.1
  obtain ⟨k, hact, hk⟩ := (hc.kept n ho).resolve_left hset
  obtain ⟨r, hn, rfl⟩ := hs.shape.keyed k n hk
  obtain rfl : r.sequence = n := (hs.shape.ordinal n r hn).1
  have ha : s.activeRecord = some r := (activeRecord_eq_some (c := c) hs.shape).mpr ⟨hact, hk, hn⟩
  obtain ⟨hst, hb⟩ := hc.awaiting _ r hn hk hact ho
  exact Or.inr ⟨r, ha, rfl, hst, hb⟩

end Authority

/-! ## A completion that outruns its acceptance -/

def exampleRef : ControlOperationRef := ⟨"epoch-1", 1, "request-1", .prompt⟩

def completedInFlight : List AuthorityAction :=
  intoPreflight ++
    [.preflighted .clear "2026-08-05T10:00:01+00:00",
      .observe
        { sequence := 1
          kind := "completed"
          createdAt := "2026-08-05T10:00:02+00:00"
          operation := some exampleRef }]

def acceptedReceipt : SubmissionReceipt where
  requestId := "request-1"
  acceptance := .immediate
  submittedAt := "2026-08-05T10:00:00+00:00"

def acceptedAfterCompletion : List AuthorityAction :=
  completedInFlight ++ [.sent (.returned (.receipt acceptedReceipt)) "2026-08-05T10:00:03+00:00"]

def completed : Authority :=
  (runFrom (authoritySystem exampleConfig) Authority.init acceptedAfterCompletion).get (by decide)

theorem runs_acceptedAfterCompletion :
    runFrom (authoritySystem exampleConfig) Authority.init acceptedAfterCompletion = some completed :=
  (Option.some_get _).symm

theorem completion_safe_completed : completed.CompletionSafe := by
  refine Authority.completion_safe (c := exampleConfig) (steps_of_runFrom ?_ runs_acceptedAfterCompletion)
  have hok : ∀ s : Authority, ∀ a, (∀ outcome at', a = .sent outcome at' → ¬ outcome.certified) →
      (∀ i answer, a ≠ .reconciled i answer) → s.BufferEmpty a := by
    refine fun s a hs hr => ⟨fun outcome at' _ ha hc => absurd hc (hs outcome at' ha), ?_⟩
    intro ref r result hex
    obtain ⟨⟨i, ha, -⟩, -⟩ := hex
    exact absurd ha (hr i _)
  intro a ha s
  apply hok
  · intro outcome at' heq
    subst heq
    simp [acceptedAfterCompletion, completedInFlight, intoPreflight] at ha
    simp [ha.1, SendOutcome.certified]
  intro i answer heq
  subst heq
  simp [acceptedAfterCompletion, completedInFlight, intoPreflight] at ha

def reconciledAfterCompletion : List AuthorityAction :=
  completedInFlight ++
    [.sent (.failed "connection reset") "2026-08-05T10:00:03+00:00",
      .reconcile "request-1" none,
      .reconciled 0
        (.ok { requestId := "request-1", state := .accepted, reconciledAt := "2026-08-05T10:00:04+00:00" })]

def wedged : Authority :=
  (runFrom (authoritySystem exampleConfig) Authority.init reconciledAfterCompletion).get (by decide)

theorem runs_reconciledAfterCompletion :
    runFrom (authoritySystem exampleConfig) Authority.init reconciledAfterCompletion = some wedged :=
  (Option.some_get _).symm

theorem completion_lost : ¬ ∀ c s, Reachable (authoritySystem c) always s → s.CompletionSafe := by
  intro h
  have hsafe := h exampleConfig wedged (reachable_of_runFrom runs_reconciledAfterCompletion)
  have hobs : Event.observed 1 ∈ wedged.history := by decide
  have hact : wedged.activeRecord.map (fun r => (r.sequence, r.state)) = some (1, .delivered) := by decide
  obtain ⟨r, ha, hr⟩ := Option.map_eq_some_iff.mp hact
  obtain ⟨hseq, hst⟩ := Prod.mk.inj hr
  rcases hsafe.drained 1 hobs with ⟨-, hno⟩ | ⟨r', ha', -, hwait, -⟩
  · exact hno r ha hseq
  · cases ha.symm.trans ha'
    rcases hwait with hw | hw <;> simp [hst] at hw

end AgentsRemember.Harness
