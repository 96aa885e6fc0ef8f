import AgentsRemember.Harness.TimelineSound

/-!
# Terminal records are final

A tombstone is never rewritten and never active again, and replaying a
withdrawal repeats its answer, in every run whose failing preflights, lost sends
and reconciliation answers find a record that did not become terminal meanwhile.
Those continuations check nothing of the sort.
-/

namespace AgentsRemember.Harness

open Lib

def Move.target : Move → Option Nat
  | .enrol r | .refuse r | .withdraw r _ | .adopt _ r _ | .dismiss _ r _ | .note _ r _ | .resolve r _ | .observe r _
  | .complete r _ | .decline r _ | .bar r _ | .claim r _ | .requeue r _ | .blur r _ | .accept r _ | .finish r _ =>
    some r.sequence
  | .evict _ | .ask _ | .forget _ | .idle | .look _ | .stop => none

/-! ## On the lane -/

namespace Lane

def Settled (v : Lane) (n : Nat) : Prop := ∃ st, .settled n st ∈ v.history

def Opens (v : Lane) : Move → Prop
  | .decline r _ | .bar r _ | .blur r _ | .adopt _ r _ | .dismiss _ r _ | .note _ r _ => ¬ v.Settled r.sequence
  | _ => True

structure Final (v : Lane) : Prop where
  closed : ∀ n r, v.record n = some r → v.Settled n → r.state ≠ .unknown
  inactive : ∀ k n, v.active = some k → v.byKey k = some n → ¬ v.Settled n
  begun : ∀ n r, v.record n = some r → r.state = .queued → v.active ≠ some r.key
  held : ∀ k, v.active = some k → ∃ n, v.byKey k = some n
  aimed : ∀ n, v.dispatcher = .preflight n → ∃ r, v.record n = some r ∧
    (v.Settled n ∨ v.byKey r.key = some n ∧ r.key ∈ v.timeline)

section
variable {v w : Lane} {r r' : OperationRecord} {m : Move} {e : Event} {n : Nat}

theorem settled_log : (v.log e).Settled n ↔ v.Settled n ∨ ∃ st, e = .settled n st := by
  constructor
  · intro hex
    obtain ⟨st, h⟩ := hex
    rcases List.mem_append.mp h with h | h
    · exact Or.inl ⟨st, h⟩
    · exact Or.inr ⟨st, (List.mem_singleton.mp h).symm⟩
  intro hex
  obtain ⟨st, h⟩ | ⟨st, rfl⟩ := hex
  · exact ⟨st, List.mem_append_left _ h⟩
  · exact ⟨st, List.mem_append_right _ (by simp)⟩

theorem settled_of_log {i : Nat} {st : SubmissionLifecycleState} (h : (v.log (.settled i st)).Settled n) :
    v.Settled n ∨ n = i := by
  rcases settled_log.mp h with h | ⟨st', he⟩
  · exact Or.inl h
  · cases he
    exact Or.inr rfl

theorem Sound.open_of_queued (hv : v.Sound) (hn : v.record n = some r) (hq : r.state = .queued) : ¬ v.Settled n :=
  fun ⟨st, hs⟩ => (hv.traced.settled n r hn st hs).1 hq

theorem Sound.open_of_dispatching (hv : v.Sound) (hn : v.record n = some r) (hd : r.state = .dispatching) :
    ¬ v.Settled n := fun ⟨st, hs⟩ => (hv.traced.settled n r hn st hs).2 hd

theorem Sound.open_of_new (hv : v.Sound) (hn : v.sequence < n) : ¬ v.Settled n := by
  intro hex
  obtain ⟨st, hs⟩ := hex
  have : n ≤ v.sequence := hv.traced.known _ hs
  omega

/-! ### What the moves keep -/

theorem Final.congr (h : v.Final) (hr : w.record = v.record) (hk : w.byKey = v.byKey) (ht : w.timeline = v.timeline)
    (ha : w.active = v.active) (hd : w.dispatcher = v.dispatcher) (hh : w.history = v.history) : w.Final := by
  obtain ⟨h1, h2, h3, h4, h5⟩ := h
  unfold Settled at h1 h2 h5
  constructor <;> simp only [Settled, hr, hk, ht, ha, hd, hh] <;> assumption

variable {d : Dispatcher}

theorem Final.goto (h : v.Final) (hd : ∀ n, d ≠ .preflight n) : (v.goto d).Final :=
  { h with aimed := fun n hn => absurd hn (hd n) }

theorem Final.put (h : v.Final) (hw : v.Writes r r') (hc : v.Settled r.sequence → r'.state ≠ .unknown)
    (hq : r'.state = .queued → r.state = .queued) : (v.put r').Final := by
  refine ⟨?_, h.inactive, ?_, h.held, fun n hn => ?_⟩
  · apply forall_put h.closed
    rw [hw.seq]
    exact hc
  · apply forall_put h.begun
    rw [hw.key]
    exact fun hst => h.begun _ r hw.known (hq hst)
  obtain ⟨r₀, h₀, haim⟩ := h.aimed n hn
  rw [put_record]
  by_cases hs : n = r'.sequence
  · rw [if_pos hs]
    rw [hs, hw.seq, hw.known] at h₀
    cases h₀
    exact ⟨r', rfl, hw.key ▸ haim⟩
  · rw [if_neg hs]
    exact ⟨r₀, h₀, haim⟩

theorem Final.log (h : v.Final) (he : ∀ n st, e ≠ .settled n st) : (v.log e).Final := by
  have hiff : ∀ n, (v.log e).Settled n ↔ v.Settled n := by
    intro n
    rw [settled_log, or_iff_left]
    intro hex
    obtain ⟨st, rfl⟩ := hex
    exact he n st rfl
  obtain ⟨h1, h2, h3, h4, h5⟩ := h
  constructor
  · exact fun n r hn hs => h1 n r hn ((hiff n).mp hs)
  · exact fun k n ha hk hs => h2 k n ha hk ((hiff n).mp hs)
  · exact h3
  · exact h4
  · exact fun n hn => (h5 n hn).imp fun r hr => ⟨hr.1, hr.2.imp_left (hiff n).mpr⟩

theorem Final.settle (h : v.Final) (hs : v.Shape) (hw : v.Writes r r') (hr : v.Retained r) (hp : r'.past)
    (hu : r'.state ≠ .unknown) (st : SubmissionLifecycleState) :
    (((v.put r').release r.key).log (.settled r.sequence st)).Final := by
  have hput := h.put hw (fun _ => hu) fun hq => absurd hq hp.1
  refine ⟨fun n r₀ hn hset => ?_, fun k n ha hk hset => ?_, fun n r₀ hn hq ha => ?_, fun k ha => ?_, fun n hn => ?_⟩
  · rcases settled_of_log hset with hset | rfl
    · exact hput.closed n r₀ hn hset
    rw [show (((v.put r').release r.key).log _).record = (v.put r').record from rfl, put_record,
      if_pos hw.seq.symm] at hn
    cases hn
    exact hu
  · obtain ⟨ha, hne⟩ := release_active ha
    rcases settled_of_log hset with hset | rfl
    · exact h.inactive k n ha hk hset
    · exact hne (hs.retained hk hw.known).1.symm
  · exact hput.begun n r₀ hn hq (release_active ha).1
  · exact h.held k (release_active ha).1
  obtain ⟨r₀, h₀, haim⟩ := hput.aimed n hn
  refine ⟨r₀, h₀, ?_⟩
  by_cases hns : n = r.sequence
  · subst hns
    exact Or.inl (settled_log.mpr (Or.inr ⟨st, rfl⟩))
  rcases haim with hset | ⟨hk, ht⟩
  · exact Or.inl (settled_log.mpr (Or.inl hset))
  have hne : r₀.key ≠ r.key := by
    intro he
    rw [he] at hk
    exact hns (Option.some.inj (hk.symm.trans hr.1))
  exact Or.inr ⟨hk, (List.mem_erase_of_ne hne).mpr ht⟩

theorem release_of_inactive {k : OperationKey} (h : v.active ≠ some k) : v.release k = v.unlist k := by
  simp [Lane.release, h, unlist]

theorem Final.enter (h : v.Final) (hv : v.Sound) (hf : v.Fresh r) (hu : r.state ≠ .unknown) {t : List OperationKey}
    (ht : ∀ k ∈ v.timeline, k ∈ t) : Final { v.enter r with timeline := t } := by
  refine ⟨?_, fun k n ha hk => ?_, ?_, fun k ha => ?_, fun n hn => ?_⟩
  · exact forall_put h.closed fun _ => hu
  · obtain ⟨n₀, hn₀⟩ := h.held k ha
    have he : some n₀ = some n := (hf.keeps hn₀).symm.trans hk
    cases he
    exact h.inactive k n ha hn₀
  · refine forall_put h.begun fun _ ha => ?_
    obtain ⟨n, hn⟩ := h.held _ ha
    exact hf.ne_key hn rfl
  · obtain ⟨n, hn⟩ := h.held k ha
    exact ⟨n, hf.keeps hn⟩
  obtain ⟨r₀, h₀, haim⟩ := h.aimed n hn
  have hne : n ≠ r.sequence := by
    have := (hv.shape.ordinal n r₀ h₀).2
    have := hf.next
    omega
  exact ⟨r₀, (enter_record_ne hne).trans h₀, haim.imp_right fun hk => ⟨hf.keeps hk.1, ht _ hk.2⟩⟩

theorem Final.refuse (h : v.Final) (hv : v.Sound) (hf : v.Fresh r) (hu : r.state ≠ .unknown) :
    ((v.enter r).log (.settled r.sequence r.state)).Final := by
  obtain ⟨h1, h2, h3, h4, h5⟩ := h.enter hv hf hu fun _ => id
  refine ⟨fun n r₀ hn hset => ?_, fun k n ha hk hset => ?_, h3, h4, fun n hn => ?_⟩
  · rcases settled_of_log hset with hset | rfl
    · exact h1 n r₀ hn hset
    have he : some r = some r₀ := enter_record_self.symm.trans hn
    cases he
    exact hu
  · rcases settled_of_log hset with hset | rfl
    · exact h2 k n ha hk hset
    obtain ⟨n₀, hn₀⟩ := h.held k ha
    have he : some n₀ = some r.sequence := (hf.keeps hn₀).symm.trans hk
    obtain ⟨r₀, h₀, -⟩ := hv.shape.keyed k n₀ hn₀
    have := (hv.shape.ordinal n₀ r₀ h₀).2
    have := hf.next
    have := Option.some.inj he
    omega
  · exact (h5 n hn).imp fun r₀ h₀ => ⟨h₀.1, h₀.2.imp_left fun hset => settled_log.mpr (Or.inl hset)⟩

theorem Final.activate (h : v.Final) (hv : v.Sound) (hw : v.Writes r r') (hk : v.byKey r.key = some r.sequence)
    (ho : ¬ v.Settled r.sequence) (hq : r'.state ≠ .queued) (hd : ∀ n, d ≠ .preflight n) :
    (((v.put r').setActive (some r.key)).goto d).Final := by
  obtain ⟨h1, -, -, -, -⟩ := h.put hw (fun hs => absurd hs ho) fun hq' => absurd hq' hq
  refine ⟨h1, fun k n ha hk' => ?_, ?_, fun k ha => ?_, fun n hn => absurd hn (hd n)⟩
  · cases ha
    cases hk.symm.trans hk'
    exact ho
  · intro n r₀ hn hq₀ ha
    rw [show (((v.put r').setActive (some r.key)).goto d).record = (v.put r').record from rfl, put_record] at hn
    split at hn
    · cases hn
      exact hq hq₀
    rename_i hne
    have hkey : r.key = r₀.key := Option.some.inj ha
    obtain ⟨hk₀, -⟩ := hv.queue.queued n r₀ hn hq₀
    rw [← hkey, hk] at hk₀
    exact hne (by rw [hw.seq]; exact (Option.some.inj hk₀).symm)
  · cases ha
    exact ⟨_, hk⟩

theorem Final.effect (hv : v.Sound) (h : v.Final) (hm : v.enabled m) (hok : v.Opens m) : (v.effect m).Final := by
  cases m with
  | enrol r => exact h.enter hv hm.1 (by simp [hm.2]) fun _ => List.mem_append_left _
  | refuse r => exact h.refuse hv hm.1 (by simp [hm.2])
  | evict r =>
    have hact : ∀ k, v.active = some k → k ≠ r.key := by
      intro k ha heq
      subst heq
      exact hm.2.2.1 ha
    refine ⟨h.closed, fun k n ha hk => ?_, h.begun, fun k ha => ?_, fun n hn => ?_⟩
    · exact h.inactive k n ha ((drop_byKey_ne (hact k ha)).symm.trans hk)
    · exact (h.held k ha).imp fun n hn => (drop_byKey_ne (hact k ha)).trans hn
    obtain ⟨r₀, h₀, haim⟩ := h.aimed n hn
    refine ⟨r₀, h₀, haim.imp_right fun hk => ⟨(drop_byKey_ne ?_).trans hk.1, hk.2⟩⟩
    intro he
    exact hm.2.1 (he ▸ hk.2)
  | withdraw r r' =>
    obtain ⟨hw, hr, hq, hst, -⟩ := hm
    have hfinal := h.settle hv.shape hw hr (past_of_state hst (by simp) (by simp)) (by simp [hst]) r'.state
    rwa [release_of_inactive (v := v.put r') (h.begun _ r hw.known hq)] at hfinal
  | ask | forget => exact h.congr rfl rfl rfl rfl rfl rfl
  | idle | stop => exact h.goto (by simp)
  | look r =>
    obtain ⟨-, -, -, hr, hq⟩ := hm
    refine { h with aimed := fun n hn => ?_ }
    cases hn
    exact ⟨r, hr.2, Or.inr (hv.queue.queued _ r hr.2 hq)⟩
  | adopt i r r' =>
    obtain ⟨hw, -, -, hst, -⟩ := hm
    exact (h.put hw (by simp [hst]) (by simp [hst])).congr rfl rfl rfl rfl rfl rfl
  | dismiss i r r' =>
    obtain ⟨hw, hr, -, hp, hu, -⟩ := hm
    exact (h.settle hv.shape hw hr hp hu r'.state).congr rfl rfl rfl rfl rfl rfl
  | note i r r' =>
    obtain ⟨hw, -, -, hst, -⟩ := hm
    exact (h.put hw (fun hset => absurd hset hok) fun hq => hst ▸ hq).congr rfl rfl rfl rfl rfl rfl
  | resolve r r' =>
    obtain ⟨hw, hr, -, hp, hu, -⟩ := hm
    exact h.settle hv.shape hw hr hp hu r'.state
  | observe r r' =>
    obtain ⟨hw, -, -, -, hst, -⟩ := hm
    exact (h.put hw (by simp [hst]) (by simp [hst])).log (by simp)
  | complete r r' =>
    obtain ⟨hw, hr, -, -, hst, -⟩ := hm
    have hl := h.log (e := .observed r.sequence) (by simp)
    have hsl : (v.log (.observed r.sequence)).Shape := hv.shape.congr rfl rfl rfl rfl rfl
    exact (hl.settle hsl ⟨hw.known, hw.same⟩ hr (past_of_state hst (by simp) (by simp)) (by simp [hst]) r'.state).congr
      rfl rfl rfl rfl rfl rfl
  | decline r r' =>
    obtain ⟨hw, -, hst, -⟩ := hm
    exact (h.put hw (fun hset => absurd hset hok) fun hq => hst ▸ hq).goto (by simp)
  | bar r r' =>
    obtain ⟨hw, hd, hst, -⟩ := hm
    obtain ⟨r₀, h₀, haim⟩ := h.aimed _ hd
    cases h₀.symm.trans hw.known
    obtain ⟨hk, -⟩ := haim.resolve_left hok
    exact h.activate hv hw hk hok (by simp [hst]) (by simp)
  | claim r r' =>
    obtain ⟨hw, -, -, -, hq, hst, -⟩ := hm
    obtain ⟨hk, -⟩ := hv.queue.queued _ r hw.known hq
    have hact := h.activate hv hw hk (hv.open_of_queued hw.known hq) (by simp [hst]) (d := .sending r.sequence) (by simp)
    exact (hact.log (e := .sent r.sequence) (by simp)).congr rfl rfl rfl rfl rfl rfl
  | requeue r r' =>
    obtain ⟨hw, -, -, hd, hst, -⟩ := hm
    have hl := h.log (e := .unsent r.sequence) (by simp)
    refine ⟨?_, fun k n ha => ?_, fun n r₀ _ _ ha => ?_, fun k ha => ?_, fun n hn => ?_⟩
    · refine forall_put hl.closed fun _ => ?_
      simp [hst]
    · cases ha
    · cases ha
    · cases ha
    · cases hn
  | blur r r' =>
    obtain ⟨hw, -, hst, -⟩ := hm
    exact (h.put hw (fun hset => absurd hset hok) (by simp [hst])).goto (by simp)
  | accept r r' =>
    obtain ⟨hw, -, -, -, -, hst, -⟩ := hm
    exact (h.put hw (by simp [hst]) (by simp [hst])).goto (by simp)
  | finish r r' =>
    obtain ⟨hw, -, hr, -, hp, hu, -⟩ := hm
    exact (h.settle hv.shape hw hr hp hu r'.state).goto (by simp)

theorem effect_record (hm : v.enabled m) (hn : m.target ≠ some n) : (v.effect m).record n = v.record n := by
  have hput : ∀ {r r' : OperationRecord}, v.Writes r r' → some r.sequence ≠ some n →
      (v.put r').record n = v.record n := by
    intro r r' hw hne
    rw [put_record, if_neg]
    intro heq
    subst heq
    exact hne (by rw [hw.seq])
  cases m with
  | enrol r => exact enter_record_ne fun he => hn (he ▸ rfl)
  | refuse r => exact enter_record_ne fun he => hn (he ▸ rfl)
  | evict | ask | forget | idle | look | stop => rfl
  | withdraw | adopt | dismiss | note | resolve | observe | complete | decline | bar | claim | requeue | blur
  | accept | finish => exact hput hm.1 hn

theorem open_of_target (hv : v.Sound) (h : v.Final) (hm : v.enabled m) (hok : v.Opens m) (hn : m.target = some n) :
    ¬ v.Settled n := by
  cases m with
  | enrol r =>
    cases hn
    exact hv.open_of_new (by have := hm.1.next; omega)
  | refuse r =>
    cases hn
    exact hv.open_of_new (by have := hm.1.next; omega)
  | withdraw r r' =>
    cases hn
    exact hv.open_of_queued hm.1.known hm.2.2.1
  | adopt | dismiss | note | decline | bar | blur =>
    cases hn
    exact hok
  | resolve r r' =>
    cases hn
    exact fun hs => h.closed _ r hm.1.known hs hm.2.2.1
  | observe r r' =>
    cases hn
    exact hv.open_of_dispatching hm.1.known hm.2.2.2.1
  | complete r r' =>
    cases hn
    exact h.inactive _ _ hm.2.2.1 hm.2.1.1
  | claim r r' =>
    cases hn
    exact hv.open_of_queued hm.1.known hm.2.2.2.2.1
  | requeue r r' =>
    cases hn
    exact hv.open_of_dispatching hm.1.known hm.2.2.2.1
  | accept r r' =>
    cases hn
    exact h.inactive _ _ hm.2.2.2.1 hm.2.2.1.1
  | finish r r' =>
    cases hn
    exact h.inactive _ _ hm.2.2.2.1 hm.2.2.1.1
  | evict | ask | forget | idle | look | stop => cases hn

theorem history_effect (he : e ∈ v.history) : e ∈ (v.effect m).history := by
  cases m with
  | refuse | withdraw | dismiss | resolve | observe | claim | requeue | finish => exact List.mem_append_left _ he
  | complete => exact List.mem_append_left _ (List.mem_append_left _ he)
  | _ => exact he

theorem Final.keeps (hv : v.Sound) (h : v.Final) (hm : v.enabled m) (hok : v.Opens m) (hs : v.Settled n) :
    (v.effect m).record n = v.record n ∧ (v.effect m).Settled n :=
  ⟨effect_record hm fun hn => open_of_target hv h hm hok hn hs, hs.imp fun _ => history_effect⟩

/-! ### Terminal states are marked -/

end

end Lane

def tombstoneStates : List SubmissionLifecycleState := [.withdrawn, .rejected, .unsupported]

namespace Lane

section
variable {v w : Lane} {r r' : OperationRecord} {m : Move} {n : Nat}

def Marked (v : Lane) : Prop := ∀ n r, v.record n = some r → r.state ∈ tombstoneStates → v.Settled n

theorem put_known (hw : v.Writes r r') : (v.put r').record r.sequence = some r' := by
  rw [put_record, if_pos hw.seq.symm]

theorem Marked.effect (h : v.Marked) (hm : v.enabled m) : (v.effect m).Marked := by
  have hlive : ∀ {r' : OperationRecord} {n : Nat} {r₀ : OperationRecord} {st : SubmissionLifecycleState},
      some r' = some r₀ → r'.state = st → st ∉ tombstoneStates → r₀.state ∈ tombstoneStates → (v.effect m).Settled n := by
    intro r' n r₀ st he heq hst ht
    subst heq
    cases he
    exact absurd ht hst
  intro n r₀ hn ht
  by_cases htar : m.target = some n
  · cases m with
    | enrol r =>
      cases htar
      exact hlive (enter_record_self.symm.trans hn) hm.2 (by decide) ht
    | refuse r =>
      cases htar
      exact settled_log.mpr (Or.inr ⟨_, rfl⟩)
    | withdraw r | dismiss i r | resolve r | complete r | finish r =>
      cases htar
      exact settled_log.mpr (Or.inr ⟨_, rfl⟩)
    | adopt i r r' =>
      cases htar
      exact hlive ((put_known hm.1).symm.trans hn) hm.2.2.2.1 (by decide) ht
    | note i r r' =>
      cases htar
      cases (put_known hm.1).symm.trans hn
      exact h _ r hm.1.known (hm.2.2.2.1 ▸ ht)
    | observe r r' =>
      cases htar
      exact hlive ((put_known hm.1).symm.trans hn) hm.2.2.2.2.1 (by decide) ht
    | decline r r' =>
      cases htar
      cases (put_known hm.1).symm.trans hn
      exact h _ r hm.1.known (hm.2.2.1 ▸ ht)
    | bar r r' =>
      cases htar
      exact hlive ((put_known hm.1).symm.trans hn) hm.2.2.1 (by decide) ht
    | claim r r' =>
      cases htar
      exact hlive ((put_known hm.1).symm.trans hn) hm.2.2.2.2.2.1 (by decide) ht
    | requeue r r' =>
      cases htar
      exact hlive ((put_known hm.1).symm.trans hn) hm.2.2.2.2.1 (by decide) ht
    | blur r r' =>
      cases htar
      exact hlive ((put_known hm.1).symm.trans hn) hm.2.2.1 (by decide) ht
    | accept r r' =>
      cases htar
      exact hlive ((put_known hm.1).symm.trans hn) hm.2.2.2.2.2.1 (by decide) ht
    | evict | ask | forget | idle | look | stop => cases htar
  · rw [effect_record hm htar] at hn
    exact (h n r₀ hn ht).imp fun _ => history_effect

end

end Lane

/-! ## On the authority -/

namespace Authority

/-- `mark_terminal` was applied to the record. -/
def Settled (s : Authority) (n : Nat) : Prop := ∃ st, .settled n st ∈ s.history

def Terminal (s : Authority) (r : OperationRecord) : Prop := r.state ∈ tombstoneStates ∨ s.Settled r.sequence

/-- A failing preflight, a lost send and a reconciliation answer find a record that is not terminal. -/
structure StillOpen (s : Authority) (a : AuthorityAction) : Prop where
  preflight : ∀ outcome at' r, a = .preflighted outcome at' → outcome.declined ∨ outcome.claimsSend →
    s.preflighting = some r → ¬ s.Settled r.sequence
  send : ∀ outcome at' r, a = .sent outcome at' → outcome.lost → s.sending = some r → ¬ s.Settled r.sequence
  answer : ∀ ref r result, s.Answered a ref r result → ¬ s.Settled r.sequence

/-- What is promised of terminal records in runs whose steps all meet `ok`. -/
structure TerminalFinal (c : Config) (ok : Authority → AuthorityAction → Prop) : Prop where
  kept : ∀ s t n r, Reachable (authoritySystem c) ok s → Steps (authoritySystem c) ok s t →
    s.ledger.objects n = some r → s.Terminal r →
    (∃ r', t.ledger.objects n = some r' ∧ r'.state = r.state ∧ r'.detail = r.detail ∧ r'.updatedAt = r.updatedAt) ∧
      ∀ r', t.activeRecord = some r' → r'.sequence ≠ n
  replayed : ∀ s t epoch requestId cockpitOnly at' at'' answer r r', Reachable (authoritySystem c) ok s →
    ok s (.withdraw epoch requestId cockpitOnly at') →
    (s.withdraw c epoch requestId cockpitOnly at').1 = .ok answer → answer.outcome = .withdrawn →
    Steps (authoritySystem c) ok (s.withdraw c epoch requestId cockpitOnly at').2 t →
    s.ledger.byRequestId requestId = some r → t.ledger.byRequestId requestId = some r' → r'.sequence = r.sequence →
    (t.withdraw c epoch requestId cockpitOnly at'').1 = .ok { answer with recovery := none }

section
variable {c : Config} {s t : Authority} {a : AuthorityAction} {r : OperationRecord} {v : Lane} {m : Move}

structure Finished (v : Lane) : Prop where
  sound : v.Sound
  final : v.Final
  marked : v.Marked

theorem opens_of_explains (hs : (s.lane c).Sound) (hf : (s.lane c).Final) (hok : s.StillOpen a)
    (he : s.Explains c a v m) : v.Opens m := by
  cases m with
  | decline r r' =>
    obtain ⟨rfl, hr, outcome, at', rfl, ho⟩ := he
    exact hok.preflight outcome at' r rfl (Or.inl ho) hr
  | bar r r' =>
    obtain ⟨rfl, hr, ⟨-, hq⟩ | ⟨outcome, at', rfl, ho⟩⟩ := he
    · obtain ⟨-, hn⟩ := preflighting_eq_some hs.shape hr
      exact hs.open_of_queued hn hq
    · exact hok.preflight outcome at' r rfl (Or.inr ho) hr
  | blur r r' =>
    obtain ⟨rfl, hr, ⟨outcome, at', rfl, ho⟩ | hd | ⟨ha, hret⟩⟩ := he
    · exact hok.send outcome at' r rfl ho hr
    · obtain ⟨-, hn⟩ := sending_eq_some hs.shape hr
      exact hs.open_of_dispatching hn hd
    · exact hf.inactive _ _ ha hret.1
  | adopt i r r' =>
    obtain ⟨rfl, ref, result, -, hans, -⟩ := he
    exact hok.answer ref r result hans
  | dismiss i r r' =>
    obtain ⟨rfl, ref, result, -, hans⟩ := he
    exact hok.answer ref r result hans
  | note i r r' =>
    obtain ⟨rfl, ref, result, -, hans⟩ := he
    exact hok.answer ref r result hans
  | _ => trivial

theorem Finished.step {w : Lane} (hs : Finished (s.lane c)) (hok : s.StillOpen a) (hv : Finished v)
    (he : s.Explains c a v m) (hw : v.step m = some w) : Finished w := by
  obtain ⟨hm, rfl⟩ := Lane.step_eq_some.mp hw
  have hopen := opens_of_explains hs.sound hs.final hok he
  exact ⟨hv.sound.step hw, hv.final.effect hv.sound hm hopen, hv.marked.effect hm⟩

theorem finished_init : Finished (init.lane c) := by
  refine ⟨sound_init, ⟨?_, ?_, ?_, ?_, ?_⟩, ?_⟩ <;> simp [init, lane, SubmissionLedger.empty, Lane.Marked]

theorem finished_of_reachable (h : Reachable (authoritySystem c) StillOpen s) : Finished (s.lane c) :=
  Steps.simulated (f := lane c) (fun _ _ _ hs ht => step_moves hs.sound ht)
    (fun _ _ _ _ _ hs hok hv he hw => hs.step hok hv he hw) h finished_init

variable {n : Nat} {epoch requestId at' : String} {cockpitOnly : Bool}

theorem settled_of_terminal (hs : Finished (s.lane c)) (hn : s.ledger.objects n = some r) (ht : s.Terminal r) :
    s.Settled n := by
  rcases ht with ht | ht
  · exact hs.marked n r hn ht
  · rwa [(hs.sound.shape.ordinal n r hn).1] at ht

theorem terminal_kept (hs : Finished (s.lane c)) (h : Steps (authoritySystem c) StillOpen s t) (hset : s.Settled n) :
    Finished (t.lane c) ∧ t.ledger.objects n = s.ledger.objects n ∧ t.Settled n := by
  refine Steps.simulated (f := lane c)
    (I := fun v => Finished v ∧ v.record n = s.ledger.objects n ∧ v.Settled n)
    (fun _ _ _ hs ht => step_moves hs.1.sound ht) ?_ h ⟨hs, rfl, hset⟩
  intro s a v m w hs hok hv he hw
  obtain ⟨hm, rfl⟩ := Lane.step_eq_some.mp hw
  obtain ⟨hrec, hset⟩ := hv.1.final.keeps hv.1.sound hm (opens_of_explains hs.1.sound hs.1.final hok he) hv.2.2
  exact ⟨hs.1.step hok hv.1 he hw, hrec.trans hv.2.1, hset⟩

def replay (requestId : String) (r : OperationRecord) : WithdrawalResult where
  requestId := requestId
  outcome := .withdrawn
  state := some .withdrawn
  withdrawnAt := some r.updatedAt
  detail := r.detail

theorem withdraw_of_withdrawn (he : c.requireEpoch (some epoch) = .ok ()) (hr : s.ledger.byRequestId requestId = some r)
    (hw : visible cockpitOnly r = true) (hst : r.state = .withdrawn) :
    s.withdraw c epoch requestId cockpitOnly at' = (.ok (replay requestId r), s) := by
  have hf : (s.ledger.byRequestId requestId).filter (visible cockpitOnly) = some r :=
    Option.filter_eq_some_iff.mpr ⟨hr, hw⟩
  unfold withdraw
  simp [he, hf, hst, replay]

theorem withdraw_succeeds {answer : WithdrawalResult} (hs : (s.lane c).Sound)
    (h : (s.withdraw c epoch requestId cockpitOnly at').1 = .ok answer) (ho : answer.outcome = .withdrawn)
    (hr : s.ledger.byRequestId requestId = some r) :
    c.requireEpoch (some epoch) = .ok () ∧ visible cockpitOnly r = true ∧
      ∃ r₁, (s.withdraw c epoch requestId cockpitOnly at').2.ledger.objects r.sequence = some r₁ ∧
        r₁.state = .withdrawn ∧ r₁.source = r.source ∧ replay requestId r₁ = { answer with recovery := none } := by
  have hret := retained_of_byRequestId (c := c) hs.shape hr
  cases he : c.requireEpoch (some epoch) with
  | error e => simp [withdraw, he] at h
  | ok u =>
    cases hf : (s.ledger.byRequestId requestId).filter (visible cockpitOnly) with
    | none =>
      simp only [withdraw, he, hf, Except.ok.injEq] at h
      rw [← h] at ho
      cases ho
    | some r₀ =>
      obtain ⟨hr₀, hw⟩ := Option.filter_eq_some_iff.mp hf
      cases hr₀.symm.trans hr
      refine ⟨rfl, hw, ?_⟩
      simp only [withdraw, he, hf] at h ⊢
      split_ifs at h ⊢ with hst hq ht
      · cases h
        exact ⟨r, hret.2, hst, rfl, by simp [replay]⟩
      · cases h
        cases ho
      · cases h
        exact ⟨r.markTerminal .withdrawn (some "queued submission was withdrawn") at', Function.update_self .., rfl, rfl, rfl⟩

end

theorem terminal_final (c : Config) : TerminalFinal c StillOpen := by
  constructor
  · intro s t n r hreach hrun hn hterm
    have hs := finished_of_reachable hreach
    obtain ⟨ht, hrec, hset⟩ := terminal_kept hs hrun (settled_of_terminal hs hn hterm)
    refine ⟨⟨r, hrec.trans hn, rfl, rfl, rfl⟩, ?_⟩
    intro r' ha heq
    subst heq
    obtain ⟨hact, hret⟩ := (activeRecord_eq_some (c := c) ht.sound.shape).mp ha
    exact ht.final.inactive _ _ hact hret.1 hset
  intro s t epoch requestId cockpitOnly at' at'' answer r r' hreach hok hans ho hrun hr hr' hseq
  have hs := finished_of_reachable hreach
  obtain ⟨he, hvis, r₁, hn₁, hst₁, hsrc, hreplay⟩ := withdraw_succeeds hs.sound hans ho hr
  have hs₁ := finished_of_reachable (hreach.tail hok rfl)
  have hset : Settled _ r.sequence :=
    settled_of_terminal hs₁ hn₁ (Or.inl (by rw [hst₁]; decide))
  obtain ⟨ht, hrec, -⟩ := terminal_kept hs₁ hrun hset
  have hr'₁ : r' = r₁ := by
    have hn' := (retained_of_byRequestId ht.sound.shape hr').2
    rw [hseq] at hn'
    exact Option.some.inj (hn'.symm.trans (hrec.trans hn₁))
  subst hr'₁
  rw [withdraw_of_withdrawn he hr' (by simpa [visible, hsrc] using hvis) hst₁, hreplay]

end Authority

/-! ## A busy preflight after a withdrawal -/

def withdrawnInPreflight : Authority :=
  (inPreflight.withdraw exampleConfig "epoch-1" "request-1" true "2026-08-05T10:00:01+00:00").2

def busyAfterWithdrawal : Authority :=
  (withdrawnInPreflight.step exampleConfig (.preflighted (.busy "turn running") "2026-08-05T10:00:02+00:00")).get (by decide)

theorem runs_busyAfterWithdrawal : (authoritySystem exampleConfig).step withdrawnInPreflight
    (.preflighted (.busy "turn running") "2026-08-05T10:00:02+00:00") = some busyAfterWithdrawal :=
  (Option.some_get _).symm

theorem terminal_not_final : ¬ ∀ c, Authority.TerminalFinal c always := by
  intro h
  have hreach : Reachable (authoritySystem exampleConfig) always withdrawnInPreflight :=
    (reachable_of_runFrom runs_intoPreflight).tail trivial
      (show _ = some withdrawnInPreflight from rfl : (authoritySystem exampleConfig).step inPreflight
        (.withdraw "epoch-1" "request-1" true "2026-08-05T10:00:01+00:00") = some withdrawnInPreflight)
  have hrun : Steps (authoritySystem exampleConfig) always withdrawnInPreflight busyAfterWithdrawal :=
    .tail .refl trivial runs_busyAfterWithdrawal
  have hrec : (withdrawnInPreflight.ledger.objects 1).map (fun r => (r.state, r.updatedAt)) =
      some (.withdrawn, "2026-08-05T10:00:01+00:00") := by decide
  have hrec' : (busyAfterWithdrawal.ledger.objects 1).map OperationRecord.updatedAt =
      some "2026-08-05T10:00:02+00:00" := by decide
  obtain ⟨r, hn, hr⟩ := Option.map_eq_some_iff.mp hrec
  obtain ⟨hst, hat⟩ := Prod.mk.inj hr
  obtain ⟨⟨r', hn', -, -, hsame⟩, -⟩ :=
    (h exampleConfig).kept _ _ 1 r hreach hrun hn (Or.inl (by rw [hst]; decide))
  rw [hn', Option.map_some, hsame, hat] at hrec'
  exact absurd hrec' (by decide)

end AgentsRemember.Harness
