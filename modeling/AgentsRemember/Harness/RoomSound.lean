import AgentsRemember.Harness.Simulation

/-!
# Room for one more

An operation in the timeline is the active one or queued, so each row that its
eviction rule must keep counts as live. Whenever fewer rows than the timeline
holds are live, the ledger finds room. An accepted reconciliation whose answer
finds a queued operation under the same key breaks this; the runs here are
without one.
-/

namespace AgentsRemember.Harness

open Lib

namespace Lane

def QueuedAt (v : Lane) (k : OperationKey) : Prop :=
  ∃ n r, v.byKey k = some n ∧ v.record n = some r ∧ r.state = .queued

structure Waiting (v : Lane) : Prop where
  listed : ∀ k ∈ v.timeline, v.active = some k ∨ v.QueuedAt k
  sending : ∀ n, v.dispatcher = .sending n → ∃ r, v.record n = some r ∧ r.state ≠ .queued

def FindsSent : Move → Prop
  | .adopt _ r _ => r.state ≠ .queued
  | _ => True

section
variable {v w : Lane} {r r' : OperationRecord} {m : Move} {k : OperationKey}

theorem Waiting.congr (h : v.Waiting) (hr : w.record = v.record) (hk : w.byKey = v.byKey) (ht : w.timeline = v.timeline)
    (ha : w.active = v.active) (hd : w.dispatcher = v.dispatcher) : w.Waiting := by
  obtain ⟨h1, h2⟩ := h
  constructor <;> simp only [QueuedAt, hr, hk, ht, ha, hd] <;> assumption

variable {d : Dispatcher}

theorem Waiting.idle (h : v.Waiting) (hd : ∀ n, d ≠ .sending n) : (v.goto d).Waiting :=
  ⟨h.listed, fun n hn => absurd hn (hd n)⟩

theorem QueuedAt.put (hs : v.Shape) (h : v.QueuedAt k) (hw : v.Writes r r') (hk : k ≠ r.key ∨ r'.state = .queued) :
    (v.put r').QueuedAt k := by
  obtain ⟨n, r₀, hn, hr₀, hq⟩ := h
  refine ⟨n, if n = r'.sequence then r' else r₀, hn, ?_, ?_⟩
  · rw [put_record]
    split
    · rfl
    · exact hr₀
  split
  · rename_i heq
    rw [heq, hw.seq, hw.known] at hr₀
    cases hr₀
    rw [hw.seq] at heq
    obtain ⟨r₁, hr₁, hkey⟩ := hs.keyed k n hn
    rw [heq, hw.known] at hr₁
    cases hr₁
    exact hk.resolve_left fun hne => hne hkey.symm
  · exact hq

theorem sending_put {n : Nat} (h : ∃ r₀, v.record n = some r₀ ∧ r₀.state ≠ .queued) (hw : v.Writes r r')
    (hq : r'.state = .queued → r.state = .queued) : ∃ r₀, (v.put r').record n = some r₀ ∧ r₀.state ≠ .queued := by
  obtain ⟨r₀, hr₀, hne⟩ := h
  rw [put_record]
  split
  · rename_i heq
    rw [heq, hw.seq, hw.known] at hr₀
    cases hr₀
    exact ⟨r', rfl, fun h => hne (hq h)⟩
  · exact ⟨r₀, hr₀, hne⟩

theorem Waiting.put (hs : v.Shape) (h : v.Waiting) (hw : v.Writes r r')
    (hq : r.state = .queued ↔ r'.state = .queued) : (v.put r').Waiting := by
  refine ⟨fun k hk => (h.listed k hk).imp_right fun hqueued => ?_, fun n hn => sending_put (h.sending n hn) hw hq.mpr⟩
  by_cases hkey : k = r.key
  · obtain ⟨n, r₀, hn, hr₀, hstate⟩ := hqueued
    by_cases heq : n = r.sequence
    · rw [heq, hw.known] at hr₀
      cases hr₀
      exact QueuedAt.put hs ⟨n, r, hn, by rw [heq]; exact hw.known, hstate⟩ hw (Or.inr (hq.mp hstate))
    refine ⟨n, r₀, hn, ?_, hstate⟩
    rw [put_record, hw.seq, if_neg heq]
    exact hr₀
  · exact hqueued.put hs hw (Or.inl hkey)

theorem Waiting.release (hs : v.Shape) (hq : v.Queue) (h : v.Waiting) (hw : v.Writes r r') (hp : r'.state ≠ .queued) :
    ((v.put r').release r.key).Waiting := by
  refine ⟨fun k hk => ?_, fun n hn => sending_put (h.sending n hn) hw fun h => absurd h hp⟩
  have hne : k ≠ r.key := fun heq => (hq.nodup.mem_erase_iff.mp (heq ▸ hk)).1 rfl
  rcases h.listed k (List.mem_of_mem_erase hk) with hactive | hqueued
  · left
    show (if v.active = some r.key then none else v.active) = some k
    rw [hactive, if_neg fun heq => hne (Option.some.inj heq)]
  · right
    exact hqueued.put hs hw (Or.inl hne)

theorem Waiting.activate (hs : v.Shape) (h : v.Waiting) (hw : v.Writes r r') (ha : v.active = none)
    (hd : ∀ n, d = .sending n → n = r.sequence ∧ r'.state ≠ .queued) :
    (((v.put r').setActive (some r.key)).goto d).Waiting := by
  refine ⟨fun k hk => ?_, fun n hn => ?_⟩
  · by_cases hkey : k = r.key
    · subst hkey
      exact Or.inl rfl
    rcases h.listed k hk with hactive | hqueued
    · rw [ha] at hactive
      cases hactive
    · exact Or.inr (hqueued.put hs hw (Or.inl hkey))
  obtain ⟨rfl, hne⟩ := hd n hn
  refine ⟨r', ?_, hne⟩
  show (v.put r').record r.sequence = some r'
  rw [put_record, hw.seq, if_pos rfl]

theorem Waiting.enter (hs : v.Shape) (h : v.Waiting) (hf : v.Fresh r) {t : List OperationKey}
    (ht : ∀ k ∈ t, k ∈ v.timeline ∨ k = r.key ∧ r.state = .queued) : Waiting { v.enter r with timeline := t } := by
  have hold : ∀ n r₀, v.record n = some r₀ → (v.enter r).record n = some r₀ := by
    intro n r₀ hn
    refine (enter_record_ne ?_).trans hn
    have := (hs.ordinal n r₀ hn).2
    have := hf.next
    omega
  refine ⟨fun k hk => ?_, fun n hn => ?_⟩
  · rcases ht k hk with hk | ⟨rfl, hq⟩
    · refine (h.listed k hk).imp_right fun hqueued => ?_
      obtain ⟨n, r₀, hn, hr₀, hstate⟩ := hqueued
      exact ⟨n, r₀, hf.keeps hn, hold n r₀ hr₀, hstate⟩
    · exact Or.inr ⟨r.sequence, r, enter_byKey_self, enter_record_self, hq⟩
  · obtain ⟨r₀, hr₀, hne⟩ := h.sending n hn
    exact ⟨r₀, hold n r₀ hr₀, hne⟩

theorem Waiting.drop (h : v.Waiting) (ht : r.key ∉ v.timeline) : (v.drop r).Waiting := by
  refine ⟨fun k hk => (h.listed k hk).imp_right fun hqueued => ?_, h.sending⟩
  obtain ⟨n, r₀, hn, hr₀, hstate⟩ := hqueued
  have hne : k ≠ r.key := fun heq => ht (heq ▸ hk)
  exact ⟨n, r₀, (drop_byKey_ne hne).trans hn, hr₀, hstate⟩

theorem Waiting.requeue (hv : v.Sound) (h : v.Waiting) (hm : v.enabled (.requeue r r')) :
    (v.effect (.requeue r r')).Waiting := by
  obtain ⟨hw, -, ha, hd, hst, -⟩ := hm
  obtain ⟨-, hbyKey, -⟩ := hv.queue.dispatching _ _ hw.known hd
  refine ⟨fun k hk => Or.inr ?_, fun n hn => by cases hn⟩
  show (v.put r').QueuedAt k
  rcases h.listed k hk with hactive | hqueued
  · rw [ha, Option.some.injEq] at hactive
    subst hactive
    refine ⟨r.sequence, r', hbyKey, ?_, hst⟩
    rw [put_record, hw.seq, if_pos rfl]
  · exact hqueued.put hv.shape hw (Or.inr hst)

theorem Waiting.effect (hv : v.Sound) (h : v.Waiting) (hm : v.enabled m) (hok : FindsSent m) : (v.effect m).Waiting := by
  have hs := hv.shape
  cases m with
  | enrol r =>
    refine h.enter hs hm.1 fun k hk => ?_
    rcases List.mem_append.mp hk with hk | hk
    · exact Or.inl hk
    · exact Or.inr ⟨List.mem_singleton.mp hk, hm.2⟩
  | refuse r => exact (h.enter hs hm.1 (t := v.timeline) fun k hk => Or.inl hk).congr rfl rfl rfl rfl rfl
  | evict r => exact h.drop hm.2.1
  | ask | forget => exact h.congr rfl rfl rfl rfl rfl
  | withdraw r r' =>
    obtain ⟨hw, -, hq, hst, -⟩ := hm
    have hreleased := h.release hs hv.queue hw (by simp [hst])
    refine ⟨fun k hk => ?_, hreleased.sending⟩
    have hne : k ≠ r.key := fun heq => (hv.queue.nodup.mem_erase_iff.mp (heq ▸ hk)).1 rfl
    exact (h.listed k (List.mem_of_mem_erase hk)).imp_right fun hqueued => hqueued.put hs hw (Or.inl hne)
  | adopt i r r' =>
    obtain ⟨hw, -, -, hst, -⟩ := hm
    exact (h.put hs hw ⟨fun hq => absurd hq hok, fun hq => absurd (hst.symm.trans hq) (by simp)⟩).congr rfl rfl rfl rfl rfl
  | dismiss i r r' =>
    obtain ⟨hw, -, -, hp, -⟩ := hm
    exact (h.release hs hv.queue hw hp.1).congr rfl rfl rfl rfl rfl
  | note i r r' =>
    obtain ⟨hw, -, -, hst, -⟩ := hm
    exact (h.put hs hw (by rw [hst])).congr rfl rfl rfl rfl rfl
  | resolve r r' =>
    obtain ⟨hw, -, -, hp, -⟩ := hm
    exact (h.release hs hv.queue hw hp.1).congr rfl rfl rfl rfl rfl
  | observe r r' =>
    obtain ⟨hw, -, -, hst, hst', -⟩ := hm
    exact (h.put hs hw (by rw [hst, hst'])).congr rfl rfl rfl rfl rfl
  | complete r r' =>
    obtain ⟨hw, -, -, -, hst, -⟩ := hm
    exact (h.release hs hv.queue hw (by simp [hst])).congr rfl rfl rfl rfl rfl
  | idle => exact h.idle (by simp)
  | look r => exact h.idle (by simp)
  | decline r r' =>
    obtain ⟨hw, -, hst, -⟩ := hm
    exact (h.put hs hw (by rw [hst])).idle (by simp)
  | bar r r' =>
    obtain ⟨hw, hd, -, -⟩ := hm
    exact h.activate hs hw (hv.queue.free _ hd) (by simp)
  | claim r r' =>
    obtain ⟨hw, -, -, ha, -, hst, -⟩ := hm
    exact (h.activate hs hw ha fun n hn => ⟨(Dispatcher.sending.inj hn).symm, by simp [hst]⟩).congr rfl rfl rfl rfl rfl
  | requeue r r' => exact h.requeue hv hm
  | blur r r' =>
    obtain ⟨hw, hd, hst, -⟩ := hm
    -- What is being sent is not queued.
    obtain ⟨r₀, hr₀, hne⟩ := h.sending _ hd
    rw [hw.known, Option.some.injEq] at hr₀
    subst hr₀
    exact (h.put hs hw ⟨fun hq => absurd hq hne, fun hq => absurd (hst.symm.trans hq) (by simp)⟩).idle (by simp)
  | accept r r' =>
    obtain ⟨hw, hd, -, -, -, hst, -⟩ := hm
    obtain ⟨r₀, hr₀, hne⟩ := h.sending _ hd
    rw [hw.known, Option.some.injEq] at hr₀
    subst hr₀
    exact (h.put hs hw ⟨fun hq => absurd hq hne, fun hq => absurd (hst.symm.trans hq) (by simp)⟩).idle (by simp)
  | finish r r' =>
    obtain ⟨hw, -, -, -, hp, -⟩ := hm
    exact ((h.release hs hv.queue hw hp.1).idle (d := .waiting) (by simp)).congr rfl rfl rfl rfl rfl
  | stop => exact h.idle (by simp)

end

end Lane

/-! ## Making room -/

namespace SubmissionLedger

theorem makeRoomIn_room {limit : Nat} {pinned : OperationKey → Bool} {counts : OperationRecord → Bool} (hlimit : 0 < limit) :
    ∀ (fuel : Nat) (l : SubmissionLedger), l.records.keys.length ≤ fuel → l.Filled →
      (∀ r ∈ l.rows, pinned r.key = true ∨ r.state ∉ evictableStates → counts r = true) → l.rows.countP counts < limit →
      (makeRoomIn limit pinned fuel l).1 = true
  | 0, l, hfuel, _, _, _ => by
    rw [makeRoomIn, decide_eq_true_eq]
    omega
  | fuel + 1, l, hfuel, hfilled, hcounts, hfew => by
    rw [makeRoomIn]
    split
    · rfl
    rename_i hfull
    cases he : l.evictable pinned with
    | none =>
      have hall : ∀ r ∈ l.rows, counts r = true := by
        intro r hr
        have hno := List.find?_eq_none.mp he r hr
        refine hcounts r hr ?_
        by_cases hp : pinned r.key = true
        · exact Or.inl hp
        · exact Or.inr fun hst => hno (by simp [hp, hst])
      rw [List.countP_eq_length.mpr hall, hfilled.length_rows] at hfew
      exact absurd hfew hfull
    | some r =>
      obtain ⟨⟨k, hk⟩, -, -⟩ := evictable_eq_some he
      obtain ⟨n, hn, hobject⟩ := byKey_eq_some.mp hk
      obtain ⟨r₀, hr₀, hkey, -⟩ := hfilled k n hn
      rw [hobject, Option.some.injEq] at hr₀
      subst hr₀
      have hfewer : (l.evict r).records.keys.length + 1 = l.records.keys.length := by
        rw [Dict.keys, Dict.keys, List.length_map, List.length_map]
        exact Dict.length_erase_of_some (hkey ▸ hn)
      have hsub := rows_evict_sublist l r
      exact makeRoomIn_room hlimit fuel (l.evict r) (by omega) (hfilled.evict r)
        (fun r' hr' => hcounts r' (hsub.subset hr')) (Nat.lt_of_le_of_lt hsub.countP_le hfew)

end SubmissionLedger

namespace Authority

def FindsSent (s : Authority) (a : AuthorityAction) : Prop :=
  ∀ i ref r result, a = .reconciled i (.ok result) → s.reconciling[i]? = some (result.requestId, ref) →
    result.state = .accepted → s.ledger.byKey (refKey ref) = some r → r.state ≠ .queued

variable {c : Config} {s : Authority} {a : AuthorityAction} {v : Lane} {m : Move}

theorem findsSent_of_explains (hok : s.FindsSent a) (he : s.Explains c a v m) : Lane.FindsSent m := by
  cases m with
  | adopt i r r' =>
    obtain ⟨-, ref, result, -, ⟨⟨i', ha, hi'⟩, hfound⟩, haccepted⟩ := he
    exact hok i' ref r result ha hi' haccepted hfound
  | _ => trivial

theorem waiting_of_reachable (h : Reachable (authoritySystem c) FindsSent s) :
    (s.lane c).Sound ∧ (s.lane c).Waiting := by
  have hstart : (init.lane c).Waiting := ⟨by simp [lane, init], fun n hn => by cases hn⟩
  refine Steps.simulated (f := lane c) (I := fun v => v.Sound ∧ v.Waiting) (fun s a t hs ht => step_moves hs.1 ht)
    ?_ h ⟨sound_init, hstart⟩
  intro s a v m w _ hok hv he hw
  obtain ⟨hm, rfl⟩ := Lane.step_eq_some.mp hw
  exact ⟨hv.1.step hw, hv.2.effect hv.1 hm (findsSent_of_explains hok he)⟩

theorem live_of_kept (hs : (s.lane c).Shape) (hw : (s.lane c).Waiting) {r : OperationRecord} (hr : r ∈ s.ledger.rows)
    (hkept : s.pinned r.key = true ∨ r.state ∉ evictableStates) : (r.live || decide (s.active = some r.key)) = true := by
  rw [Bool.or_eq_true, decide_eq_true_eq]
  rcases hkept with hpinned | hstate
  · rw [pinned, decide_eq_true_eq] at hpinned
    rcases hpinned with hactive | hlisted
    · exact Or.inr hactive
    rcases hw.listed r.key hlisted with hactive | ⟨n, r₀, hn, hr₀, hq⟩
    · exact Or.inr hactive
    obtain ⟨hk, hobject⟩ := (filled_of_shape hs).of_mem_rows hr
    have hn : s.ledger.records.get? r.key = some n := hn
    have hr₀ : s.ledger.objects n = some r₀ := hr₀
    rw [hk, Option.some.injEq] at hn
    subst hn
    rw [hobject, Option.some.injEq] at hr₀
    subst hr₀
    exact Or.inl (by simp [OperationRecord.live, hq])
  · left
    revert hstate
    cases hst : r.state <;> simp [OperationRecord.live, evictableStates, hst]

theorem hasAdmissionRoom_of_live (h : Reachable (authoritySystem c) FindsSent s)
    (hlive : s.ledger.liveCount s.active < c.timelineLimit) : (s.hasAdmissionRoom c).1 = true := by
  obtain ⟨hsound, hwaiting⟩ := waiting_of_reachable h
  have hpos : 0 < c.ledgerLimit := Nat.lt_of_lt_of_le c.positive c.covers
  rw [hasAdmissionRoom, if_pos hlive]
  exact SubmissionLedger.makeRoomIn_room hpos _ s.ledger (Nat.le_refl _) (filled_of_shape hsound.shape)
    (fun r hr => live_of_kept hsound.shape hwaiting hr) (Nat.lt_of_lt_of_le hlive c.covers)

end Authority

end AgentsRemember.Harness
