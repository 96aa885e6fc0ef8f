import AgentsRemember.Harness.Dispatch

/-!
# What every run of the lane keeps

Four invariants, each over every move: how records, keys and request ids hang
together (`Shape`), who is on the timeline (`Queue`), what the history says of a
record (`Traced`), and what a suspended reconciliation still names (`Asked`).
-/

namespace AgentsRemember.Harness

open Lib

def Event.operation : Event → Nat
  | sent n | unsent n | observed n => n
  | settled n _ => n

def Tame (r r' : OperationRecord) : Prop :=
  (r'.state = .queued → r.state = .queued) ∧ (r'.state = .dispatching → r.state = .dispatching)

variable {r r' : OperationRecord} {st : SubmissionLifecycleState}

theorem Tame.of_past (h : r'.past) : Tame r r' :=
  ⟨fun hq => absurd hq h.1, fun hd => absurd hd h.2⟩

theorem Tame.of_eq (h : r'.state = r.state) : Tame r r' := ⟨h ▸ id, h ▸ id⟩

theorem Tame.past (h : Tame r r') (hr : r.past) : r'.past :=
  ⟨fun hq => hr.1 (h.1 hq), fun hd => hr.2 (h.2 hd)⟩

theorem past_of_state (h : r.state = st) (hq : st ≠ .queued) (hd : st ≠ .dispatching) : r.past := ⟨h ▸ hq, h ▸ hd⟩

theorem Tame.to (h : r'.state = st) (hq : st ≠ .queued) (hd : st ≠ .dispatching) :
    Tame r r' := .of_past (past_of_state h hq hd)

namespace Lane

variable {v w : Lane} {r r' : OperationRecord} {m : Move} {e : Event}

/-! ## Lookups after a write -/

theorem put_record (n : Nat) : (v.put r).record n = if n = r.sequence then some r else v.record n :=
  Function.update_apply ..

theorem forall_put {P : Nat → OperationRecord → Prop} (h : ∀ n r₀, v.record n = some r₀ → P n r₀)
    (hr : P r.sequence r) : ∀ n r₀, (v.put r).record n = some r₀ → P n r₀ := by
  intro n r₀ hn
  rw [put_record] at hn
  split at hn
  · rename_i hs
    cases hn
    rwa [hs]
  · exact h n r₀ hn

theorem Writes.seq (h : v.Writes r r') : r'.sequence = r.sequence := by
  rw [OperationRecord.sequence, h.same]

theorem Writes.key (h : v.Writes r r') : r'.key = r.key := by
  rw [OperationRecord.key, h.same]

variable {n : Nat} {k : OperationKey}

@[simp] theorem enter_byKey_self : (v.enter r).byKey r.key = some r.sequence := Function.update_self ..

@[simp] theorem enter_record_self : (v.enter r).record r.sequence = some r := Function.update_self ..

theorem enter_record_ne (h : n ≠ r.sequence) : (v.enter r).record n = v.record n := Function.update_of_ne h ..

theorem enter_byKey_ne (h : k ≠ r.key) : (v.enter r).byKey k = v.byKey k := Function.update_of_ne h ..

@[simp] theorem drop_byKey_self : (v.drop r).byKey r.key = none := Function.update_self ..

theorem drop_byKey_ne (h : k ≠ r.key) : (v.drop r).byKey k = v.byKey k := Function.update_of_ne h ..

theorem Fresh.ne_key (hf : v.Fresh r) (hk : v.byKey k = some n) : k ≠ r.key := by
  intro heq
  subst heq
  rw [hf.unused] at hk
  cases hk

theorem Fresh.keeps (hf : v.Fresh r) (hk : v.byKey k = some n) :
    (v.enter r).byKey k = some n := (enter_byKey_ne (hf.ne_key hk)).trans hk

theorem release_active {k' : OperationKey} (h : (v.release k).active = some k') : v.active = some k' ∧ k' ≠ k := by
  simp only [Lane.release, unlist] at h
  split at h
  · cases h
  rename_i hne
  refine ⟨h, ?_⟩
  intro heq
  subst heq
  exact hne h

/-! ## Shape -/

structure Shape (v : Lane) : Prop where
  ordinal : ∀ n r, v.record n = some r → r.sequence = n ∧ n ≤ v.sequence
  named : ∀ n r, v.record n = some r → r.ref.kind ≠ .prompt →
    r.ref.operationId = ordinalId v.epoch r.sequence r.ref.kind
  keyed : ∀ k n, v.byKey k = some n → ∃ r, v.record n = some r ∧ r.key = k
  indexed : ∀ id n, v.byKey (.prompt, id) = some n → v.promptIds id = some (.prompt, id)

theorem Shape.congr (h : v.Shape) (he : w.epoch = v.epoch) (hr : w.record = v.record) (hk : w.byKey = v.byKey)
    (hp : w.promptIds = v.promptIds) (hs : w.sequence = v.sequence) : w.Shape := by
  obtain ⟨h1, h2, h3, h4⟩ := h
  constructor <;> simp only [he, hr, hk, hp, hs] <;> assumption

theorem Shape.known_ordinal (h : v.Shape) (hn : v.record n = some r) : v.record r.sequence = some r := by
  rw [(h.ordinal n r hn).1, hn]

theorem Shape.retained (h : v.Shape) (hk : v.byKey k = some n) (hn : v.record n = some r) :
    r.key = k ∧ v.Retained r := by
  obtain ⟨r₀, h₀, rfl⟩ := h.keyed k n hk
  rw [h₀] at hn
  cases hn
  rw [← (h.ordinal n r h₀).1] at hk
  exact ⟨rfl, hk, h.known_ordinal h₀⟩

theorem Shape.put (h : v.Shape) (hw : v.Writes r r') : (v.put r').Shape := by
  have hr := h.ordinal _ _ hw.known
  refine ⟨?_, ?_, ?_, h.indexed⟩
  · apply forall_put h.ordinal
    exact ⟨rfl, hw.seq ▸ hr.2⟩
  · apply forall_put h.named
    rw [OperationRecord.sequence, hw.same]
    exact h.named _ _ hw.known
  intro k n hk
  obtain ⟨r₀, hn, rfl⟩ := h.keyed k n hk
  rw [put_record]
  by_cases hs : n = r'.sequence
  · rw [if_pos hs]
    rw [hs, hw.seq, hw.known] at hn
    cases hn
    exact ⟨r', rfl, hw.key⟩
  · rw [if_neg hs]
    exact ⟨r₀, hn, rfl⟩

theorem Shape.enter (h : v.Shape) (hf : v.Fresh r) : (v.enter r).Shape := by
  have hold : ∀ n r₀, v.record n = some r₀ → n ≠ r.sequence := by
    intro n r₀ hn
    have := (h.ordinal n r₀ hn).2
    have := hf.next
    omega
  refine ⟨?_, ?_, ?_, ?_⟩
  · refine forall_put (P := fun n r₀ => r₀.sequence = n ∧ n ≤ r.sequence) (fun n r₀ hn => ?_) ⟨rfl, le_rfl⟩
    obtain ⟨hs, hle⟩ := h.ordinal n r₀ hn
    have := hf.next
    exact ⟨hs, by omega⟩
  · exact forall_put h.named hf.named
  · intro k n hk
    by_cases hkr : k = r.key
    · subst hkr
      rw [enter_byKey_self] at hk
      cases hk
      exact ⟨r, enter_record_self, rfl⟩
    rw [enter_byKey_ne hkr] at hk
    obtain ⟨r₀, hn, rfl⟩ := h.keyed k n hk
    exact ⟨r₀, (enter_record_ne (hold n r₀ hn)).trans hn, rfl⟩
  intro id n hk
  by_cases hkr : (ControlOperationKind.prompt, id) = r.key
  · obtain ⟨hkind, hid⟩ := Prod.mk.inj hkr
    simp [Lane.enter, ← hkind, ← hid, hkr]
  rw [enter_byKey_ne hkr] at hk
  have hi := h.indexed id n hk
  by_cases hkind : r.ref.kind = .prompt
  · have hid : id ≠ r.ref.operationId := by
      intro heq
      subst heq
      exact hkr (by simp [OperationRecord.key, refKey, hkind])
    simp [Lane.enter, hkind, Function.update_of_ne hid, hi]
  · simp [Lane.enter, hkind, hi]

theorem Shape.drop (h : v.Shape) : (v.drop r).Shape := by
  have hold : ∀ k n, (v.drop r).byKey k = some n → k ≠ r.key ∧ v.byKey k = some n := by
    intro k n hk
    by_cases hkr : k = r.key
    · subst hkr
      rw [drop_byKey_self] at hk
      cases hk
    · exact ⟨hkr, by rwa [drop_byKey_ne hkr] at hk⟩
  refine ⟨h.ordinal, h.named, fun k n hk => h.keyed k n (hold k n hk).2, fun id n hk => ?_⟩
  obtain ⟨hkr, hk⟩ := hold _ n hk
  have hi := h.indexed id n hk
  by_cases hkind : r.ref.kind = .prompt
  · have hid : id ≠ r.ref.operationId := by
      intro heq
      subst heq
      exact hkr (by simp [OperationRecord.key, refKey, hkind])
    simp [Lane.drop, hkind, Function.update_of_ne hid, hi]
  · simp [Lane.drop, hkind, hi]

theorem Shape.effect (h : v.Shape) (hm : v.enabled m) : (v.effect m).Shape := by
  cases m with
  | enrol r => exact (h.enter hm.1).congr rfl rfl rfl rfl rfl
  | refuse r => exact (h.enter hm.1).congr rfl rfl rfl rfl rfl
  | evict r => exact h.drop
  | ask | forget | idle | look | stop => exact h.congr rfl rfl rfl rfl rfl
  | withdraw | adopt | dismiss | note | resolve | observe | complete | decline | bar | claim | requeue | blur
  | accept | finish => exact (h.put hm.1).congr rfl rfl rfl rfl rfl

/-! ## The timeline -/

structure Queue (v : Lane) : Prop where
  ordered : v.timeline.Pairwise fun k k' => ∃ n n', v.byKey k = some n ∧ v.byKey k' = some n' ∧ n < n'
  listed : ∀ k ∈ v.timeline, ∃ n, v.byKey k = some n
  queued : ∀ n r, v.record n = some r → r.state = .queued → v.byKey r.key = some n ∧ r.key ∈ v.timeline
  dispatching : ∀ n r, v.record n = some r → r.state = .dispatching →
    v.active = some r.key ∧ v.byKey r.key = some n ∧ r.key ∈ v.timeline
  free : ∀ n, v.dispatcher = .preflight n → v.active = none

def Cleared (v : Lane) (k : OperationKey) : Prop := ∀ n r, v.byKey k = some n → v.record n = some r → r.past

theorem cleared_put (hw : v.Writes r r') (hr : v.Retained r) (hp : r'.past) : (v.put r').Cleared r.key := by
  intro n r₀ hk hn
  have hs : n = r'.sequence := by
    rw [hw.seq]
    exact Option.some.inj (hk.symm.trans hr.1)
  rw [put_record, if_pos hs] at hn
  cases hn
  exact hp

theorem Queue.congr (h : v.Queue) (hr : w.record = v.record) (hk : w.byKey = v.byKey) (ht : w.timeline = v.timeline)
    (ha : w.active = v.active) (hd : w.dispatcher = v.dispatcher) : w.Queue := by
  obtain ⟨h1, h2, h3, h4, h5⟩ := h
  constructor <;> simp only [hr, hk, ht, ha, hd] <;> assumption

theorem Queue.put (h : v.Queue) (hw : v.Writes r r') (ht : Tame r r') : (v.put r').Queue := by
  refine ⟨h.ordered, h.listed, ?_, ?_, h.free⟩
  · apply forall_put h.queued
    rw [hw.key, hw.seq]
    exact fun hq => h.queued _ _ hw.known (ht.1 hq)
  apply forall_put h.dispatching
  rw [hw.key, hw.seq]
  exact fun hd => h.dispatching _ _ hw.known (ht.2 hd)

theorem Queue.goto (h : v.Queue) {d : Dispatcher} (hd : ∀ n, d = .preflight n → v.active = none) :
    (v.goto d).Queue := { h with free := hd }

theorem Queue.nodup (h : v.Queue) : v.timeline.Nodup := by
  refine h.ordered.imp ?_
  intro k k' hex heq
  obtain ⟨n, n', hk, hk', hlt⟩ := hex
  subst heq
  rw [hk] at hk'
  cases hk'
  exact lt_irrefl n hlt

theorem Queue.release (h : v.Queue) (hc : v.Cleared k) : (v.release k).Queue := by
  refine ⟨h.ordered.sublist List.erase_sublist, fun k' hk => h.listed k' (List.mem_of_mem_erase hk), ?_, ?_, ?_⟩
  · intro n r hn hq
    obtain ⟨hk, ht⟩ := h.queued n r hn hq
    have hne : r.key ≠ k := by
      intro heq
      subst heq
      exact (hc n r hk hn).1 hq
    exact ⟨hk, (List.mem_erase_of_ne hne).mpr ht⟩
  · intro n r hn hd
    obtain ⟨ha, hk, ht⟩ := h.dispatching n r hn hd
    have hne : r.key ≠ k := by
      intro heq
      subst heq
      exact (hc n r hk hn).2 hd
    exact ⟨by simp [Lane.release, unlist, ha, hne], hk, (List.mem_erase_of_ne hne).mpr ht⟩
  · intro n hn
    simp [Lane.release, unlist, h.free n hn]

theorem Queue.unlist (h : v.Queue) (hc : v.Cleared k) : (v.unlist k).Queue := by
  obtain ⟨h1, h2, h3, h4, -⟩ := h.release hc
  refine ⟨h1, h2, h3, fun n r hn hd => ?_, h.free⟩
  exact ⟨(h.dispatching n r hn hd).1, (h4 n r hn hd).2⟩

theorem Queue.enter (h : v.Queue) (hs : v.Shape) (hf : v.Fresh r) (hd : r.state ≠ .dispatching)
    {t : List OperationKey} (ht : t = v.timeline ∧ r.state ≠ .queued ∨ t = v.timeline ++ [r.key]) :
    Queue { v.enter r with timeline := t } := by
  have hmem : ∀ k ∈ v.timeline, k ∈ t := by
    intro k hk
    rcases ht with ⟨rfl, -⟩ | rfl
    · exact hk
    · exact List.mem_append_left _ hk
  have hord : v.timeline.Pairwise fun k k' =>
      ∃ n n', (v.enter r).byKey k = some n ∧ (v.enter r).byKey k' = some n' ∧ n < n' := by
    refine h.ordered.imp ?_
    intro k k' hex
    obtain ⟨n, n', hk, hk', hlt⟩ := hex
    exact ⟨n, n', hf.keeps hk, hf.keeps hk', hlt⟩
  have hlist : ∀ k ∈ v.timeline, ∃ n, (v.enter r).byKey k = some n ∧ n < r.sequence := by
    intro k hk
    obtain ⟨n, hn⟩ := h.listed k hk
    obtain ⟨r₀, h₀, -⟩ := hs.keyed k n hn
    have := (hs.ordinal n r₀ h₀).2
    have := hf.next
    exact ⟨n, hf.keeps hn, by omega⟩
  refine ⟨?_, ?_, ?_, ?_, h.free⟩
  · rcases ht with ⟨rfl, -⟩ | rfl
    · exact hord
    refine List.pairwise_append.mpr ⟨hord, List.pairwise_singleton .., fun k hk k' hk' => ?_⟩
    obtain ⟨n, hn, hlt⟩ := hlist k hk
    rw [List.mem_singleton.mp hk']
    exact ⟨n, _, hn, enter_byKey_self, hlt⟩
  · intro k hk
    rcases ht with ⟨rfl, -⟩ | rfl
    · exact (hlist k hk).imp fun n hn => hn.1
    rcases List.mem_append.mp hk with hk | hk
    · exact (hlist k hk).imp fun n hn => hn.1
    · exact ⟨_, List.mem_singleton.mp hk ▸ enter_byKey_self⟩
  · refine forall_put (fun n r₀ hn hq => ?_) (fun hq => ?_)
    · obtain ⟨hk, hm⟩ := h.queued n r₀ hn hq
      exact ⟨hf.keeps hk, hmem _ hm⟩
    rcases ht with ⟨-, hne⟩ | rfl
    · exact absurd hq hne
    · exact ⟨enter_byKey_self, by simp⟩
  refine forall_put (fun n r₀ hn hq => ?_) (fun hq => absurd hq hd)
  obtain ⟨ha, hk, hm⟩ := h.dispatching n r₀ hn hq
  exact ⟨ha, hf.keeps hk, hmem _ hm⟩

theorem Queue.drop (h : v.Queue) (ht : r.key ∉ v.timeline) : (v.drop r).Queue := by
  have hkeep : ∀ k ∈ v.timeline, (v.drop r).byKey k = v.byKey k := by
    intro k hk
    have hne : k ≠ r.key := by
      intro heq
      subst heq
      exact ht hk
    exact drop_byKey_ne hne
  refine ⟨?_, fun k hk => hkeep k hk ▸ h.listed k hk, fun n r₀ hn hq => ?_, fun n r₀ hn hd => ?_, h.free⟩
  · refine h.ordered.imp_of_mem ?_
    intro k k' hk hk' hlt
    rwa [hkeep k hk, hkeep k' hk']
  · obtain ⟨hk, hm⟩ := h.queued n r₀ hn hq
    exact ⟨hkeep _ hm ▸ hk, hm⟩
  · obtain ⟨ha, hk, hm⟩ := h.dispatching n r₀ hn hd
    exact ⟨ha, hkeep _ hm ▸ hk, hm⟩

theorem Queue.none_dispatching (h : v.Queue) (ha : v.active = none) (hn : v.record n = some r) :
    r.state ≠ .dispatching := by
  intro hd
  have := (h.dispatching n r hn hd).1
  rw [ha] at this
  cases this

theorem Queue.claim (h : v.Queue) (hm : v.enabled (.claim r r')) : (v.effect (.claim r r')).Queue := by
  obtain ⟨hw, -, -, ha, hq, hst, -⟩ := hm
  obtain ⟨hk, ht⟩ := h.queued _ _ hw.known hq
  refine ⟨h.ordered, h.listed, ?_, ?_, by simp [Lane.effect, Lane.goto]⟩
  · refine forall_put h.queued (fun hq => ?_)
    rw [hst] at hq
    cases hq
  refine forall_put (fun n r₀ hn hd => absurd hd (h.none_dispatching ha hn)) (fun _ => ?_)
  rw [hw.key, hw.seq]
  exact ⟨rfl, hk, ht⟩

theorem Queue.requeue (h : v.Queue) (hm : v.enabled (.requeue r r')) : (v.effect (.requeue r r')).Queue := by
  obtain ⟨hw, -, ha, hd, hst, -⟩ := hm
  obtain ⟨-, hk, ht⟩ := h.dispatching _ _ hw.known hd
  refine ⟨h.ordered, h.listed, ?_, ?_, fun _ _ => rfl⟩
  · refine forall_put h.queued (fun _ => ?_)
    rw [hw.key, hw.seq]
    exact ⟨hk, ht⟩
  intro n r₀ hn hd₀
  exfalso
  rw [show (v.effect (.requeue r r')).record = (v.put r').record from rfl, put_record] at hn
  split at hn
  · cases hn
    rw [hst] at hd₀
    cases hd₀
  rename_i hne
  obtain ⟨ha₀, hk₀, -⟩ := h.dispatching n r₀ hn hd₀
  rw [ha] at ha₀
  have he : r.key = r₀.key := Option.some.inj ha₀
  rw [← he, hk] at hk₀
  exact hne (by rw [hw.seq]; exact (Option.some.inj hk₀).symm)

theorem Queue.effect (hs : v.Shape) (h : v.Queue) (hm : v.enabled m) : (v.effect m).Queue := by
  cases m with
  | enrol r => exact h.enter hs hm.1 (by simp [hm.2]) (Or.inr rfl)
  | refuse r =>
    have := h.enter hs hm.1 (by simp [hm.2]) (t := v.timeline) (Or.inl ⟨rfl, by simp [hm.2]⟩)
    exact this.congr rfl rfl rfl rfl rfl
  | evict r => exact h.drop hm.2.1
  | withdraw r r' =>
    obtain ⟨hw, hr, -, hst, -⟩ := hm
    have hp : r'.past := past_of_state hst (by simp) (by simp)
    exact ((h.put hw (.of_past hp)).unlist (cleared_put hw hr hp)).congr rfl rfl rfl rfl rfl
  | ask | forget => exact h.congr rfl rfl rfl rfl rfl
  | adopt i r r' =>
    obtain ⟨hw, -, -, hst, -⟩ := hm
    exact (h.put hw (.to hst (by simp) (by simp))).congr rfl rfl rfl rfl rfl
  | dismiss i r r' =>
    obtain ⟨hw, hr, -, hp, -⟩ := hm
    exact ((h.put hw (.of_past hp)).release (cleared_put hw hr hp)).congr rfl rfl rfl rfl rfl
  | note i r r' =>
    obtain ⟨hw, -, -, hst, -⟩ := hm
    exact (h.put hw (.of_eq hst)).congr rfl rfl rfl rfl rfl
  | resolve r r' =>
    obtain ⟨hw, hr, -, hp, -⟩ := hm
    exact ((h.put hw (.of_past hp)).release (cleared_put hw hr hp)).congr rfl rfl rfl rfl rfl
  | observe r r' =>
    obtain ⟨hw, -, -, hst, hst', -⟩ := hm
    exact (h.put hw (.of_eq (hst'.trans hst.symm))).congr rfl rfl rfl rfl rfl
  | complete r r' =>
    obtain ⟨hw, hr, -, -, hst, -⟩ := hm
    have hp : r'.past := past_of_state hst (by simp) (by simp)
    exact ((h.put hw (.of_past hp)).release (cleared_put hw hr hp)).congr rfl rfl rfl rfl rfl
  | idle => exact h.goto (by simp)
  | look r => exact h.goto fun _ _ => hm.2.1
  | decline r r' =>
    obtain ⟨hw, -, hst, -⟩ := hm
    exact (h.put hw (.of_eq hst)).goto (by simp)
  | bar r r' =>
    obtain ⟨hw, hd, hst, -⟩ := hm
    have ha : v.active = none := h.free _ hd
    obtain ⟨h1, h2, h3, -, -⟩ := h.put hw (.to hst (by simp) (by simp))
    refine ⟨h1, h2, h3, ?_, by simp [Lane.effect, Lane.goto]⟩
    refine forall_put (fun n r₀ hn hd => absurd hd (h.none_dispatching ha hn)) (fun hd => ?_)
    rw [hst] at hd
    cases hd
  | claim r r' => exact h.claim hm
  | requeue r r' => exact h.requeue hm
  | blur r r' =>
    obtain ⟨hw, -, hst, -⟩ := hm
    exact (h.put hw (.to hst (by simp) (by simp))).goto (by simp)
  | accept r r' =>
    obtain ⟨hw, -, -, -, -, hst, -⟩ := hm
    exact (h.put hw (.to hst (by simp) (by simp))).goto (by simp)
  | finish r r' =>
    obtain ⟨hw, -, hr, -, hp, -⟩ := hm
    exact (((h.put hw (.of_past hp)).release (cleared_put hw hr hp)).goto (d := .waiting) (by simp)).congr
      rfl rfl rfl rfl rfl
  | stop => exact h.goto (by simp)

/-! ## The history -/

structure Traced (v : Lane) : Prop where
  known : ∀ e ∈ v.history, e.operation ≤ v.sequence
  settled : ∀ n r, v.record n = some r → ∀ st, .settled n st ∈ v.history → r.past
  called : ∀ n r, v.record n = some r → r.state = .dispatching → .sent n ∈ v.history
  resendable : ∀ n r, v.record n = some r → r.state = .queued → FollowedBy (· = .sent n) (· = .unsent n) v.history
  separated : ∀ n, SeparatedBy (· = .sent n) (· = .unsent n) v.history
  buried : ∀ n, NeverAfter (· = .settled n .withdrawn) (· = .sent n) v.history

theorem Traced.congr (h : v.Traced) (hr : w.record = v.record) (hh : w.history = v.history)
    (hs : w.sequence = v.sequence) : w.Traced := by
  obtain ⟨h1, h2, h3, h4, h5, h6⟩ := h
  constructor <;> simp only [hr, hh, hs] <;> assumption

theorem Traced.put (h : v.Traced) (hw : v.Writes r r') (ht : Tame r r') : (v.put r').Traced := by
  refine ⟨h.known, ?_, ?_, ?_, h.separated, h.buried⟩
  · apply forall_put h.settled
    rw [hw.seq]
    exact fun st he => ht.past (h.settled _ _ hw.known st he)
  · apply forall_put h.called
    rw [hw.seq]
    exact fun hd => h.called _ _ hw.known (ht.2 hd)
  apply forall_put h.resendable
  rw [hw.seq]
  exact fun hq => h.resendable _ _ hw.known (ht.1 hq)

theorem Traced.log (h : v.Traced) (he : ∀ n, e ≠ .sent n) (hk : e.operation ≤ v.sequence)
    (hp : ∀ n r, v.record n = some r → ∀ st, e = .settled n st → r.past) : (v.log e).Traced := by
  refine ⟨?_, ?_, ?_, ?_, ?_, ?_⟩
  · simp only [Lane.log, List.forall_mem_append, List.forall_mem_singleton]
    exact ⟨h.known, hk⟩
  · intro n r hn st hm
    rcases List.mem_append.mp hm with hm | hm
    · exact h.settled n r hn st hm
    · exact hp n r hn st (List.mem_singleton.mp hm).symm
  · exact fun n r hn hd => List.mem_append_left _ (h.called n r hn hd)
  · exact fun n r hn hq => (h.resendable n r hn hq).concat (he n)
  · exact fun n => (h.separated n).concat fun hs => absurd hs (he n)
  · exact fun n => (h.buried n).concat fun hs => absurd hs (he n)

theorem Traced.settle (h : v.Traced) (hw : v.Writes r r') (hs : v.Shape) (hp : r'.past) {st : SubmissionLifecycleState} :
    ((v.put r').log (.settled r.sequence st)).Traced := by
  refine (h.put hw (.of_past hp)).log (by simp) (hs.ordinal _ _ hw.known).2 ?_
  intro n r₀ hn st' he
  cases he
  rw [put_record, if_pos hw.seq.symm] at hn
  cases hn
  exact hp

theorem Traced.enter (h : v.Traced) (hf : v.Fresh r) (hd : r.state ≠ .dispatching) :
    (v.enter r).Traced := by
  have hnew : ∀ e ∈ v.history, e.operation ≠ r.sequence := by
    intro e he
    have := h.known e he
    have := hf.next
    omega
  refine ⟨fun e he => ?_, ?_, ?_, ?_, h.separated, h.buried⟩
  · show e.operation ≤ r.sequence
    have := h.known e he
    have := hf.next
    omega
  · exact forall_put h.settled fun st he => absurd rfl (hnew _ he)
  · exact forall_put h.called fun hd' => absurd hd' hd
  refine forall_put h.resendable fun _ => ?_
  intro a x b (hl : v.history = _) heq
  subst heq
  exact absurd rfl (hnew (.sent r.sequence) (by simp [hl]))

theorem Traced.claim (h : v.Traced) (hs : v.Shape) (hm : v.enabled (.claim r r')) : (v.effect (.claim r r')).Traced := by
  obtain ⟨hw, -, -, -, hq, hst, -⟩ := hm
  have hpast : ∀ st, .settled r.sequence st ∉ v.history := fun st he => (h.settled _ _ hw.known st he).1 hq
  refine ⟨?_, ?_, ?_, ?_, fun n => ?_, fun n => ?_⟩
  · show ∀ e ∈ v.history ++ [.sent r.sequence], e.operation ≤ v.sequence
    simp only [List.forall_mem_append, List.forall_mem_singleton]
    exact ⟨h.known, (hs.ordinal _ _ hw.known).2⟩
  · refine forall_put (fun n r₀ hn st he => ?_) (fun st he => ?_)
    · rcases List.mem_append.mp he with he | he
      · exact h.settled n r₀ hn st he
      · simp at he
    rcases List.mem_append.mp he with he | he
    · rw [hw.seq] at he
      exact absurd he (hpast st)
    · simp at he
  · refine forall_put (fun n r₀ hn hd => List.mem_append_left _ (h.called n r₀ hn hd)) (fun _ => ?_)
    rw [hw.seq]
    exact List.mem_append_right _ (by simp)
  · intro n r₀ hn hq₀
    rw [show (v.effect (.claim r r')).record = (v.put r').record from rfl, put_record] at hn
    split at hn
    · cases hn
      rw [hst] at hq₀
      cases hq₀
    rename_i hne
    have hne' : Event.sent r.sequence ≠ .sent n := by
      intro he
      cases he
      exact hne hw.seq.symm
    exact (h.resendable n r₀ hn hq₀).concat hne'
  · refine (h.separated n).concat fun he => ?_
    cases he
    exact h.resendable _ _ hw.known hq
  · refine (h.buried n).concat fun he x hx hx' => ?_
    cases he
    exact hpast _ (hx' ▸ hx)

theorem Traced.requeue (h : v.Traced) (hs : v.Shape) (hm : v.enabled (.requeue r r')) : (v.effect (.requeue r r')).Traced := by
  obtain ⟨hw, -, -, hd, hst, -⟩ := hm
  have hpast : ∀ st, .settled r.sequence st ∉ v.history := fun st he => (h.settled _ _ hw.known st he).2 hd
  have hl := h.log (e := .unsent r.sequence) (by simp) (hs.ordinal _ _ hw.known).2 (by simp)
  refine ⟨hl.known, ?_, ?_, ?_, hl.separated, hl.buried⟩
  · refine forall_put hl.settled fun st he => ?_
    rw [hw.seq] at he
    rcases List.mem_append.mp he with he | he
    · exact absurd he (hpast st)
    · simp at he
  · refine forall_put hl.called fun hd' => ?_
    rw [hst] at hd'
    cases hd'
  refine forall_put hl.resendable fun _ => ?_
  rw [hw.seq]
  exact followedBy_concat (by simp) rfl

theorem Traced.effect (hs : v.Shape) (h : v.Traced) (hm : v.enabled m) : (v.effect m).Traced := by
  cases m with
  | enrol r => exact (h.enter hm.1 (by simp [hm.2])).congr rfl rfl rfl
  | refuse r =>
    have ha := h.enter hm.1 (by simp [hm.2])
    refine ha.log (by simp) le_rfl ?_
    intro n r₀ hn st he
    cases he
    rw [enter_record_self] at hn
    cases hn
    exact past_of_state hm.2 (by simp) (by simp)
  | evict | ask | forget | idle | look | stop => exact h.congr rfl rfl rfl
  | withdraw r r' =>
    obtain ⟨hw, -, -, hst, -⟩ := hm
    exact (h.settle hw hs (past_of_state hst (by simp) (by simp))).congr rfl rfl rfl
  | adopt i r r' =>
    obtain ⟨hw, -, -, hst, -⟩ := hm
    exact (h.put hw (.to hst (by simp) (by simp))).congr rfl rfl rfl
  | dismiss i r r' =>
    obtain ⟨hw, -, -, hp, -⟩ := hm
    exact (h.settle hw hs hp).congr rfl rfl rfl
  | note i r r' =>
    obtain ⟨hw, -, -, hst, -⟩ := hm
    exact (h.put hw (.of_eq hst)).congr rfl rfl rfl
  | resolve r r' =>
    obtain ⟨hw, -, -, hp, -⟩ := hm
    exact (h.settle hw hs hp).congr rfl rfl rfl
  | observe r r' =>
    obtain ⟨hw, -, -, hst, hst', -⟩ := hm
    exact (h.put hw (.of_eq (hst'.trans hst.symm))).log (by simp) (hs.ordinal _ _ hw.known).2 (by simp)
  | complete r r' =>
    obtain ⟨hw, -, -, -, hst, -⟩ := hm
    have hl := h.log (e := .observed r.sequence) (by simp) (hs.ordinal _ _ hw.known).2 (by simp)
    have hw' : (v.log (.observed r.sequence)).Writes r r' := ⟨hw.known, hw.same⟩
    exact (hl.settle hw' (hs.congr rfl rfl rfl rfl rfl) (past_of_state hst (by simp) (by simp))).congr rfl rfl rfl
  | decline r r' =>
    obtain ⟨hw, -, hst, -⟩ := hm
    exact (h.put hw (.of_eq hst)).congr rfl rfl rfl
  | bar r r' =>
    obtain ⟨hw, -, hst, -⟩ := hm
    exact (h.put hw (.to hst (by simp) (by simp))).congr rfl rfl rfl
  | claim r r' => exact h.claim hs hm
  | requeue r r' => exact h.requeue hs hm
  | blur r r' =>
    obtain ⟨hw, -, hst, -⟩ := hm
    exact (h.put hw (.to hst (by simp) (by simp))).congr rfl rfl rfl
  | accept r r' =>
    obtain ⟨hw, -, -, -, -, hst, -⟩ := hm
    exact (h.put hw (.to hst (by simp) (by simp))).congr rfl rfl rfl
  | finish r r' =>
    obtain ⟨hw, -, -, -, hp, -⟩ := hm
    exact (h.settle hw hs hp).congr rfl rfl rfl

/-! ## Suspended reconciliations -/

/-- A reconciliation asked about a record that had left the queue, and records do not go back. -/
def Asked (v : Lane) : Prop := ∀ ref ∈ v.reconciling, ∃ r, v.record ref.sequence = some r ∧ r.ref = ref ∧ r.past

theorem Asked.congr (h : v.Asked) (hr : w.record = v.record) (hc : ∀ ref ∈ w.reconciling, ref ∈ v.reconciling) :
    w.Asked := fun ref hm => hr ▸ h ref (hc ref hm)

theorem Asked.put (h : v.Asked) (hw : v.Writes r r') (ht : r.past → r'.past) : (v.put r').Asked := by
  intro ref hm
  obtain ⟨r₀, hn, href, hp⟩ := h ref hm
  rw [put_record]
  by_cases hs : ref.sequence = r'.sequence
  · rw [hs, hw.seq, hw.known] at hn
    cases hn
    rw [if_pos hs]
    exact ⟨r', rfl, hw.same.trans href, ht hp⟩
  · rw [if_neg hs]
    exact ⟨r₀, hn, href, hp⟩

theorem Asked.enter (h : v.Asked) (hs : v.Shape) (hf : v.Fresh r) : (v.enter r).Asked := by
  intro ref hm
  obtain ⟨r₀, hn, href, hp⟩ := h ref hm
  have hne : ref.sequence ≠ r.sequence := by
    have := (hs.ordinal _ _ hn).2
    have := hf.next
    omega
  exact ⟨r₀, (enter_record_ne hne).trans hn, href, hp⟩

theorem Asked.effect (hs : v.Shape) (h : v.Asked) (hm : v.enabled m) : (v.effect m).Asked := by
  cases m with
  | enrol r => exact (h.enter hs hm.1).congr rfl fun _ => id
  | refuse r => exact (h.enter hs hm.1).congr rfl fun _ => id
  | evict | idle | look | stop => exact h.congr rfl fun _ => id
  | forget => exact h.congr rfl fun _ => List.mem_of_mem_eraseIdx
  | ask r =>
    intro ref hm'
    rcases List.mem_append.mp hm' with hm' | hm'
    · exact h ref hm'
    · rw [List.mem_singleton.mp hm']
      exact ⟨r, hm.1.2, rfl, past_of_state hm.2 (by simp) (by simp)⟩
  | withdraw r r' => exact (h.put hm.1 fun _ => past_of_state hm.2.2.2.1 (by simp) (by simp)).congr rfl fun _ => id
  | adopt i r r' =>
    obtain ⟨hw, -, -, hst, -⟩ := hm
    exact (h.put hw fun _ => past_of_state hst (by simp) (by simp)).congr rfl fun _ => List.mem_of_mem_eraseIdx
  | dismiss i r r' =>
    obtain ⟨hw, -, -, hp, -⟩ := hm
    exact (h.put hw fun _ => hp).congr rfl fun _ => List.mem_of_mem_eraseIdx
  | note i r r' =>
    obtain ⟨hw, -, -, hst, -⟩ := hm
    exact (h.put hw (Tame.of_eq hst).past).congr rfl fun _ => List.mem_of_mem_eraseIdx
  | resolve r r' =>
    obtain ⟨hw, -, -, hp, -⟩ := hm
    exact (h.put hw fun _ => hp).congr rfl fun _ => id
  | observe r r' =>
    obtain ⟨hw, -, -, hst, -⟩ := hm
    exact (h.put hw fun hp => absurd hst hp.2).congr rfl fun _ => id
  | complete r r' =>
    obtain ⟨hw, -, -, -, hst, -⟩ := hm
    exact (h.put hw fun _ => past_of_state hst (by simp) (by simp)).congr rfl fun _ => id
  | decline r r' =>
    obtain ⟨hw, -, hst, -⟩ := hm
    exact (h.put hw (Tame.of_eq hst).past).congr rfl fun _ => id
  | bar r r' =>
    obtain ⟨hw, -, hst, -⟩ := hm
    exact (h.put hw fun _ => past_of_state hst (by simp) (by simp)).congr rfl fun _ => id
  | claim r r' =>
    obtain ⟨hw, -, -, -, hq, -⟩ := hm
    exact (h.put hw fun hp => absurd hq hp.1).congr rfl fun _ => id
  | requeue r r' =>
    obtain ⟨hw, -, -, hd, -⟩ := hm
    exact (h.put hw fun hp => absurd hd hp.2).congr rfl fun _ => id
  | blur r r' =>
    obtain ⟨hw, -, hst, -⟩ := hm
    exact (h.put hw fun _ => past_of_state hst (by simp) (by simp)).congr rfl fun _ => id
  | accept r r' =>
    obtain ⟨hw, -, -, -, -, hst, -⟩ := hm
    exact (h.put hw fun _ => past_of_state hst (by simp) (by simp)).congr rfl fun _ => id
  | finish r r' =>
    obtain ⟨hw, -, -, -, hp, -⟩ := hm
    exact (h.put hw fun _ => hp).congr rfl fun _ => id

structure Sound (v : Lane) : Prop where
  shape : v.Shape
  queue : v.Queue
  traced : v.Traced
  asked : v.Asked

theorem sound_start (epoch : String) : (start epoch).Sound := by
  refine ⟨⟨?_, ?_, ?_, ?_⟩, ⟨.nil, ?_, ?_, ?_, ?_⟩, ⟨?_, ?_, ?_, ?_, fun n => separatedBy_nil, fun n => neverAfter_nil⟩, ?_⟩ <;>
    simp [start, Asked]

theorem Sound.step (h : v.Sound) (hm : v.step m = some w) : w.Sound := by
  obtain ⟨he, rfl⟩ := step_eq_some.mp hm
  exact ⟨h.shape.effect he, h.queue.effect h.shape he, h.traced.effect h.shape he, h.asked.effect h.shape he⟩

end Lane

end AgentsRemember.Harness
