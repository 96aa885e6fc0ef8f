import AgentsRemember.Harness.Simulation

/-!
# The timeline is safe

The active operation heads an ordered timeline, nothing passes an ambiguity
barrier, a withdrawn operation is never sent and no operation is sent twice
without a certificate, in every run whose preflights that claim a send resume on
an unmoved head. The barrier after such a preflight re-checks nothing: it can
make a withdrawn operation active, off the timeline.
-/

namespace AgentsRemember.Harness

open Lib

/-! ## On the lane -/

namespace Lane

section
variable {v w : Lane} {r r' : OperationRecord} {m : Move}

structure Headed (v : Lane) : Prop where
  head : ∀ k, v.active = some k → v.timeline.head? = some k
  begun : ∀ k, v.active = some k → ∀ n r, v.record n = some r → v.byKey k = some n → r.state ≠ .queued

def AtHead (v : Lane) : Move → Prop
  | .bar r _ => v.timeline.head? = some r.key ∧ r.state = .queued
  | _ => True

theorem head?_erase {k k' : OperationKey} {l : List OperationKey} (h : l.head? = some k) (hne : k ≠ k') :
    (l.erase k').head? = some k := by
  cases l with
  | nil => cases h
  | cons x l =>
    cases h
    rw [List.erase_cons_tail (by simpa using hne)]
    rfl

theorem Headed.congr (h : v.Headed) (hr : w.record = v.record) (hk : w.byKey = v.byKey) (ht : w.timeline = v.timeline)
    (ha : w.active = v.active) : w.Headed := by
  obtain ⟨h1, h2⟩ := h
  constructor <;> simp only [hr, hk, ht, ha] <;> assumption

theorem Headed.put (h : v.Headed) (hw : v.Writes r r') (hq : r'.state = .queued → r.state = .queued) :
    (v.put r').Headed := by
  refine ⟨h.head, fun k ha => forall_put (h.begun k ha) fun hk hst => ?_⟩
  rw [hw.seq] at hk
  exact h.begun k ha _ r hw.known hk (hq hst)

theorem Headed.release (h : v.Headed) (k : OperationKey) : (v.release k).Headed := by
  refine ⟨fun k' ha => ?_, fun k' ha => h.begun k' (release_active ha).1⟩
  exact head?_erase (h.head k' (release_active ha).1) (release_active ha).2

theorem Headed.inactive (ha : v.active = none) : v.Headed := by
  constructor <;> simp [ha]

theorem Headed.activate (hw : v.Writes r r') (hhead : v.timeline.head? = some r.key)
    (hk : v.byKey r.key = some r.sequence) (hst : r'.state ≠ .queued) : ((v.put r').setActive (some r.key)).Headed := by
  refine ⟨fun k ha => ?_, fun k ha n r₀ hn hk' => ?_⟩
  · cases ha
    exact hhead
  cases ha
  have hs : n = r'.sequence := by
    rw [hw.seq]
    exact Option.some.inj (hk'.symm.trans hk)
  rw [show ((v.put r').setActive (some r.key)).record = (v.put r').record from rfl, put_record, if_pos hs] at hn
  cases hn
  exact hst

theorem Headed.enter (h : v.Headed) (hs : v.Shape) (hq : v.Queue) (hf : v.Fresh r) : (v.enter r).Headed := by
  refine ⟨h.head, fun k ha => forall_put (fun n r₀ hn hk => ?_) fun hk => ?_⟩
  · have hne : k ≠ r.key := by
      intro heq
      subst heq
      rw [enter_byKey_self] at hk
      obtain ⟨-, hle⟩ := hs.ordinal n r₀ hn
      have := hf.next
      have := Option.some.inj hk
      omega
    rw [enter_byKey_ne hne] at hk
    exact h.begun k ha n r₀ hn hk
  obtain ⟨n, hn⟩ := hq.listed k (List.mem_of_mem_head? (h.head k ha))
  rw [hf.keeps hn] at hk
  obtain ⟨r₀, h₀, -⟩ := hs.keyed k n hn
  obtain ⟨-, hle⟩ := hs.ordinal n r₀ h₀
  have := hf.next
  have := Option.some.inj hk
  omega

theorem Headed.effect (hv : v.Sound) (h : v.Headed) (hm : v.enabled m) (hok : v.AtHead m) : (v.effect m).Headed := by
  cases m with
  | enrol r =>
    have ha := h.enter hv.shape hv.queue hm.1
    refine ⟨fun k hk => ?_, ha.begun⟩
    have := h.head k hk
    show (v.timeline ++ [r.key]).head? = some k
    rw [List.head?_append, this]
    rfl
  | refuse r => exact (h.enter hv.shape hv.queue hm.1).congr rfl rfl rfl rfl
  | evict r =>
    refine ⟨h.head, fun k ha n r₀ hn hk => h.begun k ha n r₀ hn ?_⟩
    have hne : k ≠ r.key := by
      intro heq
      subst heq
      exact hm.2.2.1 ha
    exact (drop_byKey_ne hne).symm.trans hk
  | withdraw r r' =>
    obtain ⟨hw, hr, hq, hst, -⟩ := hm
    have hp := h.put hw (by simp [hst])
    refine ⟨fun k ha => head?_erase (h.head k ha) ?_, hp.begun⟩
    intro heq
    subst heq
    exact h.begun _ ha _ r hw.known hr.1 hq
  | ask | forget | idle | look | stop => exact h.congr rfl rfl rfl rfl
  | adopt i r r' =>
    obtain ⟨hw, -, -, hst, -⟩ := hm
    exact (h.put hw (by simp [hst])).congr rfl rfl rfl rfl
  | dismiss i r r' =>
    obtain ⟨hw, -, -, hp, -⟩ := hm
    exact ((h.put hw fun hq => absurd hq hp.1).release r.key).congr rfl rfl rfl rfl
  | note i r r' =>
    obtain ⟨hw, -, -, hst, -⟩ := hm
    exact (h.put hw fun hq => hst ▸ hq).congr rfl rfl rfl rfl
  | resolve r r' =>
    obtain ⟨hw, -, -, hp, -⟩ := hm
    exact ((h.put hw fun hq => absurd hq hp.1).release r.key).congr rfl rfl rfl rfl
  | observe r r' =>
    obtain ⟨hw, -, -, -, hst, -⟩ := hm
    exact (h.put hw (by simp [hst])).congr rfl rfl rfl rfl
  | complete r r' =>
    obtain ⟨hw, -, -, -, hst, -⟩ := hm
    exact ((h.put hw (by simp [hst])).release r.key).congr rfl rfl rfl rfl
  | decline r r' =>
    obtain ⟨hw, -, hst, -⟩ := hm
    exact (h.put hw fun hq => hst ▸ hq).congr rfl rfl rfl rfl
  | bar r r' =>
    obtain ⟨hw, -, hst, -⟩ := hm
    obtain ⟨hk, -⟩ := hv.queue.queued _ _ hw.known hok.2
    exact (Headed.activate hw hok.1 hk (by simp [hst])).congr rfl rfl rfl rfl
  | claim r r' =>
    obtain ⟨hw, -, hhead, -, hq, hst, -⟩ := hm
    obtain ⟨hk, -⟩ := hv.queue.queued _ _ hw.known hq
    exact (Headed.activate hw hhead hk (by simp [hst])).congr rfl rfl rfl rfl
  | requeue r r' => exact .inactive rfl
  | blur r r' =>
    obtain ⟨hw, -, hst, -⟩ := hm
    exact (h.put hw (by simp [hst])).congr rfl rfl rfl rfl
  | accept r r' =>
    obtain ⟨hw, -, -, -, -, hst, -⟩ := hm
    exact (h.put hw (by simp [hst])).congr rfl rfl rfl rfl
  | finish r r' =>
    obtain ⟨hw, -, -, -, hp, -⟩ := hm
    exact ((h.put hw fun hq => absurd hq hp.1).release r.key).congr rfl rfl rfl rfl

end

end Lane

/-! ## On the authority -/

def Event.isCall : Event → Bool
  | .sent _ => true
  | _ => false

namespace Authority

def calls (s : Authority) : List Event := s.history.filter Event.isCall

def Engaged (s : Authority) (n : Nat) : Prop :=
  (∃ r, s.ledger.objects n = some r ∧ r.state = .dispatching) ∨ ∃ r, s.activeRecord = some r ∧ r.sequence = n

structure TimelineSafe (c : Config) (s : Authority) : Prop where
  one : ∀ n m, s.Engaged n → s.Engaged m → n = m
  head : ∀ k, s.active = some k → s.timeline.head? = some k
  nodup : s.timeline.Nodup
  retained : ∀ k ∈ s.timeline, (s.ledger.byKey k).isSome
  ordered : s.timeline.Pairwise fun k k' =>
    ∃ r r', s.ledger.byKey k = some r ∧ s.ledger.byKey k' = some r' ∧ r.sequence < r'.sequence
  barrier : ∀ a t r, s.step c a = some t → s.activeRecord = some r → r.state = .unknown → t.calls = s.calls
  buried : ∀ n, NeverAfter (· = .settled n .withdrawn) (· = .sent n) s.history
  once : ∀ n, SeparatedBy (· = .sent n) (· = .unsent n) s.history

/-- A preflight that claims it may have sent resumes while its record is still the queued head of the timeline. -/
def HeadUnmoved (s : Authority) (a : AuthorityAction) : Prop :=
  ∀ outcome at' r, a = .preflighted outcome at' → outcome.claimsSend → s.preflighting = some r →
    s.timeline.head? = some r.key ∧ r.state = .queued

section
variable {c : Config} {s t : Authority} {a : AuthorityAction} {r : OperationRecord} {v : Lane} {m : Move}

theorem atHead_of_explains (hok : s.HeadUnmoved a) (he : s.Explains c a v m) : v.AtHead m := by
  cases m with
  | bar r r' =>
    obtain ⟨rfl, hr, hhead | ⟨outcome, at', rfl, hc⟩⟩ := he
    · exact hhead
    · exact hok outcome at' r rfl hc hr
  | _ => trivial

theorem headed_of_reachable (h : Reachable (authoritySystem c) HeadUnmoved s) :
    (s.lane c).Sound ∧ (s.lane c).Headed := by
  refine Steps.simulated (f := lane c) (I := fun v => v.Sound ∧ v.Headed) (fun s a t hs ht => step_moves hs.1 ht)
    ?_ h ⟨sound_init, .inactive rfl⟩
  intro s a v m w _ hok hv he hw
  obtain ⟨hm, rfl⟩ := Lane.step_eq_some.mp hw
  exact ⟨hv.1.step hw, hv.2.effect hv.1 hm (atHead_of_explains hok he)⟩

theorem activeRecord_eq_some (hs : (s.lane c).Shape) :
    s.activeRecord = some r ↔ s.active = some r.key ∧ (s.lane c).Retained r := by
  simp only [activeRecord, Option.bind_eq_some_iff]
  constructor
  · intro hex
    obtain ⟨k, ha, hb⟩ := hex
    obtain ⟨rfl, hret⟩ := retained_of_byKey hs hb
    exact ⟨ha, hret⟩
  intro hex
  obtain ⟨ha, hk, hn⟩ := hex
  exact ⟨r.key, ha, SubmissionLedger.byKey_eq_some.mpr ⟨_, hk, hn⟩⟩

theorem active_of_engaged (hs : (s.lane c).Sound) {n : Nat} (h : s.Engaged n) :
    ∃ k, s.active = some k ∧ s.ledger.records.get? k = some n := by
  rcases h with ⟨r, hn, hd⟩ | ⟨r, ha, rfl⟩
  · obtain ⟨ha, hk, -⟩ := hs.queue.dispatching n r hn hd
    exact ⟨r.key, ha, hk⟩
  · obtain ⟨ha, hk, -⟩ := (activeRecord_eq_some hs.shape).mp ha
    exact ⟨r.key, ha, hk⟩

theorem effect_calls (hm : ∀ r r', m ≠ .claim r r') :
    (v.effect m).history.filter Event.isCall = v.history.filter Event.isCall := by
  cases m with
  | claim r r' => exact absurd rfl (hm r r')
  | _ =>
    simp [Lane.effect, Lane.enter, Lane.drop, Lane.put, Lane.log, Lane.goto, Lane.setActive, Lane.release, Lane.unlist,
      Lane.forget, Event.isCall]

theorem calls_of_active (hs : (s.lane c).Sound) (h : s.step c a = some t) (ha : s.active ≠ none) : t.calls = s.calls := by
  have hkeep := (step_moves hs h).stays (I := fun _ => True) (P := fun v => v.history.filter Event.isCall = s.calls)
    (fun _ _ _ _ _ _ => trivial) ?_ trivial rfl
  · exact hkeep.2
  intro v m w _ hv he hw
  obtain ⟨hm, rfl⟩ := Lane.step_eq_some.mp hw
  rw [effect_calls, hv]
  intro r r' heq
  subst heq
  obtain rfl : v = s.lane c := he
  exact ha hm.2.2.2.1

end

theorem timeline_safe {c : Config} {s : Authority} (h : Reachable (authoritySystem c) HeadUnmoved s) :
    s.TimelineSafe c := by
  obtain ⟨hs, hh⟩ := headed_of_reachable h
  have hbyKey : ∀ k n, s.ledger.records.get? k = some n → ∃ r, s.ledger.byKey k = some r ∧ r.sequence = n := by
    intro k n hk
    obtain ⟨r, hn, -⟩ := hs.shape.keyed k n hk
    exact ⟨r, SubmissionLedger.byKey_eq_some.mpr ⟨n, hk, hn⟩, (hs.shape.ordinal n r hn).1⟩
  refine ⟨?_, hh.head, hs.queue.nodup, ?_, ?_, ?_, hs.traced.buried, hs.traced.separated⟩
  · intro n m hn hm
    obtain ⟨k, ha, hk⟩ := active_of_engaged hs hn
    obtain ⟨k', ha', hk'⟩ := active_of_engaged hs hm
    rw [ha] at ha'
    cases ha'
    rw [hk] at hk'
    exact Option.some.inj hk'
  · intro k hk
    obtain ⟨n, hn⟩ := hs.queue.listed k hk
    obtain ⟨r, hb, -⟩ := hbyKey k n hn
    rw [hb]
    rfl
  · refine hs.queue.ordered.imp ?_
    intro k k' hex
    obtain ⟨n, n', hk, hk', hlt⟩ := hex
    obtain ⟨r, hb, rfl⟩ := hbyKey k n hk
    obtain ⟨r', hb', rfl⟩ := hbyKey k' n' hk'
    exact ⟨r, r', hb, hb', hlt⟩
  intro a t r ht ha _
  refine calls_of_active hs ht ?_
  rw [((activeRecord_eq_some (c := c) hs.shape).mp ha).1]
  simp

end Authority

/-! ## A withdrawal while the preflight runs -/

def exampleConfig : Config where
  bridgeEpoch := "epoch-1"
  timelineLimit := 4
  ledgerLimit := 8
  assetSubmitCapable := false
  payloadDigest := fun text _ => text

def examplePrompt : PromptRequest where
  requestId := "request-1"
  source := .cockpit
  text := "hello"
  submittedAt := "2026-08-05T10:00:00+00:00"

def intoPreflight : List AuthorityAction := [.install .ready .idle, .submit examplePrompt, .woken]

def inPreflight : Authority := (runFrom (authoritySystem exampleConfig) Authority.init intoPreflight).get (by decide)

theorem runs_intoPreflight : runFrom (authoritySystem exampleConfig) Authority.init intoPreflight = some inPreflight :=
  (Option.some_get _).symm

def preflightLost : AuthorityAction :=
  .preflighted (.disconnected "transport lost" true none) "2026-08-05T10:00:02+00:00"

def barrierAtHead : Authority := (inPreflight.step exampleConfig preflightLost).get (by decide)

theorem runs_preflightLost : (authoritySystem exampleConfig).step inPreflight preflightLost = some barrierAtHead :=
  (Option.some_get _).symm

theorem timeline_safe_barrierAtHead : barrierAtHead.TimelineSafe exampleConfig := by
  have hpre : Reachable (authoritySystem exampleConfig) Authority.HeadUnmoved inPreflight :=
    steps_of_runFrom (by simp [intoPreflight, Authority.HeadUnmoved]) runs_intoPreflight
  refine Authority.timeline_safe (hpre.tail ?_ runs_preflightLost)
  intro outcome at' r _ _ hr
  have hhead : inPreflight.preflighting.all fun r => inPreflight.timeline.head? = some r.key ∧ r.state = .queued := by
    decide
  rw [hr] at hhead
  simpa using hhead

def withdrawnMeanwhile : List AuthorityAction :=
  intoPreflight ++ [.withdraw "epoch-1" "request-1" true "2026-08-05T10:00:01+00:00", preflightLost]

def afterWithdrawal : Authority :=
  (runFrom (authoritySystem exampleConfig) Authority.init withdrawnMeanwhile).get (by decide)

theorem runs_withdrawnMeanwhile :
    runFrom (authoritySystem exampleConfig) Authority.init withdrawnMeanwhile = some afterWithdrawal :=
  (Option.some_get _).symm

theorem timeline_unsafe : ¬ ∀ c s, Reachable (authoritySystem c) always s → s.TimelineSafe c := by
  intro h
  have hsafe := h exampleConfig afterWithdrawal (reachable_of_runFrom runs_withdrawnMeanwhile)
  have hactive : afterWithdrawal.active = some (.prompt, "request-1") := by decide
  have hempty : afterWithdrawal.timeline.head? = none := by decide
  rw [hsafe.head _ hactive] at hempty
  cases hempty

end AgentsRemember.Harness
