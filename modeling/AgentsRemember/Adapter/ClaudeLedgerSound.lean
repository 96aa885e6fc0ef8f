import AgentsRemember.Adapter.ClaudeLedger

/-!
# The correlation ledger is sound

A message goes out only where no other is: the guard under the lock refuses while
another awaits its replay or is the turn. So a process that replays each message
once and ends what it replayed is never refused, and each result ends the
operation whose replay it follows. What the guard does not see is a message that was
abandoned before its replay; what the acknowledgement bound does not see is a replay
that came as it expired.
-/

namespace AgentsRemember.Adapter.Claude

open Lib
open Harness (ControlOperationRef SendOutcome)

namespace View

/-! ## The turn -/

variable {P : Prop} {v : View} {ref : Nat} {r : ClaudeSubmission}

variable {id : String} {f : ClaudeSubmission → ClaudeSubmission} {i : Nat} {r' : ClaudeSubmission} {w : View}
  {history : Dict String Nat} {rest : List String}

theorem Turn.accepted_out (h : Turn v) (hb : Base v) (hid : id ∈ v.accepted) :
    ∃ ref r, v.Out ref r ∧ v.Held ref r ∧ r.request.requestId = id ∧ ref ∈ v.replayed := by
  obtain ⟨ref, r, hheld, hr, hrep, hcomp⟩ := h.accepted id hid
  exact ⟨ref, r, ⟨hb.replayed ref hrep, fun _ => .inl hrep, hheld.1, hcomp⟩, hheld, hr, hrep⟩

theorem out_of_unreplayed (hb : Base v) (hsent : ref ∈ v.sent) (hbroken : ref ∈ v.broken → r.abandoned = true)
    (hr : v.records[ref]? = some r) (hrep : ref ∉ v.replayed) : v.Out ref r := by
  refine ⟨hsent, fun hbr => .inr (hbroken hbr), hr, ?_⟩
  cases hcomp : r.completed with
  | false => rfl
  | true => exact absurd (hb.completed ref r hr hcomp) hrep

theorem Turn.no_turn (h : Turn v) (hb : Base v) (hout : v.Out ref r) (hrep : ref ∉ v.replayed) : v.accepted = [] := by
  refine List.eq_nil_iff_forall_not_mem.mpr fun id hid => ?_
  obtain ⟨i, r', hout', -, -, hi⟩ := h.accepted_out hb hid
  cases h.alone i r' ref r hout' hout
  exact hrep hi

theorem Out.other (ho : (v.modify ref f).Out i r') (hne : i ≠ ref) : v.Out i r' := by
  obtain ⟨r₀, hr₀, hs⟩ := modify_some ho.record
  rw [if_neg hne] at hs
  subst hs
  exact { ho with record := hr₀ }

theorem Out.of_removed (ho : (v.removePending r).Out i r') : v.Out i r' :=
  { ho with }

theorem Turn.only (h : Turn v) (hout : v.Out ref r) (hother : ∀ i r', i ≠ ref → w.Out i r' → v.Out i r')
    (ho : w.Out i r') : i = ref := by
  by_contra hne
  exact hne (h.alone i r' ref r (hother i r' hne ho) hout)

theorem Turn.modify (hf : ∀ r, SameSubmission r (f r)) (h : Turn v) (hcomp : ∀ r, (f r).completed = r.completed)
    (hab : ∀ r, (f r).abandoned = r.abandoned) (hunknown : ∀ r, r.acceptance = .unknown → (f r).acceptance = .unknown) :
    Turn (v.modify ref f) := by
  have hflags (i : Nat) (r : ClaudeSubmission) : (if i = ref then f r else r).completed = r.completed ∧
      (if i = ref then f r else r).abandoned = r.abandoned := by
    split
    · exact ⟨hcomp r, hab r⟩
    · exact ⟨rfl, rfl⟩
  have hout {i : Nat} {r' : ClaudeSubmission} (ho : (v.modify ref f).Out i r') :
      ∃ r, v.Out i r ∧ SameSubmission r r' ∧ r' = if i = ref then f r else r := by
    obtain ⟨r, hr, hs, rfl⟩ := modify_same hf ho.record
    exact ⟨r, ⟨ho.sent, fun hbr => (ho.unbroken hbr).imp_right (hflags i r).2.symm.trans, hr,
      (hflags i r).1.symm.trans ho.uncompleted⟩, hs, rfl⟩
  refine ⟨?_, ?_, ?_, ?_, ?_, h.balance⟩
  · intro id hid
    obtain ⟨i, r, hheld, hr, hrep, hc⟩ := h.accepted id hid
    exact ⟨i, _, hheld.modify hf, (congrArg PromptRequest.requestId (same_ite hf i r).request).trans hr, hrep,
      (hflags i r).1.trans hc⟩
  · intro i r' ho
    obtain ⟨r, hor, hs, rfl⟩ := hout ho
    obtain ⟨hheld, hphase⟩ := h.outstanding i r hor
    refine ⟨hheld.modify hf, ?_⟩
    rcases hphase with hc | ha | ⟨hab', hu, hrep⟩
    · exact .inl ((CorrelationPending.same hs).mpr hc)
    · refine .inr (.inl ?_)
      rw [hs.request]
      exact ha
    refine .inr (.inr ⟨(hflags i r).2.trans hab', ?_, hrep⟩)
    split
    · exact hunknown r hu
    · exact hu
  · intro i r₁ j r₂ hi hj
    obtain ⟨r₁, hi, -⟩ := hout hi
    obtain ⟨r₂, hj, -⟩ := hout hj
    exact h.alone i r₁ j r₂ hi hj
  · intro i r' ho hc
    obtain ⟨r, hor, hs, -⟩ := hout ho
    exact (TextPending.same hs).mpr (h.texts i r hor ((CorrelationPending.same hs).mp hc))
  · intro j hj i r' ho
    obtain ⟨r, hor, -⟩ := hout ho
    exact h.holder j hj i r hor

theorem Turn.reserve (h : Turn v) (hb : Base v) (hnew : v.New r) : Turn (v.reserve r) := by
  have hout {i : Nat} {r' : ClaudeSubmission} (ho : (v.reserve r).Out i r') : v.Out i r' := by
    refine { ho with record := ?_ }
    rcases reserve_cases ho.record with hr | ⟨rfl, -⟩
    · exact hr
    · exact absurd (hb.sent _ ho.sent) (lt_irrefl _)
  refine ⟨?_, ?_, fun i r₁ j r₂ hi hj => h.alone i r₁ j r₂ (hout hi) (hout hj), ?_,
    fun j hj i r ho => h.holder j hj i r (hout ho), h.balance⟩
  · intro id hid
    obtain ⟨i, r', hheld, hrest⟩ := h.accepted id hid
    exact ⟨i, r', hheld.reserve hnew, hrest⟩
  · intro i r' ho
    obtain ⟨hheld, hphase⟩ := h.outstanding i r' (hout ho)
    exact ⟨hheld.reserve hnew, hphase.imp_left (correlationPending_reserve hnew hheld.1).mpr⟩
  intro i r' ho hc
  have hheld := (h.outstanding i r' (hout ho)).1
  exact (h.texts i r' (hout ho) ((correlationPending_reserve hnew hheld.1).mp hc)).reserve hnew

theorem Turn.forget (h : Turn v) (haccepted : id ∉ v.accepted) (hout : ∀ i r, v.Out i r → r.request.requestId ≠ id) :
    Turn (v.forget id) := by
  have hwas {i : Nat} {r : ClaudeSubmission} (ho : (v.forget id).Out i r) : v.Out i r :=
    { ho with }
  refine ⟨?_, ?_, fun i r₁ j r₂ hi hj => h.alone i r₁ j r₂ (hwas hi) (hwas hj), fun i r ho => h.texts i r (hwas ho),
    fun j hj i r ho => h.holder j hj i r (hwas ho), h.balance⟩
  · intro id' hid'
    obtain ⟨i, r, hr, rfl, hrest⟩ := h.accepted id' hid'
    exact ⟨i, r, hr.forget fun hid => haccepted (hid ▸ hid'), rfl, hrest⟩
  intro i r ho
  obtain ⟨hr, hphase⟩ := h.outstanding i r (hwas ho)
  exact ⟨hr.forget (hout i r (hwas ho)), hphase⟩

theorem Turn.removePending (h : Turn v) (hb : Base v) (hr : v.records[ref]? = some r) (hsent : ref ∉ v.sent)
    (halias : ∀ i r', v.Out i r' → v.TextPending r' → r'.wireText ≠ r.wireText) : Turn (v.removePending r) := by
  have hcorr {i : Nat} {r' : ClaudeSubmission} (ho : v.Out i r') : r'.correlationId ≠ r.correlationId := by
    intro hc
    cases hb.distinct i ref r' r ho.record hr hc
    exact hsent ho.sent
  refine ⟨h.accepted, ?_, fun i r₁ j r₂ hi hj => h.alone i r₁ j r₂ hi.of_removed hj.of_removed, ?_,
    fun j hj i r ho => h.holder j hj i r ho.of_removed, h.balance⟩
  · intro i r' ho
    obtain ⟨hheld, hphase⟩ := h.outstanding i r' ho.of_removed
    refine ⟨hheld, hphase.imp_left fun hc => ?_⟩
    rw [CorrelationPending, View.removePending, Dict.get?_erase, if_neg (hcorr ho.of_removed)]
    exact hc
  intro i r' ho hc
  rw [CorrelationPending, View.removePending, Dict.get?_erase, if_neg (hcorr ho.of_removed)] at hc
  have htext := h.texts i r' ho.of_removed hc
  rw [TextPending, View.removePending, Dict.get?_erase, if_neg (halias i r' ho.of_removed htext)]
  exact htext

theorem Turn.send (h : Turn v) (hnone : ∀ i r', ¬ v.Out i r') (hheld : v.Held ref r) (hc : v.CorrelationPending r)
    (ht : v.TextPending r) : Turn (v.send ref) := by
  have hwas {i : Nat} {r' : ClaudeSubmission} (ho : (v.send ref).Out i r') : i = ref ∧ r' = r := by
    rcases List.mem_append.mp ho.sent with hi | hi
    · exact absurd { ho with sent := hi } (hnone i r')
    · cases List.mem_singleton.mp hi
      exact ⟨rfl, Option.some.inj (ho.record.symm.trans hheld.1)⟩
  refine ⟨h.accepted, ?_, ?_, ?_, ?_, h.balance⟩
  · intro i r' ho
    obtain ⟨rfl, rfl⟩ := hwas ho
    exact ⟨hheld, .inl hc⟩
  · intro i r₁ j r₂ hi hj
    rw [(hwas hi).1, (hwas hj).1]
  · intro i r' ho _
    obtain ⟨rfl, rfl⟩ := hwas ho
    exact ht
  · intro j hj i r' ho
    exact (hwas ho).1.trans (Option.some.inj hj)

theorem Turn.modify_unsent (hf : ∀ r, SameSubmission r (f r)) (h : Turn v) (hb : Base v) (hsent : ref ∉ v.sent) :
    Turn (v.modify ref f) := by
  have hout {i : Nat} {r' : ClaudeSubmission} (ho : (v.modify ref f).Out i r') : v.Out i r' ∧ i ≠ ref := by
    have hne : i ≠ ref := fun hi => hsent (hi ▸ ho.sent)
    exact ⟨ho.other hne, hne⟩
  have hheld {i : Nat} {r' : ClaudeSubmission} (hr : v.Held i r') (hne : i ≠ ref) : (v.modify ref f).Held i r' := by
    have hm : (v.modify ref f).Held i (if i = ref then f r' else r') := hr.modify hf
    rwa [if_neg hne] at hm
  refine ⟨?_, ?_, fun i r₁ j r₂ hi hj => h.alone i r₁ j r₂ (hout hi).1 (hout hj).1, fun i r' ho => h.texts i r' (hout ho).1,
    fun j hj i r' ho => h.holder j hj i r' (hout ho).1, h.balance⟩
  · intro id hid
    obtain ⟨i, r', hr', hid', hrep, hc⟩ := h.accepted id hid
    exact ⟨i, r', hheld hr' fun hi => hsent (hi ▸ hb.replayed i hrep), hid', hrep, hc⟩
  intro i r' ho
  obtain ⟨hr', hphase⟩ := h.outstanding i r' (hout ho).1
  exact ⟨hheld hr' (hout ho).2, hphase⟩

theorem Turn.queue (h : Turn v) (l : List Nat) : Turn { v with writing := l } := by
  have hwas {i : Nat} {r : ClaudeSubmission} (ho : View.Out { v with writing := l } i r) : v.Out i r :=
    { ho with }
  exact ⟨h.accepted, fun i r ho => h.outstanding i r (hwas ho), fun i r₁ j r₂ hi hj => h.alone i r₁ j r₂ (hwas hi) (hwas hj),
    fun i r ho => h.texts i r (hwas ho), fun j hj i r ho => h.holder j hj i r (hwas ho), h.balance⟩

theorem Turn.unlock (h : Turn v) : Turn { v with lock := none } := by
  have hwas {i : Nat} {r : ClaudeSubmission} (ho : View.Out { v with lock := none } i r) : v.Out i r :=
    { ho with }
  exact ⟨h.accepted, fun i r ho => h.outstanding i r (hwas ho), fun i r₁ j r₂ hi hj => h.alone i r₁ j r₂ (hwas hi) (hwas hj),
    fun i r ho => h.texts i r (hwas ho), fun _ hj => (nomatch hj), h.balance⟩

theorem Turn.of_none (hnone : ∀ i r', ¬ v.Out i r') (haccepted : v.accepted = []) (hbalance : v.replayed.length = v.results) :
    Turn v where
  accepted := by
    rw [haccepted]
    exact List.forall_mem_nil _
  outstanding i r' ho := absurd ho (hnone i r')
  alone i r₁ _ _ ho := absurd ho (hnone i r₁)
  texts i r' ho := absurd ho (hnone i r')
  holder _ _ i r' ho := absurd ho (hnone i r')
  balance := by
    rw [haccepted]
    exact hbalance

theorem Turn.of_only {ref : Nat} {r : ClaudeSubmission} (honly : ∀ i r', w.Out i r' → i = ref ∧ r' = r)
    (hheld : w.Held ref r) (hnot : ¬ w.CorrelationPending r)
    (hphase : r.request.requestId ∈ w.accepted ∨ (r.abandoned = true ∧ r.acceptance = .unknown ∧ ref ∉ w.replayed))
    (haccepted : ∀ id ∈ w.accepted, ∃ ref r, w.Held ref r ∧ r.request.requestId = id ∧ ref ∈ w.replayed ∧ r.completed = false)
    (hlock : ∀ i, w.lock = some i → i = ref) (hbalance : w.replayed.length = w.results + w.accepted.length) :
    Turn w where
  accepted := haccepted
  outstanding i r' ho := by
    obtain ⟨rfl, rfl⟩ := honly i r' ho
    exact ⟨hheld, .inr hphase⟩
  alone i r₁ j r₂ hi hj := (honly i r₁ hi).1.trans (honly j r₂ hj).1.symm
  texts i r' ho hc := by
    obtain ⟨-, rfl⟩ := honly i r' ho
    exact absurd hc hnot
  holder i hi j r' ho := (honly j r' ho).1.trans (hlock i hi).symm
  balance := hbalance

/-! ## Abandoning -/

def abandonFlags (r : ClaudeSubmission) : ClaudeSubmission :=
  { r with
    abandoned := true
    acceptance := .unknown }

theorem same_abandonFlags (r : ClaudeSubmission) : SameSubmission r (abandonFlags r) := ⟨rfl, rfl, rfl, rfl⟩

def abandon (v : View) (ref : Nat) (r : ClaudeSubmission) : View := (v.removePending r).modify ref abandonFlags

theorem not_pending_removed (hr : v.records[ref]? = some r) (hr' : v.records[ref]? = some r') :
    ¬ (v.removePending r).CorrelationPending r' := by
  cases hr.symm.trans hr'
  rw [CorrelationPending, View.removePending, Dict.get?_erase, if_pos rfl]
  simp

theorem Tables.abandon (h : Tables v) (hr : v.records[ref]? = some r) : Tables (v.abandon ref r) := by
  refine (h.removePending hr).modify same_abandonFlags ⟨?_, ?_⟩
  · exact fun r' hr' hc => absurd hc (not_pending_removed hr hr')
  intro r' hr' hwriting
  obtain ⟨r₀, hheld, -, hcomp⟩ := h.waiting ref hwriting
  cases hheld.1.symm.trans hr'
  exact ⟨rfl, hcomp⟩

theorem Wire.abandon (h : Wire v) : Wire (v.abandon ref r) := by
  refine h.removePending.modify same_abandonFlags ⟨?_, fun _ hc => hc, fun _ _ _ hab => nomatch hab⟩
  exact fun r' hr' hcomp => h.completed ref r' hr' hcomp

theorem Turn.abandon_out (h : Turn v) (hb : Base v) (hout : v.Out ref r) : Turn (v.abandon ref r) := by
  have hflags : (v.abandon ref r).records[ref]? = some (abandonFlags r) := some_modify_self (v := v.removePending r) hout.record
  obtain ⟨hheld, hphase⟩ := h.outstanding ref r hout
  have hnot : ¬ (v.removePending r).CorrelationPending r := not_pending_removed hout.record hout.record
  refine .of_only (fun i r' ho => ?_) ⟨hflags, hheld.2⟩ hnot ?_ ?_ (fun i hi => (h.holder i hi ref r hout).symm) h.balance
  · have hi : i = ref := h.only hout (fun j r₁ hne hj => (Out.other (v := v.removePending r) hj hne).of_removed) ho
    subst hi
    exact ⟨rfl, Option.some.inj (ho.record.symm.trans hflags)⟩
  · rcases hphase with hc | ha | ⟨-, -, hrep⟩
    · exact .inr ⟨rfl, rfl, hb.pending ref r hheld hc⟩
    · exact .inl ha
    · exact .inr ⟨rfl, rfl, hrep⟩
  intro id hid
  obtain ⟨i, r', hheld, hid', hrep, hc⟩ := h.accepted id hid
  have hheld' : (v.abandon ref r).Held i (if i = ref then abandonFlags r' else r') :=
    Held.modify (v := v.removePending r) same_abandonFlags hheld
  refine ⟨i, _, hheld', ?_, hrep, ?_⟩
  · split <;> exact hid'
  · split <;> exact hc

def NoAlias (v : View) (r : ClaudeSubmission) : Prop :=
  v.reading = true → ∀ i r', v.Out i r' → v.TextPending r' → r'.wireText ≠ r.wireText

theorem Ledger.noAlias (h : Ledger P v) (hheld : v.Held ref r) (hwriting : ref ∈ v.writing) (hp : P) : v.NoAlias r := by
  intro hreading i r' ho htext
  have hheld' := ((h.turn hp hreading).outstanding i r' ho).1
  exact Ne.symm (h.later i r' hheld' htext ref hwriting (h.ahead i ho.sent ref hwriting) r hheld.1)

theorem Ledger.removePending (h : Ledger P v) (hr : v.records[ref]? = some r) (hsent : ref ∉ v.sent)
    (halias : P → v.NoAlias r) : Ledger P (v.removePending r) :=
  ⟨h.toTables.removePending hr, fun hp => (h.wire hp).removePending, fun hp hreading =>
    (h.turn hp hreading).removePending (h.base hp) hr hsent (halias hp hreading)⟩

theorem Ledger.abandon_unsent (h : Ledger P v) (hr : v.records[ref]? = some r) (hsent : ref ∉ v.sent)
    (halias : P → v.NoAlias r) : Ledger P (v.abandon ref r) := by
  have hremoved := h.removePending hr hsent halias
  exact ⟨h.toTables.abandon hr, fun hp => (h.wire hp).abandon, fun hp hreading =>
    (hremoved.turn hp hreading).modify_unsent same_abandonFlags (hremoved.base hp) hsent⟩

theorem Ledger.abandon (h : Ledger P v) (hheld : v.Held ref r) (hcomp : r.completed = false)
    (hwhere : ref ∈ v.writing ∨ ref ∈ v.sent) (hbroken : ref ∉ v.broken) : Ledger P (v.abandon ref r) := by
  by_cases hsent : ref ∈ v.sent
  · refine ⟨h.toTables.abandon hheld.1, fun hp => (h.wire hp).abandon, fun hp hreading => ?_⟩
    exact (h.turn hp hreading).abandon_out (h.base hp) ⟨hsent, fun hb => absurd hb hbroken, hheld.1, hcomp⟩
  · exact h.abandon_unsent hheld.1 hsent (h.noAlias hheld (hwhere.resolve_right hsent))

def rejectFlags (r : ClaudeSubmission) : ClaudeSubmission := { r with acceptance := .rejected }

theorem same_rejectFlags (r : ClaudeSubmission) : SameSubmission r (rejectFlags r) := ⟨rfl, rfl, rfl, rfl⟩

def dropped (v : View) (ref : Nat) (r : ClaudeSubmission) : View :=
  ((v.removePending r).modify ref rejectFlags).forget r.request.requestId

theorem Ledger.dropped (h : Ledger P v) (hheld : v.Held ref r) (hsent : ref ∉ v.sent) (hwriting : ref ∉ v.writing)
    (halias : P → v.NoAlias r) : Ledger P (v.dropped ref r) := by
  have hremoved := h.removePending hheld.1 hsent halias
  have htables : Tables ((v.removePending r).modify ref rejectFlags) := by
    refine hremoved.toTables.modify same_rejectFlags ⟨?_, fun _ _ hw => absurd hw hwriting⟩
    exact fun r' hr' hc => absurd hc (not_pending_removed hheld.1 hr')
  have hwire (hp : P) : Wire ((v.removePending r).modify ref rejectFlags) := by
    refine (hremoved.wire hp).modify same_rejectFlags ⟨?_, fun _ hc => hc, ?_⟩
    · exact fun r' hr' hcomp => (h.wire hp).completed ref r' hr' hcomp
    · exact fun _ _ hrep => absurd ((h.wire hp).replayed ref hrep) hsent
  have hown {i : Nat} {r' : ClaudeSubmission} (hheld' : ((v.removePending r).modify ref rejectFlags).Held i r')
      (hid : r'.request.requestId = r.request.requestId) : i = ref := by
    have hget := hheld'.2
    rw [hid] at hget
    exact Option.some.inj (hget.symm.trans hheld.2)
  have hcorrelation (correlationId : String) :
      ((v.removePending r).modify ref rejectFlags).correlations.get? correlationId ≠ some r.request.requestId := by
    intro hc
    obtain ⟨i, r', hheld', hid, hcorr, -⟩ := htables.correlations _ _ hc
    cases hown hheld' hid
    obtain ⟨r₀, hr₀, hs, -⟩ := modify_same (v := v.removePending r) same_rejectFlags hheld'.1
    refine not_pending_removed hheld.1 hr₀ ?_
    rw [CorrelationPending, ← hs.correlationId, ← hs.request, hcorr, hid]
    exact hc
  have haccepted : r.request.requestId ∉ ((v.removePending r).modify ref rejectFlags).accepted := by
    intro hid
    obtain ⟨i, r', hheld', hid', hi, -⟩ := htables.accepted _ hid
    exact hsent (hown hheld' hid' ▸ hi)
  refine ⟨htables.forget (fun text ht => ?_) hcorrelation ?_ haccepted, fun hp => (hwire hp).forget _, fun hp hreading => ?_⟩
  · obtain ⟨i, r', -, hid, -, hc⟩ := htables.texts _ _ ht
    rw [CorrelationPending, hid] at hc
    exact hcorrelation _ hc
  · intro i hi r' hr' hid
    obtain ⟨r₁, hheld₁, -⟩ := htables.waiting i hi
    cases hheld₁.1.symm.trans hr'
    exact hwriting (hown hheld₁ hid ▸ hi)
  · have hturn := (hremoved.turn hp hreading).modify_unsent same_rejectFlags (hremoved.base hp) hsent
    exact hturn.forget haccepted fun i r' ho hid => hsent (hown (hturn.outstanding i r' ho).1 hid ▸ ho.sent)

/-! ## A write that breaks off -/

def broke (v : View) (ref : Nat) (r : ClaudeSubmission) : View :=
  { v.removePending r with
    lock := none
    broken := v.broken ++ [ref] }

theorem Tables.broke (h : Tables v) (hr : v.records[ref]? = some r) : Tables (v.broke ref r) := { h.removePending hr with }

theorem Wire.broke (h : Wire v) (hsent : ref ∈ v.sent) : Wire (v.broke ref r) := by
  refine { h with pending := h.removePending.pending, broken := ?_, lock := fun _ hl => nomatch hl }
  intro i hi
  rcases List.mem_append.mp hi with hi | hi
  · exact h.broken i hi
  · cases List.mem_singleton.mp hi
    exact hsent

theorem Out.of_broke (ho : (v.broke ref r).Out i r') : v.Out i r' :=
  { ho with unbroken := fun hb => ho.unbroken (List.mem_append_left _ hb) }

theorem Turn.broke (ht : Turn v) (h : Base v) (hr : v.records[ref]? = some r) (hlock : v.lock = some ref) :
    Turn (v.broke ref r) := by
  obtain ⟨hsent, hunbroken, -⟩ := h.lock ref hlock
  have honly {i : Nat} {r' : ClaudeSubmission} (ho : (v.broke ref r).Out i r') : i = ref ∧ r' = r := by
    have hi := ht.holder ref hlock i r' ho.of_broke
    subst hi
    exact ⟨rfl, Option.some.inj (ho.record.symm.trans hr)⟩
  have hnot : ¬ (v.broke ref r).CorrelationPending r := not_pending_removed hr hr
  have hended (haccepted : v.accepted = []) (hnone : ∀ i r', ¬ (v.broke ref r).Out i r') : Turn (v.broke ref r) := by
    have hbalance := ht.balance
    rw [haccepted] at hbalance
    exact .of_none hnone haccepted hbalance
  cases hcomp : r.completed with
  | true =>
    refine hended (List.eq_nil_iff_forall_not_mem.mpr fun id hid => ?_) fun i r' ho => ?_
    · obtain ⟨i, r', hout, -⟩ := ht.accepted_out h hid
      have hi := ht.holder ref hlock i r' hout
      subst hi
      cases hout.record.symm.trans hr
      exact absurd (hout.uncompleted.symm.trans hcomp) nofun
    · obtain ⟨-, rfl⟩ := honly ho
      exact absurd (ho.uncompleted.symm.trans hcomp) nofun
  | false =>
    have hout : v.Out ref r := ⟨hsent, fun hb => absurd hb hunbroken, hr, hcomp⟩
    obtain ⟨hheld, hphase⟩ := ht.outstanding ref r hout
    rcases hphase with hc | hphase
    · have hrep := h.pending ref r hheld hc
      obtain ⟨i, r₁, hheld₁, hid, -, hfresh⟩ := h.correlations _ _ hc
      have href := hheld.2
      rw [← hid, hheld₁.2] at href
      cases href
      cases hheld₁.1.symm.trans hr
      refine hended (ht.no_turn h hout hrep) fun j r' ho => ?_
      obtain ⟨rfl, rfl⟩ := honly ho
      rcases ho.unbroken (List.mem_append_right _ (List.mem_singleton_self _)) with hi | hab
      · exact hrep hi
      · rw [hfresh.unabandoned] at hab
        cases hab
    · exact .of_only (fun i r' ho => honly ho) hheld hnot hphase ht.accepted (fun _ hi => nomatch hi) ht.balance

theorem Ledger.broke (h : Ledger P v) (hr : v.records[ref]? = some r) (hlock : v.lock = some ref) : Ledger P (v.broke ref r) :=
  ⟨h.toTables.broke hr, fun hp => (h.wire hp).broke ((h.wire hp).lock ref hlock).1, fun hp hreading =>
    (h.turn hp hreading).broke (h.base hp) hr hlock⟩

theorem Ledger.broke_abandon (h : Ledger P v) (hr : v.records[ref]? = some r) (hlock : v.lock = some ref)
    (hheld : (v.broke ref r).Held i r') (hid : r'.request.requestId = r.request.requestId)
    (hcomp : r'.completed = false) : Ledger P ((v.broke ref r).abandon i r') := by
  have hbroke := h.broke hr hlock
  refine ⟨hbroke.toTables.abandon hheld.1, fun hp => (hbroke.wire hp).abandon, fun hp hreading => ?_⟩
  obtain ⟨hsent, hunbroken, hlast⟩ := (h.wire hp).lock ref hlock
  have ht := h.turn hp hreading
  have hget : v.history.get? r.request.requestId = some i := by
    rw [← hid]
    exact hheld.2
  have hle : ref ≤ i := h.latest _ i hget ref r hr rfl
  by_cases hlt : ref < i
  · -- Another submission has the request id, and is behind the lock.
    have hout : i ∉ v.sent := fun hi => absurd (hlast i hi) (Nat.not_le.mpr hlt)
    have halias : (v.broke ref r).NoAlias r' := by
      intro _ j r₁ ho _ _
      have hj := ht.holder ref hlock j r₁ ho.of_broke
      subst hj
      cases ho.record.symm.trans hr
      have href := (ht.outstanding j r ho.of_broke).1.2
      rw [hget] at href
      exact Nat.ne_of_lt hlt (Option.some.inj href).symm
    exact (hbroke.abandon_unsent hheld.1 hout fun _ => halias).turn hp hreading
  · have hi : i = ref := by omega
    subst hi
    cases hheld.1.symm.trans hr
    have hflags : ((v.broke i r).abandon i r).records[i]? = some (abandonFlags r) :=
      some_modify_self (v := (v.broke i r).removePending r) hr
    have hout : v.Out i r := ⟨hsent, fun hb => absurd hb hunbroken, hr, hcomp⟩
    have hnot : ¬ ((v.broke i r).removePending r).CorrelationPending r := not_pending_removed (v := v.broke i r) hr hr
    refine .of_only (fun j r₁ ho => ?_) ⟨hflags, hget⟩ hnot ?_ ?_ (fun _ hj => nomatch hj) ht.balance
    · have hj : j = i := by
        by_contra hne
        exact hne (ht.holder i hlock j r₁ (Out.other (v := (v.broke i r).removePending r) ho hne).of_removed.of_broke)
      subst hj
      exact ⟨rfl, Option.some.inj (ho.record.symm.trans hflags)⟩
    · rcases (ht.outstanding i r hout).2 with hc | ha | ⟨-, -, hrep⟩
      · exact .inr ⟨rfl, rfl, (h.wire hp).pending i r ⟨hr, hget⟩ hc⟩
      · exact .inl ha
      · exact .inr ⟨rfl, rfl, hrep⟩
    intro id hid'
    obtain ⟨j, r₁, hheld₁, hid₁, hrep, hc⟩ := ht.accepted id hid'
    have hheld' : ((v.broke i r).abandon i r).Held j (if j = i then abandonFlags r₁ else r₁) :=
      Held.modify (v := (v.broke i r).removePending r) same_abandonFlags hheld₁
    refine ⟨j, _, hheld', ?_, hrep, ?_⟩
    · split <;> exact hid₁
    · split <;> exact hc

/-! ## Replays and results -/

def replay (v : View) (ref : Nat) (id : String) : View :=
  { v with
    accepted := v.accepted ++ [id]
    replayed := v.replayed ++ [ref] }

theorem Tables.replay (h : Tables v) (hheld : v.Held ref r) (hsent : ref ∈ v.sent) (hc : ¬ v.CorrelationPending r) :
    Tables (v.replay ref r.request.requestId) := by
  refine { h with accepted := fun id hid => ?_ }
  rcases List.mem_append.mp hid with hid | hid
  · exact h.accepted id hid
  · exact ⟨ref, r, hheld, (List.mem_singleton.mp hid).symm, hsent, hc⟩

theorem Wire.replay (h : Wire v) (hsent : ref ∈ v.sent) (haccepted : v.accepted = [])
    (hc : ∀ r, v.records[ref]? = some r → ¬ v.CorrelationPending r)
    (hretained : ∀ r : ClaudeSubmission, v.records[ref]? = some r → r.abandoned = false → r.acceptance = .immediate)
    (id : String) : Wire (v.replay ref id) := by
  refine ⟨?_, ?_, h.broken, fun i r hr hcomp => List.mem_append_left _ (h.completed i r hr hcomp), ?_, h.operations,
    fun e he => ⟨List.mem_append_left _ (h.completions e he).1, (h.completions e he).2⟩, h.once, ?_, h.survives, h.lock⟩
  · intro i hi
    rcases List.mem_append.mp hi with hi | hi
    · exact h.replayed i hi
    · cases List.mem_singleton.mp hi
      exact hsent
  · intro i r hheld hp hrep
    rcases List.mem_append.mp hrep with hrep | hrep
    · exact h.pending i r hheld hp hrep
    · cases List.mem_singleton.mp hrep
      exact hc r hheld.1 hp
  · intro i hi
    rcases List.mem_append.mp hi with hi | hi
    · exact h.retained i hi
    · cases List.mem_singleton.mp hi
      exact hretained
  · simp [View.replay, haccepted]

theorem Out.of_replay (ho : (v.replay ref id).Out i r') (hne : i ≠ ref) : v.Out i r' := by
  refine { ho with unbroken := fun hb => (ho.unbroken hb).imp_left fun hi => ?_ }
  exact (List.mem_append.mp hi).resolve_right fun hi => hne (List.mem_singleton.mp hi)

theorem Turn.replay (h : Turn v) (hb : Base v) (hout : v.Out ref r) (hrep : ref ∉ v.replayed)
    (hother : ∀ i r', i ≠ ref → w.Out i r' → v.Out i r') (hheld : w.Held ref r') (hid : r'.request = r.request)
    (huncompleted : r'.completed = false) (hc : ¬ w.CorrelationPending r') (haccepted : w.accepted = v.accepted)
    (hreplayed : w.replayed = v.replayed) (hresults : w.results = v.results) (hlock : w.lock = v.lock) :
    Turn (w.replay ref r.request.requestId) := by
  have hempty : w.accepted = [] := haccepted.trans (h.no_turn hb hout hrep)
  refine .of_only (r := r') (fun i r₁ ho => ?_) hheld hc (.inl ?_) ?_ (fun i hi => ?_) ?_
  · have hi : i = ref := by
      by_contra hne
      exact hne (h.alone i r₁ ref r (hother i r₁ hne (ho.of_replay hne)) hout)
    subst hi
    exact ⟨rfl, Option.some.inj (ho.record.symm.trans hheld.1)⟩
  · rw [hid]
    exact List.mem_append_right _ (List.mem_singleton_self _)
  · intro id hid'
    simp only [View.replay, hempty, List.nil_append, List.mem_singleton] at hid'
    refine ⟨ref, r', hheld, ?_, List.mem_append_right _ (List.mem_singleton_self _), huncompleted⟩
    rw [hid, hid']
  · exact (h.holder i (hlock ▸ hi) ref r hout).symm
  have hbalance := h.balance
  simp only [View.replay, List.length_append, List.length_singleton, haccepted, hreplayed, hresults]
  omega

def acceptFlags (o : SendOutcome) (r : ClaudeSubmission) : ClaudeSubmission :=
  { r with
    acceptance := .immediate
    answer := r.answer.or (some o) }

theorem same_acceptFlags (o : SendOutcome) (r : ClaudeSubmission) : SameSubmission r (acceptFlags o r) := ⟨rfl, rfl, rfl, rfl⟩

def accept (v : View) (ref : Nat) (r : ClaudeSubmission) (o : SendOutcome) : View :=
  (v.removePending r).modify ref (acceptFlags o)

theorem accept_record (hr : v.records[ref]? = some r) (o : SendOutcome) :
    (v.accept ref r o).records[ref]? = some (acceptFlags o r) := some_modify_self (v := v.removePending r) hr

theorem Tables.accept (h : Tables v) (hheld : v.Held ref r) (hsent : ref ∈ v.sent) (o : SendOutcome) :
    Tables ((v.accept ref r o).replay ref r.request.requestId) := by
  have hnot : ¬ (v.removePending r).CorrelationPending r := not_pending_removed hheld.1 hheld.1
  have haccept : Tables (v.accept ref r o) := by
    refine (h.removePending hheld.1).modify (same_acceptFlags o) ⟨?_, ?_⟩
    · exact fun r' hr' hc => absurd hc (not_pending_removed hheld.1 hr')
    · exact fun _ _ hwriting => absurd (h.ahead ref hsent ref hwriting) (lt_irrefl _)
  exact haccept.replay (r := acceptFlags o r) ⟨accept_record hheld.1 o, hheld.2⟩ hsent hnot

theorem Ledger.accept (h : Ledger P v) (hheld : v.Held ref r) (hsent : ref ∈ v.sent) (hout : P → v.Out ref r)
    (hreading : v.reading = true) (hrep : ref ∉ v.replayed) (o : SendOutcome) :
    Ledger P ((v.accept ref r o).replay ref r.request.requestId) := by
  have hnot : ¬ (v.removePending r).CorrelationPending r := not_pending_removed hheld.1 hheld.1
  have hwire (hp : P) : Wire (v.accept ref r o) :=
    (h.wire hp).removePending.modify (same_acceptFlags o)
      ⟨fun r' hr' hcomp => (h.wire hp).completed ref r' hr' hcomp, fun _ hc => hc, fun _ _ hi => absurd hi hrep⟩
  refine ⟨h.toTables.accept hheld hsent o, fun hp => ?_, fun hp _ => ?_⟩
  · refine (hwire hp).replay hsent ((h.turn hp hreading).no_turn (h.base hp) (hout hp) hrep) (fun r' hr' => ?_)
      (fun r' hr' _ => ?_) _
    · cases (accept_record hheld.1 o).symm.trans hr'
      exact hnot
    · cases (accept_record hheld.1 o).symm.trans hr'
      rfl
  exact (h.turn hp hreading).replay (h.base hp) (hout hp) hrep
    (fun i r' hne ho => (Out.other (v := v.removePending r) ho hne).of_removed)
    ⟨accept_record hheld.1 o, hheld.2⟩ rfl (hout hp).uncompleted hnot rfl rfl rfl rfl

theorem Ledger.late (h : Ledger P v) (hheld : v.Held ref r) (hsent : ref ∈ v.sent) (hout : P → v.Out ref r)
    (hreading : v.reading = true) (hrep : ref ∉ v.replayed) (hab : r.abandoned = true) (hc : ¬ v.CorrelationPending r) :
    Ledger P (v.replay ref r.request.requestId) := by
  refine ⟨h.toTables.replay hheld hsent hc, fun hp => ?_, fun hp _ => ?_⟩
  · refine (h.wire hp).replay hsent ((h.turn hp hreading).no_turn (h.base hp) (hout hp) hrep) (fun r' hr' => ?_)
      (fun r' hr' hab' => ?_) _
    · cases hheld.1.symm.trans hr'
      exact hc
    cases hheld.1.symm.trans hr'
    rw [hab] at hab'
    cases hab'
  · exact (h.turn hp hreading).replay (h.base hp) (hout hp) hrep (fun _ _ _ ho => ho) hheld rfl (hout hp).uncompleted hc
      rfl rfl rfl rfl

def completeFlags (r : ClaudeSubmission) : ClaudeSubmission := { r with completed := true }

theorem same_completeFlags (r : ClaudeSubmission) : SameSubmission r (completeFlags r) := ⟨rfl, rfl, rfl, rfl⟩

/-- The turn ends. -/
def complete (v : View) (ref : Nat) (rest : List String) (history : Dict String Nat) (e : Completion) : View :=
  { v.modify ref completeFlags with
    accepted := rest
    history := history
    results := v.results + 1
    completions := v.completions ++ [e] }

theorem Tables.reorder (h : Tables v) (hhistory : ∀ k, history.get? k = v.history.get? k) :
    Tables { v with history := history } := by
  have hto {i : Nat} {r : ClaudeSubmission} (hr : v.Held i r) : View.Held { v with history := history } i r :=
    ⟨hr.1, (hhistory _).trans hr.2⟩
  have hof {i : Nat} {r : ClaudeSubmission} (hr : View.Held { v with history := history } i r) : v.Held i r :=
    ⟨hr.1, (hhistory _).symm.trans hr.2⟩
  refine ⟨fun k i hi => h.held k i ((hhistory k).symm.trans hi), h.distinct, ?_, ?_, ?_, h.sorted, h.ahead,
    fun i r hr => h.later i r (hof hr), fun k i hi => h.latest k i ((hhistory k).symm.trans hi), h.sent, ?_⟩
  · intro text k hk
    obtain ⟨i, r, hr, hrest⟩ := h.texts text k hk
    exact ⟨i, r, hto hr, hrest⟩
  · intro correlationId k hk
    obtain ⟨i, r, hr, hrest⟩ := h.correlations correlationId k hk
    exact ⟨i, r, hto hr, hrest⟩
  · intro i hi
    obtain ⟨r, hr, hrest⟩ := h.waiting i hi
    exact ⟨r, hto hr, hrest⟩
  intro id hid
  obtain ⟨i, r, hr, hrest⟩ := h.accepted id hid
  exact ⟨i, r, hto hr, hrest⟩

theorem Tables.accepted_held (h : Tables v) (hid : id ∈ v.accepted) (hheld : v.Held ref r)
    (hr : r.request.requestId = id) : ref ∈ v.sent ∧ ¬ v.CorrelationPending r := by
  obtain ⟨i, r', hheld', hid', hsent, hc⟩ := h.accepted id hid
  have href := hheld'.2
  rw [hid', ← hr, hheld.2] at href
  cases href
  cases hheld'.1.symm.trans hheld.1
  exact ⟨hsent, hc⟩

theorem Tables.complete (h : Tables v) (haccepted : v.accepted = id :: rest) (hheld : v.Held ref r)
    (hid : r.request.requestId = id) (hhistory : ∀ k, history.get? k = v.history.get? k) (e : Completion) :
    Tables (v.complete ref rest history e) := by
  have hmem : id ∈ v.accepted := haccepted ▸ List.mem_cons_self
  obtain ⟨hsent, hc⟩ := h.accepted_held hmem hheld hid
  have hmodified : Tables (v.modify ref completeFlags) := by
    refine h.modify same_completeFlags ⟨fun r' hr' hc' => ?_, fun _ _ hwriting => ?_⟩
    · cases hheld.1.symm.trans hr'
      exact absurd hc' hc
    · exact absurd (h.ahead ref hsent ref hwriting) (lt_irrefl _)
  have hreordered := hmodified.reorder hhistory
  exact { hreordered with accepted := fun id' hid' => hreordered.accepted id' (haccepted ▸ List.mem_cons_of_mem _ hid') }

theorem Ledger.complete (h : Ledger P v) (hreading : v.reading = true) (haccepted : v.accepted = id :: rest)
    (hheld : v.Held ref r) (hid : r.request.requestId = id) (hhistory : ∀ k, history.get? k = v.history.get? k)
    {e : Completion} (hrefs : e.ref = ref) (hoperation : e.operation = r.operation) :
    Ledger P (v.complete ref rest history e) := by
  have hmem : id ∈ v.accepted := haccepted ▸ List.mem_cons_self
  have hout (hp : P) : v.Out ref r ∧ ref ∈ v.replayed := by
    obtain ⟨i, r₀, hout, hheld₀, hid₀, hrep⟩ := (h.turn hp hreading).accepted_out (h.base hp) hmem
    have href := hheld.2
    rw [hid, ← hid₀, hheld₀.2] at href
    cases href
    cases hheld.1.symm.trans hout.record
    exact ⟨hout, hrep⟩
  have hrest (hp : P) : rest = [] := by
    have hsingle := (h.wire hp).single
    rw [haccepted, List.length_cons] at hsingle
    exact List.length_eq_zero_iff.mp (by omega)
  have hwire (hp : P) : Wire (v.modify ref completeFlags) := by
    refine (h.wire hp).modify same_completeFlags ⟨fun _ _ _ => (hout hp).2, fun _ _ => rfl, ?_⟩
    exact fun r' hr' hi hab => (h.wire hp).retained ref hi r' hr' hab
  have hrecord : (v.modify ref completeFlags).records[ref]? = some (completeFlags r) := some_modify_self hheld.1
  have hnew (hp : P) : e.operation ∉ v.completions.map Completion.operation := by
    intro hmem
    obtain ⟨e', he', heq⟩ := List.mem_map.mp hmem
    obtain ⟨hrep', r', hr', hop, hcomp⟩ := (h.wire hp).completions e' he'
    have hsame := (h.wire hp).operations e'.ref ((h.wire hp).replayed _ hrep') ref (hout hp).1.sent r' r hr' hheld.1
      (hop.symm.trans (heq.trans hoperation))
    rw [hsame, hheld.1] at hr'
    cases hr'
    rw [(hout hp).1.uncompleted] at hcomp
    cases hcomp
  refine ⟨h.toTables.complete haccepted hheld hid hhistory e, fun hp => ?_, fun hp _ => ?_⟩
  · refine ⟨(hwire hp).replayed, fun i r' hr' => (hwire hp).pending i r' ⟨hr'.1, (hhistory _).symm.trans hr'.2⟩, (hwire hp).broken,
      (hwire hp).completed, (hwire hp).retained, (hwire hp).operations, ?_, ?_, ?_, (hwire hp).survives, (hwire hp).lock⟩
    · intro e' he'
      rcases List.mem_append.mp he' with he' | he'
      · exact (hwire hp).completions e' he'
      cases List.mem_singleton.mp he'
      rw [hrefs]
      exact ⟨(hout hp).2, completeFlags r, hrecord, hoperation, rfl⟩
    · simp only [View.complete, List.map_append, List.map_singleton]
      refine List.nodup_append.mpr ⟨(h.wire hp).once, List.nodup_singleton _, fun a ha b hb heq => ?_⟩
      cases List.mem_singleton.mp hb
      exact hnew hp (heq ▸ ha)
    · rw [View.complete, hrest hp]
      exact Nat.zero_le _
  · have ht := h.turn hp hreading
    refine .of_none (fun j r' ho => ?_) (hrest hp) ?_
    · have hother (k : Nat) (r₁ : ClaudeSubmission) (hne : k ≠ ref) (hk : (v.complete ref rest history e).Out k r₁) :
          v.Out k r₁ := Out.other (f := completeFlags) { hk with } hne
      have hj := ht.only (hout hp).1 hother ho
      subst hj
      cases ho.record.symm.trans hrecord
      exact absurd ho.uncompleted nofun
    have hbalance := ht.balance
    rw [haccepted, hrest hp] at hbalance
    exact hbalance

end View

end AgentsRemember.Adapter.Claude
