import AgentsRemember.Adapter.ClaudeLedgerSound
import AgentsRemember.Adapter.ClaudeSound

/-!
# Every run of a Claude session keeps its ledger

Each step of the session is one of the ledger's changes, or several. The process
replays what was written, once, and ends what it replayed; the factory gives new
correlations; no two submissions that are written carry one operation.
-/

namespace AgentsRemember.Adapter.Claude

open Lib
open Harness (ControlOperationRef SendOutcome)

namespace View

variable {P : Prop} {c : ClaudeConfig} {v : View} {s t : ClaudeStreamState} {ref : Nat} {r : ClaudeSubmission}

def withStream (v : View) (t : ClaudeStreamState) : View :=
  { v with
    records := t.records
    history := t.history
    texts := t.pendingByText
    correlations := t.pendingByCorrelation
    accepted := t.acceptedOrder
    writing := t.writing
    reading := t.reading }

/-! ## Submitting -/

theorem Ledger.forget (h : Ledger P v) {id : String} (htexts : ∀ text, v.texts.get? text ≠ some id) (haccepted : id ∉ v.accepted)
    (hheld : v.Held ref r) (hid : r.request.requestId = id)
    (hdone : r.acceptance ≠ .unknown ∨ (r.abandoned = true ∧ r.completed = true)) : Ledger P (v.forget id) := by
  have hown {i : Nat} {r' : ClaudeSubmission} (hheld' : v.Held i r') (hid' : r'.request.requestId = id) : i = ref ∧ r' = r := by
    have href := hheld'.2
    rw [hid', ← hid, hheld.2] at href
    cases href
    exact ⟨rfl, Option.some.inj (hheld'.1.symm.trans hheld.1)⟩
  have hcorrelations (correlationId : String) : v.correlations.get? correlationId ≠ some id := by
    intro hc
    obtain ⟨i, r', hheld', hid', -, hfresh⟩ := h.correlations _ _ hc
    obtain ⟨-, rfl⟩ := hown hheld' hid'
    rcases hdone with hu | ⟨hab, -⟩
    · exact hu hfresh.unknown
    · exact absurd (hfresh.unabandoned.symm.trans hab) nofun
  refine ⟨h.toTables.forget htexts hcorrelations (fun i hi r' hr' hid' => ?_) haccepted, fun hp => (h.wire hp).forget id,
    fun hp hreading => ?_⟩
  · obtain ⟨r₁, hheld₁, hu, hcomp⟩ := h.waiting i hi
    cases hheld₁.1.symm.trans hr'
    obtain ⟨-, rfl⟩ := hown hheld₁ hid'
    rcases hdone with hu' | ⟨-, hcomp'⟩
    · exact hu' hu
    · exact absurd (hcomp.symm.trans hcomp') nofun
  refine (h.turn hp hreading).forget haccepted fun i r' ho hid' => ?_
  obtain ⟨hheld', hphase⟩ := (h.turn hp hreading).outstanding i r' ho
  obtain ⟨-, rfl⟩ := hown hheld' hid'
  rcases hphase with hc | ha | ⟨-, hu, -⟩
  · rw [CorrelationPending, hid'] at hc
    exact hcorrelations _ hc
  · exact haccepted (hid' ▸ ha)
  rcases hdone with hu' | ⟨-, hcomp⟩
  · exact hu' hu
  · exact absurd (ho.uncompleted.symm.trans hcomp) nofun

theorem Ledger.withRoom (h : Ledger P (v.withStream s)) (ht : s.withRoom c = some t) : Ledger P (v.withStream t) := by
  unfold ClaudeStreamState.withRoom at ht
  split at ht
  · cases ht
    exact h
  obtain ⟨id, hid, rfl⟩ := Option.map_eq_some_iff.mp ht
  obtain ⟨e, he, rfl⟩ := Option.map_eq_some_iff.mp hid
  have hmem := List.mem_of_find?_eq_some he
  have hp := List.find?_some he
  simp only [Bool.and_eq_true, decide_eq_true_eq, Option.any_eq_true_iff_get, Bool.or_eq_true] at hp
  obtain ⟨⟨haccepted, hvalues⟩, hsome, hdone⟩ := hp
  have hget : s.history.get? e.1 = some e.2 := Dict.get?_eq_some.mpr hmem
  obtain ⟨r, hr, hid⟩ := h.held e.1 e.2 hget
  have hr' : s.records[e.2]? = some r := hr
  simp only [hr', Option.get_some] at hdone
  have hheld : (v.withStream s).Held e.2 r := ⟨hr, by rw [hid]; exact hget⟩
  exact h.forget (fun text ht => hvalues (Dict.mem_values.mpr ⟨text, ht⟩)) haccepted hheld hid hdone

theorem Ledger.reserve (h : Ledger P v) (hnew : v.New r) : Ledger P (v.reserve r) :=
  ⟨h.toTables.reserve hnew, fun hp => (h.wire hp).reserve h.toTables hnew, fun hp hreading =>
    (h.turn hp hreading).reserve (h.base hp) hnew⟩

theorem Ledger.enqueue (h : Ledger P v) (hheld : v.Held ref r) (hfresh : Fresh r) (hsent : ∀ i ∈ v.sent, i < ref)
    (hwriting : ∀ i ∈ v.writing, i < ref)
    (hlater : ∀ i r', v.Held i r' → v.TextPending r' → i < ref → r.wireText ≠ r'.wireText) : Ledger P (v.enqueue ref) :=
  ⟨h.toTables.enqueue hheld hfresh hsent hwriting hlater, fun hp => (h.wire hp).queue _, fun hp hreading =>
    (h.turn hp hreading).queue _⟩

end View

namespace ClaudeStreamState

variable {c : ClaudeConfig}

theorem submit_cases (s : ClaudeStreamState) (request : PromptRequest) (correlationId : String) :
    (∃ e, s.submit c request correlationId = (s, some e)) ∨
      ∃ t r, s.withRoom c = some t ∧ s.history.get? request.requestId = none ∧ s.pendingByText.get? r.wireText = none ∧
        r.request = request ∧ r.correlationId = correlationId ∧ View.Fresh r ∧
        s.submit c request correlationId = (t.reserved r).send t.records.length r := by
  unfold submit
  split
  · exact .inl ⟨_, rfl⟩
  split
  · exact .inl ⟨_, rfl⟩
  split
  · exact .inl ⟨_, rfl⟩
  split
  · exact .inl ⟨_, rfl⟩
  split
  · exact .inl ⟨_, rfl⟩
  dsimp only
  split
  · exact .inl ⟨_, rfl⟩
  rename_i hnew
  split
  · exact .inl ⟨_, rfl⟩
  split
  · exact .inl ⟨_, rfl⟩
  rename_i htext
  split
  · exact .inl ⟨_, rfl⟩
  rename_i t ht
  refine .inr ⟨t, _, ht, ?_, ?_, rfl, rfl, ⟨rfl, rfl, rfl⟩, rfl⟩
  · exact Option.not_isSome_iff_eq_none.mp hnew
  · exact Option.not_isSome_iff_eq_none.mp htext

variable {s t : ClaudeStreamState} {ref : Nat} {r : ClaudeSubmission}

theorem abandon_held {requestId : String} (hget : s.history.get? requestId = some ref) (hr : s.records[ref]? = some r)
    (hcomp : r.completed = false) : s.abandon requestId = (s.modify ref View.abandonFlags).removePending r := by
  simp only [abandon, record?, modifyRecord, hget, hr, hcomp, Option.bind_some, Bool.false_eq_true, if_false]
  rfl

theorem abandon_cases (s : ClaudeStreamState) (requestId : String) : s.abandon requestId = s ∨
    ∃ ref r, s.history.get? requestId = some ref ∧ s.records[ref]? = some r ∧ r.completed = false ∧
      s.abandon requestId = (s.modify ref View.abandonFlags).removePending r := by
  cases hr : s.record? requestId with
  | none => exact .inl (by simp [abandon, hr])
  | some r =>
    cases hcomp : r.completed with
    | true => exact .inl (by simp [abandon, hr, hcomp])
    | false =>
      obtain ⟨ref, hget, hrec⟩ := Option.bind_eq_some_iff.mp hr
      exact .inr ⟨ref, r, hget, hrec, hcomp, abandon_held hget hrec hcomp⟩

theorem abandon_dropped (s : ClaudeStreamState) (ref : Nat) (r : ClaudeSubmission) :
    (s.dropped ref r).abandon r.request.requestId = s.dropped ref r := by
  simp [abandon, record?, dropped, Dict.get?_erase]

end ClaudeStreamState

namespace View

variable {P : Prop} {v : View} {s : ClaudeStreamState} {r : ClaudeSubmission}

theorem Ledger.send (h : Ledger P (v.withStream s)) (hnew : (v.withStream s).New r) :
    Ledger P (v.withStream ((s.reserved r).send s.records.length r).1) ∧
      (((s.reserved r).send s.records.length r).2.isSome →
        Ledger P (v.withStream (((s.reserved r).send s.records.length r).1.abandon r.request.requestId))) := by
  have hreserved : Ledger P ((v.withStream s).reserve r) := h.reserve hnew
  have hheld : ((v.withStream s).reserve r).Held s.records.length r := held_reserve
  have hsent : ∀ i ∈ v.sent, i < s.records.length := fun i hi => h.sent i hi
  have hwriting : ∀ i ∈ s.writing, i < s.records.length := by
    intro i hi
    obtain ⟨r', hr', -⟩ := h.waiting i hi
    exact lt_of_record hr'.1
  have hnotSent : s.records.length ∉ v.sent := fun hi => lt_irrefl _ (hsent _ hi)
  have hnotWriting : s.records.length ∉ s.writing := fun hi => lt_irrefl _ (hwriting _ hi)
  -- The text of the new record is its own.
  have hown {i : Nat} {r' : ClaudeSubmission} (hheld' : ((v.withStream s).reserve r).Held i r')
      (htext : ((v.withStream s).reserve r).TextPending r') (heq : r'.wireText = r.wireText) : i = s.records.length := by
    rw [TextPending, heq, View.reserve, Dict.get?_set_self] at htext
    have href := hheld'.2
    rw [← Option.some.inj htext, View.reserve, Dict.get?_set_self] at href
    exact (Option.some.inj href).symm
  have halias (hp : P) : ((v.withStream s).reserve r).NoAlias r := by
    intro hreading i r' ho htext heq
    have hi := hown ((hreserved.turn hp hreading).outstanding i r' ho).1 htext heq
    exact hnotSent (hi ▸ ho.sent)
  have hdropped : Ledger P (v.withStream ((s.reserved r).dropped s.records.length r)) :=
    hreserved.dropped hheld hnotSent hnotWriting halias
  have hremoved : Ledger P (((v.withStream s).reserve r).removePending r) := hreserved.removePending hheld.1 hnotSent halias
  unfold ClaudeStreamState.send
  split
  · exact ⟨hdropped, fun _ => by rw [ClaudeStreamState.abandon_dropped]; exact hdropped⟩
  split
  · refine ⟨hremoved, fun _ => ?_⟩
    rw [ClaudeStreamState.abandon_held (s := (s.reserved r).removePending r) hheld.2 hheld.1 hnew.fresh.uncompleted]
    refine hremoved.abandon_unsent hheld.1 hnotSent fun _ _ i r' _ htext heq => ?_
    rw [TextPending, heq, View.removePending, Dict.get?_erase, if_pos rfl] at htext
    cases htext
  split
  · exact ⟨hdropped, fun _ => by rw [ClaudeStreamState.abandon_dropped]; exact hdropped⟩
  refine ⟨?_, fun hsome => by cases hsome⟩
  refine hreserved.enqueue hheld hnew.fresh hsent hwriting fun i r' hheld' htext hlt heq => ?_
  exact absurd (hown hheld' htext heq.symm) (Nat.ne_of_lt hlt)

end View

/-! ## Writing -/

namespace ClaudeStreamState

theorem becameBusy_free {s : ClaudeStreamState} {r : ClaudeSubmission} (h : s.becameBusy r = some false) :
    s.acceptedOrder = [] ∧ s.pendingByText.get? r.wireText = some r.request.requestId ∧
      ∀ text id, s.pendingByText.get? text = some id → id = r.request.requestId := by
  unfold becameBusy at h
  split at h
  · cases h
  rename_i hidle
  simp only [not_or, not_not] at hidle
  obtain ⟨haccepted, -, htext⟩ := hidle
  refine ⟨haccepted, htext, fun text id hid => ?_⟩
  obtain ⟨active, hactive, heq⟩ := Option.map_eq_some_iff.mp h
  simp only [decide_eq_false_iff_not, not_not] at heq
  subst heq
  have hown := Dict.mem_values.mpr ⟨_, htext⟩
  have hother := Dict.mem_values.mpr ⟨_, hid⟩
  unfold activeOperation at hactive
  rw [haccepted] at hactive
  split at hactive
  · simp_all
  · rename_i id' hvalues
    rw [hvalues, List.mem_singleton] at hown hother
    exact hother.trans hown.symm
  · cases hactive

end ClaudeStreamState

open View

variable {P : Prop} {c : ClaudeConfig} {s t : ClaudeSession} {ref : Nat} {r : ClaudeSubmission}

namespace ClaudeSession

theorem ledger_submit {request : PromptRequest} {correlationId : String} (h : Ledger P s.view)
    (hnew : ∀ r ∈ s.records, r.correlationId ≠ correlationId) (setter : Bool) :
    Ledger P (s.submit c request correlationId setter).view := by
  unfold submit
  rcases s.submit_cases (c := c) request correlationId with ⟨e, he⟩ | ⟨t, r, ht, hrequest, htext, rfl, rfl, hfresh, hsend⟩
  · rw [he]
    dsimp only
    rw [if_neg fun hs => lt_irrefl _ hs.2.2]
    exact h
  have hroom : Ledger P (s.view.withStream t) := Ledger.withRoom (v := s.view) (s := s.toClaudeStreamState) h ht
  have hgone : t.known r.request.requestId = false :=
    (ClaudeStreamState.keeps_withRoom ht).known _ (by rw [ClaudeStreamState.known, hrequest]; rfl)
  obtain ⟨history, rfl⟩ := ClaudeStreamState.withRoom_eq ht
  have hnew' : (s.view.withStream { s.toClaudeStreamState with history := history }).New r :=
    ⟨hfresh, Option.not_isSome_iff_eq_none.mp (Bool.eq_false_iff.mp hgone), htext,
      fun i r' hr' => hnew r' (List.mem_of_getElem? hr')⟩
  obtain ⟨hsent, habandoned⟩ := Ledger.send hroom hnew'
  rw [hsend]
  dsimp only
  split
  · rename_i hs
    exact habandoned hs.2.1
  · exact hsent

theorem ledger_writePrompt (h : Ledger P s.view) (hr : s.records[ref]? = some r) (hhead : s.writing.head? = some ref)
    (hop : ∀ i ∈ s.sent, ∀ r' : ClaudeSubmission, s.records[i]? = some r' → r'.operation ≠ r.operation)
    (hclear : P → ∀ i ∈ s.sent, i ∉ s.replayed → ∀ r' : ClaudeSubmission, s.records[i]? = some r' → r'.abandoned = false) :
    Ledger P (s.writePrompt ref r).view := by
  obtain ⟨rest, hwriting⟩ : ∃ rest, s.writing = ref :: rest := by
    cases hw : s.writing with
    | nil => rw [hw] at hhead; cases hhead
    | cons i rest => rw [hw] at hhead; cases hhead; exact ⟨rest, rfl⟩
  have hmem : ref ∈ s.view.writing := by rw [show s.view.writing = ref :: rest from hwriting]; exact List.mem_cons_self
  have hsorted : (ref :: rest).Pairwise (· < ·) := hwriting ▸ h.sorted
  have hnotWriting : ref ∉ rest := fun hi => lt_irrefl _ ((List.pairwise_cons.mp hsorted).1 ref hi)
  have hnotSent : ref ∉ s.view.sent := fun hi => lt_irrefl _ (h.ahead ref hi ref hmem)
  obtain ⟨r', hheld, -, huncompleted⟩ := h.waiting ref hmem
  cases hheld.1.symm.trans hr
  have halias := h.noAlias hheld hmem
  have hdequeue : Ledger P { s.view with writing := rest } := by
    have hq : s.view.dequeue = { s.view with writing := rest } := by
      rw [View.dequeue, show s.view.writing = ref :: rest from hwriting, List.tail_cons]
    exact ⟨hq ▸ h.toTables.dequeue, fun hp => (h.wire hp).queue rest, fun hp hreading => (h.turn hp hreading).queue rest⟩
  unfold writePrompt
  simp only [hwriting, List.erase_cons_head]
  have hbusy (t : ClaudeStreamState) (ht : t = { s.toClaudeStreamState with writing := rest }) :
      t.becameBusy r = s.becameBusy r := by subst ht; rfl
  rw [hbusy _ rfl]
  split
  · exact hdequeue
  · exact hdequeue.dropped hheld hnotSent hnotWriting fun hp hreading i r' ho htext =>
      halias hp hreading i r' { ho with } htext
  rename_i hfree
  obtain ⟨haccepted, htext, honly⟩ := ClaudeStreamState.becameBusy_free hfree
  refine ⟨hdequeue.toTables.send hr (List.pairwise_cons.mp hsorted).1, fun hp => ?_, fun hp hreading => ?_⟩
  · exact (hdequeue.wire hp).send hr (fun i hi => h.ahead i hi ref hmem) hop
  have ht := hdequeue.turn hp hreading
  obtain ⟨i, r₁, hheld₁, hid, -, hc⟩ := h.texts r.wireText r.request.requestId htext
  have hi : i = ref := by
    have href := hheld₁.2
    rw [hid, hheld.2] at href
    exact (Option.some.inj href).symm
  subst hi
  cases hheld₁.1.symm.trans hr
  refine ht.send (fun j r' ho => ?_) hheld hc htext
  obtain ⟨hheld', hphase⟩ := ht.outstanding j r' ho
  have hj : j ≠ i := fun hj => hnotSent (hj ▸ ho.sent)
  rcases hphase with hc' | ha | ⟨hab, -, hrep⟩
  · have hid' := honly _ _ (ht.texts j r' ho hc')
    have href := hheld'.2
    rw [hid'] at href
    exact hj (Option.some.inj (href.symm.trans hheld.2))
  · have ha' : r'.request.requestId ∈ s.acceptedOrder := ha
    rw [haccepted] at ha'
    cases ha'
  · exact absurd ((hclear hp j ho.sent hrep r' ho.record).symm.trans hab) nofun

theorem ledger_unlocked (h : Ledger P s.view) : Ledger P { s.view with lock := none } :=
  ⟨{ h.toTables with }, fun hp => { h.wire hp with lock := fun _ hl => (nomatch hl) }, fun hp hreading =>
    (h.turn hp hreading).unlock⟩

theorem ledger_broke (h : Ledger P s.view) (hr : s.records[ref]? = some r) (hlock : s.lock = some (.prompt ref)) (setter : Bool) :
    Ledger P (s.broke ref r setter).view := by
  have hl : s.view.lock = some ref := by rw [view, hlock]; rfl
  have hbroke := h.broke hr hl
  unfold broke
  cases setter with
  | false => exact hbroke
  | true =>
    have hcases := ClaudeStreamState.abandon_cases (s.toClaudeStreamState.removePending r) r.request.requestId
    rcases hcases with heq | ⟨i, r', hget, hr', hcomp, heq⟩
    · simp only [onStream, if_true, heq]
      exact hbroke
    simp only [onStream, if_true, heq]
    obtain ⟨r₀, hr₀, hid⟩ := h.held r.request.requestId i hget
    cases hr₀.symm.trans hr'
    have hheld : (s.view.broke ref r).Held i r' := ⟨hr', by rw [hid]; exact hget⟩
    exact h.broke_abandon hr hl hheld hid hcomp

theorem ledger_drained (h : Ledger P s.view) {broken setter : Bool} (hs : s.drained broken setter = some t) : Ledger P t.view := by
  unfold drained at hs
  split at hs
  · cases hs
  · rename_i ref hlock
    obtain ⟨r, hr, rfl⟩ := Option.map_eq_some_iff.mp hs
    split
    · exact ledger_broke h hr hlock setter
    · exact ledger_unlocked h
  · cases hs
    have hu := ledger_unlocked h
    cases broken <;> exact hu
  rename_i i hlock
  obtain ⟨call, hcall, rfl⟩ := Option.map_eq_some_iff.mp hs
  have hu := ledger_unlocked h
  cases broken <;> exact hu

theorem ledger_abandon {requestId : String} (h : Ledger P s.view) (hs : s.abandonable requestId = true) :
    Ledger P (s.onStream fun t => t.abandon requestId).view := by
  rcases s.abandon_cases requestId with heq | ⟨ref, r, hget, hr, hcomp, heq⟩
  · simp only [onStream, heq]
    exact h
  simp only [onStream, heq]
  obtain ⟨r₀, hr₀, hid⟩ := h.held requestId ref hget
  cases hr₀.symm.trans hr
  simp only [abandonable, hget, Option.any_some, decide_eq_true_eq] at hs
  exact h.abandon ⟨hr, by rw [hid]; exact hget⟩ hcomp hs.1 hs.2

end ClaudeSession

namespace View

variable {v : View} {f : ClaudeSubmission → ClaudeSubmission}

theorem Tables.modify_unknown (h : Tables v) (hf : ∀ r, SameSubmission r (f r)) (hu : ∀ r, (f r).acceptance = .unknown)
    (hcomp : ∀ r, (f r).completed = r.completed) (hab : ∀ r, (f r).abandoned = r.abandoned) : Tables (v.modify ref f) := by
  refine h.modify hf ⟨fun r hr hc => ?_, fun r hr hw => ?_⟩
  · obtain ⟨i, r', hheld, hid, hcorr, hfresh⟩ := h.correlations _ _ hc
    cases h.distinct i ref r' r hheld.1 hr hcorr
    cases hheld.1.symm.trans hr
    exact ⟨hu r, (hcomp r).trans hfresh.uncompleted, (hab r).trans hfresh.unabandoned⟩
  obtain ⟨r', hheld, -, hcomp'⟩ := h.waiting ref hw
  cases hheld.1.symm.trans hr
  exact ⟨hu r, (hcomp r).trans hcomp'⟩

theorem Wire.modify_unknown (h : Wire v) (hf : ∀ r, SameSubmission r (f r))
    (hcomp : ∀ r, (f r).completed = r.completed) (hab : ∀ r, (f r).abandoned = r.abandoned)
    (hrep : ref ∈ v.replayed → ∀ r : ClaudeSubmission, v.records[ref]? = some r → r.abandoned = true) :
    Wire (v.modify ref f) := by
  refine h.modify hf ⟨?_, fun r hc => (hcomp r).trans hc, ?_⟩
  · exact fun r hr hc => h.completed ref r hr ((hcomp r).symm.trans hc)
  · exact fun r hr hi hfa => absurd ((hrep hi r hr).symm.trans ((hab r).symm.trans hfa)) nofun

/-! ## The reader's end -/

theorem Tables.stopped (h : Tables v) (l : List String) (hl : l = v.accepted ∨ l = []) :
    Tables { v with
      accepted := l
      reading := false } := by
  refine { h with accepted := ?_ }
  rcases hl with rfl | rfl
  · exact h.accepted
  · exact fun _ hid => (nomatch hid)

theorem Wire.stopped (h : Wire v) (l : List String) (hl : l = v.accepted ∨ l = []) :
    Wire { v with
      accepted := l
      reading := false } := by
  refine { h with single := ?_ }
  rcases hl with rfl | rfl
  · exact h.single
  · exact Nat.zero_le _

variable {s : ClaudeStreamState}

theorem completePending_keeps (o : ClaudeSubmission → SendOutcome) {ids : List String} (h : Tables (v.withStream s))
    (hw : P → Wire (v.withStream s)) (hids : P → ∀ id ∈ ids, ∀ ref, s.history.get? id = some ref → ref ∉ v.replayed) :
    Tables (v.withStream (ClaudeStreamState.completePending o ids s).1) ∧
      (P → Wire (v.withStream (ClaudeStreamState.completePending o ids s).1)) := by
  induction ids generalizing s with
  | nil => exact ⟨h, hw⟩
  | cons id ids ih =>
    unfold ClaudeStreamState.completePending
    cases hrec : s.record? id with
    | none => exact ⟨h, hw⟩
    | some r =>
      obtain ⟨ref, hget, hr⟩ := Option.bind_eq_some_iff.mp hrec
      have hr' : (v.withStream s).records[ref]? = some r := hr
      let f (r' : ClaudeSubmission) : ClaudeSubmission :=
        { r' with
          acceptance := .unknown
          answer := r'.answer.or (some (o r')) }
      have hf (r' : ClaudeSubmission) : SameSubmission r' (f r') := ⟨rfl, rfl, rfl, rfl⟩
      have htables : Tables ((v.withStream s).modify ref f) :=
        h.modify_unknown hf (fun _ => rfl) (fun _ => rfl) fun _ => rfl
      have hwire (hp : P) : Wire ((v.withStream s).modify ref f) :=
        (hw hp).modify_unknown hf (fun _ => rfl) (fun _ => rfl) fun hi => absurd hi (hids hp id List.mem_cons_self ref hget)
      have hremoved := htables.removePending (some_modify_self hr')
      dsimp only
      refine ih ?_ ?_ ?_
      · simp only [ClaudeStreamState.modifyRecord, hget]
        exact hremoved
      · intro hp
        simp only [ClaudeStreamState.modifyRecord, hget]
        exact (hwire hp).removePending
      intro hp id' hid' i hi
      simp only [ClaudeStreamState.modifyRecord, hget] at hi
      exact hids hp id' (List.mem_cons_of_mem _ hid') i hi

theorem Ledger.readerStopped (h : Ledger P (v.withStream s)) (control : Harness.ControlState)
    (o : ClaudeSubmission → SendOutcome) : Ledger P (v.withStream (s.readerStopped control o)) := by
  have hids (hp : P) : ∀ id ∈ s.pendingByText.values, ∀ ref, s.history.get? id = some ref → ref ∉ v.replayed := by
    intro id hid ref hget
    obtain ⟨text, htext⟩ := Dict.mem_values.mp hid
    obtain ⟨i, r, hheld, rfl, -, hc⟩ := h.texts text id htext
    cases hheld.2.symm.trans hget
    exact (h.wire hp).pending _ r hheld hc
  obtain ⟨htables, hwire⟩ := completePending_keeps o h.toTables h.wire hids
  unfold ClaudeStreamState.readerStopped ClaudeStreamState.completePendingOnDisconnect
  rcases hp : ClaudeStreamState.completePending o s.pendingByText.values s with ⟨t, done⟩
  rw [hp] at htables hwire
  have hstopped (l : List String) (hl : l = t.acceptedOrder ∨ l = []) (control : Harness.ControlState)
      (activity : Harness.ActivityState) :
      Ledger P (v.withStream
        { t with
          acceptedOrder := l
          reading := false
          control := control
          activity := activity }) :=
    ⟨htables.stopped l hl, fun hp => (hwire hp).stopped l hl, fun _ hreading => nomatch hreading⟩
  cases done with
  | false => exact hstopped _ (.inl rfl) t.control t.activity
  | true =>
    dsimp only
    split
    · rename_i hstop
      split at hstop
      · cases hstop
        exact hstopped _ (.inr rfl) _ _
      · cases hstop
    rename_i hstop
    split at hstop
    · cases hstop
    · cases hstop
      exact hstopped _ (.inl rfl) _ _

end View

namespace ClaudeSession

theorem ledger_acceptanceTimeout (h : Ledger P s.view) (hclear : P → ref ∈ s.replayed → s.letGo ref = true)
    (r : ClaudeSubmission) : Ledger P (s.onStream fun t => (t.acceptanceTimeout ref r).1).view := by
  let f (r : ClaudeSubmission) : ClaudeSubmission := { r with acceptance := .unknown }
  have hf (r : ClaudeSubmission) : SameSubmission r (f r) := ⟨rfl, rfl, rfl, rfl⟩
  have htables : Tables (s.view.modify ref f) := h.toTables.modify_unknown hf (fun _ => rfl) (fun _ => rfl) fun _ => rfl
  have hwire (hp : P) : Wire (s.view.modify ref f) := by
    refine (h.wire hp).modify_unknown hf (fun _ => rfl) (fun _ => rfl) fun hi r hr => ?_
    have hgo := hclear hp hi
    simpa only [letGo, show s.records[ref]? = some r from hr, Option.any_some] using hgo
  have hturn (hp : P) (hreading : s.view.reading = true) : Turn (s.view.modify ref f) :=
    (h.turn hp hreading).modify hf (fun _ => rfl) (fun _ => rfl) fun _ _ => rfl
  exact ⟨htables, hwire, hturn⟩

theorem ledger_failReader (h : Ledger P s.view) (control : Harness.ControlState) (o : ClaudeSubmission → SendOutcome)
    (detail : String) : Ledger P (s.failReader (fun t => t.readerStopped control o) detail).view :=
  Ledger.readerStopped (v := s.view) (s := s.toClaudeStreamState) h control o

/-! ## Frames -/

theorem values_held (h : Tables s.view) {r : ClaudeSubmission} (hr : r ∈ s.history.values.filterMap (s.records[·]?)) :
    ∃ ref, s.view.Held ref r := by
  obtain ⟨ref, href, hrec⟩ := List.mem_filterMap.mp hr
  obtain ⟨id, hget⟩ := Dict.mem_values.mp href
  obtain ⟨r', hr', hid⟩ := h.held id ref hget
  have hr'' : s.records[ref]? = some r' := hr'
  cases hrec.symm.trans hr''
  exact ⟨ref, hr', by rw [hid]; exact hget⟩

theorem replay_cases (h : Tables s.view) (hr : s.records[ref]? = some r) {t : ClaudeStreamState}
    (ht : s.toClaudeStreamState.handleReplayedUser (some r.correlationId) (some s.vendorSessionId) r.replayText = .ok t) :
    s.view.Held ref r ∧
      ((∃ o, ∀ replayed, { s.view.withStream t with replayed := replayed } =
          { (s.view.accept ref r o).replay ref r.request.requestId with replayed := replayed }) ∨
        (r.abandoned = true ∧ ¬ s.view.CorrelationPending r ∧ ∀ replayed, { s.view.withStream t with replayed := replayed } =
          { s.view.replay ref r.request.requestId with replayed := replayed }) ∨
        ((r.completed = true ∨ r.request.requestId ∈ s.acceptedOrder) ∧ t = s.toClaudeStreamState)) := by
  have hsame {i : Nat} {r' : ClaudeSubmission} (hheld : s.view.Held i r') (hc : r'.correlationId = r.correlationId) :
      s.view.Held ref r ∧ r' = r := by
    cases h.distinct i ref r' r hheld.1 hr hc
    cases hheld.1.symm.trans hr
    exact ⟨hheld, rfl⟩
  have hfaithful : s.toClaudeStreamState.faithfulReplay (some s.vendorSessionId) r.replayText r.replayText = .ok () := by
    simp [ClaudeStreamState.faithfulReplay]
  simp only [ClaudeStreamState.handleReplayedUser, Option.bind_some] at ht
  split at ht
  · rename_i hnone
    unfold ClaudeStreamState.handleAbandonedReplay at ht
    split at ht
    · cases ht
    rename_i r' hfind
    have hp := List.find?_some hfind
    simp only [Bool.and_eq_true, decide_eq_true_eq, Option.some.injEq] at hp
    obtain ⟨i, hheld'⟩ := values_held h (List.mem_of_find?_eq_some hfind)
    obtain ⟨hheld, rfl⟩ := hsame hheld' hp.1
    refine ⟨hheld, .inr ?_⟩
    simp only [hfaithful, bind, Except.bind] at ht
    split at ht
    · rename_i hdone
      cases ht
      exact .inr ⟨hdone, rfl⟩
    cases ht
    refine .inl ⟨hp.2, fun hc => ?_, fun _ => rfl⟩
    exact nomatch hnone.symm.trans hc
  · rename_i id hpending
    obtain ⟨i, r', hheld', hid, hcorr, -⟩ := h.correlations _ _ hpending
    obtain ⟨hheld, rfl⟩ := hsame hheld' hcorr
    have hget : s.history.get? id = some ref := by rw [← hid]; exact hheld.2
    have hrecord : s.toClaudeStreamState.record? id = some r' := by simp [ClaudeStreamState.record?, hget, hr]
    refine ⟨hheld, .inl ?_⟩
    simp only [hrecord, hfaithful, bind, Except.bind, ClaudeStreamState.modifyRecord, hget] at ht
    split at ht
    · cases ht
    cases ht
    refine ⟨receipt r'.request .immediate (some r'.correlationId) "accepted by correlated replay-user-message", fun _ => ?_⟩
    rw [← hid]
    rfl

theorem replay_ok (h : Base s.view) (ht : Turn s.view) (hr : s.records[ref]? = some r) (hout : s.view.Out ref r)
    (hrep : ref ∉ s.replayed) :
    ∃ t, s.toClaudeStreamState.handleReplayedUser (some r.correlationId) (some s.vendorSessionId) r.replayText = .ok t := by
  have haccepted : s.acceptedOrder = [] := ht.no_turn h hout hrep
  obtain ⟨hheld, hphase⟩ := ht.outstanding ref r hout
  have hget : s.history.get? r.request.requestId = some ref := hheld.2
  have hfaithful : s.toClaudeStreamState.faithfulReplay (some s.vendorSessionId) r.replayText r.replayText = .ok () := by
    simp [ClaudeStreamState.faithfulReplay]
  have hfree : ¬ s.acceptedOrder ≠ [] := fun hne => hne haccepted
  simp only [ClaudeStreamState.handleReplayedUser, Option.bind_some]
  split
  · rename_i hnone
    have hab : r.abandoned = true := by
      rcases hphase with hc | ha | ⟨hab, -⟩
      · exact nomatch hnone.symm.trans hc
      · have ha' : r.request.requestId ∈ s.acceptedOrder := ha
        rw [haccepted] at ha'
        cases ha'
      · exact hab
    have hmem : r ∈ s.history.values.filterMap (s.records[·]?) :=
      List.mem_filterMap.mpr ⟨ref, Dict.mem_values.mpr ⟨_, hget⟩, hr⟩
    unfold ClaudeStreamState.handleAbandonedReplay
    split
    · rename_i hfind
      have hno := List.find?_eq_none.mp hfind r hmem
      simp [hab] at hno
    rename_i r' hfind
    have hp := List.find?_some hfind
    simp only [Bool.and_eq_true, decide_eq_true_eq, Option.some.injEq] at hp
    obtain ⟨i, hheld'⟩ := values_held h.toTables (List.mem_of_find?_eq_some hfind)
    cases h.distinct i ref r' r hheld'.1 hr hp.1
    cases hheld'.1.symm.trans hr
    simp only [hfaithful, bind, Except.bind]
    split <;> exact ⟨_, rfl⟩
  · rename_i id hpending
    obtain ⟨i, r', hheld', hid, hcorr, -⟩ := h.correlations _ _ hpending
    cases h.distinct i ref r' r hheld'.1 hr hcorr
    cases hheld'.1.symm.trans hr
    have hrecord : s.toClaudeStreamState.record? id = some r := by rw [← hid]; simp [ClaudeStreamState.record?, hget, hr]
    simp only [hrecord, hfaithful, bind, Except.bind, if_neg hfree]
    exact ⟨_, rfl⟩

theorem ledger_replay (h : Ledger P s.view) (hreading : s.reading = true) (hr : s.records[ref]? = some r) (hsent : ref ∈ s.sent)
    (hrep : ref ∉ s.replayed) (hbroken : P → ref ∈ s.broken → s.letGo ref = true) (result : ResultFrame) :
    Ledger P { s.answer (s.replayFrame r) result with replayed := s.replayed ++ [ref] }.view := by
  have hout (hp : P) : s.view.Out ref r := by
    have hbroken' : ref ∈ s.broken → r.abandoned = true := by simpa [letGo, hr] using hbroken hp
    exact out_of_unreplayed (h.base hp) hsent hbroken' hr hrep
  cases ht : s.toClaudeStreamState.handleReplayedUser (some r.correlationId) (some s.vendorSessionId) r.replayText with
  | error detail =>
    have hframe : s.handleFrame (s.replayFrame r) result = .error detail := by
      simp [handleFrame, replayFrame, ClaudeStreamState.handleFrame, ht, Except.map]
    have hno : ¬ P := by
      intro hp
      obtain ⟨t, hok⟩ := replay_ok (h.base hp) (h.turn hp hreading) hr (hout hp) hrep
      cases ht.symm.trans hok
    have hfailed := ledger_failReader h .failed (fun _ => .failed detail) detail
    simp only [answer, hframe]
    exact ⟨{ hfailed.toTables with }, fun hp => absurd hp hno, fun hp => absurd hp hno⟩
  | ok t =>
    have hframe : s.handleFrame (s.replayFrame r) result = .ok { s with toClaudeStreamState := t } := by
      simp [handleFrame, replayFrame, ClaudeStreamState.handleFrame, ht, Except.map]
    simp only [answer, hframe]
    have hview : { ({ s with toClaudeStreamState := t } : ClaudeSession) with replayed := s.replayed ++ [ref] }.view =
      { s.view.withStream t with replayed := s.replayed ++ [ref] } := rfl
    rw [hview]
    obtain ⟨hheld, ⟨o, heq⟩ | ⟨hab, hc, heq⟩ | ⟨hdone, rfl⟩⟩ := replay_cases h.toTables hr ht
    · rw [heq]
      exact h.accept hheld hsent hout hreading hrep o
    · rw [heq]
      exact h.late hheld hsent hout hreading hrep hab hc
    have hno : ¬ P := by
      intro hp
      rcases hdone with hcomp | ha
      · exact absurd ((hout hp).uncompleted.symm.trans hcomp) (by simp)
      have haccepted : s.acceptedOrder = [] := (h.turn hp hreading).no_turn (h.base hp) (hout hp) hrep
      rw [haccepted] at ha
      cases ha
    exact ⟨{ h.toTables with }, fun hp => absurd hp hno, fun hp => absurd hp hno⟩

theorem result_cases (frame : ResultFrame) : (∃ detail, s.handleFrame (.result (some s.vendorSessionId)) frame = .error detail ∧
      (s.acceptedOrder = [] ∨ ∃ id rest, s.acceptedOrder = id :: rest ∧ s.toClaudeStreamState.record? id = none)) ∨
    ∃ id rest ref r t, s.acceptedOrder = id :: rest ∧ s.history.get? id = some ref ∧ s.records[ref]? = some r ∧
      s.handleFrame (.result (some s.vendorSessionId)) frame = .ok t ∧
      t.interruptAccepted = (s.interruptAccepted.filter fun id' => id' ≠ id) ∧
      { t with results := s.results + 1 }.view = s.view.complete ref rest (s.history.moveToEnd id)
        ⟨ref, r.operation, terminalOutcome frame (decide (id ∈ s.interruptAccepted)),
          terminalOutcome frame (decide (id ∈ s.interruptAccepted)) ≠ terminalOutcome frame false⟩ := by
  cases haccepted : s.acceptedOrder with
  | nil =>
    refine .inl ⟨"Claude result has no exact active operation", ?_, .inl rfl⟩
    simp [handleFrame, handleResult, ClaudeStreamState.handleResult, haccepted]
  | cons id rest =>
    cases hrecord : s.toClaudeStreamState.record? id with
    | none =>
      refine .inl ⟨ClaudeStreamState.keyError, ?_, .inr ⟨id, rest, rfl, hrecord⟩⟩
      simp [handleFrame, handleResult, ClaudeStreamState.handleResult, haccepted, hrecord]
    | some r =>
      obtain ⟨ref, hget, hr⟩ := Option.bind_eq_some_iff.mp hrecord
      refine .inr ⟨id, rest, ref, r, ?_⟩
      simp only [handleFrame, handleResult, ClaudeStreamState.handleResult, haccepted, hrecord, hget, ne_eq, not_true_eq_false,
        if_false, ClaudeStreamState.modifyRecord]
      exact ⟨_, trivial, trivial, hr, rfl, rfl, rfl⟩

theorem ledger_result (h : Ledger P s.view) (hreading : s.reading = true) (hdue : s.results < s.replayed.length)
    (frame : ResultFrame) :
    Ledger P { s.answer (.result (some s.vendorSessionId)) frame with results := s.results + 1 }.view := by
  rcases result_cases (s := s) frame with ⟨detail, hframe, hcause⟩ | ⟨id, rest, ref, r, t, haccepted, hget, hr, hframe, -, hview⟩
  · have hno : ¬ P := by
      intro hp
      have hbalance : s.replayed.length = s.results + s.acceptedOrder.length := (h.turn hp hreading).balance
      rcases hcause with hempty | ⟨id, rest, haccepted, hrecord⟩
      · rw [hempty, List.length_nil] at hbalance
        omega
      obtain ⟨ref, r, hheld, hid, -⟩ := h.accepted id (by rw [show s.view.accepted = id :: rest from haccepted]; simp)
      have hget : s.history.get? id = some ref := by rw [← hid]; exact hheld.2
      have hr : s.records[ref]? = some r := hheld.1
      simp [ClaudeStreamState.record?, hget, hr] at hrecord
    have hfailed := ledger_failReader h .failed (fun _ => .failed detail) detail
    simp only [answer, hframe]
    exact ⟨{ hfailed.toTables with }, fun hp => absurd hp hno, fun hp => absurd hp hno⟩
  · obtain ⟨r', hr', hid⟩ := h.held id ref hget
    have hr'' : s.records[ref]? = some r' := hr'
    cases hr''.symm.trans hr
    have hheld : s.view.Held ref r := ⟨hr, by rw [hid]; exact hget⟩
    simp only [answer, hframe, hview]
    exact h.complete hreading haccepted hheld hid (fun k => Dict.get?_moveToEnd _ _ _) rfl rfl

/-! ## Runs -/

/-- The factory gives a new correlation, the owner of the operations has each written once, and the process replays a
message that was written, once, and ends what it replayed. -/
def faithful (s : ClaudeSession) : ClaudeAction → Bool
  | .submit _ correlationId _ => s.records.all fun r => r.correlationId ≠ correlationId
  | .writePrompt ref => s.sent.all fun i =>
      (s.records[i]?).map ClaudeSubmission.operation ≠ (s.records[ref]?).map ClaudeSubmission.operation
  | .replay ref => ref ∈ s.sent && ref ∉ s.replayed
  | .result _ => s.results < s.replayed.length
  | .frame (.replayedUser ..) _ => false
  | .frame (.result _) _ => false
  | _ => true

/-- The acknowledgement bound spares what was replayed, nothing is written while a message that was let go is still to be
replayed, and no message is replayed whose write broke off, unless it was let go. -/
def clear (s : ClaudeSession) : ClaudeAction → Bool
  | .acceptanceTimeout ref => ref ∉ s.replayed || s.letGo ref
  | .writePrompt _ => s.sent.all fun i => i ∈ s.replayed || !s.letGo i
  | .replay ref => ref ∉ s.broken || s.letGo ref
  | _ => true

/-- What the correlation ledger owes in every state. -/
structure LedgerSound (s : ClaudeSession) : Prop where
  single : s.acceptedOrder.length ≤ 1
  survives : s.ownFailure = false
  once : (s.completions.map Completion.operation).Nodup
  replayed : ∀ e ∈ s.completions, e.ref ∈ s.replayed ∧
    (s.records[e.ref]?).map ClaudeSubmission.operation = some e.operation
  retained : ∀ ref ∈ s.replayed, ∀ r : ClaudeSubmission, s.records[ref]? = some r → r.abandoned = false →
    r.acceptance = .immediate
  reconciled : ∀ id ref, s.history.get? id = some ref → ref ∈ s.replayed → s.letGo ref = false → s.reconcile id = .accepted

def startedView (reading : Bool) : View where
  records := []
  history := .empty
  texts := .empty
  correlations := .empty
  accepted := []
  writing := []
  reading := reading
  lock := none
  sent := []
  broken := []
  replayed := []
  results := 0
  completions := []
  ownFailure := false

theorem ledger_started (h : s.Started) : Ledger P s.view := by
  obtain ⟨⟨-, hrecords, hhistory, htexts, hcorrelations, haccepted, hwriting, -⟩, hfresh⟩ := h
  have hview : s.view = startedView s.reading := by
    rw [hfresh]
    simp only [view, hrecords, hhistory, htexts, hcorrelations, haccepted, hwriting]
    rfl
  rw [hview]
  refine ⟨⟨?_, ?_, ?_, ?_, ?_, .nil, ?_, ?_, ?_, ?_, ?_⟩, fun _ =>
    ⟨?_, ?_, ?_, ?_, ?_, ?_, ?_, .nil, Nat.zero_le _, rfl, ?_⟩, fun _ _ => .of_none (fun i r ho => nomatch ho.sent) rfl rfl⟩ <;>
    simp [startedView]

theorem ledger_frame {frame : ClaudeStreamState.ClaudeFrame} {result : ResultFrame} (h : Ledger P s.view)
    (hs : s.faithful (.frame frame result) = true) : Ledger P (s.handled (s.handleFrame frame result)).view := by
  have hfail (detail : String) : Ledger P (s.failReader (fun t => t.failReader detail) detail).view :=
    ledger_failReader h .failed _ detail
  unfold handleFrame handled
  cases frame with
  | replayedUser uuid sessionId text => exact nomatch hs
  | result sessionId => exact nomatch hs
  | controlRequest requestId =>
    cases requestId with
    | none => exact hfail _
    | some requestId =>
      by_cases hp : s.pendingInteraction.isSome = true
      · simp only [ClaudeStreamState.handleFrame, hp, if_true, Except.map]
        exact hfail _
      · simp only [ClaudeStreamState.handleFrame, hp, Except.map]
        exact h
  | controlCancelRequest requestId =>
    by_cases hp : s.pendingInteraction = some requestId
    · simp only [ClaudeStreamState.handleFrame, hp, if_true, Except.map]
      exact h
    · simp only [ClaudeStreamState.handleFrame, hp, if_false, Except.map]
      exact h
  | assistant => exact h
  | apiRetry => exact h
  | status status => exact h
  | other => exact h

theorem ledger_handleControlResponse (h : Ledger P s.view) (i : Nat) (call : InterruptCall) (accepted : Bool)
    (detail : Option String) : Ledger P (s.handleControlResponse i call accepted detail).view := by
  unfold handleControlResponse
  split <;> exact h

theorem ledger_interrupt (h : Ledger P s.view) (turnId expectedOperationId : Option String) :
    Ledger P (s.interrupt turnId expectedOperationId).2.view := by
  unfold interrupt
  split
  · exact h
  split
  · exact h
  split
  · exact h
  split
  · exact h
  dsimp only
  split
  · exact h
  split
  · exact h
  split
  · exact h
  split
  · exact h
  split
  · have hu := ledger_unlocked h
    exact hu
  · exact h

theorem ledger_step {i : ClaudeAction} (h : Ledger P s.view) (hfaithful : s.faithful i = true) (hclear : P → s.clear i = true)
    (hs : s.step c i = some t) : Ledger P t.view := by
  cases i with
  | submit request correlationId setter =>
    cases hs
    exact ledger_submit h (by simpa [faithful] using hfaithful) setter
  | writePrompt ref =>
    simp only [step] at hs
    split at hs
    · rename_i r hr
      split at hs
      · rename_i hfirst
        cases hs
        simp only [faithful, clear, List.all_eq_true, decide_eq_true_eq, Bool.or_eq_true, Bool.not_eq_true'] at hfaithful hclear
        refine ledger_writePrompt h hr hfirst.1 (fun i hi r' hr' hop => ?_) fun hp i hi hrep r' hr' => ?_
        · exact hfaithful i hi (by rw [hr, hr', Option.map_some, Option.map_some, hop])
        · have hgo := (hclear hp i hi).resolve_left hrep
          simpa [letGo, hr'] using hgo
      · cases hs
    · cases hs
  | drained broken setter => exact ledger_drained h hs
  | answered ref =>
    simp only [step] at hs
    split at hs
    · split at hs
      · cases hs
        exact h
      · cases hs
    · cases hs
  | acceptanceTimeout ref =>
    simp only [step] at hs
    split at hs
    · rename_i r hr
      split at hs
      · cases hs
        simp only [clear, Bool.or_eq_true, decide_eq_true_eq] at hclear
        exact ledger_acceptanceTimeout h (fun hp hi => (hclear hp).resolve_left (not_not.mpr hi)) r
      · cases hs
    · cases hs
  | abandon requestId =>
    simp only [step] at hs
    split at hs
    · rename_i hw
      cases hs
      exact ledger_abandon h hw
    · cases hs
  | replay ref =>
    simp only [step] at hs
    split at hs
    · rename_i r hr
      split at hs
      · rename_i hreading
        cases hs
        simp only [faithful, clear, Bool.and_eq_true, Bool.or_eq_true, decide_eq_true_eq] at hfaithful hclear
        exact ledger_replay h hreading hr hfaithful.1 hfaithful.2 (fun hp hi => (hclear hp).resolve_left (not_not.mpr hi)) _
      · cases hs
    · cases hs
  | result frame =>
    simp only [step] at hs
    split at hs
    · rename_i hreading
      cases hs
      exact ledger_result h hreading (by simpa [faithful] using hfaithful) frame
    · cases hs
  | frame frame result =>
    simp only [step] at hs
    split at hs
    · cases hs
      exact ledger_frame h hfaithful
    · cases hs
  | eof returncode =>
    simp only [step] at hs
    split at hs
    · cases hs
      exact ledger_failReader h _ _ _
    · cases hs
  | respond interactionId operation =>
    cases hs
    simp only [onStream, ClaudeStreamState.respond]
    split <;> exact h
  | writeResponse =>
    simp only [step] at hs
    split at hs
    · cases hs
      have hu := ledger_unlocked h
      exact hu
    · cases hs
  | interrupt turnId expectedOperationId =>
    cases hs
    exact ledger_interrupt h turnId expectedOperationId
  | writeInterrupt i =>
    simp only [step] at hs
    split at hs
    · split at hs
      · cases hs
        have hu := ledger_unlocked h
        exact hu
      · cases hs
    · cases hs
  | interruptAnswer i accepted detail =>
    simp only [step] at hs
    split at hs
    · split at hs
      · cases hs
        exact ledger_handleControlResponse h i _ accepted detail
      · cases hs
    · cases hs
  | interruptAnswered i =>
    simp only [step] at hs
    split at hs
    · split at hs
      · obtain ⟨answer, -, rfl⟩ := Option.map_eq_some_iff.mp hs
        cases answer <;> exact h
      · cases hs
    · cases hs
  | interruptTimeout i =>
    simp only [step] at hs
    split at hs
    · split at hs
      · cases hs
        exact h
      · cases hs
    · cases hs
  | stdinClosed =>
    cases hs
    exact h
  | released =>
    cases hs
    exact h
  | readerFinished graceful =>
    cases hs
    exact ⟨h.toTables.stopped _ (.inl rfl), fun hp => (h.wire hp).stopped _ (.inl rfl), fun _ hreading => nomatch hreading⟩

end ClaudeSession

variable {u : ClaudeSession}

theorem View.Base.sound (h : Base s.view) : s.LedgerSound :=
  { h with
    replayed e he := by
      obtain ⟨hrep, r, hr, hop, -⟩ := h.completions e he
      have hr' : s.records[e.ref]? = some r := hr
      exact ⟨hrep, by rw [hr', hop, Option.map_some]⟩
    reconciled id ref hget hrep hgo := by
      obtain ⟨r, hr, -⟩ := h.held id ref hget
      have hr' : s.records[ref]? = some r := hr
      have hab : r.abandoned = false := by simpa [ClaudeSession.letGo, hr'] using hgo
      have hrecord : s.record? id = some r := by simp [ClaudeStreamState.record?, hget, hr']
      simp only [ClaudeSession.reconcile, hrecord, h.retained ref hrep r hr hab] }

/-- **The correlation ledger.** In every run in which the process, the factory and the owner keep to their part and every
step is clear, the ledger is sound in every state. -/
theorem ledger_sound_of_clear (c : ClaudeConfig) (hs : s.Started)
    (h : Steps (claudeSystem c s) (fun u i => u.faithful i = true ∧ u.clear i = true) s t) : t.LedgerSound := by
  have hledger : Ledger True t.view :=
    Reachable.invariant (M := claudeSystem c s) (I := fun u => Ledger True u.view) (ClaudeSession.ledger_started hs)
      (fun u i w hu hok hstep => ClaudeSession.ledger_step hu hok.1 (fun _ => hok.2) hstep) h
  exact (hledger.base trivial).sound

/-! ## Runs of a started session -/

def startedStream : ClaudeStreamState where
  control := .ready
  activity := .idle
  vendorSessionId := "session"
  pendingInteraction := none
  records := []
  history := .empty
  pendingByText := .empty
  pendingByCorrelation := .empty
  acceptedOrder := []
  reading := true
  process := true
  stdinOpen := true
  writing := []
  awaiting := []
  responding := 0
  wire := []

def startedSession : ClaudeSession := { toClaudeStreamState := startedStream }

theorem startedSession_started : startedSession.Started := ⟨⟨rfl, rfl, rfl, rfl, rfl, rfl, rfl, rfl⟩, rfl⟩

def promptOf (id : String) (attempt : Nat) : PromptRequest where
  requestId := id
  text := "/m"
  submittedAt := ""
  operation := some ⟨"epoch", attempt, id, .prompt⟩

def acceptedRun : List ClaudeAction := [.submit (promptOf "a" 1) "u" false, .writePrompt 0, .drained false false, .replay 0]

theorem endedRun_clear : (checkedRun (claudeSystem ⟨["m"], 256⟩ startedSession)
    (fun u i => u.faithful i = true ∧ u.clear i = true) startedSession
    (acceptedRun ++ [.answered 0, .result ⟨"success", false, none⟩])).any (fun u => u.completions.length = 1) = true := by
  decide +kernel

/-- A prompt that is replayed before its bound, and ended. -/
theorem endedRun_sound : ∃ u, Steps (claudeSystem ⟨["m"], 256⟩ startedSession)
    (fun u i => u.faithful i = true ∧ u.clear i = true) startedSession u ∧ u.completions.length = 1 ∧ u.LedgerSound := by
  obtain ⟨u, hrun, hlength⟩ := exists_of_checkedRun endedRun_clear
  exact ⟨u, hrun, of_decide_eq_true hlength, ledger_sound_of_clear _ startedSession_started hrun⟩

theorem racedRun_faithful : (checkedRun (claudeSystem ⟨["m"], 256⟩ startedSession) (fun u i => u.faithful i = true) startedSession
    (acceptedRun ++ [.acceptanceTimeout 0])).any
      (fun u => 0 ∈ u.replayed && u.records.head?.any fun r => r.acceptance = .unknown && !r.abandoned) = true := by
  decide +kernel

/-- The bound expires as the replay is taken: the accepted submission is unknown from then on. -/
theorem raced_replay_unknown : ¬ ∀ (c : ClaudeConfig) (s t : ClaudeSession), s.Started →
    Steps (claudeSystem c s) (fun u i => u.faithful i = true) s t → t.LedgerSound := by
  intro h
  obtain ⟨u, hrun, hp⟩ := exists_of_checkedRun racedRun_faithful
  have hsound := h ⟨["m"], 256⟩ startedSession u startedSession_started hrun
  simp only [Bool.and_eq_true, decide_eq_true_eq, Option.any_eq_true, Bool.not_eq_true'] at hp
  obtain ⟨hrep, r, hr, hunknown, hab⟩ := hp
  have hretained := hsound.retained 0 hrep r (List.head?_eq_getElem?.symm.trans hr) hab
  cases hunknown.symm.trans hretained

end AgentsRemember.Adapter.Claude
