import AgentsRemember.Adapter.ClaudeInterrupts

/-!
# What an accepted interrupt decides

A turn ends as cancelled by an interrupt only after the success answer to an
interrupt that was written for the operation of that turn.
-/

namespace AgentsRemember.Adapter.Claude

open Lib
open Harness (ControlOperationRef)

/-! ## What is accepted keeps its operation -/

namespace ClaudeStreamState

variable {c : ClaudeConfig} {s t u : ClaudeStreamState}

def operationOf (s : ClaudeStreamState) (id : String) : Option ControlOperationRef :=
  (s.record? id).map ClaudeSubmission.operation

structure Stays (s t : ClaudeStreamState) : Prop where
  records : ∀ (i : Nat) (r : ClaudeSubmission), s.records[i]? = some r → ∃ r', t.records[i]? = some r' ∧ r'.operation = r.operation
  history : ∀ id ∈ s.acceptedOrder, t.history.get? id = s.history.get? id
  accepted : ∃ l, t.acceptedOrder = s.acceptedOrder ++ l
  reading : t.reading = s.reading

theorem Stays.of_eq (hrecords : t.records = s.records) (hhistory : t.history = s.history)
    (haccepted : t.acceptedOrder = s.acceptedOrder) (hreading : t.reading = s.reading) : Stays s t :=
  ⟨fun i r hr => ⟨r, hrecords ▸ hr, rfl⟩, fun _ _ => by rw [hhistory], ⟨[], by rw [haccepted, List.append_nil]⟩, hreading⟩

theorem Stays.refl (s : ClaudeStreamState) : Stays s s := .of_eq rfl rfl rfl rfl

theorem Stays.trans (h : Stays s t) (h' : Stays t u) : Stays s u := by
  obtain ⟨l, hl⟩ := h.accepted
  obtain ⟨l', hl'⟩ := h'.accepted
  refine ⟨fun i r hr => ?_, fun id hid => ?_, ⟨l ++ l', by rw [hl', hl, List.append_assoc]⟩,
    h'.reading.trans h.reading⟩
  · obtain ⟨r', hr', hop⟩ := h.records i r hr
    obtain ⟨r'', hr'', hop'⟩ := h'.records i r' hr'
    exact ⟨r'', hr'', hop'.trans hop⟩
  · rw [h'.history id (hl ▸ List.mem_append_left _ hid), h.history id hid]

variable {id : String} {r : ClaudeSubmission}

theorem Stays.operationOf (h : Stays s t) {o : ControlOperationRef} (hid : id ∈ s.acceptedOrder)
    (ho : s.operationOf id = some o) : t.operationOf id = some o := by
  obtain ⟨r, hr, rfl⟩ := Option.map_eq_some_iff.mp ho
  obtain ⟨ref, hget, hrec⟩ := Option.bind_eq_some_iff.mp hr
  obtain ⟨r', hr', hop⟩ := h.records ref r hrec
  simp [ClaudeStreamState.operationOf, record?, h.history id hid, hget, hr', hop]

theorem Stays.head (h : Stays s t) (hid : s.acceptedOrder.head? = some id) : t.acceptedOrder.head? = some id := by
  obtain ⟨l, hl⟩ := h.accepted
  rw [hl, List.head?_append, hid, Option.some_or]

theorem stays_modify (s : ClaudeStreamState) (ref : Nat) {f : ClaudeSubmission → ClaudeSubmission}
    (hf : ∀ r, (f r).operation = r.operation) : Stays s (s.modify ref f) := by
  refine ⟨fun i r hr => ?_, fun _ _ => rfl, ⟨[], (List.append_nil _).symm⟩, rfl⟩
  simp only [modify, List.getElem?_modify, hr, Option.map_eq_map, Option.map_some]
  split
  · exact ⟨_, rfl, hf r⟩
  · exact ⟨_, rfl, rfl⟩

theorem stays_removePending (s : ClaudeStreamState) (r : ClaudeSubmission) : Stays s (s.removePending r) := .of_eq rfl rfl rfl rfl

theorem stays_forget (s : ClaudeStreamState) (hid : id ∉ s.acceptedOrder) :
    Stays s { s with history := s.history.erase id } := by
  refine ⟨fun i r hr => ⟨r, hr, rfl⟩, fun id' hid' => ?_, ⟨[], (List.append_nil _).symm⟩, rfl⟩
  have hne : id' ≠ id := fun heq => hid (heq ▸ hid')
  rw [Dict.get?_erase, if_neg hne]

theorem stays_dropped (s : ClaudeStreamState) (ref : Nat) (hid : r.request.requestId ∉ s.acceptedOrder) :
    Stays s (s.dropped ref r) :=
  ((stays_modify (f := fun r => { r with acceptance := .rejected }) s ref fun _ => rfl).trans (stays_removePending _ r)).trans
    (stays_forget _ hid)

theorem stays_abandon (s : ClaudeStreamState) (requestId : String) : Stays s (s.abandon requestId) := by
  rcases s.abandon_cases requestId with heq | ⟨ref, r, -, -, -, heq⟩
  · rw [heq]
    exact .refl s
  · rw [heq]
    exact (stays_modify (f := View.abandonFlags) s ref fun _ => rfl).trans (stays_removePending _ r)

theorem stays_withRoom (h : s.withRoom c = some t) : Stays s t := by
  unfold withRoom at h
  split at h
  · cases h
    exact .refl s
  obtain ⟨id, hid, rfl⟩ := Option.map_eq_some_iff.mp h
  obtain ⟨e, he, rfl⟩ := Option.map_eq_some_iff.mp hid
  have hp := List.find?_some he
  simp only [Bool.and_eq_true, decide_eq_true_eq] at hp
  exact stays_forget s hp.1.1

theorem stays_reserved (s : ClaudeStreamState) (hid : r.request.requestId ∉ s.acceptedOrder) :
    Stays s (s.reserved r) := by
  refine ⟨fun i r' hr' => ⟨r', ?_, rfl⟩, fun id' hid' => ?_, ⟨[], (List.append_nil _).symm⟩, rfl⟩
  · rw [reserved, List.getElem?_append_left (List.getElem?_eq_some_iff.mp hr').1]
    exact hr'
  · have hne : id' ≠ r.request.requestId := fun heq => hid (heq ▸ hid')
    exact Dict.get?_set_ne _ _ hne.symm

theorem stays_send (s : ClaudeStreamState) (ref : Nat) (hid : r.request.requestId ∉ s.acceptedOrder) :
    Stays s (s.send ref r).1 := by
  unfold send
  split
  · exact stays_dropped s ref hid
  split
  · exact stays_removePending s r
  split
  · exact stays_dropped s ref hid
  · exact .of_eq rfl rfl rfl rfl

theorem stays_submit {request : PromptRequest} {correlationId : String} (h : ∀ id ∈ s.acceptedOrder, (s.history.get? id).isSome) :
    Stays s (s.submit c request correlationId).1 := by
  rcases s.submit_cases (c := c) request correlationId with ⟨e, he⟩ | ⟨t, r, ht, hrequest, -, hr, -, -, hsend⟩
  · rw [he]
    exact .refl s
  have hout : r.request.requestId ∉ s.acceptedOrder := by
    intro hid
    have hsome := h _ hid
    rw [hr, hrequest] at hsome
    cases hsome
  have haccepted : t.acceptedOrder = s.acceptedOrder := by
    obtain ⟨history, rfl⟩ := withRoom_eq ht
    rfl
  rw [hsend]
  exact ((stays_withRoom ht).trans (stays_reserved t (haccepted ▸ hout))).trans (stays_send _ _ (haccepted ▸ hout))

theorem stays_handleReplayedUser {uuid sessionId : Option String} {text : String}
    (h : s.handleReplayedUser uuid sessionId text = .ok t) : Stays s t := by
  have happend (s : ClaudeStreamState) (id : String) (activity : Harness.ActivityState) :
      Stays s { s with
        acceptedOrder := s.acceptedOrder ++ [id]
        activity := activity } := ⟨fun i r hr => ⟨r, hr, rfl⟩, fun _ _ => rfl, ⟨[id], rfl⟩, rfl⟩
  unfold handleReplayedUser at h
  split at h
  · unfold handleAbandonedReplay at h
    split at h
    · cases h
    rename_i r _
    cases hf : s.faithfulReplay sessionId r.replayText text with
    | error e => simp [hf, bind, Except.bind] at h
    | ok _ =>
      simp only [hf, bind, Except.bind] at h
      split at h <;> cases h
      · exact .refl s
      · exact happend s _ _
  · split at h
    · cases h
    rename_i r hrecord
    obtain ⟨ref, hget, -⟩ := Option.bind_eq_some_iff.mp hrecord
    cases hf : s.faithfulReplay sessionId r.replayText text with
    | error e => simp [hf, bind, Except.bind] at h
    | ok _ =>
      simp only [hf, bind, Except.bind, modifyRecord, hget] at h
      split at h
      · cases h
      cases h
      let accepted := receipt r.request .immediate (some r.correlationId) "accepted by correlated replay-user-message"
      have hmodify : Stays s (s.modify ref fun r =>
          { r with
            acceptance := .immediate
            answer := r.answer.or (some accepted) }) := stays_modify s ref fun _ => rfl
      exact (hmodify.trans (stays_removePending _ r)).trans (happend _ _ _)

theorem stays_handleFrame {frame : ClaudeFrame} (hframe : ∀ sessionId, frame ≠ .result sessionId)
    (h : s.handleFrame frame = .ok t) : Stays s t := by
  cases frame with
  | replayedUser uuid sessionId text => exact stays_handleReplayedUser h
  | result sessionId => exact absurd rfl (hframe sessionId)
  | controlRequest requestId =>
    cases requestId with
    | none => cases h
    | some requestId =>
      simp only [handleFrame] at h
      split at h <;> cases h
      exact .of_eq rfl rfl rfl rfl
  | controlCancelRequest requestId =>
    simp only [handleFrame] at h
    split at h <;> cases h
    · exact .of_eq rfl rfl rfl rfl
    · exact .refl s
  | assistant =>
    cases h
    exact .of_eq rfl rfl rfl rfl
  | apiRetry =>
    cases h
    exact .of_eq rfl rfl rfl rfl
  | status status =>
    cases h
    exact .of_eq rfl rfl rfl rfl
  | other =>
    cases h
    exact .refl s

end ClaudeStreamState

namespace ClaudeSession

variable {P : Prop} {c : ClaudeConfig} {s t : ClaudeSession} {o : ControlOperationRef}

def idents (s : ClaudeSession) : List (String × ControlOperationRef) := s.calls.map fun k => (k.controlId, k.operation)

/-- The success answer to an interrupt that was written for the operation came. -/
def Succeeded (s : ClaudeSession) (o : ControlOperationRef) : Prop :=
  ∃ w ∈ s.interruptWrites, w.call ∈ s.successes ∧ w.target = o

structure Cancels (s : ClaudeSession) : Prop where
  ids : ∀ i p, s.idents[i]? = some p → p.1 = s!"ar-claude-interrupt-{i + 1}"
  written : ∀ w ∈ s.interruptWrites, (s.idents[w.call]?).map Prod.snd = some w.target
  controls : s.reading = true → ∀ p ∈ s.idents, ∀ target, s.pendingControl.get? p.1 = some target →
    s.acceptedOrder.head? = some target ∧ s.operationOf target = some p.2
  accepted : s.reading = true → ∀ id ∈ s.interruptAccepted, s.acceptedOrder.head? = some id ∧
    ∃ o, s.operationOf id = some o ∧ s.Succeeded o
  completions : ∀ e ∈ s.completions, e.interrupted = true → s.Succeeded e.operation

/-- A step that leaves what the interrupts mean. -/
structure Carries (s t : ClaudeSession) : Prop where
  stream : t.reading = true → ClaudeStreamState.Stays s.toClaudeStreamState t.toClaudeStreamState
  idents : t.idents = s.idents
  controls : ∀ id target, t.pendingControl.get? id = some target → s.pendingControl.get? id = some target
  accepted : t.interruptAccepted = s.interruptAccepted
  kept : ∀ w ∈ s.interruptWrites, w ∈ t.interruptWrites
  written : ∀ w ∈ t.interruptWrites, w ∈ s.interruptWrites ∨ (s.idents[w.call]?).map Prod.snd = some w.target
  successes : t.successes = s.successes
  completions : t.completions = s.completions

theorem Carries.succeeded (h : Carries s t) (ho : s.Succeeded o) : t.Succeeded o := by
  obtain ⟨w, hw, hsuccess, htarget⟩ := ho
  exact ⟨w, h.kept w hw, by rw [h.successes]; exact hsuccess, htarget⟩

theorem Cancels.carried (h : Cancels s) (hc : Carries s t) : Cancels t where
  ids i p hp := h.ids i p (hc.idents ▸ hp)
  written w hw := by
    rw [hc.idents]
    exact (hc.written w hw).elim (h.written w) id
  controls hreading p hp target htarget := by
    have hstays := hc.stream hreading
    obtain ⟨hhead, ho⟩ := h.controls (hstays.reading ▸ hreading) p (hc.idents ▸ hp) target (hc.controls _ _ htarget)
    exact ⟨hstays.head hhead, hstays.operationOf (List.mem_of_head? hhead) ho⟩
  accepted hreading id hid := by
    have hstays := hc.stream hreading
    obtain ⟨hhead, o, ho, hsucceeded⟩ := h.accepted (hstays.reading ▸ hreading) id (hc.accepted ▸ hid)
    exact ⟨hstays.head hhead, o, hstays.operationOf (List.mem_of_head? hhead) ho, hc.succeeded hsucceeded⟩
  completions e he hinterrupted := hc.succeeded (h.completions e (hc.completions ▸ he) hinterrupted)

/-! ## Steps that carry -/

theorem carries_onStream {f : ClaudeStreamState → ClaudeStreamState}
    (hf : (f s.toClaudeStreamState).reading = true → ClaudeStreamState.Stays s.toClaudeStreamState (f s.toClaudeStreamState)) :
    Carries s (s.onStream f) :=
  ⟨hf, rfl, fun _ _ h => h, rfl, fun _ h => h, fun _ h => .inl h, rfl, rfl⟩

theorem Carries.refl (s : ClaudeSession) : Carries s s := carries_onStream (f := id) fun _ => .refl _

theorem Carries.trans {u : ClaudeSession} (h : Carries s t) (h' : Carries t u) : Carries s u where
  stream hreading := (h.stream ((h'.stream hreading).reading ▸ hreading)).trans (h'.stream hreading)
  idents := h'.idents.trans h.idents
  controls _ _ htarget := h.controls _ _ (h'.controls _ _ htarget)
  accepted := h'.accepted.trans h.accepted
  kept w hw := h'.kept w (h.kept w hw)
  written w hw := (h'.written w hw).elim (h.written w) fun hw => .inr (h.idents ▸ hw)
  successes := h'.successes.trans h.successes
  completions := h'.completions.trans h.completions

variable {f : InterruptCall → InterruptCall} {i : Nat} {call : InterruptCall}

theorem idents_modify (s : ClaudeSession) (i : Nat)
    (hf : ∀ k : InterruptCall, (f k).controlId = k.controlId ∧ (f k).operation = k.operation) :
    (s.modifyCall i f).idents = s.idents := by
  refine List.ext_getElem? fun j => ?_
  simp only [idents, modifyCall, List.getElem?_map, List.getElem?_modify]
  cases s.calls[j]? with
  | none => rfl
  | some k =>
    simp only [Option.map_eq_map, Option.map_some]
    split
    · rw [(hf k).1, (hf k).2]
    · rfl

theorem carries_modify (i : Nat)
    (hf : ∀ k : InterruptCall, (f k).controlId = k.controlId ∧ (f k).operation = k.operation) :
    Carries s (s.modifyCall i f) :=
  ⟨fun _ => .refl _, idents_modify s i hf, fun _ _ h => h, rfl, fun _ h => h, fun _ h => .inl h, rfl, rfl⟩

theorem carries_dropInterrupt (i : Nat) (call : InterruptCall) : Carries s (s.dropInterrupt i call) where
  stream _ := .refl _
  idents := idents_modify s i (f := fun k => { k with phase := .ended }) fun _ => ⟨rfl, rfl⟩
  controls id target htarget := by
    simp only [dropInterrupt, Dict.get?_erase] at htarget
    split at htarget
    · cases htarget
    · exact htarget
  accepted := rfl
  kept _ h := h
  written _ h := .inl h
  successes := rfl
  completions := rfl

theorem carries_writeInterrupt (hcall : s.calls[i]? = some call) : Carries s (s.writeInterrupt i call) where
  stream _ := .refl _
  idents := idents_modify s i (f := fun k => { k with phase := .draining }) fun _ => ⟨rfl, rfl⟩
  controls _ _ h := h
  accepted := rfl
  kept _ h := List.mem_append_left _ h
  written w hw := by
    rcases List.mem_append.mp hw with hw | hw
    · exact .inl hw
    · rw [List.mem_singleton.mp hw]
      exact .inr (by simp [idents, hcall])
  successes := rfl
  completions := rfl

theorem carries_failReader (control : Harness.ControlState) (o : ClaudeSubmission → Harness.SendOutcome) (detail : String) :
    Carries s (s.failReader (fun t => t.readerStopped control o) detail) where
  stream hreading := by
    simp only [failReader, onStream, ClaudeStreamState.readerStopped] at hreading
    split at hreading <;> cases hreading
  idents := by
    simp only [idents, failReader, onStream, List.map_map]
    refine List.map_congr_left fun k _ => ?_
    simp only [Function.comp_apply]
    split <;> rfl
  controls id target htarget := by simp [failReader, Dict.get?_empty] at htarget
  accepted := rfl
  kept _ h := h
  written _ h := .inl h
  successes := rfl
  completions := rfl

/-! ## Steps -/

theorem Cancels.failed (h : Cancels s) (control : Harness.ControlState) (o : ClaudeSubmission → Harness.SendOutcome)
    (detail : String) : Cancels (s.failReader (fun t => t.readerStopped control o) detail) :=
  h.carried (carries_failReader control o detail)

theorem carries_submit {request : PromptRequest} {correlationId : String} (h : View.Ledger P s.view) (setter : Bool) :
    Carries s (s.submit c request correlationId setter) := by
  have hheld (id : String) (hid : id ∈ s.acceptedOrder) : (s.history.get? id).isSome := by
    obtain ⟨ref, r, hheld, hr, -⟩ := h.accepted id hid
    have hget : s.history.get? r.request.requestId = some ref := hheld.2
    rw [← hr, hget]
    rfl
  have hsubmit : ClaudeStreamState.Stays s.toClaudeStreamState (s.toClaudeStreamState.submit c request correlationId).1 :=
    ClaudeStreamState.stays_submit hheld
  unfold submit
  dsimp only
  split
  · exact carries_onStream (f := fun _ => _) fun _ => hsubmit.trans (ClaudeStreamState.stays_abandon _ _)
  · exact carries_onStream (f := fun _ => _) fun _ => hsubmit

variable {r : ClaudeSubmission}

theorem carries_writePrompt {ref : Nat} (h : View.Ledger P s.view) (hr : s.records[ref]? = some r)
    (hhead : s.writing.head? = some ref) : Carries s (s.writePrompt ref r) := by
  have hwriting : ref ∈ s.view.writing := List.mem_of_head? hhead
  have hout : r.request.requestId ∉ s.acceptedOrder := by
    intro hid
    obtain ⟨r', hheld', -⟩ := h.waiting ref hwriting
    have hr' : s.records[ref]? = some r' := hheld'.1
    cases hr'.symm.trans hr
    obtain ⟨i, r'', hheld, hid', hsent, -⟩ := h.accepted _ hid
    have hget := hheld.2
    rw [hid', hheld'.2] at hget
    cases hget
    exact absurd (h.ahead ref hsent ref hwriting) (Nat.lt_irrefl ref)
  have hunqueued : Carries s { s with writing := s.writing.erase ref } :=
    carries_onStream (f := fun t => { t with writing := t.writing.erase ref }) fun _ => .of_eq rfl rfl rfl rfl
  refine hunqueued.trans ?_
  unfold writePrompt
  dsimp only
  split
  · exact .refl _
  · exact carries_onStream fun _ => ClaudeStreamState.stays_dropped _ ref hout
  · exact ⟨fun _ => .of_eq rfl rfl rfl rfl, rfl, fun _ _ h => h, rfl, fun _ h => h, fun _ h => .inl h, rfl, rfl⟩

theorem carries_drained {broken setter : Bool} (h : s.drained broken setter = some t) : Carries s t := by
  have hunlock (u : ClaudeSession) : Carries u { u with lock := none } :=
    ⟨fun _ => .refl _, rfl, fun _ _ h => h, rfl, fun _ h => h, fun _ h => .inl h, rfl, rfl⟩
  unfold drained at h
  split at h
  · cases h
  · rename_i ref _
    obtain ⟨r, -, rfl⟩ := Option.map_eq_some_iff.mp h
    split
    · have hbroke : Carries s { s.onStream fun t => t.removePending r with
          lock := none
          broken := s.broken ++ [ref] } :=
        ⟨fun _ => ClaudeStreamState.stays_removePending _ r, rfl, fun _ _ h => h, rfl, fun _ h => h, fun _ h => .inl h, rfl, rfl⟩
      unfold broke
      dsimp only
      split
      · exact hbroke.trans (carries_onStream fun _ => ClaudeStreamState.stays_abandon _ _)
      · exact hbroke
    · exact ⟨fun _ => .of_eq rfl rfl rfl rfl, rfl, fun _ _ h => h, rfl, fun _ h => h, fun _ h => .inl h, rfl, rfl⟩
  · cases h
    have hresponded : Carries s (s.onStream fun t => t.responded broken) := carries_onStream fun _ => by
      cases broken <;> exact .of_eq rfl rfl rfl rfl
    exact hresponded.trans (hunlock _)
  · rename_i i _
    obtain ⟨call, -, rfl⟩ := Option.map_eq_some_iff.mp h
    split
    · exact (carries_dropInterrupt i call).trans (hunlock _)
    · exact (carries_modify i (f := fun k => { k with phase := .awaiting }) fun _ => ⟨rfl, rfl⟩).trans (hunlock _)

theorem interruptId_injective {j : Nat} (h : s!"ar-claude-interrupt-{i + 1}" = s!"ar-claude-interrupt-{j + 1}") :
    i = j := by
  have hn : i + 1 = j + 1 := Harness.natText_injective (by simpa using h)
  exact Nat.succ.inj hn

theorem Cancels.entered (h : Cancels s) {call : InterruptCall} {requestId : String} {rest : List String}
    (haccepted : s.acceptedOrder = requestId :: rest) (hrecord : s.record? requestId = some r) (ho : call.operation = r.operation)
    (hid : call.controlId = s!"ar-claude-interrupt-{s.calls.length + 1}") :
    Cancels { s with
      calls := s.calls ++ [call]
      pendingControl := s.pendingControl.set call.controlId requestId } := by
  have hidents : ({ s with
      calls := s.calls ++ [call]
      pendingControl := s.pendingControl.set call.controlId requestId } : ClaudeSession).idents =
      s.idents ++ [(call.controlId, call.operation)] := by simp [idents]
  have hlength : s.idents.length = s.calls.length := by simp [idents]
  have hlast {i : Nat} {p : String × ControlOperationRef} (hp : (s.idents ++ [(call.controlId, call.operation)])[i]? = some p) :
      s.idents[i]? = some p ∨ (i = s.calls.length ∧ p = (call.controlId, call.operation)) := by
    rw [List.getElem?_append] at hp
    split at hp
    · exact .inl hp
    obtain ⟨hi, rfl⟩ := List.getElem?_eq_some_iff.mp hp
    simp only [List.length_singleton] at hi
    exact .inr ⟨by omega, by simp⟩
  refine ⟨fun i p hp => ?_, fun w hw => ?_, fun hreading p hp target htarget => ?_, h.accepted, h.completions⟩
  · rw [hidents] at hp
    rcases hlast hp with hp | ⟨rfl, rfl⟩
    · exact h.ids i p hp
    · exact hid
  · rw [hidents]
    have hwritten := h.written w hw
    obtain ⟨p, hp, -⟩ := Option.map_eq_some_iff.mp hwritten
    rw [List.getElem?_append_left (List.getElem?_eq_some_iff.mp hp).1]
    exact hwritten
  rw [hidents] at hp
  obtain ⟨i, hi⟩ := List.mem_iff_getElem?.mp hp
  rcases hlast hi with hi' | ⟨-, rfl⟩
  · have hne : call.controlId ≠ p.1 := by
      intro heq
      rw [hid, h.ids i p hi'] at heq
      have hlt := (List.getElem?_eq_some_iff.mp hi').1
      have := interruptId_injective heq
      omega
    dsimp only at htarget
    rw [Dict.get?_set_ne _ _ hne] at htarget
    exact h.controls hreading p (List.mem_of_getElem? hi') target htarget
  dsimp only at htarget
  rw [Dict.get?_set_self] at htarget
  cases htarget
  refine ⟨by rw [haccepted]; rfl, ?_⟩
  simp [ClaudeStreamState.operationOf, hrecord, ho]

theorem Cancels.interrupt (h : Cancels s) (turnId expected : Option String) : Cancels (s.interrupt turnId expected).2 := by
  unfold ClaudeSession.interrupt
  split
  · exact h
  split
  · exact h
  split
  · exact h
  rename_i requestId rest haccepted
  split
  · exact h
  rename_i r hrecord
  dsimp only
  split
  · exact h
  split
  · exact h
  let call : InterruptCall :=
    { expected := expected
      operation := r.operation
      controlId := s!"ar-claude-interrupt-{s.calls.length + 1}"
      phase := .waiting }
  have hentered : Cancels { s with
      calls := s.calls ++ [call]
      pendingControl := s.pendingControl.set call.controlId requestId } := h.entered haccepted hrecord rfl rfl
  split
  · exact hentered.carried (carries_dropInterrupt _ _)
  split
  · exact hentered.carried (carries_dropInterrupt _ _)
  split
  · exact hentered.carried (carries_writeInterrupt (by simp [call]))
  · exact hentered

theorem Cancels.answered (h : Cancels s) (hreading : s.reading = true) (hcall : s.calls[i]? = some call)
    (hwritten : i ∈ s.interruptWrites.map (·.call)) (accepted : Bool) (detail : Option String) :
    Cancels (s.handleControlResponse i call accepted detail) := by
  unfold handleControlResponse
  split
  · exact h
  rename_i target htarget
  have hidents := idents_modify s i (f := fun call => { call with answer := call.answer.or (some (.ok (accepted, detail))) })
    fun _ => ⟨rfl, rfl⟩
  have hsuccesses (o : ControlOperationRef) (ho : s.Succeeded o) : ∃ w ∈ s.interruptWrites,
      w.call ∈ (if accepted then s.successes ++ [i] else s.successes) ∧ w.target = o := by
    obtain ⟨w, hw, hsuccess, hwo⟩ := ho
    refine ⟨w, hw, ?_, hwo⟩
    split
    · exact List.mem_append_left _ hsuccess
    · exact hsuccess
  refine ⟨fun j p hp => h.ids j p (hidents ▸ hp), fun w hw => ?_, fun hr p hp => h.controls hr p (hidents ▸ hp),
    fun _ id hid => ?_, fun e he hinterrupted => hsuccesses _ (h.completions e he hinterrupted)⟩
  · exact (congrArg (fun l => (l[w.call]?).map Prod.snd) hidents).trans (h.written w hw)
  have hold (hid : id ∈ s.interruptAccepted) : s.acceptedOrder.head? = some id ∧ ∃ o, s.operationOf id = some o ∧
      ∃ w ∈ s.interruptWrites, w.call ∈ (if accepted then s.successes ++ [i] else s.successes) ∧ w.target = o := by
    obtain ⟨hhead, o, ho, hsucceeded⟩ := h.accepted hreading id hid
    exact ⟨hhead, o, ho, hsuccesses o hsucceeded⟩
  dsimp only at hid
  split at hid
  · rename_i hnew
    rcases List.mem_append.mp hid with hid | hid
    · exact hold hid
    cases List.mem_singleton.mp hid
    have hident : (call.controlId, call.operation) ∈ s.idents :=
      List.mem_map.mpr ⟨call, List.mem_of_getElem? hcall, rfl⟩
    obtain ⟨hhead, ho⟩ := h.controls hreading _ hident target htarget
    obtain ⟨w, hw, hwi⟩ := List.mem_map.mp hwritten
    have hwo := h.written w hw
    simp only [idents, hwi, List.getElem?_map, hcall, Option.map_some, Option.some.injEq] at hwo
    refine ⟨hhead, call.operation, ho, w, hw, ?_, hwo.symm⟩
    rw [if_pos hnew.1, hwi]
    exact List.mem_append_right _ (List.mem_singleton_self i)
  · exact hold hid

theorem Cancels.result (h : Cancels s) (hreading : s.reading = true) (frame : ResultFrame) :
    Cancels { s.answer (.result (some s.vendorSessionId)) frame with results := s.results + 1 } := by
  have hfailed (detail : String) : Cancels { s.failReader (fun t => t.failReader detail) detail with
      ownFailure := true
      results := s.results + 1 } := by
    have hf := h.failed .failed (fun _ => .failed detail) detail
    exact { hf with }
  unfold answer
  cases haccepted : s.acceptedOrder with
  | nil =>
    simp only [handleFrame, handleResult, ClaudeStreamState.handleResult, haccepted, ne_eq, not_true_eq_false, if_false]
    exact hfailed _
  | cons id rest =>
    cases hrecord : s.toClaudeStreamState.record? id with
    | none =>
      simp only [handleFrame, handleResult, ClaudeStreamState.handleResult, haccepted, hrecord, ne_eq, not_true_eq_false,
        if_false]
      exact hfailed _
    | some r =>
      obtain ⟨ref, hget, hr⟩ := Option.bind_eq_some_iff.mp hrecord
      simp only [handleFrame, handleResult, ClaudeStreamState.handleResult, haccepted, hrecord, hget, ne_eq, not_true_eq_false,
        if_false, ClaudeStreamState.modifyRecord]
      have hturn {target : String} (hhead : s.acceptedOrder.head? = some target) : target = id := by
        rw [haccepted] at hhead
        exact (Option.some.inj hhead).symm
      refine ⟨h.ids, h.written, fun _ p hp target htarget => ?_, fun _ id' hid' => ?_, fun e he hinterrupted => ?_⟩
      · dsimp only at htarget
        rw [Dict.get?_filterKeys] at htarget
        split at htarget
        · rename_i hkept
          have htarget' := hturn (h.controls hreading p hp target htarget).1
          rw [htarget, htarget'] at hkept
          simp at hkept
        · cases htarget
      · obtain ⟨hmem, hne⟩ := List.mem_filter.mp hid'
        have hid := hturn (h.accepted hreading id' hmem).1
        rw [hid] at hne
        simp at hne
      rcases List.mem_append.mp he with he | he
      · exact h.completions e he hinterrupted
      cases List.mem_singleton.mp he
      have hmem : id ∈ s.interruptAccepted := by
        by_contra hout
        simp [hout] at hinterrupted
      obtain ⟨-, o, ho, hsucceeded⟩ := h.accepted hreading id hmem
      simp only [ClaudeStreamState.operationOf, hrecord, Option.map_some, Option.some.injEq] at ho
      rw [← ho] at hsucceeded
      exact hsucceeded

theorem cancels_started (h : s.Started) : Cancels s := by
  rw [h.fresh]
  exact ⟨nofun, nofun, nofun, nofun, nofun⟩

variable {i : ClaudeAction}

theorem cancels_step (h : Cancels s) (hledger : View.Ledger P s.view) (hfaithful : s.faithful i = true)
    (hs : s.step c i = some t) : Cancels t := by
  have hquiet {f : ClaudeStreamState → ClaudeStreamState} (hrecords : (f s.toClaudeStreamState).records = s.records)
      (hhistory : (f s.toClaudeStreamState).history = s.history)
      (haccepted : (f s.toClaudeStreamState).acceptedOrder = s.acceptedOrder)
      (hreading : (f s.toClaudeStreamState).reading = s.reading) : Cancels (s.onStream f) :=
    h.carried (carries_onStream fun _ => .of_eq hrecords hhistory haccepted hreading)
  cases i with
  | submit request correlationId setter =>
    cases hs
    exact h.carried (carries_submit hledger setter)
  | writePrompt ref =>
    simp only [step] at hs
    split at hs
    · rename_i r hr
      split at hs
      · rename_i hfirst
        cases hs
        exact h.carried (carries_writePrompt hledger hr hfirst.1)
      · cases hs
    · cases hs
  | drained broken setter => exact h.carried (carries_drained hs)
  | answered ref =>
    simp only [step] at hs
    split at hs
    · split at hs <;> cases hs
      exact hquiet (f := fun t => { t with awaiting := t.awaiting.erase ref }) rfl rfl rfl rfl
    · cases hs
  | acceptanceTimeout ref =>
    simp only [step] at hs
    split at hs
    · split at hs <;> cases hs
      exact h.carried (carries_onStream fun _ =>
        (ClaudeStreamState.stays_modify _ ref (f := fun r => { r with acceptance := .unknown }) fun _ => rfl).trans
          (.of_eq rfl rfl rfl rfl))
    · cases hs
  | abandon requestId =>
    simp only [step] at hs
    split at hs <;> cases hs
    exact h.carried (carries_onStream fun _ => ClaudeStreamState.stays_abandon _ _)
  | replay ref =>
    simp only [step] at hs
    split at hs
    · rename_i r _
      split at hs <;> cases hs
      unfold answer
      cases hframe : s.toClaudeStreamState.handleFrame (s.replayFrame r) with
      | error detail =>
        have hf := h.failed .failed (fun _ => .failed detail) detail
        simp only [handleFrame, replayFrame] at hframe ⊢
        simp only [hframe, Except.map]
        exact { hf with }
      | ok t =>
        have hreplay (sessionId : Option String) : s.replayFrame r ≠ .result sessionId := by simp [replayFrame]
        have hstays := ClaudeStreamState.stays_handleFrame hreplay hframe
        have hcarried := h.carried (carries_onStream (f := fun _ => t) fun _ => hstays)
        simp only [handleFrame, replayFrame] at hframe ⊢
        simp only [hframe, Except.map]
        exact { hcarried with }
    · cases hs
  | result frame =>
    simp only [step] at hs
    split at hs
    · rename_i hreading
      cases hs
      exact h.result hreading frame
    · cases hs
  | frame frame result =>
    simp only [step] at hs
    split at hs <;> cases hs
    have hframe (sessionId : Option String) : frame ≠ .result sessionId := by
      rintro rfl
      cases hfaithful
    have heq : s.handleFrame frame result =
        (s.toClaudeStreamState.handleFrame frame).map fun t => { s with toClaudeStreamState := t } := by
      cases frame with
      | result sessionId => exact absurd rfl (hframe sessionId)
      | _ => rfl
    rw [heq]
    cases hf : s.toClaudeStreamState.handleFrame frame with
    | error detail => exact h.failed .failed (fun _ => .failed detail) detail
    | ok t => exact h.carried (carries_onStream (f := fun _ => t) fun _ => ClaudeStreamState.stays_handleFrame hframe hf)
  | eof returncode =>
    simp only [step] at hs
    split at hs <;> cases hs
    exact h.failed _ _ _
  | respond interactionId operation =>
    cases hs
    refine h.carried (carries_onStream fun _ => ?_)
    unfold ClaudeStreamState.respond
    split
    · exact .of_eq rfl rfl rfl rfl
    · exact .refl _
  | writeResponse =>
    simp only [step] at hs
    split at hs <;> cases hs
    exact { h with }
  | interrupt turnId expectedOperationId =>
    cases hs
    exact h.interrupt turnId expectedOperationId
  | writeInterrupt i =>
    simp only [step] at hs
    split at hs
    · rename_i call hcall
      split at hs <;> cases hs
      exact h.carried (carries_writeInterrupt hcall)
    · cases hs
  | interruptAnswer i accepted detail =>
    simp only [step] at hs
    split at hs
    · rename_i call hcall
      split at hs
      · rename_i hready
        cases hs
        exact h.answered hready.1 hcall hready.2 accepted detail
      · cases hs
    · cases hs
  | interruptAnswered i =>
    simp only [step] at hs
    split at hs
    · rename_i call _
      split at hs
      · obtain ⟨answer, -, rfl⟩ := Option.map_eq_some_iff.mp hs
        have hdropped := h.carried (carries_dropInterrupt i call)
        cases answer with
        | error detail => exact hdropped
        | ok answer =>
          exact { hdropped with }
      · cases hs
    · cases hs
  | interruptTimeout i =>
    simp only [step] at hs
    split at hs
    · split at hs <;> cases hs
      have hended := h.carried (carries_modify i (f := fun k => { k with phase := .ended }) fun _ => ⟨rfl, rfl⟩)
      exact { hended with }
    · cases hs
  | stdinClosed =>
    cases hs
    exact hquiet (f := fun t => { t with stdinOpen := false }) rfl rfl rfl rfl
  | released =>
    cases hs
    exact hquiet (f := fun t =>
      { t with
        process := false
        stdinOpen := false }) rfl rfl rfl rfl
  | readerFinished graceful =>
    cases hs
    exact h.carried (carries_onStream (f := fun t =>
      { t with
        reading := false
        control := .disconnected
        activity := if graceful then .idle else .unknown }) (by simp))

theorem handleFrame_successes {frame : ClaudeStreamState.ClaudeFrame} {result : ResultFrame}
    (h : s.handleFrame frame result = .ok t) : t.interruptWrites = s.interruptWrites ∧ t.successes = s.successes := by
  unfold handleFrame at h
  split at h
  · unfold handleResult at h
    split at h
    · cases h
    · split at h <;> cases h <;> exact ⟨rfl, rfl⟩
  cases hf : s.toClaudeStreamState.handleFrame frame with
  | error e => simp [hf, Except.map] at h
  | ok u =>
    simp only [hf, Except.map] at h
    cases h
    exact ⟨rfl, rfl⟩

theorem answer_successes (s : ClaudeSession) (frame : ClaudeStreamState.ClaudeFrame) (result : ResultFrame) :
    (s.answer frame result).interruptWrites = s.interruptWrites ∧ (s.answer frame result).successes = s.successes := by
  unfold answer
  cases h : s.handleFrame frame result with
  | ok t => exact handleFrame_successes h
  | error detail => exact ⟨rfl, rfl⟩

theorem completions_step (hs : s.step c i = some t) :
    t.completions = s.completions ∨ (t.interruptWrites = s.interruptWrites ∧ t.successes = s.successes) := by
  cases i with
  | submit request correlationId setter =>
    cases hs
    refine .inl ?_
    unfold submit
    dsimp only
    split <;> rfl
  | writePrompt ref =>
    simp only [step] at hs
    split at hs
    · split at hs <;> cases hs
      refine .inl ?_
      unfold writePrompt
      dsimp only
      split <;> rfl
    · cases hs
  | drained broken setter => exact .inl (carries_drained hs).completions
  | answered ref =>
    simp only [step] at hs
    split at hs
    · split at hs <;> cases hs
      exact .inl rfl
    · cases hs
  | acceptanceTimeout ref =>
    simp only [step] at hs
    split at hs
    · split at hs <;> cases hs
      exact .inl rfl
    · cases hs
  | abandon requestId =>
    simp only [step] at hs
    split at hs <;> cases hs
    exact .inl rfl
  | replay ref =>
    simp only [step] at hs
    split at hs
    · split at hs <;> cases hs
      exact .inr (answer_successes s _ _)
    · cases hs
  | result frame =>
    simp only [step] at hs
    split at hs <;> cases hs
    exact .inr (answer_successes s _ _)
  | frame frame result =>
    simp only [step] at hs
    split at hs <;> cases hs
    cases h : s.handleFrame frame result with
    | ok t => exact .inr (handleFrame_successes h)
    | error detail => exact .inl rfl
  | eof returncode =>
    simp only [step] at hs
    split at hs <;> cases hs
    exact .inl rfl
  | respond interactionId operation =>
    cases hs
    exact .inl rfl
  | writeResponse =>
    simp only [step] at hs
    split at hs <;> cases hs
    exact .inl rfl
  | interrupt turnId expectedOperationId =>
    cases hs
    refine .inl ?_
    unfold ClaudeSession.interrupt
    repeat' (first | rfl | dsimp only | split)
  | writeInterrupt i =>
    simp only [step] at hs
    split at hs
    · split at hs <;> cases hs
      exact .inl rfl
    · cases hs
  | interruptAnswer i accepted detail =>
    simp only [step] at hs
    split at hs
    · split at hs <;> cases hs
      unfold handleControlResponse
      split <;> exact .inl rfl
    · cases hs
  | interruptAnswered i =>
    simp only [step] at hs
    split at hs
    · split at hs
      · obtain ⟨answer, -, rfl⟩ := Option.map_eq_some_iff.mp hs
        cases answer <;> exact .inl rfl
      · cases hs
    · cases hs
  | interruptTimeout i =>
    simp only [step] at hs
    split at hs
    · split at hs <;> cases hs
      exact .inl rfl
    · cases hs
  | stdinClosed =>
    cases hs
    exact .inl rfl
  | released =>
    cases hs
    exact .inl rfl
  | readerFinished graceful =>
    cases hs
    exact .inl rfl

theorem cancels_of_faithful (hs : s.Started) (h : Steps (claudeSystem c s) (fun u i => u.faithful i = true) s t) :
    View.Ledger False t.view ∧ Cancels t :=
  Reachable.invariant (M := claudeSystem c s) (I := fun u => View.Ledger False u.view ∧ Cancels u)
    ⟨ledger_started hs, cancels_started hs⟩ (fun _ _ _ hu hok hstep =>
      ⟨ledger_step hu.1 hok (fun hp => hp.elim) hstep, cancels_step hu.2 hu.1 hok hstep⟩) h

/-- **What an interrupt decides.** In every run in which the process, the factory and the owner keep to their part, a turn
that a step ends as cancelled by an interrupt had the success answer to one that was written for its operation. -/
theorem succeeded_before {w : ClaudeSession} (hs : s.Started)
    (h : Steps (claudeSystem c s) (fun u i => u.faithful i = true) s t) (hfaithful : t.faithful i = true)
    (hstep : t.step c i = some w) {e : Completion} (he : e ∈ w.completions) (hinterrupted : e.interrupted = true) :
    t.Succeeded e.operation := by
  obtain ⟨hledger, hcancels⟩ := cancels_of_faithful hs h
  rcases completions_step hstep with heq | ⟨hwrites, hsuccesses⟩
  · rw [heq] at he
    exact hcancels.completions e he hinterrupted
  have hafter := (cancels_step hcancels hledger hfaithful hstep).completions e he hinterrupted
  rw [Succeeded, hwrites, hsuccesses] at hafter
  exact hafter

end ClaudeSession

end AgentsRemember.Adapter.Claude
