import AgentsRemember.Adapter.Claude

/-!
# What a Claude refusal leaves

The guard's refusal drops the record of its submit. A stdin found closed leaves
the record in the history, where it refuses the request from then on.
-/

namespace AgentsRemember.Adapter.Claude

open Lib
open Harness (ControlOperationRef SendOutcome ControlState)

variable {c : ClaudeConfig} {s t u : ClaudeStreamState} {id : String}

namespace ClaudeStreamState

def known (s : ClaudeStreamState) (id : String) : Bool := (s.history.get? id).isSome

/-- An acceptance never says that the request may be queued again. -/
def Settled (r : ClaudeSubmission) : Prop := ∀ o, r.answer = some o → requeued o = false

structure Keeps (s t : ClaudeStreamState) : Prop where
  known : ∀ id, s.known id = false → t.known id = false
  settled : (∀ r ∈ s.records, Settled r) → ∀ r ∈ t.records, Settled r

theorem Keeps.refl (s : ClaudeStreamState) : Keeps s s := ⟨fun _ h => h, fun h => h⟩

theorem Keeps.trans (h : Keeps s t) (h' : Keeps t u) : Keeps s u :=
  ⟨fun id hid => h'.known id (h.known id hid), fun hs => h'.settled (h.settled hs)⟩

theorem Keeps.of_eq (hhistory : t.history = s.history) (hrecords : t.records = s.records) : Keeps s t :=
  ⟨fun id h => by rw [ClaudeStreamState.known, hhistory]; exact h, fun h => hrecords ▸ h⟩

variable {f : ClaudeSubmission → ClaudeSubmission} {r : ClaudeSubmission} {o : SendOutcome}
  {uuid sessionId : Option String} {text requestId : String} {i : ClaudeStep} {e : Option Ended}
  {request : PromptRequest}

theorem keeps_modify (s : ClaudeStreamState) (ref : Nat) (hf : ∀ r, Settled r → Settled (f r)) :
    Keeps s (s.modify ref f) := by
  refine ⟨fun _ h => h, fun h r hr => ?_⟩
  obtain ⟨i, hi⟩ := List.mem_iff_getElem?.mp hr
  simp only [modify, List.getElem?_modify] at hi
  cases hri : s.records[i]? with
  | none => simp [hri] at hi
  | some r' =>
    have hr' := h r' (List.mem_of_getElem? hri)
    rw [hri] at hi
    obtain rfl := Option.some.inj hi
    split
    · exact hf r' hr'
    · exact hr'

theorem keeps_modifyRecord (s : ClaudeStreamState) (requestId : String) (hf : ∀ r, Settled r → Settled (f r)) :
    Keeps s (s.modifyRecord requestId f) := by
  unfold modifyRecord
  split
  · exact .refl s
  · exact keeps_modify s _ hf

theorem keeps_removePending (s : ClaudeStreamState) (r : ClaudeSubmission) : Keeps s (s.removePending r) := .of_eq rfl rfl

theorem keeps_erase (s : ClaudeStreamState) (requestId : String) :
    Keeps s { s with history := s.history.erase requestId } := by
  refine ⟨fun id h => ?_, fun h => h⟩
  simp only [known, Dict.get?_erase]
  split
  · rfl
  · exact h

theorem keeps_dropped (s : ClaudeStreamState) (ref : Nat) (r : ClaudeSubmission) : Keeps s (s.dropped ref r) :=
  ((keeps_modify (f := fun r => { r with acceptance := .rejected }) s ref fun _ h => h).trans
    (keeps_removePending _ r)).trans (keeps_erase _ r.request.requestId)

theorem known_dropped (s : ClaudeStreamState) (ref : Nat) (r : ClaudeSubmission) :
    (s.dropped ref r).known r.request.requestId = false := by
  simp [dropped, known, Dict.get?_erase]

theorem settled_or (ho : requeued o = false) (h : Settled r) (o' : SendOutcome) (h' : r.answer.or (some o) = some o') :
    requeued o' = false := by
  cases ha : r.answer with
  | none =>
    rw [ha] at h'
    cases h'
    exact ho
  | some o'' =>
    rw [ha] at h'
    cases h'
    exact h _ ha

/-! ## Frames -/

theorem keeps_handleAbandonedReplay (h : s.handleAbandonedReplay uuid sessionId text = .ok t) : Keeps s t := by
  unfold handleAbandonedReplay at h
  split at h
  · cases h
  rename_i r _
  cases hf : s.faithfulReplay sessionId r.replayText text with
  | error e => simp [hf, bind, Except.bind] at h
  | ok _ =>
    simp only [hf, bind, Except.bind] at h
    split at h <;> cases h
    · exact .refl s
    · exact .of_eq rfl rfl

theorem keeps_handleReplayedUser (h : s.handleReplayedUser uuid sessionId text = .ok t) : Keeps s t := by
  unfold handleReplayedUser at h
  split at h
  · exact keeps_handleAbandonedReplay h
  split at h
  · cases h
  rename_i r _
  cases hf : s.faithfulReplay sessionId r.replayText text with
  | error e => simp [hf, bind, Except.bind] at h
  | ok _ =>
    simp only [hf, bind, Except.bind] at h
    split at h
    · cases h
    cases h
    refine (keeps_modifyRecord s _ ?_).trans (.of_eq rfl rfl)
    exact fun r hr o ho => settled_or rfl hr o ho

theorem keeps_handleResult (h : s.handleResult sessionId = .ok t) : Keeps s t := by
  unfold handleResult at h
  split at h
  · cases h
  split at h
  · cases h
  rename_i requestId rest _
  split at h
  · cases h
  cases h
  refine (keeps_modifyRecord (f := fun r => { r with completed := true }) s requestId fun _ hr => hr).trans
    ⟨fun id hid => ?_, fun hs => hs⟩
  simpa [known] using hid

theorem keeps_handleFrame {f : ClaudeFrame} (h : s.handleFrame f = .ok t) : Keeps s t := by
  cases f with
  | replayedUser uuid sessionId text => exact keeps_handleReplayedUser h
  | result sessionId => exact keeps_handleResult h
  | controlRequest requestId =>
    cases requestId with
    | none => cases h
    | some requestId =>
      simp only [handleFrame] at h
      split at h <;> cases h
      exact .of_eq rfl rfl
  | controlCancelRequest requestId =>
    simp only [handleFrame] at h
    split at h <;> cases h
    · exact .of_eq rfl rfl
    · exact .refl s
  | assistant => cases h; exact .of_eq rfl rfl
  | apiRetry => cases h; exact .of_eq rfl rfl
  | status status => cases h; exact .of_eq rfl rfl
  | other => cases h; exact .refl s

theorem keeps_completePending {o : ClaudeSubmission → SendOutcome} (ho : ∀ r, requeued (o r) = false) :
    ∀ (ids : List String) (s : ClaudeStreamState), Keeps s (completePending o ids s).1
  | [], s => .refl s
  | requestId :: rest, s => by
    unfold completePending
    split
    · exact .refl s
    rename_i r _
    refine ((keeps_modifyRecord s requestId ?_).trans (keeps_removePending _ r)).trans (keeps_completePending ho rest _)
    exact fun r hr o' ho' => settled_or (ho r) hr o' ho'

theorem keeps_readerStopped (s : ClaudeStreamState) (control : ControlState) {o : ClaudeSubmission → SendOutcome}
    (ho : ∀ r, requeued (o r) = false) : Keeps s (s.readerStopped control o) := by
  have hpending := keeps_completePending ho s.pendingByText.values s
  unfold readerStopped completePendingOnDisconnect
  cases hp : completePending o s.pendingByText.values s with
  | mk t ended =>
    rw [hp] at hpending
    cases ended with
    | false => exact hpending.trans (.of_eq rfl rfl)
    | true =>
      simp only
      split <;> rename_i heq <;> split at heq <;> cases heq <;> exact hpending.trans (.of_eq rfl rfl)

theorem keeps_abandon (s : ClaudeStreamState) (requestId : String) : Keeps s (s.abandon requestId) := by
  unfold abandon
  split
  · exact .refl s
  rename_i r _
  split
  · exact .refl s
  · exact (keeps_modifyRecord (f := fun r => { r with abandoned := true, acceptance := .unknown }) s requestId
      fun _ hr => hr).trans (keeps_removePending _ r)

/-! ## A submit -/

structure Reserves (requestId : String) (s t : ClaudeStreamState) : Prop where
  known : ∀ id, id ≠ requestId → s.known id = false → t.known id = false
  settled : (∀ r ∈ s.records, Settled r) → ∀ r ∈ t.records, Settled r

theorem Keeps.reserves (h : Keeps s t) (requestId : String) : Reserves requestId s t := ⟨fun id _ => h.known id, h.settled⟩

theorem Reserves.trans (h : Reserves requestId s t) (h' : Reserves requestId t u) : Reserves requestId s u :=
  ⟨fun id hid hout => h'.known id hid (h.known id hid hout), fun hs => h'.settled (h.settled hs)⟩

theorem withRoom_eq (h : s.withRoom c = some t) : ∃ history, t = { s with history := history } := by
  unfold withRoom at h
  split at h
  · cases h
    exact ⟨s.history, rfl⟩
  · obtain ⟨requestId, -, rfl⟩ := Option.map_eq_some_iff.mp h
    exact ⟨_, rfl⟩

theorem keeps_withRoom (h : s.withRoom c = some t) : Keeps s t := by
  unfold withRoom at h
  split at h
  · cases h
    exact .refl s
  · obtain ⟨requestId, -, rfl⟩ := Option.map_eq_some_iff.mp h
    exact keeps_erase s requestId

theorem reserves_reserved (hid : r.request.requestId = requestId) (hr : r.answer = none) :
    Reserves requestId s (s.reserved r) := by
  subst hid
  refine ⟨fun id hid hout => ?_, fun hs r' hr' => ?_⟩
  · simp only [ClaudeStreamState.known, reserved, Dict.get?_set_ne _ _ hid.symm]
    exact hout
  rcases List.mem_append.mp hr' with h | h
  · exact hs r' h
  obtain rfl := List.mem_singleton.mp h
  intro o ho
  rw [hr] at ho
  cases ho

theorem sent (s : ClaudeStreamState) (ref : Nat) (r : ClaudeSubmission) : Keeps s (s.send ref r).1 ∧
    ∀ r' o, (s.send ref r).2 = some (r', o) → r' = r.request ∧
      (requeued o = true → (s.send ref r).1.known r.request.requestId = s.known r.request.requestId) := by
  unfold send
  split
  · refine ⟨keeps_dropped s ref r, fun r' o h => ?_⟩
    cases h
    exact ⟨rfl, fun ho => nomatch ho⟩
  split
  · refine ⟨keeps_removePending s r, fun r' o h => ?_⟩
    cases h
    exact ⟨rfl, fun _ => rfl⟩
  split
  · refine ⟨keeps_dropped s ref r, fun r' o h => ?_⟩
    cases h
    exact ⟨rfl, fun ho => nomatch ho⟩
  · exact ⟨.of_eq rfl rfl, fun r' o h => nomatch h⟩

theorem submitted (s : ClaudeStreamState) (request : PromptRequest) (correlationId : String) :
    Reserves request.requestId s (s.submit c request correlationId).1 ∧
      ∀ r o, (s.submit c request correlationId).2 = some (r, o) → r = request ∧
        (requeued o = true → (s.submit c request correlationId).1.known request.requestId = true) := by
  have hrefused : ∀ o, requeued o = false → Reserves request.requestId s s ∧ ∀ r o', some (request, o) = some (r, o') →
      r = request ∧ (requeued o' = true → s.known request.requestId = true) := by
    intro o ho
    refine ⟨(Keeps.refl s).reserves _, fun r o' h => ?_⟩
    obtain ⟨rfl, rfl⟩ := Prod.mk.inj (Option.some.inj h)
    exact ⟨rfl, fun ho' => nomatch ho.symm.trans ho'⟩
  unfold submit
  split
  · exact hrefused _ rfl
  split
  · exact hrefused _ rfl
  rename_i operation _
  split
  · exact hrefused _ rfl
  split
  · exact hrefused _ rfl
  split
  · exact hrefused _ rfl
  dsimp only
  split
  · exact hrefused _ rfl
  split
  · exact hrefused _ rfl
  split
  · exact hrefused _ rfl
  split
  · exact hrefused _ rfl
  rename_i t ht
  obtain ⟨hkeeps, hends⟩ := sent (t.reserved _) t.records.length _
  refine ⟨(((keeps_withRoom ht).reserves request.requestId).trans ?_).trans (hkeeps.reserves _), ?_⟩
  · exact reserves_reserved rfl rfl
  intro r o ho
  obtain ⟨rfl, hheld⟩ := hends r o ho
  refine ⟨rfl, fun hq => (hheld hq).trans ?_⟩
  simp [known, reserved]

theorem written (s : ClaudeStreamState) (ref : Nat) (r : ClaudeSubmission) (broken : Bool) : Keeps s (s.write ref r broken).1 ∧
    ∀ r' o, (s.write ref r broken).2 = some (r', o) → r' = r.request ∧
      (requeued o = true → (s.write ref r broken).1.known r.request.requestId = false) := by
  have htaken : Keeps s { s with writing := s.writing.erase ref } := .of_eq rfl rfl
  unfold write
  dsimp only
  split
  · refine ⟨htaken, fun r' o h => ?_⟩
    cases h
    exact ⟨rfl, fun ho => nomatch ho⟩
  · refine ⟨htaken.trans (keeps_dropped _ ref r), fun r' o h => ?_⟩
    cases h
    exact ⟨rfl, fun _ => known_dropped _ ref r⟩
  split
  · refine ⟨htaken.trans (keeps_removePending _ r), fun r' o h => ?_⟩
    cases h
    exact ⟨rfl, fun ho => nomatch ho⟩
  · exact ⟨.of_eq rfl rfl, fun r' o h => nomatch h⟩

/-! ## The steps -/

theorem stepped (h : s.step c i = some (t, e)) :
    (∃ request correlationId, i = .submit request correlationId ∧ (t, e) = s.submit c request correlationId) ∨
    (∃ ref r broken, i = .write ref broken ∧ (t, e) = s.write ref r broken) ∨
    ((claude c).submits i = none ∧ Keeps s t ∧
      ((∀ r ∈ s.records, Settled r) → ∀ r o, e = some (r, o) → requeued o = false)) := by
  cases i with
  | submit request correlationId => exact .inl ⟨request, correlationId, rfl, (Option.some.inj h).symm⟩
  | write ref broken =>
    simp only [step] at h
    split at h
    · rename_i r _
      split at h
      · exact .inr (.inl ⟨ref, r, broken, rfl, (Option.some.inj h).symm⟩)
      · cases h
    · cases h
  | answered ref =>
    simp only [step] at h
    split at h
    · rename_i r hr
      split at h
      · obtain ⟨o, ho, he⟩ := Option.map_eq_some_iff.mp h
        cases he
        refine .inr (.inr ⟨rfl, .of_eq rfl rfl, fun hs r' o' h' => ?_⟩)
        cases h'
        exact hs r (List.mem_of_getElem? hr) o ho
      · cases h
    · cases h
  | acceptanceTimeout ref =>
    simp only [step] at h
    split at h
    · rename_i r _
      split at h <;> cases h
      refine .inr (.inr ⟨rfl, ?_, fun _ r' o' h' => ?_⟩)
      · exact (keeps_modify (f := fun r => { r with acceptance := .unknown }) s ref fun _ hr => hr).trans (.of_eq rfl rfl)
      · cases h'
        rfl
    · cases h
  | abandon requestId =>
    cases h
    exact .inr (.inr ⟨rfl, keeps_abandon s requestId, fun _ _ _ h' => nomatch h'⟩)
  | frame f =>
    simp only [step] at h
    split at h
    · split at h
      · rename_i hf
        cases h
        exact .inr (.inr ⟨rfl, keeps_handleFrame hf, fun _ _ _ h' => nomatch h'⟩)
      · cases h
        exact .inr (.inr ⟨rfl, keeps_readerStopped s _ fun _ => rfl, fun _ _ _ h' => nomatch h'⟩)
    · cases h
  | eof returncode =>
    simp only [step] at h
    split at h <;> cases h
    exact .inr (.inr ⟨rfl, keeps_readerStopped s _ fun _ => rfl, fun _ _ _ h' => nomatch h'⟩)
  | respond interactionId operation =>
    cases h
    refine .inr (.inr ⟨rfl, ?_, fun _ _ _ h' => nomatch h'⟩)
    unfold respond
    split
    · exact .of_eq rfl rfl
    · exact .refl s
  | responded broken =>
    simp only [step] at h
    split at h <;> cases h
    refine .inr (.inr ⟨rfl, ?_, fun _ _ _ h' => nomatch h'⟩)
    cases broken <;> exact .of_eq rfl rfl
  | stdinClosed =>
    cases h
    exact .inr (.inr ⟨rfl, .of_eq rfl rfl, fun _ _ _ h' => nomatch h'⟩)
  | released =>
    cases h
    exact .inr (.inr ⟨rfl, .of_eq rfl rfl, fun _ _ _ h' => nomatch h'⟩)
  | readerFinished graceful =>
    cases h
    exact .inr (.inr ⟨rfl, .of_eq rfl rfl, fun _ _ _ h' => nomatch h'⟩)

theorem settled_step (hinv : ∀ r ∈ s.records, Settled r) (h : s.step c i = some (t, e)) :
    ∀ r ∈ t.records, Settled r := by
  rcases stepped h with ⟨request, correlationId, -, hp⟩ | ⟨ref, r, broken, -, hp⟩ | ⟨-, hkeeps, -⟩
  · rw [show t = (s.submit c request correlationId).1 from congrArg Prod.fst hp]
    exact (submitted s request correlationId).1.settled hinv
  · rw [show t = (s.write ref r broken).1 from congrArg Prod.fst hp]
    exact (written s ref r broken).1.settled hinv
  · exact hkeeps.settled hinv

theorem known_step (h : s.step c i = some (t, e)) (hi : (claude c).submits i ≠ some id) (hout : s.known id = false) :
    t.known id = false := by
  rcases stepped h with ⟨request, correlationId, rfl, hp⟩ | ⟨ref, r, broken, -, hp⟩ | ⟨-, hkeeps, -⟩
  · rw [show t = (s.submit c request correlationId).1 from congrArg Prod.fst hp]
    exact (submitted s request correlationId).1.known id (fun hid => hi (hid ▸ rfl)) hout
  · rw [show t = (s.write ref r broken).1 from congrArg Prod.fst hp]
    exact (written s ref r broken).1.known id hout
  · exact hkeeps.known id hout

theorem submit_idle {correlationId : String} (hout : s.known request.requestId = false)
    (hidle : (claude c).idle s request = true) (hfresh : (claude c).fresh s request correlationId = true) :
    ∃ t r, r.request = request ∧ s.withRoom c = some t ∧
      (claude c).step s (.submit request correlationId) =
        some ({ t.reserved r with writing := s.writing ++ [s.records.length] }, none) := by
  simp only [claude, preflight, sendable, Bool.and_eq_true, Bool.not_eq_true', decide_eq_true_eq, List.isEmpty_iff,
    Option.isSome_iff_exists] at hidle hfresh
  obtain ⟨⟨⟨⟨⟨⟨⟨⟨⟨⟨hready, -⟩, hpending⟩, -⟩, -⟩, hprocess⟩, hstdin⟩, hterminated⟩, t, ht⟩, operation, hoperation⟩, hsend⟩ := hidle
  cases hcommand : sessionCommand request.text with
  | none => simp [hcommand] at hsend
  | some command =>
    rw [hcommand] at hfresh hsend
    have hnew : (s.history.get? request.requestId).isSome = false := hout
    have htext : (s.pendingByText.get? (wireText command request correlationId)).isSome = false := by
      simp [Dict.get?, hpending, Dict.lookupIn]
    obtain ⟨history, rfl⟩ := withRoom_eq ht
    refine ⟨_, ⟨request, correlationId, wireText command request correlationId,
      command.elim (wireText command request correlationId) (sessionCommandReplayText · request.text), operation,
      none, .unknown, false, false⟩, rfl, ht, ?_⟩
    have hfits := Nat.not_lt.mpr hfresh.2
    simp only [Option.getD_some] at hfits
    simp only [claude, step, submit, hready, hoperation, hterminated, hcommand, Option.isNone_iff_eq_none.mp hsend, hnew,
      hfresh.1, htext, ht, send, reserved, hprocess, hstdin, hfits, ne_eq, not_true_eq_false, if_false,
      Bool.false_eq_true, Bool.not_true]

theorem becameBusy_alone (haccepted : s.acceptedOrder = []) (hquiet : s.pendingInteraction = none)
    (htext : s.pendingByText.get? r.wireText = some r.request.requestId)
    (hvalues : s.pendingByText.values = [r.request.requestId]) (hrecord : s.record? r.request.requestId = some r) :
    s.becameBusy r = some false := by
  have hactive : s.activeOperation = some (some r.operation) := by simp [activeOperation, haccepted, hvalues, hrecord]
  simp [becameBusy, haccepted, hquiet, htext, hactive]

theorem write_free {ref : Nat} (hrecord : s.records[ref]? = some r) (href : ref ∈ s.writing)
    (hfree : s.becameBusy r = some false) : ∃ u, (claude c).step s (.write ref false) = some (u, none) ∧
      u.wire = s.wire ++ [r.request.requestId] := by
  have hfree' : becameBusy { s with writing := s.writing.erase ref } r = some false := hfree
  exact ⟨{ s with
    writing := s.writing.erase ref
    wire := s.wire ++ [r.request.requestId]
    awaiting := s.awaiting ++ [ref] }, by simp [claude, step, hrecord, href, write, hfree'], rfl⟩

theorem write_idle (hr : r.request = request) (hidle : (claude c).idle s request = true) (ht : s.withRoom c = some t) :
    ∃ u, (claude c).step { t.reserved r with writing := s.writing ++ [s.records.length] } (.write s.records.length false) =
      some (u, none) ∧ u.wire = s.wire ++ [request.requestId] := by
  subst hr
  obtain ⟨history, rfl⟩ := withRoom_eq ht
  simp only [claude, preflight, Bool.and_eq_true, decide_eq_true_eq, List.isEmpty_iff, Option.isNone_iff_eq_none] at hidle
  obtain ⟨⟨⟨⟨⟨⟨⟨⟨⟨⟨-, haccepted⟩, hpending⟩, hquiet⟩, -⟩, -⟩, -⟩, -⟩, -⟩, -⟩, -⟩ := hidle
  have hvalues : (s.pendingByText.set r.wireText r.request.requestId).values = [r.request.requestId] := by
    simp [Dict.values, Dict.set, hpending, Dict.setIn]
  refine write_free (r := r) (by simp [reserved]) (by simp) (becameBusy_alone haccepted hquiet ?_ hvalues ?_)
  · simp [reserved]
  · simp [record?, reserved]

theorem lawful : (claude c).Lawful where
  holds := known_step
  writes := by
    intro s request correlationId hout hidle hfresh
    obtain ⟨t, r, hr, ht, hsubmit⟩ := submit_idle hout hidle hfresh
    obtain ⟨u, hwrite, hwire⟩ := write_idle hr hidle ht
    exact ⟨u, (Machine.runFrom_step hsubmit).trans (Machine.runFrom_step hwrite), hwire⟩

/-- A submit refused under the write lock. -/
def meets (_ : ClaudeStreamState) : ClaudeStep → Prop
  | .write _ _ => True
  | _ => False

theorem refused_step (hinv : ∀ r ∈ s.records, Settled r) (h : s.step c i = some (t, some (request, o)))
    (ho : requeued o = true) : t.known request.requestId = false ↔ s.meets i := by
  rcases stepped h with ⟨request', correlationId, rfl, hp⟩ | ⟨ref, r, broken, rfl, hp⟩ | ⟨-, -, hends⟩
  · obtain ⟨rfl, hheld⟩ := (submitted s request' correlationId).2 request o (congrArg Prod.snd hp).symm
    rw [show t = (s.submit c request correlationId).1 from congrArg Prod.fst hp, hheld ho]
    exact ⟨fun h => (nomatch h), fun h => h.elim⟩
  · obtain ⟨rfl, hout⟩ := (written s ref r broken).2 request o (congrArg Prod.snd hp).symm
    rw [show t = (s.write ref r broken).1 from congrArg Prod.fst hp]
    exact ⟨fun _ => trivial, fun _ => hout ho⟩
  · exact nomatch (hends hinv request o rfl).symm.trans ho

end ClaudeStreamState

theorem retryableExactlyWhen (c : ClaudeConfig) :
    (claude c).RetryableExactlyWhen ClaudeStreamState.Started ClaudeStreamState.meets :=
  ClaudeStreamState.lawful.exactlyWhen (I := fun s => ∀ r ∈ s.records, ClaudeStreamState.Settled r)
    (fun s h r hr => by rw [h.2.1] at hr; cases hr) (fun _ _ _ _ hinv h => ClaudeStreamState.settled_step hinv h)
    fun _ _ _ _ _ hinv h ho => ClaudeStreamState.refused_step hinv h ho

end AgentsRemember.Adapter.Claude
