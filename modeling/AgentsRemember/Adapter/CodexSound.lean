import AgentsRemember.Adapter.Codex

/-!
# What a Codex refusal leaves

A submit refused before its evidence is reserved leaves the ledger alone. One
refused under the write lock, or by a dead transport, leaves its evidence there.
-/

namespace AgentsRemember.Adapter.Codex

open Lib
open Harness (ControlOperationRef SendOutcome)

variable {limit completedTurnLimit : Nat} {s t : CodexAdapter} {id : String}

/-! ## The ledger -/

theorem get?_assign_isSome (id k : String) (f : SubmissionEvidence → SubmissionEvidence)
    (items : Dict String SubmissionEvidence) : ((assign id f items).get? k).isSome = (items.get? k).isSome := by
  unfold assign
  cases h : items.get? id with
  | none => rfl
  | some e =>
    rw [Dict.get?_set]
    split
    · subst_vars
      rw [h]
      rfl
    · rfl

theorem get?_makeRoom {n : Nat} : ∀ {items items' : Dict String SubmissionEvidence}, makeRoom limit n items = some items' →
    items.get? id = none → items'.get? id = none := by
  induction n with
  | zero =>
    intro items items' h hnone
    simp only [makeRoom] at h
    split at h <;> cases h
    exact hnone
  | succ n ih =>
    intro items items' h hnone
    simp only [makeRoom] at h
    split at h
    · cases h
      exact hnone
    split at h
    · cases h
    refine ih h ?_
    rw [Dict.get?_erase]
    split
    · rfl
    · exact hnone

namespace CodexAdapter

def known (s : CodexAdapter) (id : String) : Bool := (s.submissions.get? id).isSome

variable {turnId : String} {i : CodexStep} {e : Option Ended} {request : PromptRequest}

@[simp] theorem known_settle (s : CodexAdapter) (k id : String) (state : EvidenceState) : (s.settle k state).known id = s.known id :=
  get?_assign_isSome k id _ s.submissions

@[simp] theorem known_finish (s : CodexAdapter) (r : PromptRequest) (o : SendOutcome) : (s.finish r o).1.known id = s.known id :=
  rfl

theorem known_handleTurnCompleted (h : s.handleTurnCompleted completedTurnLimit turnId = some t) :
    t.known id = s.known id := by
  unfold handleTurnCompleted at h
  split at h
  · cases h
    rfl
  split at h
  · split at h <;> cases h
    rfl
  split at h
  · cases h
  cases h
  rw [known, known, Bool.eq_iff_iff, Option.isSome_iff_exists, Option.isSome_iff_exists, ← Dict.mem_keys, ← Dict.mem_keys]
  simp [Dict.keys, List.map_map, Function.comp_def]

@[simp] theorem known_reconnect (s : CodexAdapter) : s.reconnect.known id = s.known id := by
  unfold reconnect
  split <;> rfl

theorem known_reconcile (s : CodexAdapter) (k : String) (turn : Option String) : (s.reconcile k turn).known id = s.known id := by
  unfold reconcile
  split
  · rfl
  split
  · rfl
  split
  · exact known_reconnect s
  · exact get?_assign_isSome k id _ s.submissions

theorem frame_handleTurnCompleted (h : s.handleTurnCompleted completedTurnLimit turnId = some t) :
    t.call = s.call ∧ t.pendingOperation = s.pendingOperation := by
  unfold handleTurnCompleted at h
  split at h
  · cases h
    exact ⟨rfl, rfl⟩
  · split at h <;> split at h <;> cases h <;> exact ⟨rfl, rfl⟩

theorem frame_reconcile (s : CodexAdapter) (k : String) (turn : Option String) :
    (s.reconcile k turn).call = s.call ∧ (s.reconcile k turn).pendingOperation = s.pendingOperation := by
  have hframe : s.reconnect.call = s.call ∧ s.reconnect.pendingOperation = s.pendingOperation := by
    unfold reconnect
    split <;> exact ⟨rfl, rfl⟩
  unfold reconcile
  split
  · exact ⟨rfl, rfl⟩
  split
  · exact ⟨rfl, rfl⟩
  · split <;> exact hframe

theorem known_write (s : CodexAdapter) (k : Call) (broken : Bool) : (s.write k broken).1.known id = s.known id := by
  unfold write
  split
  · rfl
  split
  · exact known_settle s k.request.requestId id .unknown
  · rfl

theorem known_acceptStartedTurn (s : CodexAdapter) (k : Call) (turnId status : String) (buffered : Option String) :
    (s.acceptStartedTurn completedTurnLimit k turnId status buffered).1.known id = s.known id := by
  have hsettled : ∀ state, (s.settle k.request.requestId state).known id = s.known id := fun state => by simp
  unfold acceptStartedTurn
  cases buffered with
  | none =>
    simp only
    split <;> exact hsettled _
  | some completed =>
    simp only
    split
    · split <;> exact hsettled _
    rename_i u hu
    rw [known_finish, known_handleTurnCompleted hu]
    split <;> exact hsettled _

theorem known_answered (s : CodexAdapter) (k : Call) (answer : TurnAnswer) :
    (s.answered completedTurnLimit k answer).1.known id = s.known id := by
  cases answer with
  | rpcError => exact known_settle ..
  | malformed => rfl
  | disconnected => exact known_settle ..
  | turn turnId status =>
    have hbound : (s.bindStartedTurn k turnId).1.known id = s.known id := by
      unfold bindStartedTurn
      simp only
      split
      · rfl
      split
      · rfl
      · exact get?_assign_isSome _ id _ s.submissions
    simp only [answered]
    cases hu : s.bindStartedTurn k turnId with
    | mk u buffered =>
      rw [hu] at hbound
      cases buffered with
      | none => exact hbound
      | some buffered =>
        simp only
        split
        · exact (known_settle u _ id .rejected).trans hbound
        · exact (known_acceptStartedTurn u k turnId status buffered).trans hbound

/-- What a submit refuses before it reserves anything, to be queued again. -/
def refusesEarly (s : CodexAdapter) : Bool :=
  s.control ≠ .ready || s.parent.activeTurnId.isSome || s.pendingOperation.isSome

inductive Submitted (s : CodexAdapter) (request : PromptRequest) : CodexAdapter × Option Ended → Prop
  | refused (o : SendOutcome) (h : requeued o = true → s.refusesEarly = true) : Submitted s request (s, some (request, o))
  | reserved (t : CodexAdapter) (e : Option Ended) (hfree : s.refusesEarly = false) (hheld : t.known request.requestId = true)
      (hends : ∀ r o, e = some (r, o) → r = request)
      (hkept : ∀ id, id ≠ request.requestId → s.known id = false → t.known id = false)
      (hcall : ∀ k, t.call = some k → k.request = request ∧ t.pendingOperation.isSome = true) : Submitted s request (t, e)

theorem submitted (s : CodexAdapter) (request : PromptRequest) (verified : Bool × Bool) :
    Submitted s request (s.submit limit request verified) := by
  unfold submit
  split
  · exact .refused _ fun h => nomatch h
  split
  · exact .refused _ fun h => nomatch h
  split
  · rename_i hcontrol
    exact .refused _ fun _ => by simp [refusesEarly, hcontrol]
  rename_i hready
  split
  · exact .refused _ fun h => nomatch h
  rename_i operation _
  split
  · rename_i hbusy
    refine .refused _ fun _ => ?_
    simp only [refusesEarly, Bool.or_assoc, hbusy, Bool.or_true]
  rename_i hidle
  split
  · exact .refused _ fun h => nomatch h
  rename_i hnew
  split
  · exact .refused _ fun h => nomatch h
  rename_i items hitems
  have hfree : s.refusesEarly = false := by
    simp only [Bool.or_eq_true, not_or, Bool.not_eq_true] at hidle
    simp [refusesEarly, hidle, not_not.mp hready]
  have hheld : ((items.set request.requestId ⟨request, .queued, none⟩).get? request.requestId).isSome = true := by
    simp
  have hkept : ∀ id, id ≠ request.requestId → s.known id = false →
      ((items.set request.requestId ⟨request, .queued, none⟩).get? id).isSome = false := by
    intro id hid hout
    rw [Dict.get?_set_ne _ _ hid.symm]
    simpa [known] using get?_makeRoom hitems (by simpa [known] using hout)
  split
  · exact .reserved _ _ hfree hheld (fun r o h => (Prod.mk.inj (Option.some.inj h)).1.symm) hkept fun k hk => nomatch hk
  dsimp only
  split
  · refine .reserved _ _ hfree ?_ (fun r o h => (Prod.mk.inj (Option.some.inj h)).1.symm) (fun id hid hout => ?_)
      fun k hk => nomatch hk
    · exact (known_settle _ _ _ .unknown).trans hheld
    · exact (known_settle _ _ _ .unknown).trans (hkept id hid hout)
  refine .reserved _ _ hfree hheld (fun r o h => nomatch h) hkept fun k hk => ?_
  cases hk
  exact ⟨rfl, rfl⟩

/-! ## The steps -/

def CallHeld (s : CodexAdapter) : Prop :=
  ∀ k, s.call = some k → s.pendingOperation.isSome = true ∧ s.known k.request.requestId = true

theorem callHeld_of_call {s : CodexAdapter} (h : s.CallHeld) (hcall : t.call = s.call)
    (hpending : t.pendingOperation = s.pendingOperation) (hknown : ∀ id, t.known id = s.known id) : t.CallHeld := by
  intro k hk
  obtain ⟨h₁, h₂⟩ := h k (hcall ▸ hk)
  exact ⟨hpending ▸ h₁, (hknown _).trans h₂⟩

theorem callHeld_of_none (h : t.call = none) : t.CallHeld := fun k hk => by
  rw [h] at hk
  cases hk

theorem snd_acceptStartedTurn (s : CodexAdapter) (k : Call) (turnId status : String) (buffered : Option String) :
    ∃ o, (s.acceptStartedTurn completedTurnLimit k turnId status buffered).2 = some (k.request, o) ∧ requeued o = false := by
  unfold acceptStartedTurn
  cases buffered with
  | none =>
    simp only
    split <;> exact ⟨_, rfl, rfl⟩
  | some completed =>
    simp only
    split <;> exact ⟨_, rfl, rfl⟩

theorem snd_answered (s : CodexAdapter) (k : Call) (answer : TurnAnswer) :
    ∃ o, (s.answered completedTurnLimit k answer).2 = some (k.request, o) ∧ requeued o = false := by
  cases answer with
  | rpcError => exact ⟨_, rfl, rfl⟩
  | malformed => exact ⟨_, rfl, rfl⟩
  | disconnected => exact ⟨_, rfl, rfl⟩
  | turn turnId status =>
    simp only [answered]
    cases s.bindStartedTurn k turnId with
    | mk u buffered =>
      cases buffered with
      | none => exact ⟨_, rfl, rfl⟩
      | some buffered =>
        simp only
        split
        · exact ⟨_, rfl, rfl⟩
        · exact snd_acceptStartedTurn u k turnId status buffered

theorem call_answered (s : CodexAdapter) (k : Call) (answer : TurnAnswer) :
    (s.answered completedTurnLimit k answer).1.call = none := by
  cases answer with
  | rpcError => rfl
  | malformed => rfl
  | disconnected => rfl
  | turn turnId status =>
    simp only [answered]
    cases s.bindStartedTurn k turnId with
    | mk u buffered =>
      cases buffered with
      | none => rfl
      | some buffered =>
        simp only
        split
        · rfl
        unfold acceptStartedTurn
        cases buffered with
        | none =>
          simp only
          split <;> rfl
        | some completed =>
          simp only
          split <;> rfl

inductive Stepped (limit completedTurnLimit : Nat) (s : CodexAdapter) : CodexStep → CodexAdapter × Option Ended → Prop
  | submit (request : PromptRequest) (verified : Bool × Bool) :
    Stepped limit completedTurnLimit s (.submit request verified) (s.submit limit request verified)
  | write (k : Call) (broken : Bool) (hcall : s.call = some k) :
    Stepped limit completedTurnLimit s (.write broken) (s.write k broken)
  | answered (k : Call) (answer : TurnAnswer) (hcall : s.call = some k) :
    Stepped limit completedTurnLimit s (.answered answer) (s.answered completedTurnLimit k answer)
  | quiet (i : CodexStep) (t : CodexAdapter) (hcall : t.call = s.call) (hpending : t.pendingOperation = s.pendingOperation)
    (hknown : ∀ id, t.known id = s.known id) : Stepped limit completedTurnLimit s i (t, none)

theorem stepped {p : CodexAdapter × Option Ended} (h : s.step limit completedTurnLimit i = some p) :
    Stepped limit completedTurnLimit s i p := by
  cases i with
  | submit request verified =>
    cases h
    exact .submit request verified
  | write broken =>
    simp only [step] at h
    split at h
    · rename_i k hk
      split at h <;> cases h
      exact .write k broken hk
    · cases h
  | answered answer =>
    simp only [step] at h
    split at h
    · rename_i k hk
      split at h <;> cases h
      exact .answered k answer hk
    · cases h
  | turnCompleted turnId =>
    cases h
    cases hu : s.handleTurnCompleted completedTurnLimit turnId with
    | none => exact .quiet _ _ rfl rfl fun _ => rfl
    | some u =>
      refine .quiet _ _ ?_ ?_ fun id => known_handleTurnCompleted hu
      · exact (frame_handleTurnCompleted hu).1
      · exact (frame_handleTurnCompleted hu).2
  | serverRequest rpcId =>
    cases h
    unfold serverRequest
    split <;> exact .quiet _ _ rfl rfl fun _ => rfl
  | respond rpcId operation =>
    cases h
    unfold respond
    split <;> exact .quiet _ _ rfl rfl fun _ => rfl
  | reconnect =>
    cases h
    refine .quiet _ _ ?_ ?_ fun id => known_reconnect s <;> (unfold reconnect; split <;> rfl)
  | reconcile requestId turn =>
    cases h
    refine .quiet _ _ (frame_reconcile s requestId turn).1 (frame_reconcile s requestId turn).2 fun id =>
      known_reconcile s requestId turn
  | readerStopped failed =>
    cases h
    cases failed <;> exact .quiet _ _ rfl rfl fun _ => rfl
  | turnStarted turnId => cases h; exact .quiet _ _ rfl rfl fun _ => rfl
  | serverRequestResolved rpcId => cases h; exact .quiet _ _ rfl rfl fun _ => rfl
  | processExited => cases h; exact .quiet _ _ rfl rfl fun _ => rfl
  | stop => cases h; exact .quiet _ _ rfl rfl fun _ => rfl

theorem known_step (h : s.step limit completedTurnLimit i = some (t, e))
    (hi : (codex limit completedTurnLimit).submits i ≠ some id) (hout : s.known id = false) : t.known id = false := by
  generalize hp : (t, e) = p at h
  cases stepped h with
  | submit request verified =>
    have hid : id ≠ request.requestId := fun hid => hi (hid ▸ rfl)
    cases hs : s.submit limit request verified with
    | mk u o =>
      have hsub : Submitted s request (s.submit limit request verified) := submitted s request verified
      rw [hs] at hp hsub
      obtain ⟨rfl, rfl⟩ := Prod.mk.inj hp
      cases hsub with
      | refused o h => exact hout
      | reserved t e hfree hheld hends hkept hcall => exact hkept id hid hout
  | write k broken hcall =>
    rw [show t = (s.write k broken).1 from congrArg Prod.fst hp, known_write]
    exact hout
  | answered k answer hcall =>
    rw [show t = (s.answered completedTurnLimit k answer).1 from congrArg Prod.fst hp, known_answered]
    exact hout
  | quiet _ u hcall hpending hknown =>
    obtain ⟨rfl, rfl⟩ := Prod.mk.inj hp
    exact (hknown id).trans hout

theorem submit_idle (hout : s.known request.requestId = false)
    (hidle : (codex limit completedTurnLimit).idle s request = true) : ∃ operation items,
      (codex limit completedTurnLimit).step s (.submit request (true, true)) =
        some ({ s with
            submissions := items
            pendingOperation := some operation
            call := some ⟨request, operation, false⟩ }, none) := by
  simp only [codex, preflight, Bool.and_eq_true, Bool.not_eq_true', Option.isNone_iff_eq_none, decide_eq_true_eq,
    Option.isSome_iff_exists] at hidle
  obtain ⟨⟨⟨⟨⟨⟨⟨⟨hstopped, hready⟩, hturn⟩, hpending⟩, -⟩, -⟩, hconnected⟩, items, hitems⟩, operation, hoperation⟩ := hidle
  refine ⟨operation, items.set request.requestId ⟨request, .queued, none⟩, ?_⟩
  have hnew : (s.submissions.get? request.requestId).isSome = false := hout
  simp [codex, step, submit, hstopped, hready, hoperation, hturn, hpending, hnew, hitems, hconnected]

theorem write_idle {k : Call} (hcall : s.call = some k) (hunwritten : k.written = false)
    (hpending : s.pendingOperation = some k.operation) (hturn : s.parent.activeTurnId = none)
    (hactive : s.activeOperation = none) (hquiet : s.parent.pendingInteractions = []) :
    (codex limit completedTurnLimit).step s (.write false) =
      some ({ s with call := some { k with written := true }, wire := s.wire ++ [k.request.requestId] }, none) := by
  simp [codex, step, write, becameBusy, hcall, hunwritten, hpending, hturn, hactive, hquiet]

theorem lawful : (codex limit completedTurnLimit).Lawful where
  holds := known_step
  writes := by
    intro s request minted hout hidle _
    obtain ⟨operation, items, hsubmit⟩ := submit_idle hout hidle
    simp only [codex, preflight, Bool.and_eq_true, Option.isNone_iff_eq_none, decide_eq_true_eq] at hidle
    have hwrite := @write_idle limit completedTurnLimit
      { s with
        submissions := items
        pendingOperation := some operation
        call := some ⟨request, operation, false⟩ }
      ⟨request, operation, false⟩ rfl rfl rfl hidle.1.1.1.1.1.1.2 hidle.1.1.1.2 hidle.1.1.1.1.2
    exact ⟨_, (Machine.runFrom_step hsubmit).trans (Machine.runFrom_step hwrite), rfl⟩

/-- A submit refused for what the adapter was doing, before its evidence is made. -/
def meets (s : CodexAdapter) : CodexStep → Prop
  | .submit request _ => s.refusesEarly = true ∧ s.known request.requestId = false
  | _ => False

theorem callHeld_step (hinv : s.CallHeld) (h : s.step limit completedTurnLimit i = some (t, e)) : t.CallHeld := by
  generalize hp : (t, e) = p at h
  cases stepped h with
  | submit request verified =>
    have hsub : Submitted s request (s.submit limit request verified) := submitted s request verified
    rw [← hp] at hsub
    cases hsub with
    | refused o h => exact hinv
    | reserved t e hfree hheld hends hkept hcall =>
      intro k hk
      obtain ⟨hrequest, hpending⟩ := hcall k hk
      exact ⟨hpending, hrequest ▸ hheld⟩
  | write k broken hcall =>
    rw [show t = (s.write k broken).1 from congrArg Prod.fst hp]
    have hknown : ∀ id, (s.write k broken).1.known id = s.known id := fun id => known_write s k broken
    intro k' hk'
    rw [hknown]
    revert hk'
    unfold write
    split
    · exact fun hk' => nomatch hk'
    split
    · exact fun hk' => nomatch hk'
    intro hk'
    cases hk'
    exact hinv k hcall
  | answered k answer hcall =>
    rw [show t = (s.answered completedTurnLimit k answer).1 from congrArg Prod.fst hp]
    exact callHeld_of_none (call_answered s k answer)
  | quiet _ u hcall hpending hknown =>
    obtain ⟨rfl, rfl⟩ := Prod.mk.inj hp
    exact callHeld_of_call hinv hcall hpending hknown

theorem refused_step {o : SendOutcome} (hinv : s.CallHeld)
    (h : s.step limit completedTurnLimit i = some (t, some (request, o))) (ho : requeued o = true) :
    t.known request.requestId = false ↔ s.meets i := by
  generalize hp : (t, some (request, o)) = p at h
  cases stepped h with
  | submit request' verified =>
    have hsub : Submitted s request' (s.submit limit request' verified) := submitted s request' verified
    rw [← hp] at hsub
    generalize hq : (t, some (request, o)) = q at hsub
    cases hsub with
    | refused o' hearly =>
      obtain ⟨rfl, he⟩ := Prod.mk.inj hq
      cases he
      exact ⟨fun hout => ⟨hearly ho, hout⟩, fun hm => hm.2⟩
    | reserved t' e hfree hheld hends hkept hcall =>
      obtain ⟨rfl, he⟩ := Prod.mk.inj hq
      obtain rfl := hends request o he.symm
      refine ⟨fun hout => ?_, fun hm => ?_⟩
      · rw [hout] at hheld
        cases hheld
      · rw [hm.1] at hfree
        cases hfree
  | write k broken hcall =>
    -- Only the guard refuses to be queued again, and its evidence stays.
    have hheld := (hinv k hcall).2
    have ht : t.known request.requestId = s.known request.requestId := by
      rw [show t = (s.write k broken).1 from congrArg Prod.fst hp, known_write]
    have hrequest : request = k.request := by
      revert hp
      unfold write
      split
      · exact fun hp => (Prod.mk.inj (Option.some.inj (Prod.mk.inj hp).2)).1
      split
      · exact fun hp => (Prod.mk.inj (Option.some.inj (Prod.mk.inj hp).2)).1
      · exact fun hp => nomatch (Prod.mk.inj hp).2
    rw [ht, hrequest, hheld]
    exact ⟨fun h => (nomatch h), fun h => (nomatch h)⟩
  | answered k answer hcall =>
    obtain ⟨o', ho', hnot⟩ := @snd_answered completedTurnLimit s k answer
    rw [← hp] at ho'
    cases ho'
    rw [hnot] at ho
    cases ho
  | quiet _ u hcall hpending hknown => cases hp

end CodexAdapter

theorem retryableExactlyWhen (limit completedTurnLimit : Nat) :
    (codex limit completedTurnLimit).RetryableExactlyWhen CodexAdapter.Started CodexAdapter.meets :=
  CodexAdapter.lawful.exactlyWhen (fun _ h => CodexAdapter.callHeld_of_none h.2.2.2.1)
    (fun _ _ _ _ hinv h => CodexAdapter.callHeld_step hinv h) fun _ _ _ _ _ hinv h ho => CodexAdapter.refused_step hinv h ho

end AgentsRemember.Adapter.Codex
