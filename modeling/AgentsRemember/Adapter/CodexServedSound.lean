import AgentsRemember.Adapter.CodexServed

/-!
# Turn correlation in calm runs

An adapter is quiet, or starts one turn, or runs one. In each phase its own
markers name that turn and no other, and what it settled is what its turns were
started for.
-/

namespace AgentsRemember.Adapter.Codex

open Lib
open Harness (ControlOperationRef SendOutcome)

variable {limit completedTurnLimit : Nat}

structure Markers where
  call : Option Call
  pending : Option ControlOperationRef
  activeTurn : Option String
  activeOperation : Option ControlOperationRef
  unbound : Option String
  operations : String → Option ControlOperationRef
  retained : String → Bool

namespace CodexAdapter

variable {s u : CodexAdapter} {turnId : String} {operation : ControlOperationRef}

def markers (s : CodexAdapter) : Markers where
  call := s.call
  pending := s.pendingOperation
  activeTurn := s.parent.activeTurnId
  activeOperation := s.activeOperation
  unbound := s.parent.unboundCompletion
  operations id := s.parent.turnOperations.get? id
  retained id := (s.parent.completedTurns.get? id).isSome

theorem submit_markers (limit : Nat) (s : CodexAdapter) (request : PromptRequest) (verified : Bool × Bool) :
    ((s.submit limit request verified).1.control = s.control ∨ (s.submit limit request verified).1.control = .disconnected) ∧
      ((s.submit limit request verified).1.markers = s.markers ∨
        s.parent.activeTurnId = none ∧ s.pendingOperation = none ∧
          ((s.submit limit request verified).1.markers =
              { s.markers with
                call := none
                pending := none } ∨
            ∃ operation, (s.submit limit request verified).1.markers =
              { s.markers with
                call := some ⟨request, operation, false⟩
                pending := some operation })) := by
  unfold submit
  split
  · exact ⟨.inl rfl, .inl rfl⟩
  split
  · exact ⟨.inl rfl, .inl rfl⟩
  split
  · exact ⟨.inl rfl, .inl rfl⟩
  split
  · exact ⟨.inl rfl, .inl rfl⟩
  rename_i operation _
  split
  · exact ⟨.inl rfl, .inl rfl⟩
  rename_i hfree
  simp only [Bool.or_eq_true, not_or, Option.not_isSome_iff_eq_none] at hfree
  split
  · exact ⟨.inl rfl, .inl rfl⟩
  split
  · exact ⟨.inl rfl, .inl rfl⟩
  dsimp only
  split
  · exact ⟨.inl rfl, .inr ⟨hfree.1, hfree.2, .inl rfl⟩⟩
  split
  · exact ⟨.inr rfl, .inr ⟨hfree.1, hfree.2, .inl rfl⟩⟩
  · exact ⟨.inl rfl, .inr ⟨hfree.1, hfree.2, .inr ⟨operation, rfl⟩⟩⟩

theorem reconnect_markers (s : CodexAdapter) : s.reconnect.markers = s.markers := by
  unfold reconnect
  split <;> rfl

theorem reconnect_control (h : s.control ≠ .failed) : s.reconnect.control ≠ .failed := by
  unfold reconnect
  split
  · exact nofun
  · exact h

/-! ## Turns -/

theorem retained_retireTurn {p : CodexThreadState} {operation : Option ControlOperationRef} {id : String}
    (h : ((retireTurn completedTurnLimit p turnId operation).completedTurns.get? id).isSome = true) :
    id = turnId ∨ (p.completedTurns.get? id).isSome = true := by
  simp only [retireTurn, Dict.get?_filterKeys] at h
  split at h
  · rw [Dict.get?_moveToEnd, Dict.get?_set] at h
    split at h
    · rename_i heq
      exact .inl heq.symm
    · exact .inr h
  · cases h

theorem operations_retireTurn (p : CodexThreadState) (operation : Option ControlOperationRef) (id : String) :
    (retireTurn completedTurnLimit p turnId operation).turnOperations.get? id =
      if id = turnId then none else p.turnOperations.get? id := Dict.get?_erase _ _ _

structure Retired (turnId : String) (s u : CodexAdapter) : Prop where
  call : u.call = s.call
  pending : u.pendingOperation = s.pendingOperation
  control : u.control = s.control
  unbound : u.parent.unboundCompletion = s.parent.unboundCompletion
  operations : ∀ id, u.parent.turnOperations.get? id = if id = turnId then none else s.parent.turnOperations.get? id
  retained : ∀ id, (u.parent.completedTurns.get? id).isSome = true → id = turnId ∨ (s.parent.completedTurns.get? id).isSome = true
  activeTurn : u.parent.activeTurnId = none
  activeOperation : u.activeOperation = none

theorem handleTurnCompleted_bound (completedTurnLimit : Nat) (hnew : (s.parent.completedTurns.get? turnId).isSome = false)
    (hbound : s.parent.turnOperations.get? turnId = some operation)
    (hturn : s.parent.activeTurnId = none ∨ s.parent.activeTurnId = some turnId)
    (hoperation : s.activeOperation = none ∨ s.activeOperation = some operation) :
    ∃ u, s.handleTurnCompleted completedTurnLimit turnId = some u ∧ Retired turnId s u := by
  have hmatch : (s.parent.activeTurnId.any (· ≠ turnId) || s.activeOperation.any (· ≠ operation)) = false := by
    rcases hturn with h | h <;> rcases hoperation with h' | h' <;> simp [h, h']
  unfold handleTurnCompleted
  rw [if_neg (by simp [hnew]), hbound]
  simp only [hmatch, Bool.false_eq_true, if_false]
  exact ⟨_, rfl, rfl, rfl, rfl, rfl, operations_retireTurn _ _, fun _ h => retained_retireTurn h, rfl, rfl⟩

theorem completedEvent_bound (hnew : (s.parent.completedTurns.get? turnId).isSome = false)
    (hhandled : s.handleTurnCompleted completedTurnLimit turnId = some u) :
    s.completedEvent completedTurnLimit turnId = s.parent.turnOperations.get? turnId := by
  rw [completedEvent, if_pos ⟨by simpa using hnew, by rw [hhandled]; rfl⟩]

theorem handleTurnCompleted_unbound (completedTurnLimit : Nat) (hnew : (s.parent.completedTurns.get? turnId).isSome = false)
    (hunbound : s.parent.turnOperations.get? turnId = none) (hpending : s.pendingOperation.isSome = true)
    (hbuffer : s.parent.unboundCompletion = none) :
    s.handleTurnCompleted completedTurnLimit turnId =
      some { s with parent := { s.parent with unboundCompletion := some turnId } } := by
  have hfree : (s.pendingOperation.isNone || s.parent.unboundCompletion.isSome) = false := by
    simp [hbuffer, hpending]
  unfold handleTurnCompleted
  rw [if_neg (by simp [hnew]), hunbound]
  simp only [hfree, Bool.false_eq_true, if_false]

/-! ## Answers -/

structure Free (u : CodexAdapter) : Prop where
  call : u.call = none
  pending : u.pendingOperation = none
  activeTurn : u.parent.activeTurnId = none
  unbound : u.parent.unboundCompletion = none
  operations : ∀ id, u.parent.turnOperations.get? id = none
  activeOperation : u.activeOperation = none

structure Runs (u : CodexAdapter) (turnId : String) (operation : ControlOperationRef) : Prop where
  call : u.call = none
  pending : u.pendingOperation = none
  activeTurn : u.parent.activeTurnId = some turnId
  unbound : u.parent.unboundCompletion = none
  operations : ∀ id, u.parent.turnOperations.get? id = if id = turnId then some operation else none
  activeOperation : u.activeOperation = some operation

structure Starts (s : CodexAdapter) (turnId : String) : Prop where
  new : (s.parent.completedTurns.get? turnId).isSome = false
  activeTurn : s.parent.activeTurnId = none ∨ s.parent.activeTurnId = some turnId
  unbound : s.parent.unboundCompletion = none ∨ s.parent.unboundCompletion = some turnId
  operations : ∀ id, s.parent.turnOperations.get? id = none
  activeOperation : s.activeOperation = none

def Retains (s u : CodexAdapter) (turnId : String) : Prop :=
  ∀ id, (u.parent.completedTurns.get? id).isSome = true → id = turnId ∨ (s.parent.completedTurns.get? id).isSome = true

structure Binds (s b : CodexAdapter) (turnId : String) (operation : ControlOperationRef) : Prop where
  control : b.control = s.control
  completedTurns : b.parent.completedTurns = s.parent.completedTurns
  unbound : b.parent.unboundCompletion = none
  operations : ∀ id, b.parent.turnOperations.get? id = if id = turnId then some operation else none

variable {k : Call} {status : String}

theorem bindStartedTurn_starts (h : Starts s turnId) :
    ∃ b, s.bindStartedTurn k turnId = (b, some s.parent.unboundCompletion) ∧ Binds s b turnId k.operation ∧
      b.parent.activeTurnId = s.parent.activeTurnId ∧ b.activeOperation = none := by
  have hmatch : (s.parent.unboundCompletion.any (· ≠ turnId)) = false := by
    rcases h.unbound with hb | hb <;> simp [hb]
  unfold bindStartedTurn
  simp only [hmatch, Bool.false_eq_true, if_false, h.new]
  refine ⟨_, rfl, ⟨rfl, rfl, rfl, fun id => ?_⟩, rfl, h.activeOperation⟩
  dsimp only
  rw [Dict.get?_set, h.operations]
  by_cases hid : id = turnId
  · rw [if_pos hid, if_pos hid.symm]
  · rw [if_neg hid, if_neg (Ne.symm hid)]

variable {b : CodexAdapter}

theorem free_retired {u : CodexAdapter} (hb : Binds s b turnId operation) (hr : Retired turnId b u)
    (request : PromptRequest) (o : SendOutcome) :
    Free (u.finish request o).1 ∧ (u.finish request o).1.control = s.control ∧
      Retains s (u.finish request o).1 turnId := by
  refine ⟨⟨rfl, rfl, hr.activeTurn, hr.unbound.trans hb.unbound, fun id => ?_, hr.activeOperation⟩, hr.control.trans hb.control,
    fun id hid => ?_⟩
  · refine (hr.operations id).trans ?_
    rw [hb.operations]
    split <;> rfl
  · rw [← hb.completedTurns]
    exact hr.retained id hid

theorem retired_settle (hturn : b.parent.activeTurnId = none) (hoperation : b.activeOperation = none) (id : String)
    (state : EvidenceState) : Retired turnId b { b.settle id state with
      parent := retireTurn completedTurnLimit b.parent turnId (some operation) } where
  call := rfl
  pending := rfl
  control := rfl
  unbound := rfl
  operations := operations_retireTurn _ _
  retained _ h := retained_retireTurn h
  activeTurn := hturn
  activeOperation := hoperation

theorem answered_refused (completedTurnLimit : Nat) (h : Starts s turnId) (hstatus : status = "failed" ∨ status = "interrupted")
    (hturn : s.parent.activeTurnId = none) :
    ∃ u e, s.answered completedTurnLimit k (.turn turnId status) = (u, e) ∧ Free u ∧ u.control = s.control ∧
      Retains s u turnId ∧ accepts e = false ∧ s.answerSettlements completedTurnLimit k (.turn turnId status) = [] := by
  obtain ⟨b, hbind, hb, hactive, hoperation⟩ := bindStartedTurn_starts (k := k) h
  have hretired : Retired turnId b { b.settle k.request.requestId .rejected with
      parent := retireTurn completedTurnLimit b.parent turnId (some k.operation) } :=
    retired_settle (hactive.trans hturn) hoperation _ _
  obtain ⟨hfree, hcontrol, hretains⟩ := free_retired hb hretired k.request (receipt k.request .rejected (some turnId) false)
  simp only [answered, answerSettlements, hbind, if_pos hstatus]
  exact ⟨_, _, rfl, hfree, hcontrol, hretains, rfl, trivial⟩

theorem answered_stamped (completedTurnLimit : Nat) (h : Starts s turnId) (hstatus : ¬ (status = "failed" ∨ status = "interrupted"))
    (hrunning : status ≠ "inProgress") (hturn : s.parent.activeTurnId = none) (hbuffer : s.parent.unboundCompletion = none) :
    ∃ u e, s.answered completedTurnLimit k (.turn turnId status) = (u, e) ∧ Free u ∧ u.control = s.control ∧
      Retains s u turnId ∧ accepts e = true ∧
      s.answerSettlements completedTurnLimit k (.turn turnId status) = [(turnId, k.operation)] := by
  obtain ⟨b, hbind, hb, hactive, hoperation⟩ := bindStartedTurn_starts (k := k) h
  have hretired : Retired turnId b { b.settle k.request.requestId .completed with
      parent := retireTurn completedTurnLimit b.parent turnId (some k.operation) } :=
    retired_settle (hactive.trans hturn) hoperation _ _
  obtain ⟨hfree, hcontrol, hretains⟩ := free_retired hb hretired k.request (receipt k.request .immediate (some turnId) true)
  simp only [answered, acceptStartedTurn, answerSettlements, hbind, if_neg hstatus, hbuffer, hrunning, decide_false,
    Bool.false_eq_true, if_false]
  exact ⟨_, _, rfl, hfree, hcontrol, hretains, rfl, trivial⟩

theorem answered_runs (completedTurnLimit : Nat) (h : Starts s turnId) (hbuffer : s.parent.unboundCompletion = none) :
    ∃ u e, s.answered completedTurnLimit k (.turn turnId "inProgress") = (u, e) ∧ Runs u turnId k.operation ∧
      u.control = s.control ∧ u.parent.completedTurns = s.parent.completedTurns ∧ accepts e = true ∧
      s.answerSettlements completedTurnLimit k (.turn turnId "inProgress") = [] := by
  obtain ⟨b, hbind, hb, hactive, hoperation⟩ := bindStartedTurn_starts (k := k) h
  have hstatus : ¬ ("inProgress" = "failed" ∨ "inProgress" = "interrupted") := by decide
  simp only [answered, acceptStartedTurn, answerSettlements, hbind, if_neg hstatus, hbuffer, decide_true, if_true]
  exact ⟨_, _, rfl, ⟨rfl, rfl, rfl, hb.unbound, hb.operations, rfl⟩, hb.control, hb.completedTurns, rfl, trivial⟩

theorem acceptStartedTurn_buffered (b : CodexAdapter) (k : Call) (turnId status completed : String) :
    b.acceptStartedTurn completedTurnLimit k turnId status (some completed) =
      match (b.startedTurn k turnId status).handleTurnCompleted completedTurnLimit completed with
      | none => (b.startedTurn k turnId status).finish k.request (.failed "turn/completed does not match the active Codex turn")
      | some u => u.finish k.request (receipt k.request .immediate (some turnId) false) := by
  unfold acceptStartedTurn startedTurn
  by_cases hstatus : status = "inProgress"
  · subst hstatus
    rfl
  · rw [decide_eq_false hstatus, if_neg hstatus, if_neg hstatus]
    rfl

theorem answered_buffered (completedTurnLimit : Nat) (h : Starts s turnId) (hstatus : ¬ (status = "failed" ∨ status = "interrupted"))
    (hbuffer : s.parent.unboundCompletion = some turnId) :
    ∃ u e, s.answered completedTurnLimit k (.turn turnId status) = (u, e) ∧ Free u ∧ u.control = s.control ∧
      Retains s u turnId ∧ accepts e = true ∧
      s.answerSettlements completedTurnLimit k (.turn turnId status) = [(turnId, k.operation)] := by
  obtain ⟨b, hbind, hb, hactive, hoperation⟩ := bindStartedTurn_starts (k := k) h
  have hstarted : Binds s (b.startedTurn k turnId status) turnId k.operation := by
    unfold startedTurn
    split <;> exact { hb with }
  have hnew : ((b.startedTurn k turnId status).parent.completedTurns.get? turnId).isSome = false := by
    rw [hstarted.completedTurns]
    exact h.new
  have hbound : (b.startedTurn k turnId status).parent.turnOperations.get? turnId = some k.operation :=
    (hstarted.operations turnId).trans (if_pos rfl)
  have hturn : (b.startedTurn k turnId status).parent.activeTurnId = none ∨
      (b.startedTurn k turnId status).parent.activeTurnId = some turnId := by
    unfold startedTurn
    split
    · exact .inr rfl
    · exact h.activeTurn.imp hactive.trans hactive.trans
  have hown : (b.startedTurn k turnId status).activeOperation = none ∨
      (b.startedTurn k turnId status).activeOperation = some k.operation := by
    unfold startedTurn
    split
    · exact .inr rfl
    · exact .inl hoperation
  obtain ⟨u, hu, hretired⟩ := handleTurnCompleted_bound completedTurnLimit hnew hbound hturn hown
  obtain ⟨hfree, hcontrol, hretains⟩ := free_retired hstarted hretired k.request
    (receipt k.request .immediate (some turnId) false)
  simp only [answered, answerSettlements, hbind, if_neg hstatus, hbuffer, acceptStartedTurn_buffered, hu,
    completedEvent_bound hnew hu, hbound]
  exact ⟨_, _, rfl, hfree, hcontrol, hretains, rfl, rfl⟩

end CodexAdapter

/-! ## The books of the turns -/

/-- What was settled and what is retained belongs to turns that ended, and an accepted turn is settled or bound. -/
structure Books (turns : List ServerTurn) (settlements : List (String × ControlOperationRef)) (bound retained : String → Prop) :
    Prop where
  ids : (turns.map ServerTurn.id).Nodup
  settled : ∀ t ∈ turns, t.accepted = true → (t.id, t.operation) ∈ settlements ∨ bound t.id
  own : ∀ e ∈ settlements, ∃ t ∈ turns, t.id = e.1 ∧ t.operation = e.2 ∧ t.accepted = true ∧
    (t.completed = true ∨ t.terminal = true)
  once : (settlements.map Prod.fst).Nodup
  retained : ∀ id, retained id → ∃ t ∈ turns, t.id = id ∧ (t.accepted = true ∧ t.completed = true ∨ t.terminal = true)

namespace Books

variable {turns : List ServerTurn} {settlements : List (String × ControlOperationRef)} {bound retained bound' retained' : String → Prop}
  {t : ServerTurn}

theorem same (h : Books turns settlements bound retained) {t' : ServerTurn} (ht : t ∈ turns) (ht' : t' ∈ turns)
    (hid : t'.id = t.id) : t' = t := List.inj_on_of_nodup_map h.ids ht' ht hid

theorem mono (h : Books turns settlements bound retained) (hbound : ∀ id, bound id → bound' id)
    (hretained : ∀ id, retained' id → retained id) : Books turns settlements bound' retained' :=
  { h with
    settled t ht haccepted := (h.settled t ht haccepted).imp_right (hbound t.id)
    retained id hid := h.retained id (hretained id hid) }

structure Marks (g : ServerTurn → ServerTurn) : Prop where
  id : ∀ t, (g t).id = t.id
  operation : ∀ t, (g t).operation = t.operation
  accepted : ∀ t, (g t).accepted = t.accepted
  terminal : ∀ t, (g t).terminal = t.terminal
  completed : ∀ t, t.completed = true → (g t).completed = true

variable {g : ServerTurn → ServerTurn}

theorem map (h : Books turns settlements bound retained) (hg : Marks g) :
    Books (turns.map g) settlements bound retained where
  ids := by
    rw [List.map_map, show ServerTurn.id ∘ g = ServerTurn.id from funext hg.id]
    exact h.ids
  settled t' ht' haccepted := by
    obtain ⟨t, ht, rfl⟩ := List.mem_map.mp ht'
    rw [hg.id, hg.operation]
    exact h.settled t ht (hg.accepted t ▸ haccepted)
  own e he := by
    obtain ⟨t, ht, hid, hop, haccepted, hended⟩ := h.own e he
    exact ⟨g t, List.mem_map_of_mem ht, (hg.id t).trans hid, (hg.operation t).trans hop, (hg.accepted t).trans haccepted,
      hended.imp (hg.completed t) (hg.terminal t).trans⟩
  once := h.once
  retained id hid := by
    obtain ⟨t, ht, hid, hended⟩ := h.retained id hid
    exact ⟨g t, List.mem_map_of_mem ht, (hg.id t).trans hid, hended.imp
      (fun hc => ⟨(hg.accepted t).trans hc.1, hg.completed t hc.2⟩) (hg.terminal t).trans⟩

theorem begun (h : Books turns settlements bound retained) (hnew : ∀ t' ∈ turns, t'.id ≠ t.id) (haccepted : t.accepted = false) :
    Books (turns ++ [t]) settlements bound retained where
  ids := by
    rw [List.map_append, List.map_singleton]
    refine List.nodup_append.mpr ⟨h.ids, List.nodup_singleton _, fun a ha b hb heq => ?_⟩
    obtain ⟨t', ht', rfl⟩ := List.mem_map.mp ha
    exact hnew t' ht' (heq.trans (List.mem_singleton.mp hb))
  settled t' ht' haccepted' := by
    rcases List.mem_append.mp ht' with ht' | ht'
    · exact h.settled t' ht' haccepted'
    · rw [List.mem_singleton.mp ht', haccepted] at haccepted'
      cases haccepted'
  own e he := by
    obtain ⟨t', ht', hrest⟩ := h.own e he
    exact ⟨t', List.mem_append_left _ ht', hrest⟩
  once := h.once
  retained id hid := by
    obtain ⟨t', ht', hrest⟩ := h.retained id hid
    exact ⟨t', List.mem_append_left _ ht', hrest⟩

theorem change (h : Books turns settlements bound retained) (ht : t ∈ turns)
    (hopen : t.terminal = false ∧ (t.accepted = false ∨ t.completed = false)) (hid : (g t).id = t.id)
    (hop : (g t).operation = t.operation) {l : List (String × ControlOperationRef)}
    (hl : l = [] ∨ l = [(t.id, t.operation)] ∧ (g t).accepted = true ∧ ((g t).completed = true ∨ (g t).terminal = true))
    (hown : (g t).accepted = true → (t.id, t.operation) ∈ l ∨ bound' t.id)
    (hbound : ∀ id, bound id → id = t.id ∨ bound' id)
    (hretained : ∀ id, retained' id → (id = t.id ∧ ((g t).accepted = true ∧ (g t).completed = true ∨ (g t).terminal = true)) ∨
      retained id) :
    Books (turns.map fun t' => if t'.id = t.id then g t' else t') (settlements ++ l) bound' retained' := by
  have hself : g t ∈ turns.map fun t' => if t'.id = t.id then g t' else t' :=
    List.mem_map.mpr ⟨t, ht, if_pos rfl⟩
  have hother {t' : ServerTurn} (ht' : t' ∈ turns) (hne : t'.id ≠ t.id) :
      t' ∈ turns.map fun t' => if t'.id = t.id then g t' else t' := List.mem_map.mpr ⟨t', ht', if_neg hne⟩
  have hunended (hended : t.accepted = true ∧ (t.completed = true ∨ t.terminal = true)) : False := by
    obtain ⟨haccepted, hended⟩ := hended
    simp_all
  have hunsettled (e : String × ControlOperationRef) (he : e ∈ settlements) : e.1 ≠ t.id := by
    intro heq
    obtain ⟨t', ht', hid', -, haccepted, hended⟩ := h.own e he
    rw [h.same ht ht' (hid'.trans heq)] at haccepted hended
    exact hunended ⟨haccepted, hended⟩
  refine ⟨?_, fun t' ht' haccepted => ?_, fun e he => ?_, ?_, fun id hid' => ?_⟩
  · have hids : (turns.map fun t' => if t'.id = t.id then g t' else t').map ServerTurn.id = turns.map ServerTurn.id := by
      rw [List.map_map]
      refine List.map_congr_left fun t' ht' => ?_
      simp only [Function.comp_apply]
      split
      · rename_i heq
        rw [h.same ht ht' heq, hid]
      · rfl
    rw [hids]
    exact h.ids
  · obtain ⟨t₀, ht₀, rfl⟩ := List.mem_map.mp ht'
    by_cases heq : t₀.id = t.id
    · cases h.same ht ht₀ heq
      rw [if_pos rfl] at haccepted ⊢
      rw [hid, hop]
      exact (hown haccepted).imp_left (List.mem_append_right _)
    rw [if_neg heq] at haccepted ⊢
    rcases h.settled t₀ ht₀ haccepted with hs | hb
    · exact .inl (List.mem_append_left _ hs)
    · exact .inr ((hbound _ hb).resolve_left heq)
  · rcases List.mem_append.mp he with he | he
    · obtain ⟨t', ht', hid', hrest⟩ := h.own e he
      exact ⟨t', hother ht' fun heq => hunsettled e he (hid'.symm.trans heq), hid', hrest⟩
    rcases hl with rfl | ⟨rfl, haccepted, hended⟩
    · cases he
    · rw [List.mem_singleton.mp he]
      exact ⟨g t, hself, hid, hop, haccepted, hended⟩
  · rcases hl with rfl | ⟨rfl, -⟩
    · rw [List.append_nil]
      exact h.once
    rw [List.map_append, List.map_singleton]
    refine List.nodup_append.mpr ⟨h.once, List.nodup_singleton _, fun a ha b hb heq => ?_⟩
    obtain ⟨e, he, rfl⟩ := List.mem_map.mp ha
    exact hunsettled e he (heq.trans (List.mem_singleton.mp hb))
  rcases hretained id hid' with ⟨rfl, hended⟩ | hold
  · exact ⟨g t, hself, hid, hended⟩
  obtain ⟨t', ht', hid'', hended⟩ := h.retained id hold
  refine ⟨t', hother ht' fun heq => ?_, hid'', hended⟩
  rw [h.same ht ht' heq] at hended
  rcases hended with ⟨haccepted, hcompleted⟩ | hterminal
  · exact hunended ⟨haccepted, .inl hcompleted⟩
  · simp [hopen.1] at hterminal

end Books

/-! ## Phases -/

namespace CodexServed

variable {s : CodexServed}

structure Quiet (s : CodexServed) : Prop where
  starting : s.starting = none
  call : ∀ k, s.call = some k → k.written = false
  activeTurn : s.parent.activeTurnId = none
  unbound : s.parent.unboundCompletion = none
  operations : ∀ id, s.parent.turnOperations.get? id = none
  activeOperation : s.activeOperation = none

structure Starting (s : CodexServed) (k : Call) (t : ServerTurn) : Prop where
  call : s.call = some k
  written : k.written = true
  starting : s.starting = some t.id
  mem : t ∈ s.turns
  operation : t.operation = k.operation
  unaccepted : t.accepted = false
  unterminal : t.terminal = false
  activeTurn : s.parent.activeTurnId = none ∨ s.parent.activeTurnId = some t.id ∧ t.announced = true
  unbound : s.parent.unboundCompletion = none ∧ t.completed = false ∨
    s.parent.unboundCompletion = some t.id ∧ t.completed = true
  operations : ∀ id, s.parent.turnOperations.get? id = none
  activeOperation : s.activeOperation = none

structure Running (s : CodexServed) (t : ServerTurn) : Prop where
  starting : s.starting = none
  call : s.call = none
  mem : t ∈ s.turns
  accepted : t.accepted = true
  uncompleted : t.completed = false
  unterminal : t.terminal = false
  here : t.gone = false
  activeTurn : s.parent.activeTurnId = some t.id
  unbound : s.parent.unboundCompletion = none
  operations : ∀ id, s.parent.turnOperations.get? id = if id = t.id then some t.operation else none
  activeOperation : s.activeOperation = some t.operation

inductive Phase (s : CodexServed) : Prop
  | quiet : Quiet s → Phase s
  | starting (k : Call) (t : ServerTurn) : Starting s k t → Phase s
  | running (t : ServerTurn) : Running s t → Phase s

def Bound (s : CodexServed) (id : String) : Prop := (s.parent.turnOperations.get? id).isSome = true

def Retained (s : CodexServed) (id : String) : Prop := (s.parent.completedTurns.get? id).isSome = true

structure Inv (s : CodexServed) : Prop where
  pending : s.pendingOperation = s.call.map Call.operation
  phase : Phase s
  books : Books s.turns s.settlements s.Bound s.Retained
  survives : s.control ≠ .failed

variable {a : CodexAdapter}

theorem Inv.keep (h : Inv s) (hm : a.markers = s.toCodexAdapter.markers) (hc : a.control ≠ .failed) :
    Inv { s with toCodexAdapter := a } := by
  obtain ⟨hcall, hpending, hturn, hoperation, hunbound, hoperations, hretained⟩ := Markers.mk.inj hm
  refine ⟨by rw [hpending, hcall, h.pending], ?_, h.books.mono (fun id hb => ?_) fun id hr => ?_, hc⟩
  · cases h.phase with
    | quiet hq =>
      exact .quiet ⟨hq.starting, fun k hk => hq.call k (hcall.symm.trans hk), hturn.trans hq.activeTurn,
        hunbound.trans hq.unbound, fun id => (congrFun hoperations id).trans (hq.operations id), hoperation.trans hq.activeOperation⟩
    | starting k t hs =>
      exact .starting k t ⟨hcall.trans hs.call, hs.written, hs.starting, hs.mem, hs.operation, hs.unaccepted, hs.unterminal,
        hs.activeTurn.imp hturn.trans fun ha => ⟨hturn.trans ha.1, ha.2⟩,
        hs.unbound.imp (fun hu => ⟨hunbound.trans hu.1, hu.2⟩) fun hu => ⟨hunbound.trans hu.1, hu.2⟩,
        fun id => (congrFun hoperations id).trans (hs.operations id), hoperation.trans hs.activeOperation⟩
    | running t hr =>
      exact .running t ⟨hr.starting, hcall.trans hr.call, hr.mem, hr.accepted, hr.uncompleted, hr.unterminal, hr.here,
        hturn.trans hr.activeTurn, hunbound.trans hr.unbound, fun id => (congrFun hoperations id).trans (hr.operations id),
        hoperation.trans hr.activeOperation⟩
  · exact (congrArg (Option.isSome · = true) (congrFun hoperations id)).mpr hb
  · exact (congrFun hretained id).symm.trans hr

theorem Inv.recall (h : Inv s) (hq : Quiet s) (call : Option Call)
    (hm : a.markers =
      { s.toCodexAdapter.markers with
        call := call
        pending := call.map Call.operation })
    (hcall : ∀ k, call = some k → k.written = false) (hc : a.control ≠ .failed) : Inv { s with toCodexAdapter := a } := by
  obtain ⟨hcall', hpending, hturn, hoperation, hunbound, hoperations, hretained⟩ := Markers.mk.inj hm
  refine ⟨by rw [hpending, hcall'], .quiet ⟨hq.starting, fun k hk => hcall k (hcall'.symm.trans hk), hturn.trans hq.activeTurn,
    hunbound.trans hq.unbound, fun id => (congrFun hoperations id).trans (hq.operations id), hoperation.trans hq.activeOperation⟩,
    h.books.mono (fun id hb => ?_) fun id hr => ?_, hc⟩
  · exact (congrArg (Option.isSome · = true) (congrFun hoperations id)).mpr hb
  · exact (congrFun hretained id).symm.trans hr

theorem Inv.quiet_of_free (h : Inv s) (hturn : s.parent.activeTurnId = none) (hpending : s.pendingOperation = none) : Quiet s := by
  cases h.phase with
  | quiet hq => exact hq
  | starting k t hs =>
    rw [h.pending, hs.call] at hpending
    cases hpending
  | running t hr =>
    rw [hr.activeTurn] at hturn
    cases hturn

theorem inv_submit (h : Inv s) (request : PromptRequest) (verified : Bool × Bool) :
    Inv { s with toCodexAdapter := (s.toCodexAdapter.submit limit request verified).1 } := by
  obtain ⟨hcontrol, hcases⟩ := CodexAdapter.submit_markers limit s.toCodexAdapter request verified
  have hc : (s.toCodexAdapter.submit limit request verified).1.control ≠ .failed := by
    rcases hcontrol with hc | hc <;> rw [hc]
    · exact h.survives
    · exact nofun
  rcases hcases with hm | ⟨hturn, hpending, hm | ⟨operation, hm⟩⟩
  · exact h.keep hm hc
  · exact h.recall (h.quiet_of_free hturn hpending) none hm nofun hc
  · exact h.recall (h.quiet_of_free hturn hpending) (some ⟨request, operation, false⟩) hm
      (fun k hk => by cases hk; rfl) hc

/-! ## Steps of the server -/

variable {turnId : String} {k : Call} {t : ServerTurn}

theorem mem_turn? {p : ServerTurn → Bool} (h : (s.turn? turnId).any p = true) :
    ∃ t ∈ s.turns, t.id = turnId ∧ p t = true := by
  obtain ⟨t, ht, hp⟩ := (Option.any_eq_true _ _).mp h
  have hfind : s.turns.find? (fun t => t.id = turnId) = some t := ht
  have hid := List.find?_some hfind
  exact ⟨t, List.mem_of_find?_eq_some hfind, of_decide_eq_true hid, hp⟩

theorem inv_write (h : Inv s) {t : CodexServed} {broken : Bool} (hnew : (s.turn? turnId).isNone = true)
    (hs : s.step limit completedTurnLimit (.write broken turnId) = some t) : Inv t := by
  have hfresh : ∀ t' ∈ s.turns, t'.id ≠ turnId := by
    intro t' ht' heq
    have hfind := List.find?_eq_none.mp (Option.isNone_iff_eq_none.mp hnew) t' ht'
    exact hfind (decide_eq_true heq)
  cases hcall : s.call with
  | none => simp [step, CodexAdapter.step, hcall] at hs
  | some k =>
    by_cases hwritten : k.written = true
    · simp [step, CodexAdapter.step, hcall, hwritten] at hs
    have hquiet : Quiet s := by
      cases h.phase with
      | quiet hq => exact hq
      | starting k' t' hs' =>
        cases hcall.symm.trans hs'.call
        exact absurd hs'.written hwritten
      | running t' hr => cases hcall.symm.trans hr.call
    simp only [step, CodexAdapter.step, hcall, hwritten, Bool.false_eq_true, if_false, Option.map_some, Option.some.injEq,
      Option.filter_some] at hs
    by_cases hbusy : s.becameBusy k.operation = true
    · simp only [CodexAdapter.write, hbusy, Bool.not_true, Bool.false_eq_true, if_false, if_true] at hs
      subst hs
      exact h.recall hquiet none rfl nofun h.survives
    have hbooks := h.books.begun (t :=
        { id := turnId
          requestId := k.request.requestId
          operation := k.operation }) hfresh rfl
    simp only [Bool.not_eq_true] at hbusy
    simp only [CodexAdapter.write, hbusy, Bool.not_false, Bool.false_eq_true, if_false, if_true] at hs
    subst hs
    cases broken with
    | true =>
      exact ⟨rfl, .quiet ⟨rfl, nofun, hquiet.activeTurn, hquiet.unbound, hquiet.operations, hquiet.activeOperation⟩,
        hbooks, nofun⟩
    | false =>
      refine ⟨h.pending.trans (by rw [hcall]; rfl), .starting { k with written := true } _ ⟨rfl, rfl, rfl,
        List.mem_append_right _ (List.mem_singleton_self _), rfl, rfl, rfl, .inl hquiet.activeTurn,
        .inl ⟨hquiet.unbound, rfl⟩, hquiet.operations, hquiet.activeOperation⟩, hbooks, h.survives⟩

theorem inv_turnStarted (h : Inv s) (hcalm : (s.starting = some turnId) ∨ s.Bound turnId) :
    Inv { s.modifyTurn turnId fun t => { t with announced := true } with
      parent := { s.parent with activeTurnId := some turnId } } := by
  let g (t : ServerTurn) : ServerTurn := if t.id = turnId then { t with announced := true } else t
  have hg : Books.Marks g := by
    constructor <;> intro t
    all_goals
      simp only [g]
      split <;> simp
  refine ⟨h.pending, ?_, h.books.map hg, h.survives⟩
  cases h.phase with
  | quiet hq =>
    rcases hcalm with hs | hb
    · rw [hq.starting] at hs
      cases hs
    · rw [Bound, hq.operations] at hb
      cases hb
  | starting k t hs =>
    rcases hcalm with hid | hb
    · rw [hs.starting] at hid
      cases hid
      have hgt : g t = { t with announced := true } := if_pos rfl
      refine .starting k { t with announced := true } { hs with mem := ?_, activeTurn := .inr ⟨rfl, rfl⟩ }
      exact hgt ▸ List.mem_map_of_mem hs.mem
    · rw [Bound, hs.operations] at hb
      cases hb
  | running t hr =>
    rcases hcalm with hid | hb
    · rw [hr.starting] at hid
      cases hid
    have hid : turnId = t.id := by
      rw [Bound, hr.operations] at hb
      by_contra hne
      rw [if_neg hne] at hb
      cases hb
    subst hid
    have hgt : g t = { t with announced := true } := if_pos rfl
    refine .running { t with announced := true } { hr with mem := ?_, activeTurn := rfl }
    exact hgt ▸ List.mem_map_of_mem hr.mem

theorem Marks.completed (turnId : String) :
    Books.Marks fun t : ServerTurn => if t.id = turnId then { t with completed := true } else t := by
  constructor <;> intro t
  all_goals split <;> simp

theorem inv_completed_retained (h : Inv s) {t₀ : ServerTurn} (ht₀ : t₀ ∈ s.turns) (hid : t₀.id = turnId)
    (huncompleted : t₀.completed = false) (hretained : s.Retained turnId) :
    Inv (s.modifyTurn turnId fun t => { t with completed := true }) := by
  obtain ⟨t₁, ht₁, hid₁, hended⟩ := h.books.retained turnId hretained
  cases h.books.same ht₀ ht₁ (hid₁.trans hid.symm)
  have hterminal : t₀.terminal = true := by simpa [huncompleted] using hended
  have hother {t : ServerTurn} (ht : t ∈ s.turns) (hopen : t.terminal = false) : t ∈ (s.modifyTurn turnId fun t =>
      { t with completed := true }).turns := by
    refine List.mem_map.mpr ⟨t, ht, if_neg fun heq => ?_⟩
    rw [h.books.same ht₀ ht (heq.trans hid.symm), hterminal] at hopen
    cases hopen
  refine ⟨h.pending, ?_, h.books.map (Marks.completed turnId), h.survives⟩
  cases h.phase with
  | quiet hq => exact .quiet { hq with }
  | starting k t hs =>
    exact .starting k t { hs with mem := hother hs.mem hs.unterminal }
  | running t hr =>
    exact .running t { hr with mem := hother hr.mem hr.unterminal }

theorem inv_completed_starting (h : Inv s) (hs : Starting s k t) :
    Inv { s.modifyTurn t.id fun t => { t with completed := true } with
      parent := { s.parent with unboundCompletion := some t.id } } := by
  have hself : { t with completed := true } ∈ (s.modifyTurn t.id fun t => { t with completed := true }).turns :=
    List.mem_map.mpr ⟨t, hs.mem, if_pos rfl⟩
  refine ⟨h.pending, .starting k { t with completed := true } { hs with mem := hself, unbound := .inr ⟨rfl, rfl⟩ },
    h.books.map (Marks.completed t.id), h.survives⟩

variable {u : CodexAdapter}

theorem inv_completed_running (h : Inv s) (hr : Running s t)
    (hu : CodexAdapter.Retired t.id s.toCodexAdapter u) :
    Inv { s.modifyTurn t.id fun t => { t with completed := true } with
      toCodexAdapter := u
      settlements := s.settlements ++ [(t.id, t.operation)] } := by
  have hoperations (id : String) : u.parent.turnOperations.get? id = none := by
    rw [hu.operations, hr.operations]
    split <;> rfl
  refine ⟨by rw [hu.pending, hu.call, h.pending], .quiet ⟨hr.starting, fun k hk => ?_, hu.activeTurn,
    hu.unbound.trans hr.unbound, hoperations, hu.activeOperation⟩, ?_, by rw [hu.control]; exact h.survives⟩
  · rw [hu.call, hr.call] at hk
    cases hk
  refine h.books.change hr.mem ⟨hr.unterminal, .inr hr.uncompleted⟩ rfl rfl (.inr ⟨rfl, hr.accepted, .inl rfl⟩)
    (fun _ => .inl (List.mem_singleton_self _)) (fun id hb => .inl ?_) fun id hid => ?_
  · rw [Bound, hr.operations] at hb
    by_contra hne
    rw [if_neg hne] at hb
    cases hb
  · exact (hu.retained id hid).imp_left fun heq => ⟨heq, .inl ⟨hr.accepted, rfl⟩⟩

theorem inv_turnCompleted (h : Inv s) (hfaithful : s.faithful (.adapter (.turnCompleted turnId)) = true)
    (hcalm : s.calm (.adapter (.turnCompleted turnId)) = true) :
    Inv (s.after completedTurnLimit ((s.toCodexAdapter.handleTurnCompleted completedTurnLimit turnId).getD s.markFailed, none)
      (.turnCompleted turnId)) := by
  obtain ⟨t₀, ht₀, hid, hp⟩ := mem_turn? hfaithful
  simp only [Bool.and_eq_true, Bool.not_eq_true'] at hp
  simp only [calm, Bool.or_eq_true, decide_eq_true_eq] at hcalm
  by_cases hretained : (s.parent.completedTurns.get? turnId).isSome = true
  · have hhandled : s.toCodexAdapter.handleTurnCompleted completedTurnLimit turnId = some s.toCodexAdapter := by
      simp [CodexAdapter.handleTurnCompleted, hretained]
    have hevent : s.toCodexAdapter.completedEvent completedTurnLimit turnId = none := by
      simp [CodexAdapter.completedEvent, Option.isSome_iff_ne_none.mp hretained]
    simp only [after, hhandled, hevent, Option.getD_some, Option.map_none, Option.toList_none, List.append_nil]
    exact inv_completed_retained h ht₀ hid hp.1 hretained
  have hnew : (s.parent.completedTurns.get? turnId).isSome = false := by simpa using hretained
  rcases hcalm.resolve_right hretained with hstarting | hbound
  · cases h.phase with
    | quiet hq => exact nomatch hq.starting.symm.trans hstarting
    | running t hr => exact nomatch hr.starting.symm.trans hstarting
    | starting k t hs =>
      cases hs.starting.symm.trans hstarting
      cases h.books.same hs.mem ht₀ hid
      have hbuffer : s.parent.unboundCompletion = none := by
        rcases hs.unbound with hu | hu
        · exact hu.1
        · exact nomatch hp.1.symm.trans hu.2
      have hpending : s.pendingOperation.isSome = true := by rw [h.pending, hs.call]; rfl
      have hhandled := CodexAdapter.handleTurnCompleted_unbound completedTurnLimit hnew
        (hs.operations _) hpending hbuffer
      have hevent : s.toCodexAdapter.completedEvent completedTurnLimit t₀.id = none := by
        simp only [CodexAdapter.completedEvent, hs.operations, ite_self]
      simp only [after, hhandled, hevent, Option.getD_some, Option.map_none, Option.toList_none, List.append_nil]
      exact inv_completed_starting h hs
  · cases h.phase with
    | quiet hq =>
      rw [bound, hq.operations] at hbound
      cases hbound
    | starting k t hs =>
      rw [bound, hs.operations] at hbound
      cases hbound
    | running t hr =>
      have hid' : turnId = t.id := by
        rw [bound, hr.operations] at hbound
        by_contra hne
        rw [if_neg hne] at hbound
        cases hbound
      subst hid'
      have hown := (hr.operations t.id).trans (if_pos rfl)
      obtain ⟨u, hu, hretired⟩ := CodexAdapter.handleTurnCompleted_bound completedTurnLimit hnew hown
        (.inr hr.activeTurn) (.inr hr.activeOperation)
      have hevent : s.toCodexAdapter.completedEvent completedTurnLimit t.id = some t.operation :=
        (CodexAdapter.completedEvent_bound hnew hu).trans hown
      simp only [after, hu, hevent, Option.getD_some, Option.map_some, Option.toList_some]
      exact inv_completed_running h hr hretired

/-! ## Answers -/

theorem Starting.starts (h : Inv s) (hs : Starting s k t) : s.toCodexAdapter.Starts t.id :=
  { hs with
    new := by
      by_contra hr
      have hretained : s.Retained t.id := Bool.not_eq_false _ |>.mp hr
      obtain ⟨t', ht', hid, hended⟩ := h.books.retained t.id hretained
      cases h.books.same hs.mem ht' hid
      simp [hs.unaccepted, hs.unterminal] at hended
    activeTurn := hs.activeTurn.imp_right And.left
    unbound := hs.unbound.imp And.left And.left }

variable {k : Call} {t : ServerTurn}

theorem inv_answered_free (h : Inv s) (hs : Starting s k t)
    (hu : CodexAdapter.Free u) (hcontrol : u.control = s.control) (hretains : CodexAdapter.Retains s.toCodexAdapter u t.id)
    {status : String} {accepted : Bool} {l : List (String × ControlOperationRef)}
    (hended : status ≠ "inProgress" ∨ accepted = true ∧ t.completed = true)
    (hl : accepted = false ∧ l = [] ∨ accepted = true ∧ l = [(t.id, t.operation)]) :
    Inv { s.modifyTurn t.id fun t =>
        { t with
          terminal := status ≠ "inProgress"
          accepted := accepted } with
      toCodexAdapter := u
      starting := none
      settlements := s.settlements ++ l } := by
  refine ⟨by rw [hu.pending, hu.call]; rfl, .quiet ⟨rfl, fun k' hk' => ?_, hu.activeTurn, hu.unbound, hu.operations,
    hu.activeOperation⟩, ?_, by rw [hcontrol]; exact h.survives⟩
  · rw [hu.call] at hk'
    cases hk'
  have hend : t.completed = true ∨ decide (status ≠ "inProgress") = true :=
    hended.symm.imp And.right fun hne => decide_eq_true hne
  refine h.books.change hs.mem ⟨hs.unterminal, .inl hs.unaccepted⟩ rfl rfl ?_ (fun haccepted => .inl ?_) (fun id hb => ?_)
    fun id hid => ?_
  · rcases hl with ⟨-, rfl⟩ | ⟨rfl, rfl⟩
    · exact .inl rfl
    · exact .inr ⟨rfl, rfl, hend⟩
  · rcases hl with ⟨rfl, -⟩ | ⟨-, rfl⟩
    · cases haccepted
    · exact List.mem_singleton_self _
  · rw [Bound, hs.operations] at hb
    cases hb
  refine (hretains id hid).imp_left fun heq => ⟨heq, ?_⟩
  rcases hended with hne | ⟨rfl, hcompleted⟩
  · exact .inr (decide_eq_true hne)
  · exact .inl ⟨rfl, hcompleted⟩

theorem inv_answered_runs (h : Inv s) (hs : Starting s k t)
    (hu : CodexAdapter.Runs u t.id t.operation) (hcontrol : u.control = s.control)
    (hcompleted : u.parent.completedTurns = s.parent.completedTurns) (huncompleted : t.completed = false) (hhere : t.gone = false) :
    Inv { s.modifyTurn t.id fun t =>
        { t with
          terminal := false
          accepted := true } with
      toCodexAdapter := u
      starting := none
      settlements := s.settlements ++ [] } := by
  have hself : { t with
      terminal := false
      accepted := true } ∈ (s.modifyTurn t.id fun t =>
        { t with
          terminal := false
          accepted := true }).turns := List.mem_map.mpr ⟨t, hs.mem, if_pos rfl⟩
  refine ⟨by rw [hu.pending, hu.call]; rfl, .running { t with
      terminal := false
      accepted := true } ⟨rfl, hu.call, hself, rfl, huncompleted, rfl, hhere, hu.activeTurn, hu.unbound, hu.operations,
    hu.activeOperation⟩, ?_, by rw [hcontrol]; exact h.survives⟩
  refine h.books.change hs.mem ⟨hs.unterminal, .inl hs.unaccepted⟩ rfl rfl (.inl rfl) (fun _ => .inr ?_) (fun id hb => ?_)
    fun id hid => .inr ?_
  · rw [Bound, hu.operations, if_pos rfl]
    rfl
  · rw [Bound, hs.operations] at hb
    cases hb
  · rw [Retained, ← hcompleted]
    exact hid

theorem inv_answered_none (h : Inv s) (hs : Starting s k t) (hturn : s.parent.activeTurnId = none)
    (hbuffer : s.parent.unboundCompletion = none) (hcall : u.call = none) (hpending : u.pendingOperation = none)
    (hparent : u.parent = s.parent) (hoperation : u.activeOperation = s.activeOperation) (hcontrol : u.control ≠ .failed)
    {g : ServerTurn → ServerTurn} (hg : Books.Marks g) :
    Inv { s with
      toCodexAdapter := u
      turns := s.turns.map g
      starting := none } := by
  refine ⟨by rw [hcall, hpending]; rfl, .quiet ⟨rfl, fun k' hk' => ?_, ?_, ?_, fun id => ?_, hoperation.trans hs.activeOperation⟩,
    ?_, hcontrol⟩
  · rw [hcall] at hk'
    cases hk'
  · rw [hparent]
    exact hturn
  · rw [hparent]
    exact hbuffer
  · rw [hparent]
    exact hs.operations id
  refine (h.books.map hg).mono (fun id hb => ?_) fun id hid => ?_
  · rw [Bound, hparent]
    exact hb
  · rw [Retained, hparent] at hid
    exact hid

theorem inv_answered (h : Inv s) {answer : CodexAdapter.TurnAnswer} (hcall : s.call = some k) (hwritten : k.written = true)
    (hfaithful : s.faithful (.adapter (.answered answer)) = true) (hcalm : s.calm (.adapter (.answered answer)) = true) :
    Inv (s.after completedTurnLimit (s.toCodexAdapter.answered completedTurnLimit k answer) (.answered answer)) := by
  obtain ⟨t, hs⟩ : ∃ t, Starting s k t := by
    cases h.phase with
    | quiet hq => exact absurd hwritten (by simp [hq.call k hcall])
    | starting k' t hs =>
      cases hcall.symm.trans hs.call
      exact ⟨t, hs⟩
    | running t hr => exact nomatch hcall.symm.trans hr.call
  have hstarts := hs.starts h
  cases answer with
  | malformed => cases hfaithful
  | rpcError =>
    simp only [faithful, hs.starting, Option.any_some] at hfaithful
    obtain ⟨t', ht', hid, hp⟩ := mem_turn? hfaithful
    cases h.books.same hs.mem ht' hid
    simp only [Bool.and_eq_true, Bool.not_eq_true'] at hp
    have hturn : s.parent.activeTurnId = none := hs.activeTurn.resolve_right fun ha => nomatch hp.1.symm.trans ha.2
    have hbuffer : s.parent.unboundCompletion = none := (hs.unbound.resolve_right fun hu => nomatch hp.2.symm.trans hu.2).1
    have hg : Books.Marks fun t' : ServerTurn => if t'.id = t.id then { t' with gone := true } else t' := by
      constructor <;> intro t'
      all_goals split <;> simp
    have hinv := inv_answered_none h hs hturn hbuffer (u := (s.toCodexAdapter.answered completedTurnLimit k .rpcError).1) rfl rfl
      rfl rfl h.survives hg
    simp only [after, hcall, hs.starting, CodexAdapter.answerSettlements, Option.map_some, Option.getD_some, List.append_nil]
    exact hinv
  | disconnected =>
    simp only [calm, quiet, Bool.and_eq_true, Option.isNone_iff_eq_none] at hcalm
    have hg : Books.Marks (fun t' => t') := ⟨fun _ => rfl, fun _ => rfl, fun _ => rfl, fun _ => rfl, fun _ hc => hc⟩
    have hinv := inv_answered_none h hs hcalm.1 hcalm.2 (u := (s.toCodexAdapter.answered completedTurnLimit k .disconnected).1)
      rfl rfl rfl rfl nofun hg
    simp only [after, hcall, CodexAdapter.answerSettlements, Option.map_some, Option.getD_some, List.append_nil]
    rw [List.map_id'] at hinv
    exact hinv
  | turn turnId status =>
    simp only [faithful, Bool.and_eq_true, decide_eq_true_eq] at hfaithful
    cases hs.starting.symm.trans hfaithful.1.1
    obtain ⟨t', ht', hid, hhere⟩ := mem_turn? hfaithful.1.2
    cases h.books.same hs.mem ht' hid
    simp only [Bool.not_eq_true'] at hhere
    simp only [calm, Bool.or_eq_true, Bool.and_eq_true, decide_eq_true_eq] at hcalm
    have hbuffered (hb : s.parent.unboundCompletion = some t.id) : t.completed = true :=
      (hs.unbound.resolve_left fun hu => nomatch hu.1.symm.trans hb).2
    have hidle (hne : s.parent.activeTurnId ≠ some t.id) : s.parent.activeTurnId = none :=
      hstarts.activeTurn.resolve_right hne
    have hafter {u : CodexAdapter} {e : Option Ended} (hanswered : s.toCodexAdapter.answered completedTurnLimit k (.turn t.id status) =
        (u, e)) {l : List (String × ControlOperationRef)}
        (hl : s.toCodexAdapter.answerSettlements completedTurnLimit k (.turn t.id status) = l) {accepted : Bool}
        (haccepts : CodexAdapter.accepts e = accepted) :
        s.after completedTurnLimit (s.toCodexAdapter.answered completedTurnLimit k (.turn t.id status)) (.answered (.turn t.id status)) =
          { s.modifyTurn t.id fun t =>
              { t with
                terminal := status ≠ "inProgress"
                accepted := accepted } with
            toCodexAdapter := u
            starting := none
            settlements := s.settlements ++ l } := by
      simp only [after, hcall, hanswered, hl, haccepts, Option.map_some, Option.getD_some]
    by_cases hstatus : status = "failed" ∨ status = "interrupted"
    · have hne : status ≠ "inProgress" := by rcases hstatus with rfl | rfl <;> decide
      have hnc : status ≠ "completed" := by rcases hstatus with rfl | rfl <;> decide
      have hturn := hidle ((hcalm.resolve_right fun hc => hnc hc.1).resolve_left hne)
      obtain ⟨u, e, hanswered, hfree, hcontrol, hretains, haccepts, hl⟩ :=
        CodexAdapter.answered_refused completedTurnLimit (k := k) hstarts hstatus hturn
      rw [hafter hanswered hl haccepts]
      exact inv_answered_free h hs hfree hcontrol hretains (.inl hne) (.inl ⟨rfl, rfl⟩)
    rcases hstarts.unbound with hbuffer | hbuffer
    · by_cases hrunning : status = "inProgress"
      · subst hrunning
        obtain ⟨u, e, hanswered, hruns, hcontrol, hcompleted, haccepts, hl⟩ :=
          CodexAdapter.answered_runs completedTurnLimit (k := k) hstarts hbuffer
        rw [hafter hanswered hl haccepts]
        have huncompleted : t.completed = false := (hs.unbound.resolve_right fun hu => nomatch hu.1.symm.trans hbuffer).2
        rw [← hs.operation] at hruns
        exact inv_answered_runs h hs hruns hcontrol hcompleted huncompleted hhere
      have hbuffer' : ¬ s.parent.unboundCompletion.isSome = true := by simp [hbuffer]
      have hturn := hidle ((hcalm.resolve_right fun hc => hbuffer' hc.2).resolve_left hrunning)
      obtain ⟨u, e, hanswered, hfree, hcontrol, hretains, haccepts, hl⟩ :=
        CodexAdapter.answered_stamped completedTurnLimit (k := k) hstarts hstatus hrunning hturn hbuffer
      rw [hafter hanswered hl haccepts]
      exact inv_answered_free h hs hfree hcontrol hretains (.inl hrunning) (.inr ⟨rfl, by rw [hs.operation]⟩)
    · obtain ⟨u, e, hanswered, hfree, hcontrol, hretains, haccepts, hl⟩ :=
        CodexAdapter.answered_buffered completedTurnLimit (k := k) hstarts hstatus hbuffer
      rw [hafter hanswered hl haccepts]
      exact inv_answered_free h hs hfree hcontrol hretains (.inr ⟨rfl, hbuffered hbuffer⟩) (.inr ⟨rfl, by rw [hs.operation]⟩)

theorem inv_lost (h : Inv s) (hcalm : s.control = .disconnected → s.parent.activeTurnId = none) :
    Inv { s with turns := s.lost } := by
  unfold lost
  split
  · rename_i hcontrol
    have hg : Books.Marks fun t : ServerTurn => { t with gone := true } :=
      ⟨fun _ => rfl, fun _ => rfl, fun _ => rfl, fun _ => rfl, fun _ hc => hc⟩
    refine ⟨h.pending, ?_, h.books.map hg, h.survives⟩
    cases h.phase with
    | quiet hq => exact .quiet { hq with }
    | starting k t hs =>
      exact .starting k { t with gone := true } { hs with mem := List.mem_map_of_mem hs.mem }
    | running t hr => exact nomatch (hcalm hcontrol).symm.trans hr.activeTurn
  · exact h

theorem inv_reconnect (h : Inv s) (hcalm : s.control = .disconnected → s.parent.activeTurnId = none) :
    Inv { s with
      toCodexAdapter := s.toCodexAdapter.reconnect
      turns := s.lost } := by
  have hlost := inv_lost h hcalm
  exact hlost.keep (CodexAdapter.reconnect_markers _) (CodexAdapter.reconnect_control h.survives)

theorem inv_reconcile (h : Inv s) {requestId : String} {turn : Option String}
    (hcalm : s.calm (.adapter (.reconcile requestId turn)) = true) :
    Inv (s.after completedTurnLimit (s.toCodexAdapter.reconcile requestId turn, none) (.reconcile requestId turn)) := by
  simp only [calm, Bool.or_eq_true, Bool.and_eq_true, Option.isNone_iff_eq_none, decide_eq_true_eq] at hcalm
  simp only [after, CodexAdapter.reconcile]
  cases hget : s.submissions.get? requestId with
  | none =>
    simp only [Option.any_none, Bool.false_eq_true, if_false]
    exact h
  | some e =>
    simp only [hget, Option.all_some, decide_eq_true_eq] at hcalm
    simp only [Option.any_some, decide_eq_true_eq]
    split
    · exact h
    rename_i hunknown
    obtain ⟨rfl, hquiet⟩ := hcalm.resolve_left hunknown
    have hreconnected := inv_reconnect h fun hcontrol => by
      have hq := hquiet.resolve_left (not_not.mpr hcontrol)
      simp only [quiet, Bool.and_eq_true, Option.isNone_iff_eq_none] at hq
      exact hq.1
    have hstate : e.state = .unknown := not_not.mp hunknown
    simp only [hstate, reduceCtorEq, if_true, if_false, List.map_id']
    exact hreconnected

/-! ## Runs -/

theorem inv_started (h : s.Started) : Inv s := by
  obtain ⟨hadapter, hparent, hoperation, hfresh⟩ := h
  obtain ⟨-, hcontrol, -, hcall, hpending⟩ := hadapter
  have hstarting : s.starting = none := by rw [hfresh]
  have hturns : s.turns = [] := by rw [hfresh]
  have hsettlements : s.settlements = [] := by rw [hfresh]
  refine ⟨by rw [hpending, hcall, Option.map_none], .quiet ⟨hstarting, fun k hk => ?_, by rw [hparent], by rw [hparent],
    fun id => by rw [hparent]; rfl, hoperation⟩, ?_, by rw [hcontrol]; exact nofun⟩
  · rw [hcall] at hk
    cases hk
  · rw [hturns, hsettlements]
    exact ⟨List.nodup_nil, nofun, nofun, List.nodup_nil, fun id hid => by rw [Retained, hparent] at hid; cases hid⟩

theorem inv_step {i : ServedAction} {t : CodexServed} (h : Inv s) (hfaithful : s.faithful i = true) (hcalm : s.calm i = true)
    (hs : s.step limit completedTurnLimit i = some t) : Inv t := by
  have hkeep {a : CodexAdapter} (hm : a.markers = s.toCodexAdapter.markers) (hc : a.control = s.control ∨ a.control = .disconnected) :
      Inv { s with toCodexAdapter := a } := by
    refine h.keep hm ?_
    rcases hc with hc | hc <;> rw [hc]
    · exact h.survives
    · exact nofun
  cases i with
  | write broken turnId => exact inv_write h hfaithful hs
  | item =>
    cases hs
    exact h
  | adapter step =>
    cases step with
    | write broken => cases hs
    | submit request verified =>
      cases hs
      exact inv_submit h request verified
    | answered answer =>
      simp only [CodexServed.step, CodexAdapter.step] at hs
      cases hcall : s.call with
      | none => simp [hcall] at hs
      | some k =>
        by_cases hwritten : k.written = true
        · simp only [hcall, hwritten, if_true, Option.map_some, Option.some.injEq] at hs
          subst hs
          exact inv_answered h hcall hwritten hfaithful hcalm
        · simp [hcall, hwritten] at hs
    | turnStarted turnId =>
      cases hs
      simp only [calm, Bool.or_eq_true, decide_eq_true_eq] at hcalm
      exact inv_turnStarted h hcalm
    | turnCompleted turnId =>
      cases hs
      exact inv_turnCompleted h hfaithful hcalm
    | serverRequest rpcId =>
      cases hs
      refine hkeep ?_ (.inl ?_) <;> unfold CodexAdapter.serverRequest <;> split <;> rfl
    | serverRequestResolved rpcId =>
      cases hs
      exact hkeep rfl (.inl rfl)
    | respond rpcId operation =>
      cases hs
      refine hkeep ?_ (.inl ?_) <;> unfold CodexAdapter.respond <;> split <;> rfl
    | reconnect =>
      cases hs
      refine inv_reconnect h fun hcontrol => ?_
      simp only [calm, hcontrol, quiet, Bool.or_eq_true, Bool.and_eq_true, Option.isNone_iff_eq_none, decide_eq_true_eq] at hcalm
      exact (hcalm.resolve_left fun hne => hne rfl).1
    | reconcile requestId turn =>
      cases hs
      exact inv_reconcile h hcalm
    | readerStopped failed =>
      cases hs
      cases failed with
      | true => cases hfaithful
      | false => exact hkeep rfl (.inr rfl)
    | processExited =>
      cases hs
      exact hkeep rfl (.inl rfl)
    | stop =>
      cases hs
      exact hkeep rfl (.inl rfl)

theorem Inv.free (h : Inv s) (hended : ∀ t ∈ s.turns, t.ended = true) (hcall : s.call = none) : Quiet s := by
  cases h.phase with
  | quiet hq => exact hq
  | starting k t hs => exact nomatch hcall.symm.trans hs.call
  | running t hr =>
    have hno := hended t hr.mem
    simp [ServerTurn.ended, hr.uncompleted, hr.unterminal, hr.here] at hno

theorem Inv.sound (h : Inv s) : s.TurnsSound where
  settled t ht haccepted hended := by
    refine (h.books.settled t ht haccepted).resolve_right fun hbound => ?_
    cases h.phase with
    | quiet hq =>
      rw [Bound, hq.operations] at hbound
      cases hbound
    | starting k t' hs =>
      rw [Bound, hs.operations] at hbound
      cases hbound
    | running t' hr =>
      have hid : t.id = t'.id := by
        rw [Bound, hr.operations] at hbound
        by_contra hne
        rw [if_neg hne] at hbound
        cases hbound
      rw [h.books.same hr.mem ht hid] at hended
      simp [ServerTurn.ended, hr.uncompleted, hr.unterminal, hr.here] at hended
  once := h.books.once
  own e he := by
    obtain ⟨t, ht, hid, hop, haccepted, -⟩ := h.books.own e he
    exact ⟨t, ht, hid, hop, haccepted⟩
  survives := h.survives
  free hended hcall := ⟨(h.free hended hcall).activeTurn, (h.free hended hcall).activeOperation⟩
  preflight hended hcall hcontrol hrunning hinteractions := by
    have hpending : s.pendingOperation = none := by rw [h.pending, hcall, Option.map_none]
    simp [CodexAdapter.preflight, hrunning, hcontrol, (h.free hended hcall).activeTurn, hpending, hinteractions]

end CodexServed

/-- **Turn correlation.** In every run in which the server keeps to its part and every step is calm, the adapter keeps to its
own in every state. -/
theorem turns_sound_of_calm (limit completedTurnLimit : Nat) {s t : CodexServed} (hs : s.Started)
    (h : Steps (servedSystem limit completedTurnLimit s) (fun u i => u.faithful i = true ∧ u.calm i = true) s t) : t.TurnsSound := by
  have hinv : CodexServed.Inv t :=
    Reachable.invariant (M := servedSystem limit completedTurnLimit s) (I := CodexServed.Inv) (CodexServed.inv_started hs)
      (fun _ _ _ hu hok hstep => CodexServed.inv_step hu hok.1 hok.2 hstep) h
  exact hinv.sound

/-! ## Runs of a started adapter -/

def startedServed : CodexServed where
  stopped := false
  control := .ready
  connected := true
  parent := ⟨none, .empty, .empty, none, []⟩
  submissions := .empty
  pendingOperation := none
  activeOperation := none
  call := none
  wire := []

theorem startedServed_started : startedServed.Started := ⟨⟨rfl, rfl, rfl, rfl, rfl⟩, rfl, rfl, rfl⟩

def announcedRun : List ServedAction :=
  [.adapter (.submit
    { requestId := "a"
      text := "hello"
      submittedAt := ""
      operation := some ⟨"epoch", 1, "a", .prompt⟩ } (true, true)),
    .write false "t", .adapter (.turnStarted "t")]

theorem completedRun_calm : (checkedRun (servedSystem 8 8 startedServed) (fun u i => u.faithful i = true ∧ u.calm i = true)
    startedServed (announcedRun ++ [.adapter (.answered (.turn "t" "inProgress")), .item, .adapter (.turnCompleted "t")])).any
      (fun u => u.settlements = [("t", ⟨"epoch", 1, "a", .prompt⟩)]) = true := by
  decide +kernel

/-- A turn that is started, answered and completed. -/
theorem completedRun_sound : ∃ u, Steps (servedSystem 8 8 startedServed) (fun u i => u.faithful i = true ∧ u.calm i = true)
    startedServed u ∧ u.settlements = [("t", ⟨"epoch", 1, "a", .prompt⟩)] ∧ u.TurnsSound := by
  obtain ⟨u, hrun, hsettled⟩ := exists_of_checkedRun completedRun_calm
  exact ⟨u, hrun, of_decide_eq_true hsettled, turns_sound_of_calm 8 8 startedServed_started hrun⟩

theorem terminalRun_faithful : (checkedRun (servedSystem 8 8 startedServed) (fun u i => u.faithful i = true) startedServed
    (announcedRun ++ [.adapter (.answered (.turn "t" "completed")), .adapter (.turnCompleted "t")])).any
      (fun u => u.turns.all ServerTurn.ended && u.call.isNone && u.parent.activeTurnId.isSome) = true := by
  decide +kernel

/-- A turn that was announced, and that the answer to its start says has ended, is active for ever. -/
theorem terminalRun_busy : ¬ ∀ (limit completedTurnLimit : Nat) (s t : CodexServed), s.Started →
    Steps (servedSystem limit completedTurnLimit s) (fun u i => u.faithful i = true) s t → t.TurnsSound := by
  intro h
  obtain ⟨u, hrun, hp⟩ := exists_of_checkedRun terminalRun_faithful
  simp only [Bool.and_eq_true, List.all_eq_true, Option.isNone_iff_eq_none] at hp
  have hfree := (h 8 8 startedServed u startedServed_started hrun).free hp.1.1 hp.1.2
  rw [hfree.1] at hp
  cases hp.2

end AgentsRemember.Adapter.Codex
