import AgentsRemember.Adapter.ClaudeSessionSound

/-!
# The interrupts of a Claude session

Every step of the session is one move of its interrupts.
-/

namespace AgentsRemember.Adapter.Claude

open Lib
open Harness (ControlOperationRef)

namespace ClaudeSession

variable {c : ClaudeConfig} {s t : ClaudeSession}

def commands (s : ClaudeSession) : Commands String where
  calls := s.calls.map fun k => command k.expected k.operation.operationId k.phase
  writes := s.interruptWrites.map (·.command ControlOperationRef.operationId)
  last := s.lastInterrupt.map Prod.fst

def activeId (s : ClaudeSession) : Option String := s.activeTurn.map ControlOperationRef.operationId

variable {f : InterruptCall → InterruptCall} {i : Nat}

theorem map_modify_same
    (hf : ∀ k : InterruptCall, (f k).expected = k.expected ∧ (f k).operation = k.operation ∧ (f k).phase = k.phase)
    (l : List InterruptCall) (i : Nat) :
    (l.modify i f).map (fun k => command k.expected k.operation.operationId k.phase) =
      l.map fun k => command k.expected k.operation.operationId k.phase := by
  refine List.ext_getElem? fun j => ?_
  simp only [List.getElem?_map, List.getElem?_modify]
  cases l[j]? with
  | none => rfl
  | some k =>
    simp only [Option.map_eq_map, Option.map_some]
    split
    · rw [(hf k).1, (hf k).2.1, (hf k).2.2]
    · rfl

theorem commands_failReader (stop : ClaudeStreamState → ClaudeStreamState) (detail : String) :
    (s.failReader stop detail).commands = s.commands := by
  simp only [commands, failReader, onStream, List.map_map]
  congr 1
  refine List.map_congr_left fun k _ => ?_
  simp only [Function.comp_apply]
  split <;> rfl

theorem commands_handleFrame {frame : ClaudeStreamState.ClaudeFrame} {result : ResultFrame}
    (h : s.handleFrame frame result = .ok t) : t.commands = s.commands := by
  unfold handleFrame at h
  split at h
  · unfold handleResult at h
    split at h
    · cases h
    · split at h <;> cases h <;> rfl
  cases hf : s.toClaudeStreamState.handleFrame frame with
  | error e => simp [hf, Except.map] at h
  | ok u =>
    simp only [hf, Except.map] at h
    cases h
    rfl

theorem commands_handled (frame : ClaudeStreamState.ClaudeFrame) (result : ResultFrame) :
    (s.handled (s.handleFrame frame result)).commands = s.commands := by
  cases h : s.handleFrame frame result with
  | ok t => exact commands_handleFrame h
  | error detail => exact commands_failReader (fun t => t.failReader detail) detail

theorem commands_answer (frame : ClaudeStreamState.ClaudeFrame) (result : ResultFrame) :
    (s.answer frame result).commands = s.commands := by
  unfold answer
  cases h : s.handleFrame frame result with
  | ok t => exact commands_handleFrame h
  | error detail => exact commands_failReader (fun t => t.failReader detail) detail

theorem commands_submit {request : PromptRequest} {correlationId : String} (setter : Bool) :
    (s.submit c request correlationId setter).commands = s.commands := by
  unfold submit
  dsimp only
  split <;> rfl

theorem commands_writePrompt (ref : Nat) (r : ClaudeSubmission) : (s.writePrompt ref r).commands = s.commands := by
  unfold writePrompt
  dsimp only
  split <;> rfl

/-! ## Moves -/

variable {v : Commands String} {active : Option String}

theorem move_modify
    (hf : ∀ k : InterruptCall, (f k).expected = k.expected ∧ (f k).operation = k.operation ∧ (f k).phase ≠ .waiting) :
    s.commands.Move active (s.modifyCall i f).commands := by
  have hmap := map_modify_command (f := f) (g := fun k => command k.expected k.operation.operationId k.phase)
    (fun k => by simp [command, Commands.pass, (hf k).1, (hf k).2.1, (hf k).2.2]) s.calls i
  have hcommands : (s.modifyCall i f).commands = { s.commands with calls := s.commands.calls.modify i Commands.pass } := by
    simp only [commands, modifyCall, hmap]
  rw [hcommands]
  exact .pass i

theorem move_settle (hsane : s.commands.Sane) {i : Nat} {call : InterruptCall} (hcall : s.calls[i]? = some call)
    (result : InterruptResult) (pendingControl : Dict String String) {f : InterruptCall → InterruptCall}
    (hf : ∀ k : InterruptCall, (f k).expected = k.expected ∧ (f k).operation = k.operation ∧ (f k).phase ≠ .waiting) :
    s.commands.Move active { s.modifyCall i f with
      pendingControl := pendingControl
      lastInterrupt := some (interruptPair call.expected call.operation.operationId, result) }.commands := by
  have hmem : command call.expected call.operation.operationId call.phase ∈ s.commands.calls :=
    List.mem_map.mpr ⟨call, List.mem_of_getElem? hcall, rfl⟩
  have hmap := map_modify_command (f := f) (g := fun k => command k.expected k.operation.operationId k.phase)
    (fun k => by simp [command, Commands.pass, (hf k).1, (hf k).2.1, (hf k).2.2]) s.calls i
  have hpair : interruptPair call.expected call.operation.operationId =
      (call.operation.operationId, call.operation.operationId) := interruptPair_named (hsane.named _ hmem)
  have hcommands : { s.modifyCall i f with
      pendingControl := pendingControl
      lastInterrupt := some (interruptPair call.expected call.operation.operationId, result) }.commands =
      { s.commands with
        calls := s.commands.calls.modify i Commands.pass
        last := some (call.operation.operationId, call.operation.operationId) } := by
    simp only [commands, modifyCall, hmap, hpair, Option.map_some]
  rw [hcommands]
  exact .settle _ i hmem

theorem move_writeInterrupt {call : InterruptCall} (hcall : s.calls[i]? = some call) (hphase : call.phase = .waiting) :
    s.commands.Move s.activeId (s.writeInterrupt i call).commands := by
  have hmap := map_modify_command (f := fun k : InterruptCall => { k with phase := .draining })
    (g := fun k => command k.expected k.operation.operationId k.phase) (fun k => by simp [command, Commands.pass]) s.calls i
  have hcommands : (s.writeInterrupt i call).commands = { s.commands with
      calls := s.commands.calls.modify i Commands.pass
      writes := s.commands.writes ++ [⟨call.expected, call.operation.operationId, s.activeId⟩] } := by
    simp only [commands, writeInterrupt, modifyCall, hmap, List.map_append, List.map_singleton]
    rfl
  rw [hcommands]
  refine .write i (command call.expected call.operation.operationId call.phase) ?_ ?_
  · simp [commands, hcall]
  · simp [command, hphase]

structure Entered (s e : ClaudeSession) (call : InterruptCall) : Prop where
  calls : e.calls = s.calls ++ [call]
  writes : e.interruptWrites = s.interruptWrites
  last : e.lastInterrupt = s.lastInterrupt
  turn : e.activeTurn = s.activeTurn
  active : s.activeId = some call.operation.operationId
  named : call.expected = none ∨ call.expected = some call.operation.operationId
  new : s.commands.last ≠ some (call.operation.operationId, call.operation.operationId)

variable {e : ClaudeSession} {call : InterruptCall}

theorem Entered.waiting (h : Entered s e call) : s.commands.Move s.activeId e.commands := by
  have hcommands : e.commands = { s.commands with
      calls := s.commands.calls ++ [command call.expected call.operation.operationId call.phase] } := by
    simp only [commands, h.calls, h.writes, h.last, List.map_append, List.map_singleton]
  rw [hcommands]
  exact .enter _ h.active h.named h.new

theorem Entered.dropped (h : Entered s e call) : s.commands.Move s.activeId (e.dropInterrupt s.calls.length call).commands := by
  have hcommands : (e.dropInterrupt s.calls.length call).commands = { s.commands with
      calls := s.commands.calls ++ [⟨call.expected, call.operation.operationId, false⟩] } := by
    simp only [commands, dropInterrupt, modifyCall, h.calls, h.writes, h.last, modify_entered, List.map_append,
      List.map_singleton]
    rfl
  rw [hcommands]
  exact .enter _ h.active h.named h.new

theorem Entered.written (h : Entered s e call) : s.commands.Move s.activeId (e.writeInterrupt s.calls.length call).commands := by
  have hcommands : (e.writeInterrupt s.calls.length call).commands = { s.commands with
      calls := s.commands.calls ++ [Commands.pass (command call.expected call.operation.operationId call.phase)]
      writes := s.commands.writes ++ [⟨call.expected, call.operation.operationId, s.activeId⟩] } := by
    simp only [commands, writeInterrupt, modifyCall, h.calls, h.writes, h.last, h.turn, modify_entered, List.map_append,
      List.map_singleton]
    rfl
  rw [hcommands]
  exact .enterWrite (command call.expected call.operation.operationId call.phase) h.active h.named h.new

theorem move_interrupt (turnId expected : Option String) :
    s.commands.Move s.activeId (s.interrupt turnId expected).2.commands := by
  unfold interrupt
  split
  · exact .keep
  split
  · exact .keep
  split
  · exact .keep
  rename_i requestId rest haccepted
  split
  · exact .keep
  rename_i r hrecord
  dsimp only
  split
  · exact .keep
  rename_i hexpected
  have hnamed := named_of_check hexpected
  split
  · exact .keep
  rename_i hlast
  have hactive : s.activeId = some r.operation.operationId := by
    simp [activeId, activeTurn, haccepted, hrecord]
  have hnew : s.commands.last ≠ some (r.operation.operationId, r.operation.operationId) := new_of_filter hnamed hlast
  have hentered (pendingControl : Dict String String) (call : InterruptCall) (hx : call.expected = expected)
      (ho : call.operation = r.operation) : Entered s { s with
        calls := s.calls ++ [call]
        pendingControl := pendingControl } call :=
    ⟨rfl, rfl, rfl, rfl, by rw [ho]; exact hactive, by rw [hx, ho]; exact hnamed, by rw [ho]; exact hnew⟩
  split
  · exact (hentered _ _ rfl rfl).dropped
  split
  · exact (hentered _ _ rfl rfl).dropped
  split
  · exact (hentered _ _ rfl rfl).written
  · exact (hentered _ _ rfl rfl).waiting

theorem move_drained {broken setter : Bool} (h : s.drained broken setter = some t) :
    s.commands.Move s.activeId t.commands := by
  unfold drained at h
  split at h
  · cases h
  · obtain ⟨r, -, rfl⟩ := Option.map_eq_some_iff.mp h
    split
    · unfold broke
      cases setter <;> exact .keep
    · exact .keep
  · cases h
    cases broken <;> exact .keep
  obtain ⟨call, -, rfl⟩ := Option.map_eq_some_iff.mp h
  split
  · exact move_modify (f := fun k => { k with phase := .ended }) fun k => ⟨rfl, rfl, nofun⟩
  · exact move_modify (f := fun k => { k with phase := .awaiting }) fun k => ⟨rfl, rfl, nofun⟩

theorem move_step {i : ClaudeAction} (hsane : s.commands.Sane) (h : s.step c i = some t) :
    s.commands.Move s.activeId t.commands := by
  have hkeep {u : ClaudeSession} (hu : u.commands = s.commands) : s.commands.Move s.activeId u.commands := by
    rw [hu]
    exact .keep
  cases i with
  | submit request correlationId setter =>
    cases h
    exact hkeep (commands_submit setter)
  | writePrompt ref =>
    simp only [step] at h
    split at h
    · split at h
      · cases h
        exact hkeep (commands_writePrompt ref _)
      · cases h
    · cases h
  | drained broken setter => exact move_drained h
  | answered ref =>
    simp only [step] at h
    split at h
    · split at h <;> cases h
      exact .keep
    · cases h
  | acceptanceTimeout ref =>
    simp only [step] at h
    split at h
    · split at h <;> cases h
      exact .keep
    · cases h
  | abandon requestId =>
    simp only [step] at h
    split at h <;> cases h
    exact .keep
  | replay ref =>
    simp only [step] at h
    split at h
    · split at h <;> cases h
      exact hkeep (commands_answer _ _)
    · cases h
  | result frame =>
    simp only [step] at h
    split at h <;> cases h
    exact hkeep (commands_answer _ _)
  | frame frame result =>
    simp only [step] at h
    split at h <;> cases h
    exact hkeep (commands_handled _ _)
  | eof returncode =>
    simp only [step] at h
    split at h <;> cases h
    exact hkeep (commands_failReader _ _)
  | respond interactionId operation =>
    cases h
    exact .keep
  | writeResponse =>
    simp only [step] at h
    split at h <;> cases h
    exact .keep
  | interrupt turnId expectedOperationId =>
    cases h
    exact move_interrupt turnId expectedOperationId
  | writeInterrupt i =>
    simp only [step] at h
    split at h
    · rename_i call hcall
      split at h
      · rename_i hphase
        cases h
        exact move_writeInterrupt hcall hphase.1
      · cases h
    · cases h
  | interruptAnswer i accepted detail =>
    simp only [step] at h
    split at h
    · split at h
      · cases h
        unfold handleControlResponse
        split
        · exact .keep
        refine hkeep ?_
        simp only [commands, modifyCall]
        rw [map_modify_same (f := fun k => { k with answer := k.answer.or (some (.ok (accepted, detail))) }) fun k =>
          ⟨rfl, rfl, rfl⟩]
      · cases h
    · cases h
  | interruptAnswered i =>
    simp only [step] at h
    split at h
    · rename_i call hcall
      split at h
      · obtain ⟨answer, -, rfl⟩ := Option.map_eq_some_iff.mp h
        cases answer with
        | error detail => exact move_modify (f := fun k => { k with phase := .ended }) fun k => ⟨rfl, rfl, by simp⟩
        | ok answer => exact move_settle hsane hcall _ _ (f := fun k => { k with phase := .ended }) fun k => ⟨rfl, rfl, by simp⟩
      · cases h
    · cases h
  | interruptTimeout i =>
    simp only [step] at h
    split at h
    · rename_i call hcall
      split at h
      · cases h
        exact move_settle hsane hcall _ s.pendingControl (f := fun k => { k with phase := .ended }) fun k => ⟨rfl, rfl, by simp⟩
      · cases h
    · cases h
  | stdinClosed =>
    cases h
    exact .keep
  | released =>
    cases h
    exact .keep
  | readerFinished graceful =>
    cases h
    exact .keep

end ClaudeSession

def commander (c : ClaudeConfig) (s₀ : ClaudeSession) : Commander String (claudeSystem c s₀) where
  view := ClaudeSession.commands
  active := ClaudeSession.activeId
  move _ _ _ hsane h := ClaudeSession.move_step hsane h

end AgentsRemember.Adapter.Claude
