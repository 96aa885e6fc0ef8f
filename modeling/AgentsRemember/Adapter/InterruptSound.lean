import AgentsRemember.Adapter.ClaudeCancels
import AgentsRemember.Adapter.InterruptSessions

/-!
# What an interrupt hits

Every step of the three sessions is one move of its interrupts. The check of an
interrupt and its bytes are apart: the wait for the write lock lies between them.
-/

namespace AgentsRemember.Adapter

open Lib
open Harness (ControlOperationRef)

namespace Pi.PiSession

variable {limit interactionLimit : Nat} {s t : PiSession} {active : Option String}

def commands (s : PiSession) : Commands String where
  calls := s.aborts.map fun k => command k.1.expected k.1.target.operationId k.1.phase
  writes := s.abortWrites.map (·.command ControlOperationRef.operationId)
  last := s.lastAbort.map Prod.fst

def activeId (s : PiSession) : Option String := s.activeOperation.map ControlOperationRef.operationId

theorem commands_enterPhase (s : PiSession) (i : Nat) (phase : Phase) (hphase : phase ≠ .waiting) :
    (s.enterPhase i phase).commands = { s.commands with calls := s.commands.calls.modify i Commands.pass } := by
  have hmap := map_modify_command (f := fun k : InterruptRequest ControlOperationRef × Nat => ({ k.1 with phase := phase }, k.2))
    (g := fun k => command k.1.expected k.1.target.operationId k.1.phase)
    (fun k => by simp [command, Commands.pass, hphase]) s.aborts i
  simp only [commands, enterPhase, hmap]

theorem commands_dropAbort (s : PiSession) (i : Nat) (k : InterruptRequest ControlOperationRef × Nat) :
    (s.dropAbort i k).commands = { s.commands with calls := s.commands.calls.modify i Commands.pass } :=
  commands_enterPhase s i .ended nofun

theorem writeAbort_cases (s : PiSession) (i : Nat) (k : InterruptRequest ControlOperationRef × Nat) (written : Written) :
    (s.writeAbort i k written).2.commands = { s.commands with calls := s.commands.calls.modify i Commands.pass } ∨
      (s.writeAbort i k written).2.commands = { s.commands with
        calls := s.commands.calls.modify i Commands.pass
        writes := s.commands.writes ++ [⟨k.1.expected, k.1.target.operationId, s.activeId⟩] } := by
  have hdropped := commands_dropAbort s i k
  have hwrote {u : PiSession} (hu : u.commands = { s.commands with calls := s.commands.calls.modify i Commands.pass })
      (hactive : u.activeOperation = s.activeOperation) :
      ({ u with abortWrites := u.abortWrites ++ [⟨i, k.1.expected, k.1.target, u.activeOperation⟩] } : PiSession).commands =
        { s.commands with
        calls := s.commands.calls.modify i Commands.pass
        writes := s.commands.writes ++ [⟨k.1.expected, k.1.target.operationId, s.activeId⟩] } := by
    obtain ⟨hcalls, hwrites, hlast⟩ := Commands.mk.inj hu
    simp only [commands, List.map_append, List.map_singleton, hcalls, hwrites, hlast, hactive]
    rfl
  unfold writeAbort
  split
  · exact .inl hdropped
  split
  · exact .inl hdropped
  split
  · exact .inl hdropped
  cases written with
  | refused => exact .inl hdropped
  | broken => exact .inr (hwrote hdropped rfl)
  | drained => exact .inr (hwrote (commands_enterPhase s i .awaiting nofun) rfl)

theorem move_interrupt (turnId expected : Option String) (requestId : String) (free : Option Written) :
    s.commands.Move s.activeId (s.interrupt turnId expected requestId free).2.commands := by
  unfold interrupt
  split
  · exact .keep
  split
  · exact .keep
  rename_i operation hactive
  split
  · exact .keep
  rename_i hexpected
  have hnamed := named_of_check hexpected
  split
  · exact .keep
  rename_i hlast
  have hnew := new_of_filter hnamed hlast
  have hactive' : s.activeId = some operation.operationId := by rw [activeId, hactive]; rfl
  split
  · exact .keep
  split
  · exact .keep
  split
  · exact .keep
  let call : InterruptRequest ControlOperationRef :=
    { expected := expected
      target := operation
      operation := some operation
      vendorCorrelationId := requestId
      phase := .waiting }
  let entered : PiSession := { s with
    toPiRpcAdapter := s.modifyTransport s.transport fun t => { t with pending := t.pending ++ [requestId] }
    aborts := s.aborts ++ [(call, s.transport)] }
  have hentered : entered.commands = { s.commands with
      calls := s.commands.calls ++ [command expected operation.operationId .waiting] } := by
    simp [commands, entered, call]
  have hlength : s.aborts.length = s.commands.calls.length := by simp [commands]
  cases free with
  | none =>
    show s.commands.Move s.activeId entered.commands
    rw [hentered]
    exact .enter _ hactive' hnamed hnew
  | some written =>
    show s.commands.Move s.activeId (entered.writeAbort s.aborts.length (call, s.transport) written).2.commands
    rcases writeAbort_cases entered s.aborts.length (call, s.transport) written with heq | heq
    · rw [heq, hentered, hlength]
      exact move_refused (k := command expected operation.operationId .waiting) hactive' hnamed hnew
    · rw [heq, hentered, hlength]
      exact move_written (k := command expected operation.operationId .waiting) hactive' hnamed hnew

theorem move_step {i : PiAction} (hsane : s.commands.Sane) (h : s.step limit interactionLimit i = some t) :
    s.commands.Move s.activeId t.commands := by
  have hpass (i : Nat) (k : InterruptRequest ControlOperationRef × Nat) :
      s.commands.Move s.activeId (s.dropAbort i k).commands := by
    rw [commands_dropAbort]
    exact .pass i
  cases i with
  | adapter step =>
    obtain ⟨stepped, -, rfl⟩ := Option.map_eq_some_iff.mp h
    exact .keep
  | interrupt turnId expectedOperationId requestId free =>
    cases h
    exact move_interrupt turnId expectedOperationId requestId free
  | writeAbort i written =>
    simp only [step] at h
    split at h
    · rename_i k hk
      split at h <;> cases h
      rename_i hphase
      rcases writeAbort_cases s i k written with heq | heq <;> rw [heq]
      · exact .pass i
      · refine .write i (command k.1.expected k.1.target.operationId k.1.phase) ?_ ?_
        · simp [commands, hk]
        · simp [command, hphase]
    · cases h
  | abortAnswered i error =>
    simp only [step] at h
    split at h
    · rename_i k hk
      split at h <;> cases h
      have hmem : command k.1.expected k.1.target.operationId k.1.phase ∈ s.commands.calls :=
        List.mem_map.mpr ⟨k, List.mem_of_getElem? hk, rfl⟩
      have hpair : interruptPair k.1.expected k.1.target.operationId = (k.1.target.operationId, k.1.target.operationId) :=
        interruptPair_named (hsane.named _ hmem)
      have hcommands : (s.abortAnswered i k error).commands = { (s.dropAbort i k).commands with
          last := some (interruptPair k.1.expected k.1.target.operationId) } := rfl
      rw [hcommands, commands_dropAbort, hpair]
      exact .settle _ i hmem
    · cases h
  | abortLost i =>
    simp only [step] at h
    split at h
    · split at h <;> cases h
      exact hpass i _
    · cases h

end Pi.PiSession

def Pi.commander (limit interactionLimit : Nat) (s₀ : Pi.PiSession) : Commander String (Pi.piSystem limit interactionLimit s₀) where
  view := Pi.PiSession.commands
  active := Pi.PiSession.activeId
  move _ _ _ hsane h := Pi.PiSession.move_step hsane h

namespace Codex.CodexSession

variable {limit completedTurnLimit : Nat} {s t : CodexSession}

def commands (s : CodexSession) : Commands String where
  calls := s.interrupts.map fun k => command k.expected k.target k.phase
  writes := s.interruptWrites.map (·.command id)
  last := s.lastInterrupt.map Prod.fst

def activeId (s : CodexSession) : Option String := s.parent.activeTurnId

theorem commands_enterPhase (s : CodexSession) (i : Nat) (phase : Phase) (hphase : phase ≠ .waiting) :
    (s.enterPhase i phase).commands = { s.commands with calls := s.commands.calls.modify i Commands.pass } := by
  have hmap := map_modify_command (f := fun k : InterruptRequest String => { k with phase := phase })
    (g := fun k => command k.expected k.target k.phase) (fun k => by simp [command, Commands.pass, hphase]) s.interrupts i
  simp only [commands, enterPhase, hmap]

theorem writeInterrupt_cases (s : CodexSession) (i : Nat) (k : InterruptRequest String) (written : Written) :
    (s.writeInterrupt i k written).2.commands = { s.commands with calls := s.commands.calls.modify i Commands.pass } ∨
      (s.writeInterrupt i k written).2.commands = { s.commands with
        calls := s.commands.calls.modify i Commands.pass
        writes := s.commands.writes ++ [⟨k.expected, k.target, s.activeId⟩] } := by
  have hended := commands_enterPhase s i .ended nofun
  have hawaiting := commands_enterPhase s i .awaiting nofun
  have hwrote {u : CodexSession} (hu : u.commands = { s.commands with calls := s.commands.calls.modify i Commands.pass }) :
      ({ u with interruptWrites := u.interruptWrites ++ [⟨i, k.expected, k.target, s.parent.activeTurnId⟩] } : CodexSession).commands =
        { s.commands with
        calls := s.commands.calls.modify i Commands.pass
        writes := s.commands.writes ++ [⟨k.expected, k.target, s.activeId⟩] } := by
    obtain ⟨hcalls, hwrites, hlast⟩ := Commands.mk.inj hu
    simp only [commands, List.map_append, List.map_singleton, hcalls, hwrites, hlast]
    simp [InterruptWrite.command, activeId]
  cases written with
  | refused => exact .inl hended
  | broken => exact .inr (hwrote hended)
  | drained => exact .inr (hwrote hawaiting)

theorem move_interrupt (turnId : Option String) (free : Option Written) :
    s.commands.Move s.activeId (s.interrupt turnId free).2.commands := by
  unfold interrupt
  split
  · exact .keep
  rename_i active hactive
  split
  · exact .keep
  rename_i hexpected
  have hnamed := named_of_check hexpected
  split
  · exact .keep
  rename_i hlast
  have hnew := new_of_filter hnamed hlast
  split
  · exact .keep
  let call : InterruptRequest String :=
    { expected := turnId
      target := active
      operation := s.activeOperation
      vendorCorrelationId := active
      phase := .waiting }
  let entered : CodexSession := { s with interrupts := s.interrupts ++ [call] }
  have hentered : entered.commands = { s.commands with calls := s.commands.calls ++ [command turnId active .waiting] } := by
    simp [commands, entered, call]
  have hlength : s.interrupts.length = s.commands.calls.length := by simp [commands]
  cases free with
  | none =>
    show s.commands.Move s.activeId entered.commands
    rw [hentered]
    exact .enter _ hactive hnamed hnew
  | some written =>
    show s.commands.Move s.activeId (entered.writeInterrupt s.interrupts.length call written).2.commands
    rcases writeInterrupt_cases entered s.interrupts.length call written with heq | heq
    · rw [heq, hentered, hlength]
      exact move_refused (k := command turnId active .waiting) hactive hnamed hnew
    · rw [heq, hentered, hlength]
      exact move_written (k := command turnId active .waiting) hactive hnamed hnew

theorem move_step {i : CodexAction} (hsane : s.commands.Sane) (h : s.step limit completedTurnLimit i = some t) :
    s.commands.Move s.activeId t.commands := by
  cases i with
  | adapter step =>
    obtain ⟨stepped, -, rfl⟩ := Option.map_eq_some_iff.mp h
    exact .keep
  | interrupt turnId expectedOperationId free =>
    cases h
    exact move_interrupt turnId free
  | writeInterrupt i written =>
    simp only [step] at h
    split at h
    · rename_i k hk
      split at h <;> cases h
      rename_i hphase
      rcases writeInterrupt_cases s i k written with heq | heq <;> rw [heq]
      · exact .pass i
      · refine .write i (command k.expected k.target k.phase) ?_ ?_
        · simp [commands, hk]
        · simp [command, hphase]
    · cases h
  | interruptAnswered i error =>
    simp only [step] at h
    split at h
    · rename_i k hk
      split at h <;> cases h
      have hmem : command k.expected k.target k.phase ∈ s.commands.calls := List.mem_map.mpr ⟨k, List.mem_of_getElem? hk, rfl⟩
      have hpair : interruptPair k.expected k.target = (k.target, k.target) := interruptPair_named (hsane.named _ hmem)
      have hcommands : (s.interruptAnswered i k error).commands = { (s.enterPhase i .ended).commands with
          last := some (interruptPair k.expected k.target) } := rfl
      rw [hcommands, commands_enterPhase s i .ended (by simp), hpair]
      exact .settle _ i hmem
    · cases h
  | interruptLost i =>
    simp only [step] at h
    split at h
    · split at h <;> cases h
      rw [commands_enterPhase s i .ended (by simp)]
      exact .pass i
    · cases h

end Codex.CodexSession

def Codex.commander (limit completedTurnLimit : Nat) (s₀ : Codex.CodexSession) :
    Commander String (Codex.codexSystem limit completedTurnLimit s₀) where
  view := Codex.CodexSession.commands
  active := Codex.CodexSession.activeId
  move _ _ _ hsane h := Codex.CodexSession.move_step hsane h

theorem Claude.ClaudeSession.Started.silent {s : Claude.ClaudeSession} (h : s.Started) :
    s.commands.calls = [] ∧ s.commands.writes = [] ∧ s.commands.last = none := by
  rw [h.fresh]
  exact ⟨rfl, rfl, rfl⟩

theorem Pi.PiSession.Started.silent {s : Pi.PiSession} (h : s.Started) :
    s.commands.calls = [] ∧ s.commands.writes = [] ∧ s.commands.last = none := by
  rw [h.fresh]
  exact ⟨rfl, rfl, rfl⟩

theorem Codex.CodexSession.Started.silent {s : Codex.CodexSession} (h : s.Started) :
    s.commands.calls = [] ∧ s.commands.writes = [] ∧ s.commands.last = none := by
  rw [h.fresh]
  exact ⟨rfl, rfl, rfl⟩

/-- **What an interrupt hits.** In a run in which no operation (or turn) goes while an interrupt that names it waits, every
interrupt hits the one that it names; in a run in which none is interrupted again before its acknowledgement is kept, none
gets a second interrupt. What an interrupt decides, it decides after its success. -/
theorem interrupts_of_undisturbed (c : Claude.ClaudeConfig) (limit interactionLimit completedTurnLimit : Nat) :
    (∀ s t : Claude.ClaudeSession, s.Started →
      (Steps (Claude.claudeSystem c s) (fun u i => (Claude.commander c s).undisturbed u i = true) s t → t.commands.Aimed) ∧
      (Steps (Claude.claudeSystem c s) (fun u i => (Claude.commander c s).unrepeated u i = true) s t → t.commands.Once) ∧
      (Steps (Claude.claudeSystem c s) (fun u i => u.faithful i = true) s t → ∀ i w, t.faithful i = true → t.step c i = some w →
        ∀ e ∈ w.completions, e.interrupted = true → t.Succeeded e.operation)) ∧
    (∀ s t : Pi.PiSession, s.Started →
      (Steps (Pi.piSystem limit interactionLimit s)
        (fun u i => (Pi.commander limit interactionLimit s).undisturbed u i = true) s t → t.commands.Aimed) ∧
      (Steps (Pi.piSystem limit interactionLimit s)
        (fun u i => (Pi.commander limit interactionLimit s).unrepeated u i = true) s t → t.commands.Once)) ∧
    (∀ s t : Codex.CodexSession, s.Started →
      (Steps (Codex.codexSystem limit completedTurnLimit s)
        (fun u i => (Codex.commander limit completedTurnLimit s).undisturbed u i = true) s t → t.commands.Aimed) ∧
      (Steps (Codex.codexSystem limit completedTurnLimit s)
        (fun u i => (Codex.commander limit completedTurnLimit s).unrepeated u i = true) s t → t.commands.Once)) := by
  refine ⟨fun s t hs => ⟨?_, ?_, ?_⟩, fun s t hs => ⟨?_, ?_⟩, fun s t hs => ⟨?_, ?_⟩⟩
  · exact (Claude.commander c s).aimed_of_undisturbed hs.silent
  · exact (Claude.commander c s).once_of_unrepeated hs.silent
  · intro h i w hfaithful hstep e he hinterrupted
    exact Claude.ClaudeSession.succeeded_before hs h hfaithful hstep he hinterrupted
  · exact (Pi.commander limit interactionLimit s).aimed_of_undisturbed hs.silent
  · exact (Pi.commander limit interactionLimit s).once_of_unrepeated hs.silent
  · exact (Codex.commander limit completedTurnLimit s).aimed_of_undisturbed hs.silent
  · exact (Codex.commander limit completedTurnLimit s).once_of_unrepeated hs.silent

/-! ## Runs of started sessions -/

section
open Claude

def interruptedRun : List ClaudeAction :=
  acceptedRun ++ [.interrupt none (some "a"), .drained false false, .interruptAnswer 0 true none]

def abortedResult : ResultFrame := ⟨"error_during_execution", true, some "aborted_streaming"⟩

theorem interruptedRun_undisturbed : (checkedRun (claudeSystem ⟨["m"], 256⟩ startedSession)
    (fun u i => (Claude.commander ⟨["m"], 256⟩ startedSession).undisturbed u i = true ∧
      (Claude.commander ⟨["m"], 256⟩ startedSession).unrepeated u i = true ∧ u.faithful i = true) startedSession
    interruptedRun).any (fun u => u.interruptWrites.length = 1 && u.faithful (.result abortedResult) &&
      (u.step ⟨["m"], 256⟩ (.result abortedResult)).any fun w => w.completions.any fun e =>
        e.interrupted && e.operation = ⟨"epoch", 1, "a", .prompt⟩) = true := by
  decide +kernel

end

def startedPi : Pi.PiSession where
  stopped := false
  transports := [⟨none, true, 0, []⟩]
  transport := 0
  state := none
  events := ⟨.ready, .idle, none, []⟩
  submissions := .empty
  transportGeneration := 0
  activityToken := 0
  preparedOperation := none
  activeOperation := none
  preflights := []
  reading := []
  calls := []
  awaiting := []
  settling := none
  responding := []
  wire := []

theorem startedPi_started : startedPi.Started := ⟨⟨rfl, rfl, rfl, rfl, rfl, rfl, rfl⟩, rfl⟩

def startedCodex : Codex.CodexSession where
  stopped := false
  control := .ready
  connected := true
  parent := ⟨none, .empty, .empty, none, []⟩
  submissions := .empty
  pendingOperation := none
  activeOperation := none
  call := none
  wire := []

theorem startedCodex_started : startedCodex.Started := ⟨⟨rfl, rfl, rfl, rfl, rfl⟩, rfl⟩

theorem abortedRun_undisturbed : (checkedRun (Pi.piSystem 8 8 startedPi)
    (fun u i => (Pi.commander 8 8 startedPi).undisturbed u i = true ∧ (Pi.commander 8 8 startedPi).unrepeated u i = true) startedPi
    [.adapter (.preflight ⟨"epoch", 1, "a", .prompt⟩), .adapter (.preflightRead ⟨"epoch", 1, "a", .prompt⟩ Pi.idleState),
      .adapter (.submit (Claude.promptOf "a" 1) true), .adapter (.entriesRead (Claude.promptOf "a" 1) (.read true)),
      .interrupt none (some "a") "r" (some .drained)]).any (fun u => u.abortWrites.length = 1) = true := by
  decide +kernel

theorem interruptedTurn_undisturbed : (checkedRun (Codex.codexSystem 8 8 startedCodex)
    (fun u i => (Codex.commander 8 8 startedCodex).undisturbed u i = true ∧
      (Codex.commander 8 8 startedCodex).unrepeated u i = true) startedCodex
    [.adapter (.turnStarted "t"), .interrupt (some "t") none (some .drained)]).any (fun u => u.interruptWrites.length = 1) = true := by
  decide +kernel

/-- Interrupts that are written at once, one in each session, and the turn that one of them decides. -/
theorem interruptedRun_aimed :
    (∃ t w : Claude.ClaudeSession, t.interruptWrites.length = 1 ∧ t.commands.Aimed ∧ t.commands.Once ∧
      t.step ⟨["m"], 256⟩ (.result abortedResult) = some w ∧ t.Succeeded ⟨"epoch", 1, "a", .prompt⟩) ∧
    (∃ t : Pi.PiSession, t.abortWrites.length = 1 ∧ t.commands.Aimed ∧ t.commands.Once) ∧
    ∃ t : Codex.CodexSession, t.interruptWrites.length = 1 ∧ t.commands.Aimed ∧ t.commands.Once := by
  obtain ⟨hclaude, hpi, hcodex⟩ := interrupts_of_undisturbed ⟨["m"], 256⟩ 8 8 8
  obtain ⟨t, hrun, hp⟩ := exists_of_checkedRun interruptedRun_undisturbed
  simp only [Bool.and_eq_true, decide_eq_true_eq, Option.any_eq_true, List.any_eq_true] at hp
  obtain ⟨⟨hlength, hfaithful⟩, w, hw, e, he, hinterrupted, ho⟩ := hp
  obtain ⟨haimed, honce, hsucceeded⟩ := hclaude Claude.startedSession t Claude.startedSession_started
  have hsuccess := hsucceeded (hrun.mono fun _ _ hok => hok.2.2) _ w hfaithful hw e he hinterrupted
  rw [ho] at hsuccess
  obtain ⟨u, hpirun, hpilength⟩ := exists_of_checkedRun abortedRun_undisturbed
  obtain ⟨haimed', honce'⟩ := hpi startedPi u startedPi_started
  obtain ⟨v, hcodexrun, hcodexlength⟩ := exists_of_checkedRun interruptedTurn_undisturbed
  obtain ⟨haimed'', honce''⟩ := hcodex startedCodex v startedCodex_started
  exact ⟨⟨t, w, hlength, haimed (hrun.mono fun _ _ hok => hok.1), honce (hrun.mono fun _ _ hok => hok.2.1), hw, hsuccess⟩,
    ⟨u, of_decide_eq_true hpilength, haimed' (hpirun.mono fun _ _ hok => hok.1), honce' (hpirun.mono fun _ _ hok => hok.2)⟩,
    v, of_decide_eq_true hcodexlength, haimed'' (hcodexrun.mono fun _ _ hok => hok.1), honce'' (hcodexrun.mono fun _ _ hok => hok.2)⟩

theorem disturbedRun_faithful : (checkedRun (Claude.claudeSystem ⟨["m"], 256⟩ Claude.startedSession)
    (fun u i => u.faithful i = true) Claude.startedSession
    (Claude.acceptedRun ++ [.frame (.controlRequest (some "p")) ⟨"", false, none⟩,
      .respond "p" (some ⟨"epoch", 1, "a", .prompt⟩), .writeResponse, .interrupt none (some "a"),
      .result ⟨"success", false, none⟩, .drained false false, .writeInterrupt 0])).any
      (fun u => u.interruptWrites.any fun w => w.expected = some "a" && w.active = none) = true := by
  decide +kernel

/-- An interrupt is written after the turn that it names. -/
theorem disturbedRun_astray : ¬ ∀ (c : Claude.ClaudeConfig) (s t : Claude.ClaudeSession), s.Started →
    Steps (Claude.claudeSystem c s) (fun u i => u.faithful i = true) s t → t.commands.Aimed := by
  intro h
  obtain ⟨t, hrun, hp⟩ := exists_of_checkedRun disturbedRun_faithful
  obtain ⟨w, hw, hp⟩ := List.any_eq_true.mp hp
  simp only [Bool.and_eq_true, decide_eq_true_eq] at hp
  have haimed := h ⟨["m"], 256⟩ Claude.startedSession t Claude.startedSession_started hrun _
    (List.mem_map_of_mem hw) "a" hp.1
  simp [InterruptWrite.command, hp.2] at haimed

end AgentsRemember.Adapter
