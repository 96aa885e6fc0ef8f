import AgentsRemember.Adapter.Codex
import AgentsRemember.Adapter.Pi

/-!
# The interrupts of the Pi and the Codex adapter

Each adapter with its calls of `interrupt`. A call is checked when it is made, waits
for the write lock, and keeps its acknowledgement; whether the lock is free is the
caller's word, as both adapters leave the other writers' turns open.
-/

namespace AgentsRemember.Adapter

open Lib
open Harness (ControlOperationRef)

structure InterruptRequest (τ : Type) where
  expected : Option String
  target : τ
  operation : Option ControlOperationRef
  vendorCorrelationId : String
  phase : Phase

def InterruptRequest.result {τ : Type} (k : InterruptRequest τ) (acknowledgement : InterruptAcknowledgement) (detail : String) :
    InterruptResult where
  acknowledgement := acknowledgement
  operation := k.operation
  vendorCorrelationId := k.vendorCorrelationId
  detail := some detail

inductive Written
  | refused
  -- The drain broke off: the bytes may be out.
  | broken
  | drained

namespace Pi

/-- `PiRpcAdapter` with its interrupts, each with its transport; `abortWrites` is a ghost. -/
structure PiSession extends PiRpcAdapter where
  aborts : List (InterruptRequest ControlOperationRef × Nat) := []
  lastAbort : Option ((String × String) × InterruptResult) := none
  abortWrites : List (InterruptWrite ControlOperationRef) := []

def PiFailure.text : PiFailure → String
  | .disconnected detail | .failed detail => detail

namespace PiSession

def enterPhase (s : PiSession) (i : Nat) (phase : Phase) : PiSession :=
  { s with aborts := s.aborts.modify i fun k => ({ k.1 with phase := phase }, k.2) }

def dropAbort (s : PiSession) (i : Nat) (k : InterruptRequest ControlOperationRef × Nat) : PiSession :=
  { s.enterPhase i .ended with
    toPiRpcAdapter := s.modifyTransport k.2 fun t => { t with pending := t.pending.erase k.1.vendorCorrelationId } }

def writeAbort (s : PiSession) (i : Nat) (k : InterruptRequest ControlOperationRef × Nat) (written : Written) :
    Except String Unit × PiSession :=
  match s.transports[k.2]? with
  | none => (.error "Pi RPC stdin is not connected", s.dropAbort i k)
  | some t =>
    match t.failure with
    | some failure => (.error failure.text, s.dropAbort i k)
    | none =>
      if !t.stdinOpen then (.error "Pi RPC stdin is not connected", s.dropAbort i k)
      else
        let wrote (s : PiSession) : PiSession :=
          { s with abortWrites := s.abortWrites ++ [⟨i, k.1.expected, k.1.target, s.activeOperation⟩] }
        match written with
        | .refused => (.error "Pi RPC disconnected before writing", s.dropAbort i k)
        | .broken => (.error "Pi RPC disconnected while writing", wrote (s.dropAbort i k))
        | .drained => (.ok (), wrote (s.enterPhase i .awaiting))

def interrupt (s : PiSession) (turnId expectedOperationId : Option String) (requestId : String) (free : Option Written) :
    Except String (Option InterruptResult) × PiSession :=
  if turnId.isSome then (.error "Pi interrupt does not accept turn identity; use expectedOperationId", s)
  else
    match s.activeOperation with
    | none => (.error "no active Pi operation to interrupt", s)
    | some active =>
      if expectedOperationId.isSome ∧ expectedOperationId ≠ some active.operationId then
        (.error "interrupt operation id does not match the active Pi operation", s)
      else
        match s.lastAbort.filter fun last => last.1 = interruptPair expectedOperationId active.operationId with
        | some last => (.ok (some last.2), s)
        | none =>
          match s.transports[s.transport]? with
          | none => (.error "Pi RPC adapter has no transport", s)
          | some t =>
            if requestId ∈ t.pending then (.error ("duplicate in-flight Pi RPC id: " ++ requestId), s)
            else
              match t.failure with
              | some failure => (.error failure.text, s)
              | none =>
                let call : InterruptRequest ControlOperationRef :=
                  { expected := expectedOperationId
                    target := active
                    operation := some active
                    vendorCorrelationId := requestId
                    phase := .waiting }
                let entered := { s with
                  toPiRpcAdapter := s.modifyTransport s.transport fun t => { t with pending := t.pending ++ [requestId] }
                  aborts := s.aborts ++ [(call, s.transport)] }
                match free with
                | none => (.ok none, entered)
                | some written =>
                  let (wrote, s) := entered.writeAbort s.aborts.length (call, s.transport) written
                  (wrote.map fun _ => none, s)

def abortAnswered (s : PiSession) (i : Nat) (k : InterruptRequest ControlOperationRef × Nat) (error : Option String) : PiSession :=
  { s.dropAbort i k with
    lastAbort := some (interruptPair k.1.expected k.1.target.operationId,
      match error with
      | some detail => k.1.result .rejected detail
      | none => k.1.result .accepted "native abort acknowledged for the exact active Pi operation") }

end PiSession

inductive PiAction
  | adapter (step : PiStep)
  | interrupt (turnId expectedOperationId : Option String) (requestId : String) (free : Option Written)
  | writeAbort (i : Nat) (written : Written)
  | abortAnswered (i : Nat) (error : Option String)
  -- The transport broke before the response came, or the response was malformed.
  | abortLost (i : Nat)

def PiSession.step (limit interactionLimit : Nat) (s : PiSession) : PiAction → Option PiSession
  | .adapter step =>
    (s.toPiRpcAdapter.step limit interactionLimit step).map fun stepped => { s with toPiRpcAdapter := stepped.1 }
  | .interrupt turnId expectedOperationId requestId free =>
    some (s.interrupt turnId expectedOperationId requestId free).2
  | .writeAbort i written =>
    match s.aborts[i]? with
    | some k => if k.1.phase = .waiting then some (s.writeAbort i k written).2 else none
    | none => none
  | .abortAnswered i error =>
    match s.aborts[i]? with
    | some k => if k.1.phase = .awaiting then some (s.abortAnswered i k error) else none
    | none => none
  | .abortLost i =>
    match s.aborts[i]? with
    | some k => if k.1.phase = .awaiting then some (s.dropAbort i k) else none
    | none => none

/-- What `start` leaves. -/
structure PiSession.Started (s : PiSession) : Prop where
  adapter : s.toPiRpcAdapter.Started
  fresh : s = { toPiRpcAdapter := s.toPiRpcAdapter }

def piSystem (limit interactionLimit : Nat) (s : PiSession) : System PiSession PiAction := ⟨s, PiSession.step limit interactionLimit⟩

end Pi

namespace Codex

/-- `CodexAdapter` with its interrupts; `interruptWrites` is a ghost. -/
structure CodexSession extends CodexAdapter where
  interrupts : List (InterruptRequest String) := []
  lastInterrupt : Option ((String × String) × InterruptResult) := none
  interruptWrites : List (InterruptWrite String) := []

namespace CodexSession

def enterPhase (s : CodexSession) (i : Nat) (phase : Phase) : CodexSession :=
  { s with interrupts := s.interrupts.modify i fun k => { k with phase := phase } }

def writeInterrupt (s : CodexSession) (i : Nat) (k : InterruptRequest String) (written : Written) :
    Except String Unit × CodexSession :=
  let wrote (s : CodexSession) : CodexSession :=
    { s with interruptWrites := s.interruptWrites ++ [⟨i, k.expected, k.target, s.parent.activeTurnId⟩] }
  match written with
  | .refused => (.error "Codex app-server disconnected while writing JSON-RPC", s.enterPhase i .ended)
  | .broken => (.error "Codex app-server disconnected while writing JSON-RPC", wrote (s.enterPhase i .ended))
  | .drained => (.ok (), wrote (s.enterPhase i .awaiting))

def interrupt (s : CodexSession) (turnId : Option String) (free : Option Written) :
    Except String (Option InterruptResult) × CodexSession :=
  match s.parent.activeTurnId with
  | none => (.error "no active Codex turn to interrupt", s)
  | some active =>
    if turnId.isSome ∧ turnId ≠ some active then (.error "interrupt turn id does not match the active Codex turn", s)
    else
      match s.lastInterrupt.filter fun last => last.1 = interruptPair turnId active with
      | some last => (.ok (some last.2), s)
      | none =>
        if !s.connected then (.error "Codex app-server transport is not connected", s)
        else
          let call : InterruptRequest String :=
            { expected := turnId
              target := active
              operation := s.activeOperation
              vendorCorrelationId := active
              phase := .waiting }
          let entered := { s with interrupts := s.interrupts ++ [call] }
          match free with
          | none => (.ok none, entered)
          | some written =>
            let (wrote, s) := entered.writeInterrupt s.interrupts.length call written
            (wrote.map fun _ => none, s)

def interruptAnswered (s : CodexSession) (i : Nat) (k : InterruptRequest String) (error : Option String) : CodexSession :=
  { s.enterPhase i .ended with
    lastInterrupt := some (interruptPair k.expected k.target,
      match error with
      | some detail => k.result .rejected detail
      | none => k.result .accepted "native interrupt acknowledged for the exact active Codex turn") }

end CodexSession

inductive CodexAction
  | adapter (step : CodexStep)
  | interrupt (turnId expectedOperationId : Option String) (free : Option Written)
  | writeInterrupt (i : Nat) (written : Written)
  | interruptAnswered (i : Nat) (error : Option String)
  | interruptLost (i : Nat)

def CodexSession.step (limit completedTurnLimit : Nat) (s : CodexSession) : CodexAction → Option CodexSession
  | .adapter step =>
    (s.toCodexAdapter.step limit completedTurnLimit step).map fun stepped => { s with toCodexAdapter := stepped.1 }
  | .interrupt turnId _ free => some (s.interrupt turnId free).2
  | .writeInterrupt i written =>
    match s.interrupts[i]? with
    | some k => if k.phase = .waiting then some (s.writeInterrupt i k written).2 else none
    | none => none
  | .interruptAnswered i error =>
    match s.interrupts[i]? with
    | some k => if k.phase = .awaiting then some (s.interruptAnswered i k error) else none
    | none => none
  | .interruptLost i =>
    match s.interrupts[i]? with
    | some k => if k.phase = .awaiting then some (s.enterPhase i .ended) else none
    | none => none

/-- What `start` leaves. -/
structure CodexSession.Started (s : CodexSession) : Prop where
  adapter : s.toCodexAdapter.Started
  fresh : s = { toCodexAdapter := s.toCodexAdapter }

def codexSystem (limit completedTurnLimit : Nat) (s : CodexSession) : System CodexSession CodexAction :=
  ⟨s, CodexSession.step limit completedTurnLimit⟩

end Codex

end AgentsRemember.Adapter
