import AgentsRemember.Adapter.Codex

/-!
# A Codex adapter and its app server

The adapter with the turns that the server runs for it. A start that is written
begins a turn; its answer and its notifications come on two ways, in any order,
and a server that is gone takes its turns with it.
-/

namespace AgentsRemember.Adapter.Codex

open Lib
open Harness (ControlOperationRef)

structure ServerTurn where
  id : String
  requestId : String
  operation : ControlOperationRef
  /-- Its `turn/started` and its `turn/completed` were handled. -/
  announced : Bool := false
  completed : Bool := false
  /-- The answer to its start was terminal. -/
  terminal : Bool := false
  /-- The adapter said that it runs the operation. -/
  accepted : Bool := false
  /-- The server refused its start, or is gone. -/
  gone : Bool := false

def ServerTurn.ended (t : ServerTurn) : Bool := t.completed || t.terminal || t.gone

/-- `starting` is the turn of the written start; `settlements` are the `completed` events and the terminal stamps, with their
turns. All three are ghosts. -/
structure CodexServed extends CodexAdapter where
  turns : List ServerTurn := []
  starting : Option String := none
  settlements : List (String × ControlOperationRef) := []

namespace CodexAdapter

variable (completedTurnLimit : Nat)

def completedEvent (s : CodexAdapter) (turnId : String) : Option ControlOperationRef :=
  if (s.parent.completedTurns.get? turnId).isNone ∧ (s.handleTurnCompleted completedTurnLimit turnId).isSome then
    s.parent.turnOperations.get? turnId
  else none

def startedTurn (s : CodexAdapter) (k : Call) (turnId status : String) : CodexAdapter :=
  let s := s.settle k.request.requestId (if status = "inProgress" then .accepted else .completed)
  if status = "inProgress" then
    { s with
      parent := { s.parent with activeTurnId := some turnId }
      activeOperation := some k.operation }
  else s

def answerSettlements (s : CodexAdapter) (k : Call) : TurnAnswer → List (String × ControlOperationRef)
  | .turn turnId status =>
    match s.bindStartedTurn k turnId with
    | (_, none) => []
    | (s, some buffered) =>
      if status = "failed" ∨ status = "interrupted" then []
      else
        match buffered with
        | some completed =>
          (((s.startedTurn k turnId status).completedEvent completedTurnLimit completed).map fun operation => (completed, operation)).toList
        | none => if status = "inProgress" then [] else [(turnId, k.operation)]
  | _ => []

/-- The receipt says that the turn runs, or ran. -/
def accepts : Option Ended → Bool
  | some (_, .returned (.receipt receipt)) => receipt.acceptance = .immediate
  | _ => false

end CodexAdapter

inductive ServedAction
  -- The turn that the server would begin.
  | write (broken : Bool) (turnId : String)
  | adapter (step : CodexStep)
  -- A notification that is no turn's.
  | item

namespace CodexServed

variable (limit completedTurnLimit : Nat)

def modifyTurn (s : CodexServed) (turnId : String) (f : ServerTurn → ServerTurn) : CodexServed :=
  { s with turns := s.turns.map fun t => if t.id = turnId then f t else t }

def lost (s : CodexServed) : List ServerTurn :=
  if s.control = .disconnected then s.turns.map fun t => { t with gone := true } else s.turns

/-- The ghosts of a step. -/
def after (s : CodexServed) (stepped : CodexAdapter × Option Ended) : CodexStep → CodexServed
  | .answered answer =>
    let settlements := (s.call.map fun k => s.answerSettlements completedTurnLimit k answer).getD []
    let t := match answer with
      | .turn turnId status => s.modifyTurn turnId fun t =>
        { t with
          terminal := status ≠ "inProgress"
          accepted := CodexAdapter.accepts stepped.2 }
      | .rpcError => s.modifyTurn (s.starting.getD "") fun t => { t with gone := true }
      | _ => s
    { t with
      toCodexAdapter := stepped.1
      starting := none
      settlements := s.settlements ++ settlements }
  | .turnStarted turnId =>
    { s.modifyTurn turnId fun t => { t with announced := true } with toCodexAdapter := stepped.1 }
  | .turnCompleted turnId =>
    { s.modifyTurn turnId fun t => { t with completed := true } with
      toCodexAdapter := stepped.1
      settlements := s.settlements ++
        ((s.completedEvent completedTurnLimit turnId).map fun operation => (turnId, operation)).toList }
  | .reconnect =>
    { s with
      toCodexAdapter := stepped.1
      turns := s.lost }
  | .reconcile requestId turn =>
    let reconciled := (s.submissions.get? requestId).any fun e => e.state = .unknown
    { s with
      toCodexAdapter := stepped.1
      turns := if reconciled then
          s.lost.map fun t => if some t.id = turn then { t with accepted := true } else t
        else s.turns }
  | _ => { s with toCodexAdapter := stepped.1 }

def step (s : CodexServed) : ServedAction → Option CodexServed
  | .write broken turnId =>
    (s.toCodexAdapter.step limit completedTurnLimit (.write broken)).map fun stepped =>
      match s.call.filter fun k => !s.becameBusy k.operation with
      | none => { s with toCodexAdapter := stepped.1 }
      | some k =>
        { s with
          toCodexAdapter := stepped.1
          turns := s.turns ++
            [{ id := turnId
               requestId := k.request.requestId
               operation := k.operation }]
          starting := if broken then none else some turnId }
  | .adapter (.write _) => none
  | .adapter i => (s.toCodexAdapter.step limit completedTurnLimit i).map fun stepped => s.after completedTurnLimit stepped i
  | .item => some s

/-! ## The server and the adapter -/

def turn? (s : CodexServed) (turnId : String) : Option ServerTurn := s.turns.find? fun t => t.id = turnId

/-- A server that is well behaved: new turns, one `turn/started` and one `turn/completed` of each, in this order, an answer
about the turn of the start, and no error of a turn that it runs. -/
def faithful (s : CodexServed) : ServedAction → Bool
  | .write _ turnId => (s.turn? turnId).isNone
  | .adapter (.answered (.turn turnId status)) =>
    s.starting = some turnId && (s.turn? turnId).any (fun t => !t.gone) &&
      status ∈ ["completed", "interrupted", "failed", "inProgress"]
  | .adapter (.answered .rpcError) => s.starting.any fun id => (s.turn? id).any fun t => !t.announced && !t.completed
  | .adapter (.answered .malformed) => false
  | .adapter (.turnStarted turnId) => (s.turn? turnId).any fun t => !t.announced && !t.completed && !t.gone
  | .adapter (.turnCompleted turnId) => (s.turn? turnId).any fun t => !t.completed && !t.gone
  | .adapter (.readerStopped failed) => !failed
  | .adapter (.reconcile requestId (some turnId)) => (s.turn? turnId).any fun t => t.requestId = requestId
  | _ => true

/-- No turn is active, and no completion is buffered. -/
def quiet (s : CodexServed) : Bool := s.parent.activeTurnId.isNone && s.parent.unboundCompletion.isNone

def bound (s : CodexServed) (turnId : String) : Bool := (s.parent.turnOperations.get? turnId).isSome

/-- No start is answered as ended once its turn is active but by a completion that is buffered, no notification comes of a
turn that is neither starting nor bound (nor, as ended, retained), no connection is lost under a turn, and no turn is
accepted by a reconciliation. -/
def calm (s : CodexServed) : ServedAction → Bool
  | .adapter (.answered (.turn turnId status)) =>
    status = "inProgress" || s.parent.activeTurnId ≠ some turnId ||
      (status = "completed" && s.parent.unboundCompletion.isSome)
  | .adapter (.answered .disconnected) => s.quiet
  | .adapter (.turnStarted turnId) => s.starting = some turnId || s.bound turnId
  | .adapter (.turnCompleted turnId) =>
    s.starting = some turnId || s.bound turnId || (s.parent.completedTurns.get? turnId).isSome
  | .adapter .reconnect => s.control ≠ .disconnected || s.quiet
  | .adapter (.reconcile requestId turn) =>
    (s.submissions.get? requestId).all (fun e => e.state ≠ .unknown) ||
      (turn.isNone && (s.control ≠ .disconnected || s.quiet))
  | _ => true

/-- What `start` leaves. -/
structure Started (s : CodexServed) : Prop where
  adapter : s.toCodexAdapter.Started
  parent : s.parent = ⟨none, .empty, .empty, none, []⟩
  activeOperation : s.activeOperation = none
  fresh : s = { toCodexAdapter := s.toCodexAdapter }

/-- What the adapter owes to its turns. -/
structure TurnsSound (s : CodexServed) : Prop where
  -- Every accepted operation whose turn ended was settled, once, and with its own operation.
  settled : ∀ t ∈ s.turns, t.accepted = true → t.ended = true → (t.id, t.operation) ∈ s.settlements
  once : (s.settlements.map Prod.fst).Nodup
  own : ∀ e ∈ s.settlements, ∃ t ∈ s.turns, t.id = e.1 ∧ t.operation = e.2 ∧ t.accepted = true
  survives : s.control ≠ .failed
  -- No turn runs, and no start is pending.
  free : (∀ t ∈ s.turns, t.ended = true) → s.call = none → s.parent.activeTurnId = none ∧ s.activeOperation = none
  preflight : (∀ t ∈ s.turns, t.ended = true) → s.call = none → s.control = .ready → s.stopped = false →
    s.parent.pendingInteractions = [] → s.toCodexAdapter.preflight = true

end CodexServed

def servedSystem (limit completedTurnLimit : Nat) (s : CodexServed) : System CodexServed ServedAction :=
  ⟨s, CodexServed.step limit completedTurnLimit⟩

end AgentsRemember.Adapter.Codex
