import AgentsRemember.Lib.System
import AgentsRemember.Observer.Retention

/-!
# The ambient lifecycle

`observer/ambient.py`: what each session holds in memory and emits to the logs.
Sessions, the dashboard's pruning and the sweep of dormant fleeting logs run in
any order; a body under the lock of its session is one step, and so is each
call that removes logs. Writes to disk succeed.
-/

namespace AgentsRemember.Observer

namespace Ambient

open Lib Lib.JsonText Logs

/-! ## A session -/

structure LifecycleState where
  id : String
  state : State
  phase : Phase
  fleeting : Bool
  startedAt : String
  enclosure : Option String
  repoId : Option String
  scope : Option String

structure Session where
  current : Option LifecycleState
  lastActivity : Option String

inductive SaveDecision
  | save
  | discard

structure Emission where
  holder : LifecycleState
  kind : String
  trust : Trust
  actor : Actor
  data : List (String × Value)

inductive Op
  | start (fleeting : Bool) (phase : Phase)
  | block (ask : Option Value)
  | resume
  | awaitDeveloper (summary : String)
  | resumeFromAwait
  | finish (outcome : String)
  | phase (phase : Phase)
  | switch (onUnsaved : Option SaveDecision) (fleeting : Bool) (phase : Phase)
  | promote (enclosure : String) (repoId : Option String) (scope : String)
  | attach (lifecycleId enclosure : String) (repoId : Option String) (onUnsaved : Option SaveDecision) (phase : Phase)
  | emitTool (tool : String) (tokens ok : Value)
  | emitReadPacket (repoId : String) (files : Value)
  | heartbeat

def INACTIVITY_CUTOFF_SECONDS : Int := seconds 600

def computeScope (repoId : Option String) : String := if truthy repoId then repoId.getD "" else "0_unscoped"

def started (c : LifecycleState) : Emission :=
  ⟨c, "lifecycle.started", .declared, .model, [("phase", text c.phase.text), ("fleeting", .scalar (.bool c.fleeting))]⟩

def promoted (c : LifecycleState) (scope : String) : Emission := ⟨c, "lifecycle.promoted", .observed, .system, [("scope", text scope)]⟩

def paused (c : LifecycleState) (cause : String) : Emission := ⟨c, "lifecycle.paused", .observed, .system, [("cause", text cause)]⟩

def ended (c : LifecycleState) (outcome : String) : Emission := ⟨c, "lifecycle.ended", .declared, .model, [("outcome", text outcome)]⟩

def saved (c : LifecycleState) : LifecycleState := { c with fleeting := false, scope := some (computeScope c.repoId) }

/-- `_leave_current_locked`: what is emitted, or no value where the save gate refuses. -/
def leave : Option LifecycleState → Option SaveDecision → Option (List Emission)
  | none, _ => some []
  | some c, decision =>
    if c.fleeting then
      match decision with
      | none => none
      | some .save => some [promoted (saved c) (computeScope c.repoId), paused (saved c) "switched-away"]
      | some .discard => some [ended c "abandoned"]
    else some [paused c "switched-away"]

def freshState (id : String) (fleeting : Bool) (phase : Phase) (ts : String) : LifecycleState :=
  ⟨id, .running, phase, fleeting, ts, none, none, none⟩

def goesOn (c : LifecycleState) (kind : String) (trust : Trust) (actor : Actor) (data : List (String × Value)) :
    Option (Option LifecycleState × List Emission) := some (some c, [⟨c, kind, trust, actor, data⟩])

/-- One operation: what is current afterwards and what was emitted, or no value where it raises. -/
def Op.run (s : Session) (minted : String) (now : Stamp) : Op → Option (Option LifecycleState × List Emission)
  | .start fleeting p =>
    match s.current with
    | some _ => none
    | none =>
      let c := freshState minted fleeting p (isoformat now)
      some (some c, [started c])
  | .block ask => do
    let c ← s.current
    if c.state = .running then
      goesOn { c with state := .blocked } "lifecycle.blocked" .declared .model ((ask.map fun ask => [("ask", ask)]).getD [])
    else none
  | .resume => do
    let c ← s.current
    if c.state = .blocked then goesOn { c with state := .running } "lifecycle.resumed" .declared .model [] else none
  | .awaitDeveloper summary => do
    let c ← s.current
    if c.state = .running then
      goesOn { c with state := .awaitingDeveloper } "lifecycle.awaiting-developer" .declared .model [("summary", text summary)]
    else none
  | .resumeFromAwait => do
    let c ← s.current
    if c.state = .awaitingDeveloper then goesOn { c with state := .running } "lifecycle.resumed" .declared .model [] else none
  | .finish outcome => do
    let state ← stateOf outcome
    if state.isTerminal then
      let c ← s.current
      some (none, [ended c outcome])
    else none
  | .phase p => do
    let c ← s.current
    goesOn { c with phase := p } "lifecycle.phase-changed" .declared .model [("phase", text p.text)]
  | .switch onUnsaved fleeting p => do
    let left ← leave s.current onUnsaved
    let c := freshState minted fleeting p (isoformat now)
    some (some c, left ++ [started c])
  | .promote enclosure repoId scope => do
    let c ← s.current
    let c := { c with fleeting := false, enclosure := some enclosure, repoId := repoId, scope := some scope }
    some (some c, [promoted c scope])
  | .attach lifecycleId enclosure repoId onUnsaved p =>
    if s.current.any fun c => c.id = lifecycleId then some (s.current, [])
    else do
      let left ← leave s.current onUnsaved
      let c : LifecycleState :=
        ⟨lifecycleId, .running, p, false, isoformat now, some enclosure, repoId, some (computeScope repoId)⟩
      some (some c, left ++ [⟨c, "lifecycle.resumed", .observed, .system, [("cause", text "adopted")]⟩])
  | .emitTool tool tokens ok =>
    match s.current with
    | none => some (none, [])
    | some c => goesOn c "tool.completed" .observed .model [("tool", text tool), ("tokens", tokens), ("ok", ok)]
  | .emitReadPacket repoId files =>
    match s.current with
    | none => some (none, [])
    | some c => goesOn c "read.packet" .observed .model [("repoId", text repoId), ("files", files)]
  | .heartbeat =>
    match s.current with
    | none => some (none, [])
    | some c =>
      if c.state.isTerminal then some (some c, [])
      else if (s.lastActivity.bind fun last => ageSeconds last now.utc).any fun age => INACTIVITY_CUTOFF_SECONDS < age then some (some c, [])
      else goesOn c heartbeatKind .observed .system [("state", text c.state.text), ("phase", text c.phase.text)]

/-! ## The store -/

structure Log where
  events : List Event
  heartbeat : Option Event

def emptyLog : Log := ⟨[], none⟩

def Log.read (l : Log) : List Event := withHeartbeat l.events l.heartbeat

def Log.append (l : Log) (e : Event) : Log :=
  if e.kind = heartbeatKind then { l with heartbeat := some e } else { l with events := l.events ++ [e] }

def Emission.event (e : Emission) (id ts : String) : Event where
  schemaVersion := observerEventSchema
  id := id
  ts := ts
  kind := e.kind
  trust := e.trust
  actor := e.actor
  data := e.data
  lifecycleId := some e.holder.id
  enclosure := e.holder.enclosure
  repoId := e.holder.repoId
  sessionId := none
  spanId := none

/-- Ids that never repeat. -/
structure IdFactory where
  mint : Nat → String
  injective : Function.Injective mint

structure World where
  logs : String → Log
  sessions : Nat → Session
  minted : Nat

inductive Action
  | act (session : Nat) (op : Op) (now : Stamp)
  /-- `prune_expired_lifecycle_event_logs`. -/
  | prune (protectedIds entries : List String) (now : Int)
  /-- `_reap_stale_fleeting` of a session. -/
  | reap (session : Nat) (ttl : Int) (entries : List String) (now : Int)

variable (factory : IdFactory)

def emitAll (minted : Nat) (ts : String) : List Emission → (String → Log) → String → Log
  | [], logs => logs
  | e :: es, logs =>
    let event := e.event (factory.mint minted) ts
    emitAll (minted + 1) ts es (Function.update logs e.holder.id ((logs e.holder.id).append event))

def World.act (w : World) (session : Nat) (op : Op) (now : Stamp) : Option World :=
  (op.run (w.sessions session) (factory.mint w.minted) now).map fun r =>
    let active := r.2.any fun e => e.kind ≠ heartbeatKind
    { logs := emitAll factory (w.minted + 1) (isoformat now) r.2 w.logs
      sessions := Function.update w.sessions session
        ⟨r.1, if active then some (isoformat now) else (w.sessions session).lastActivity⟩
      minted := w.minted + 1 + r.2.length }

def World.isDormant (w : World) (now : Int) (id : String) : Bool := lifecycleIsDormant ((w.logs id).events.map Event.dump) now

def World.remove (w : World) (p : String → Bool) (entries : List String) : World :=
  { w with logs := fun id => if id ∈ entries ∧ p id = true then emptyLog else w.logs id }

def World.step (w : World) : Action → Option World
  | .act session op now => w.act factory session op now
  | .prune protectedIds entries now => some (w.remove (fun id => !protectedIds.contains id && w.isDormant now id) entries)
  | .reap session ttl entries now =>
    some (w.remove (fun id => !((w.sessions session).current.any fun c => c.id = id) && isDormantFleeting (w.logs id).read ttl now) entries)

def ambientSystem : System World Action where
  init := ⟨fun _ => emptyLog, fun _ => ⟨none, none⟩, 0⟩
  step := World.step factory

end Ambient

end AgentsRemember.Observer
