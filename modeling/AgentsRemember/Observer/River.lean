import AgentsRemember.Lib.System
import AgentsRemember.Observer.Retention

/-!
# The event river

`serving/events.py` and `compact_workspace_river`: clients that follow the logs
while these grow, are compacted, removed and written anew. A call is one step.
Only compaction can die between its two writes, and it does so before the new
base offset is stored.
-/

namespace AgentsRemember.Observer

namespace River

open Lib Lib.JsonText Lib.Lines Logs

def WORKSPACE_SOURCE : String := "workspace"

def WORKSPACE_EVENT_TTL_SECONDS : Int := seconds 3600

def REPLAY_WINDOW_SECONDS : Int := seconds 3600

/-- A connection. `cursor` are the offsets its server holds, `last` those in the id of the last record that the client received, at
first those it started with. `got` and `joined` keep what it received since it connected, and with which event of each source it
started. -/
structure Client where
  cursor : Dict String Nat
  last : Dict String Nat
  got : List RawEvent
  joined : String → Nat

/-- The logs on disk, and `history`: of each source, all events that were ever appended to it. -/
structure World where
  lifecycles : Dict String Bytes
  river : Option Bytes
  base : Nat
  clients : Nat → Option Client
  history : String → List Event

def sourceOf (lifecycleId : Option String) : String := if truthy lifecycleId then lifecycleId.getD "" else WORKSPACE_SOURCE

def World.log (w : World) (source : String) : Option Bytes :=
  if source = WORKSPACE_SOURCE then w.river else w.lifecycles.get? source

def World.baseOf (w : World) (source : String) : Nat := if source = WORKSPACE_SOURCE then w.base else 0

/-- `_discover_sources`. -/
def World.sources (w : World) : List Source :=
  ((w.lifecycles.keys.mergeSort fun a b => decide (a ≤ b)).filterMap fun id => (w.lifecycles.get? id).map fun bytes => ⟨id, bytes, 0⟩) ++
    (w.river.map fun bytes => (⟨WORKSPACE_SOURCE, bytes, w.base⟩ : Source)).toList

def World.write (w : World) (source : String) (bytes : Bytes) : World :=
  if source = WORKSPACE_SOURCE then { w with river := some bytes } else { w with lifecycles := w.lifecycles.set source bytes }

def World.append (w : World) (e : Event) : World :=
  if e.coalesced then w
  else
    let source := sourceOf e.lifecycleId
    { w.write source ((w.log source).getD [] ++ Utf8.encode (lineText (eventLine e))) with
      history := Function.update w.history source (w.history source ++ [e]) }

/-- `compact_workspace_river`, which may die before it stores the base offset. -/
def World.compact (w : World) (now : Int) (dies : Bool) : World :=
  match w.river with
  | none => w
  | some bytes =>
    let cut := retainedStart bytes (now - WORKSPACE_EVENT_TTL_SECONDS)
    if cut.2 = 0 then w
    else { w with river := some (bytes.drop cut.1), base := if dies then w.base else w.base + cut.1 }

def logPayloads (bytes : Bytes) : List Payload := (iterEventPayloads bytes).map (·.payload)

def lifecycleOffset (bytes : Bytes) (now : Int) : Nat :=
  if lifecycleIsDormant (logPayloads bytes) now then bytes.length else firstRetainedOffset bytes (now - REPLAY_WINDOW_SECONDS)

def World.initialEventOffsets (w : World) (now : Int) : Dict String Nat :=
  let offsets := w.lifecycles.mapKeyed fun id => lifecycleOffset ((w.lifecycles.get? id).getD []) now
  match w.river with
  | none => offsets
  | some bytes => offsets.set WORKSPACE_SOURCE (w.base + firstRetainedOffset bytes (now - WORKSPACE_EVENT_TTL_SECONDS))

def World.firstFrom (w : World) (offsets : Dict String Nat) (source : String) : Nat :=
  (w.history source).length -
    ((((w.log source).getD []).drop ((offsets.get? source).getD 0 - w.baseOf source)).filter isNewlineByte).length

def World.setClient (w : World) (c : Nat) (client : Client) : World := { w with clients := Function.update w.clients c (some client) }

/-- A read whose first `delivered` records reach the client; when not all do, it resumes after the last that did. -/
def World.readFor (w : World) (client : Client) (limit : Option Nat) (delivered : Nat) : Client :=
  let r := readNewEvents w.sources client.cursor limit
  let received := r.1.take delivered
  let last := ((received.getLast?).map (·.cursor)).getD client.last
  ⟨if r.1.length ≤ delivered then r.2 else last, last, client.got ++ received, client.joined⟩

inductive Action
  | append (e : Event)
  | compact (now : Int) (dies : Bool)
  /-- `prune_expired_lifecycle_event_logs` or the sweep of a session; which logs go does not matter to a reader. -/
  | remove (goes : String → Bool)
  | connect (client : Nat) (now : Int)
  | read (client : Nat) (limit : Option Nat) (delivered : Nat)
  /-- The `ready` record, whose id holds the offsets of the connection. -/
  | ready (client : Nat)
  | resume (client : Nat)

def World.step (w : World) : Action → Option World
  -- lifecycle ids are ULIDs
  | .append e => if e.lifecycleId = some WORKSPACE_SOURCE then none else some (w.append e)
  | .compact now dies => some (w.compact now dies)
  | .remove goes => some { w with lifecycles := w.lifecycles.filterKeys fun id => !goes id }
  | .connect c now =>
    let offsets := w.initialEventOffsets now
    some (w.setClient c ⟨offsets, offsets, [], w.firstFrom offsets⟩)
  | .read c limit delivered => (w.clients c).map fun client => w.setClient c (w.readFor client limit delivered)
  | .ready c => (w.clients c).map fun client => w.setClient c { client with last := client.cursor }
  -- an empty id is a new connection
  | .resume c => (w.clients c).bind fun client =>
    if client.last.entries = [] then none else some (w.setClient c { client with cursor := client.last })

def riverSystem : System World Action where
  init := ⟨.empty, none, 0, fun _ => none, fun _ => []⟩
  step := World.step

end River

end AgentsRemember.Observer
