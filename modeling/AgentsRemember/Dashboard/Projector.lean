import AgentsRemember.Lib.Json
import Mathlib.Data.List.Sort
import AgentsRemember.Lib.System

/-!
# Values on the state channel

The server compares Python values, the browser what `JSON.parse` made of them.
Python's `==` takes a boolean for the number it equals and both zeros for one;
`Object.is` tells all of these apart.
-/

namespace AgentsRemember.Dashboard

open Lib

inductive Number
  | finite (value : Rat)
  | negativeZero
  deriving DecidableEq

inductive Scalar
  | null
  | bool (b : Bool)
  | num (n : Number)
  | str (s : String)
  deriving DecidableEq

abbrev Value := Json Scalar

structure Payload where
  value : Value
  wellKeyed : value.wellKeyed = true

def Number.value : Number → Rat
  | .finite value => value
  | .negativeZero => 0

def Scalar.numeric : Scalar → Option Rat
  | .bool b => some (if b then 1 else 0)
  | .num n => some n.value
  | .null | .str _ => none

def pythonEq (s t : Scalar) : Bool :=
  match s.numeric, t.numeric with
  | some x, some y => decide (x = y)
  | none, none => decide (s = t)
  | _, _ => false

def objectIs (s t : Scalar) : Bool := decide (s = t)

theorem pythonEq_self (s : Scalar) : pythonEq s s = true := by
  cases s <;> simp [pythonEq, Scalar.numeric]

def volatileAgeFields : List String :=
  ["staleSeconds", "snapshotStaleSeconds", "ageSeconds", "waitSeconds", "heartbeatAgeSeconds", "elapsedSeconds"]

def servedVolatileAgeFields : List String :=
  ["staleSeconds", "snapshotStaleSeconds", "ageSeconds", "waitSeconds", "heartbeatAgeSeconds", "elapsedSeconds"]

def stableDump (payload : Payload) : Value := payload.value.dropKeys volatileAgeFields.contains

def pythonEquals (a b : Value) : Bool := Json.deepEquals pythonEq (fun _ => false) a b

def stableEquals (a b : Payload) : Bool := Json.deepEquals objectIs servedVolatileAgeFields.contains a.value b.value

def parsedScalar (double : Number → Number) : Scalar → Scalar
  | .num n => .num (double n)
  | s => s

def parsed (double : Number → Number) (payload : Payload) : Payload where
  value := payload.value.mapScalar (parsedScalar double)
  wellKeyed := by rw [Json.wellKeyed_mapScalar, payload.wellKeyed]

/-! ## Equal up to the volatile ages -/

def SameStable (a b : Payload) : Prop := Json.SameUpTo volatileAgeFields.contains a.value b.value

theorem SameStable.refl (a : Payload) : SameStable a a := Json.SameUpTo.refl a.value

variable {a b : Payload}

theorem SameStable.trans {c : Payload} (h : SameStable a b) (h' : SameStable b c) : SameStable a c :=
  Json.SameUpTo.trans h h'

theorem SameStable.parsed (h : SameStable a b) (double : Number → Number) :
    SameStable (parsed double a) (parsed double b) := Json.SameUpTo.mapScalar h _

theorem stableEquals_iff : stableEquals a b = true ↔ SameStable a b :=
  Json.deepEquals_eq_iff a.wellKeyed b.wellKeyed

def ToldApart (a b : Payload) : Prop := pythonEquals (stableDump a) (stableDump b) = true → stableEquals a b = true

instance (a b : Payload) : Decidable (ToldApart a b) := inferInstanceAs (Decidable (_ → _))

theorem pythonEquals_of_sameStable (h : SameStable a b) : pythonEquals (stableDump a) (stableDump b) = true := by
  rw [pythonEquals, stableDump, stableDump, Json.deepEquals_dropKeys]
  exact Json.deepEquals_of_sameUpTo pythonEq_self a.wellKeyed b.wellKeyed h

theorem ToldApart.iff (h : ToldApart a b) : pythonEquals (stableDump a) (stableDump b) = true ↔ SameStable a b :=
  ⟨fun he => stableEquals_iff.mp (h he), pythonEquals_of_sameStable⟩

/-! ## The diff between two workspace projections

Per entity kind the nodes whose stable form changed, in projection order, then
the ids that are gone, sorted; then the three whole values. A projection whose
only changes are its ages has no events.
-/

structure Node (keyField : String) where
  ident : String
  payload : Payload
  keyed : payload.value.child (.key keyField) = some (.scalar (.str ident))

inductive EntityKind
  | lifecycle | enclosure | provider
  deriving DecidableEq

def EntityKind.all : List EntityKind := [.lifecycle, .enclosure, .provider]

theorem EntityKind.mem_all (k : EntityKind) : k ∈ EntityKind.all := by cases k <;> simp [EntityKind.all]

def EntityKind.name : EntityKind → String
  | .lifecycle => "lifecycle"
  | .enclosure => "enclosure"
  | .provider => "provider"

def EntityKind.removed : EntityKind → String
  | .lifecycle => "lifecycle.removed"
  | .enclosure => "enclosure.removed"
  | .provider => "provider.removed"

def EntityKind.keyField : EntityKind → String
  | .lifecycle => "id"
  | .enclosure => "enclosure"
  | .provider => "id"

/-- One whole projection; the nodes of a kind have distinct keys. -/
structure WorkspaceProjection where
  lifecycles : List (Node "id")
  enclosures : List (Node "enclosure")
  providers : List (Node "id")
  activeWorktreeGroups : List String
  metrics : Payload
  analytics : Payload
  lifecyclesUnique : (lifecycles.map Node.ident).Nodup
  enclosuresUnique : (enclosures.map Node.ident).Nodup
  providersUnique : (providers.map Node.ident).Nodup

def WorkspaceProjection.nodes (p : WorkspaceProjection) : (k : EntityKind) → List (Node k.keyField)
  | .lifecycle => p.lifecycles
  | .enclosure => p.enclosures
  | .provider => p.providers

theorem WorkspaceProjection.unique (p : WorkspaceProjection) : ∀ k, ((p.nodes k).map Node.ident).Nodup
  | .lifecycle => p.lifecyclesUnique
  | .enclosure => p.enclosuresUnique
  | .provider => p.providersUnique

def WorkspaceProjection.node? (p : WorkspaceProjection) (k : EntityKind) (ident : String) : Option (Node k.keyField) :=
  (p.nodes k).find? fun n => decide (n.ident = ident)

structure StableProjectionState where
  lifecycles : Dict String Value
  enclosures : Dict String Value
  providers : Dict String Value
  activeWorktreeGroups : List String
  metrics : Value
  analytics : Value

def StableProjectionState.collection (s : StableProjectionState) : EntityKind → Dict String Value
  | .lifecycle => s.lifecycles
  | .enclosure => s.enclosures
  | .provider => s.providers

def stableCollection {key : String} (nodes : List (Node key)) : Dict String Value :=
  Dict.ofEntries (nodes.map fun item => (item.ident, stableDump item.payload))

def stableProjectionState (p : WorkspaceProjection) : StableProjectionState where
  lifecycles := stableCollection p.lifecycles
  enclosures := stableCollection p.enclosures
  providers := stableCollection p.providers
  activeWorktreeGroups := p.activeWorktreeGroups
  metrics := stableDump p.metrics
  analytics := stableDump p.analytics

/-! ## Events -/

inductive DeltaEvent
  | snapshot (projection : WorkspaceProjection)
  | named (event : String) (data : Payload)

def marker (key : String) (value : Value) (h : value.wellKeyed = true) : Payload where
  value := .obj [(key, value)]
  wellKeyed := by simp [Json.wellKeyed, Json.wellKeyedFields, h]

def pythonEqualsOpt : Option Value → Option Value → Bool
  | some a, some b => pythonEquals a b
  | none, none => true
  | _, _ => false

def upsertDeltas {key : String} (name : String) (currentNodes : List (Node key)) (previousStable currentStable : Dict String Value) :
    List DeltaEvent :=
  let currentBy := Dict.ofEntries (currentNodes.map fun item => (item.ident, item))
  (currentBy.entries.filter fun e => !pythonEqualsOpt (previousStable.get? e.1) (currentStable.get? e.1)).map fun e =>
    .named name e.2.payload

def removedIdents (previousStable currentStable : Dict String Value) : List String :=
  (previousStable.keys.filter fun ident => (currentStable.get? ident).isNone).insertionSort (· ≤ ·)

def removedDeltas (name key : String) (previousStable currentStable : Dict String Value) : List DeltaEvent :=
  (removedIdents previousStable currentStable).map fun ident => .named name (marker key (.scalar (.str ident)) rfl)

def collectionDeltas (k : EntityKind) (currentNodes : List (Node k.keyField)) (previousStable currentStable : Dict String Value) :
    List DeltaEvent :=
  upsertDeltas k.name currentNodes previousStable currentStable ++
    removedDeltas k.removed k.keyField previousStable currentStable

theorem wellKeyed_texts : ∀ texts : List String,
    (Json.arr (texts.map fun text => Json.scalar (Scalar.str text))).wellKeyed = true
  | [] => rfl
  | text :: texts => by
    have h := wellKeyed_texts texts
    simpa [Json.wellKeyed, Json.wellKeyedItems] using h

def groupsPayload (groups : List String) : Payload where
  value := .arr (groups.map fun group => .scalar (.str group))
  wellKeyed := wellKeyed_texts groups

def wholeDeltas (current : WorkspaceProjection) (prev cur : StableProjectionState) : List DeltaEvent :=
  (if prev.activeWorktreeGroups ≠ cur.activeWorktreeGroups then
    [.named "activeWorktreeGroups"
      (marker "activeWorktreeGroups" (groupsPayload current.activeWorktreeGroups).value (groupsPayload _).wellKeyed)]
  else []) ++
  (if !pythonEquals prev.metrics cur.metrics then [.named "metrics" current.metrics] else []) ++
  if !pythonEquals prev.analytics cur.analytics then [.named "analytics" current.analytics] else []

def diffProjection (previous : Option WorkspaceProjection) (current : WorkspaceProjection)
    (previousState currentState : Option StableProjectionState) : List DeltaEvent :=
  match previous with
  | none => []
  | some previous =>
    let prev := previousState.getD (stableProjectionState previous)
    let cur := currentState.getD (stableProjectionState current)
    collectionDeltas .lifecycle current.lifecycles prev.lifecycles cur.lifecycles ++
      collectionDeltas .enclosure current.enclosures prev.enclosures cur.enclosures ++
      collectionDeltas .provider current.providers prev.providers cur.providers ++
      wholeDeltas current prev cur

/-! ## The dashboard's store

The browser keeps the nodes of each kind by the key it reads from their
payloads. A snapshot is merged into what is there, a named event goes through
its reducer; a value that is stable-equal to the stored one leaves it in place.
-/

structure DashboardState where
  lifecycles : Dict String Payload
  enclosures : Dict String Payload
  providers : Dict String Payload
  activeWorktreeGroups : Payload
  metrics : Payload
  analytics : Payload

def emptyDashboard : DashboardState := ⟨Dict.empty, Dict.empty, Dict.empty, ⟨.arr [], rfl⟩, ⟨.scalar .null, rfl⟩, ⟨.scalar .null, rfl⟩⟩

def DashboardState.collection (s : DashboardState) : EntityKind → Dict String Payload
  | .lifecycle => s.lifecycles
  | .enclosure => s.enclosures
  | .provider => s.providers

def DashboardState.setCollection (s : DashboardState) (k : EntityKind) (collection : Dict String Payload) : DashboardState :=
  match k with
  | .lifecycle => { s with lifecycles := collection }
  | .enclosure => { s with enclosures := collection }
  | .provider => { s with providers := collection }

def keyOf (keyField : String) (payload : Payload) : String :=
  match payload.value.child (.key keyField) with
  | some (.scalar (.str ident)) => ident
  | _ => "undefined"

def reuse (current incoming : Payload) : Payload := if stableEquals current incoming then current else incoming

def mergeStep (keyField : String) (existing : Dict String Payload) (acc : Dict String Payload × Bool) (item : Payload) :
    Dict String Payload × Bool :=
  let ident := keyOf keyField item
  match existing.get? ident with
  | some current =>
    if stableEquals current item then (acc.1.set ident current, acc.2) else (acc.1.set ident item, true)
  | none => (acc.1.set ident item, true)

def mergeKeyed (keyField : String) (existing : Dict String Payload) (incoming : List Payload) : Dict String Payload :=
  let merged := incoming.foldl (mergeStep keyField existing) (Dict.empty, false)
  if merged.2 = false ∧ existing.keys.length = incoming.length then existing else merged.1

section
variable (double : Number → Number)

def applySnapshot (s : DashboardState) (p : WorkspaceProjection) : DashboardState where
  lifecycles := mergeKeyed "id" s.lifecycles (p.lifecycles.map fun n => parsed double n.payload)
  enclosures := mergeKeyed "enclosure" s.enclosures (p.enclosures.map fun n => parsed double n.payload)
  providers := mergeKeyed "id" s.providers (p.providers.map fun n => parsed double n.payload)
  activeWorktreeGroups := reuse s.activeWorktreeGroups (parsed double (groupsPayload p.activeWorktreeGroups))
  metrics := reuse s.metrics (parsed double p.metrics)
  analytics := reuse s.analytics (parsed double p.analytics)

end

/-- The reducer of a node event; `none` leaves the store as it is. -/
def upsertNode (keyField : String) (collection : Dict String Payload) (node : Payload) : Option (Dict String Payload) :=
  let unchanged := match collection.get? (keyOf keyField node) with
    | some current => stableEquals current node
    | none => false
  if unchanged then none else some (collection.set (keyOf keyField node) node)

def removeNode (keyField : String) (collection : Dict String Payload) (data : Payload) : Option (Dict String Payload) :=
  let id := keyOf keyField data
  if (collection.get? id).isSome then some (collection.erase id) else none

def replaceValue (current incoming : Payload) : Option Payload := if stableEquals current incoming then none else some incoming

def propertyOf (data : Payload) (key : String) : Payload :=
  match h : data.value.child (.key key) with
  | some value => ⟨value, Json.wellKeyed_child data.wellKeyed h⟩
  | none => ⟨.scalar .null, rfl⟩

def reduceDelta (s : DashboardState) (event : String) (data : Payload) : Option DashboardState :=
  match event with
  | "lifecycle" => (upsertNode "id" s.lifecycles data).map fun lifecycles => { s with lifecycles := lifecycles }
  | "lifecycle.removed" => (removeNode "id" s.lifecycles data).map fun lifecycles => { s with lifecycles := lifecycles }
  | "enclosure" => (upsertNode "enclosure" s.enclosures data).map fun enclosures => { s with enclosures := enclosures }
  | "enclosure.removed" => (removeNode "enclosure" s.enclosures data).map fun enclosures => { s with enclosures := enclosures }
  | "provider" => (upsertNode "id" s.providers data).map fun providers => { s with providers := providers }
  | "provider.removed" => (removeNode "id" s.providers data).map fun providers => { s with providers := providers }
  | "activeWorktreeGroups" =>
    (replaceValue s.activeWorktreeGroups (propertyOf data "activeWorktreeGroups")).map fun groups =>
      { s with activeWorktreeGroups := groups }
  | "metrics" => (replaceValue s.metrics data).map fun metrics => { s with metrics := metrics }
  | "analytics" => (replaceValue s.analytics data).map fun analytics => { s with analytics := analytics }
  | _ => none

def applyDelta (s : DashboardState) (event : String) (data : Payload) : DashboardState := (reduceDelta s event data).getD s

def stateEvents : List String :=
  ["lifecycle", "lifecycle.removed", "enclosure", "enclosure.removed", "provider", "provider.removed", "activeWorktreeGroups",
    "metrics", "analytics"]

def onMessage (double : Number → Number) (s : DashboardState) : DeltaEvent → DashboardState
  | .snapshot p => applySnapshot double s p
  | .named event data => if event ∈ stateEvents then applyDelta s event (parsed double data) else s

/-! ## The projector and its subscribers

One tick publishes a projection and puts the events of its diff into every
queue; a subscription captures the published projection and registers its queue
in one turn. A subscriber's browser applies what it receives, in order.
-/

abbrev SequencedEvent := Nat × DeltaEvent

structure Subscriber where
  attached : Bool
  queue : List SequencedEvent
  received : List SequencedEvent
  dashboard : DashboardState

structure Projector where
  seq : Nat
  published : Option WorkspaceProjection
  latestStable : Option StableProjectionState
  subscribers : List Subscriber

def primedProjector (first : Option WorkspaceProjection) : Projector := ⟨0, first, first.map stableProjectionState, []⟩

def number : Nat → List DeltaEvent → List SequencedEvent
  | _, [] => []
  | seq, event :: events => (seq + 1, event) :: number (seq + 1) events

def Projector.events (p : Projector) (current : WorkspaceProjection) : List DeltaEvent :=
  match p.published with
  | none => [.snapshot current]
  | some previous => diffProjection (some previous) current p.latestStable (some (stableProjectionState current))

def Subscriber.broadcast (items : List SequencedEvent) (s : Subscriber) : Subscriber :=
  if s.attached then { s with queue := s.queue ++ items } else s

/-- Publish one successful tick and notify the current subscribers. -/
def Projector.publishProjection (p : Projector) (current : WorkspaceProjection) : Projector where
  seq := p.seq + (p.events current).length
  published := some current
  latestStable := some (stableProjectionState current)
  subscribers := p.subscribers.map (Subscriber.broadcast (number p.seq (p.events current)))

def Subscriber.receive (double : Number → Number) (s : Subscriber) (item : SequencedEvent) : Subscriber :=
  { s with received := s.received ++ [item], dashboard := onMessage double s.dashboard item.2 }

def Projector.subscribe (double : Number → Number) (p : Projector) (dashboard : DashboardState) : Projector :=
  let fresh : Subscriber := ⟨true, [], [], dashboard⟩
  { p with subscribers := p.subscribers ++ [match p.published with
      | some current => fresh.receive double (p.seq, .snapshot current)
      | none => fresh] }

def Subscriber.next (double : Number → Number) (s : Subscriber) : Option Subscriber :=
  match s.queue with
  | [] => none
  | item :: rest => if s.attached then some ({ s with queue := rest }.receive double item) else none

inductive Action
  | publish (current : WorkspaceProjection)
  | subscribe (dashboard : DashboardState)
  | next (i : Nat)
  | detach (i : Nat)

def Projector.setSubscriber (p : Projector) (i : Nat) (s : Subscriber) : Projector :=
  { p with subscribers := p.subscribers.set i s }

def Projector.step (double : Number → Number) (p : Projector) : Action → Option Projector
  | .publish current => some (p.publishProjection current)
  | .subscribe dashboard => some (p.subscribe double dashboard)
  | .next i => (p.subscribers[i]?.bind (Subscriber.next double)).map (p.setSubscriber i)
  | .detach i => p.subscribers[i]?.map fun s => p.setSubscriber i { s with attached := false }

def projectorSystem (double : Number → Number) (first : Option WorkspaceProjection) : System Projector Action where
  init := primedProjector first
  step := Projector.step double

end AgentsRemember.Dashboard
