import Mathlib.Data.List.Sort
import AgentsRemember.Active.Replay
import Mathlib.Logic.Function.Basic

/-!
# What the browser holds of a conversation

The reducer around the item list: a page replaces the projection or is put
before it, and an event is applied at the cursor that it follows, or asks for a
new page. `basis` is a ghost: it numbers the pages that replaced a projection.
-/

namespace AgentsRemember.Chats

open Lib
open Active (ConversationItem StoreMutation)

structure ActiveConversationRef where
  arSessionId : String
  bridgeEpoch : String
  deriving DecidableEq

structure ConversationStatus where
  revision : Nat
  body : String
  deriving DecidableEq

structure ConversationPage (β : Type) where
  identity : ActiveConversationRef
  items : List (ConversationItem β)
  olderCursor : Option String
  hasOlder : Bool
  eventCursor : String
  status : ConversationStatus

inductive StreamPhase
  | idle | connecting | live | reconnecting | gap | identityChanged | projectionFailed | failed
  deriving DecidableEq

inductive RecoveryMode
  | repage | reset
  deriving DecidableEq

inductive Delivery
  | live | resumeReplay | nativeRehydrate
  deriving DecidableEq

inductive ConversationMutation (β : Type)
  | items (mutation : StoreMutation β)
  | replacePage (items : List (ConversationItem β)) (eventCursor : String)
  | status (status : ConversationStatus)
  | gap

structure ConversationEventEnvelope (β : Type) where
  identity : ActiveConversationRef
  cursor : String
  previousCursor : Option String
  eventId : String
  delivery : Delivery
  mutation : ConversationMutation β

structure Projection (β : Type) where
  identity : ActiveConversationRef
  held : Active.ActiveConversationProjection β
  eventCursor : Option String
  lastApplied : Option String
  olderCursor : Option String
  hasOlder : Bool
  status : Option ConversationStatus
  stream : StreamPhase
  recovery : Option RecoveryMode
  appliedKeys : List String
  basis : Nat

def appliedKeyLimit : Nat := 4096

section
variable {β : Type}

def emptyProjection (identity : ActiveConversationRef) : Projection β where
  identity := identity
  held := Active.emptyProjection
  eventCursor := none
  lastApplied := none
  olderCursor := none
  hasOlder := false
  status := none
  stream := .idle
  recovery := none
  appliedKeys := []
  basis := 0

def eventKey (envelope : ConversationEventEnvelope β) : String := envelope.eventId ++ "\x00" ++ envelope.cursor

def rememberKey (appliedKeys : List String) (key : String) : List String :=
  let appliedKeys := appliedKeys ++ [key]
  appliedKeys.drop (appliedKeys.length - appliedKeyLimit)

/-! ## Pages -/

def byOrdinal (items : List (ConversationItem β)) : List (ConversationItem β) :=
  items.insertionSort fun a b => a.globalOrdinal ≤ b.globalOrdinal

def replaced (items : List (ConversationItem β)) : Active.ActiveConversationProjection β where
  orderedItemIds := (byOrdinal items).map (·.itemId)
  itemsById := (byOrdinal items).foldl (fun itemsById item => itemsById.set item.itemId item) Dict.empty

namespace Projection

def applyInitialPage (proj : Projection β) (page : ConversationPage β) (basis : Nat) : Projection β :=
  { proj with
    identity := page.identity
    held := replaced page.items
    eventCursor := some page.eventCursor
    olderCursor := page.olderCursor
    hasOlder := page.hasOlder
    status := some page.status
    lastApplied := some page.eventCursor
    stream := .connecting
    recovery := none
    appliedKeys := []
    basis := basis }

def takeOlder (taken : Dict String (ConversationItem β) × List String) (item : ConversationItem β) :
    Dict String (ConversationItem β) × List String :=
  match taken.1.get? item.itemId with
  | none => (taken.1.set item.itemId item, taken.2 ++ [item.itemId])
  | some existing => (if item.revision > existing.revision then taken.1.set item.itemId item else taken.1, taken.2)

def applyOlderPage (proj : Projection β) (page : ConversationPage β) : Projection β :=
  let taken := (byOrdinal page.items).foldl takeOlder (proj.held.itemsById, [])
  { proj with
    held := ⟨taken.2 ++ proj.held.orderedItemIds, taken.1⟩
    olderCursor := page.olderCursor
    hasOlder := page.hasOlder }

/-! ## Events -/

def withRecovery (proj : Projection β) (mode : RecoveryMode) : Projection β :=
  { proj with
    stream := match mode with
      | .repage => .gap
      | .reset => proj.stream
    recovery := some mode }

def clearRecovery (proj : Projection β) : Projection β := { proj with recovery := none }

def hasUnappliedCursorGap (proj : Projection β) (envelope : ConversationEventEnvelope β) : Bool :=
  envelope.delivery = .live && (match envelope.mutation with
    | .replacePage _ _ => false
    | _ => true) && envelope.previousCursor.isSome && proj.lastApplied.isSome &&
    envelope.previousCursor ≠ proj.lastApplied

def recoveryMode : Active.RecoverySignal → RecoveryMode
  | .sameRevisionDifferentPayload => .reset
  | .deltaUnknownItem | .deltaRevisionSkew | .deltaUnknownBlock => .repage

def applyStatus (proj : Projection β) (incoming : ConversationStatus) : Option (Projection β) :=
  match proj.status with
  | some current =>
    if incoming.revision < current.revision then none
    else if incoming.revision = current.revision ∧ current ≠ incoming then some (proj.withRecovery .reset)
    else some { proj with status := some incoming }
  | none => some { proj with status := some incoming }

def applyReplacePage (proj : Projection β) (items : List (ConversationItem β)) (eventCursor : String) (basis : Nat) :
    Projection β :=
  { proj with
    held := replaced items
    eventCursor := some eventCursor
    lastApplied := some eventCursor
    appliedKeys := []
    recovery := none
    basis := basis }

/-- The projection after the mutation, `none` where the event is ignored. -/
def applyMutation [DecidableEq β] (proj : Projection β) (mutation : ConversationMutation β) (basis : Nat) :
    Option (Projection β) :=
  match mutation with
  | .items mutation =>
    match proj.held.applyMutation mutation with
    | .applied held => some { proj with held := held }
    | .ignored => none
    | .recovery signal => some (proj.withRecovery (recoveryMode signal))
  | .status incoming => proj.applyStatus incoming
  | .replacePage items eventCursor => some (proj.applyReplacePage items eventCursor basis)
  | .gap => none

/-- The projection after an event, `none` where it stays as it is. -/
def applyEvent [DecidableEq β] (proj : Projection β) (envelope : ConversationEventEnvelope β) (basis : Nat) :
    Option (Projection β) :=
  if envelope.identity ≠ proj.identity then none
  else if eventKey envelope ∈ proj.appliedKeys then none
  else
    match envelope.mutation with
    | .gap => some (proj.withRecovery .repage)
    | mutation =>
      if proj.hasUnappliedCursorGap envelope then some (proj.withRecovery .repage)
      else
        (proj.applyMutation mutation basis).map fun next =>
          if next.recovery = some .reset then next
          else
            { next with
              appliedKeys := rememberKey next.appliedKeys (eventKey envelope)
              eventCursor := some envelope.cursor
              lastApplied := some envelope.cursor
              stream := if envelope.delivery = .live then .live else next.stream }

end Projection

end

/-! ## The conversation store of the browser

Sessions have a runtime each, a runtime has at most one stream controller, and a
controller at most one open `EventSource`. What waits for a page is a task: a
hydration, a re-page, or the load of an older page. Runtimes, controllers,
abort signals and tasks are objects with a number.
-/

inductive PageKind
  | hydrate | repage
  deriving DecidableEq

structure SessionRuntime where
  sessionId : String
  epoch : String
  controller : Option Nat
  -- A page or re-page is already establishing the cursor.
  pageInFlight : Bool
  pageAbortController : Option Nat
  -- Page work that a blur suspended and a later refocus must resume.
  pendingPageKind : Option PageKind
  limit : Option Nat
  generation : Nat
  disposed : Bool
  openFailures : Nat
  streamRecoveries : Nat

/-- A stream controller: its source, if one is open, tells whether it has opened; `timer` is a reopening that waits. -/
structure StreamRuntime where
  sessionId : String
  runtime : Nat
  source : Option Bool
  timer : Bool
  stopped : Bool

inductive PageResult (β : Type)
  | ok (page : ConversationPage β)
  -- The HTTP status of a typed error; none is a bare transport drop.
  | failed (httpStatus : Option Nat)

inductive PagePhase (β : Type)
  -- It awaits `fetchConversationPage`, or the delay before it tries again.
  | fetching
  | delaying
  -- `fetchPageAcrossBootWindow` returned, its caller has not gone on.
  | returned (page : Option (PageResult β))
  -- `attemptRepageLoop` returned.
  | looped (recovered cancelled : Bool)

structure PageTask (β : Type) where
  kind : PageKind
  sessionId : String
  runtime : Nat
  limit : Option Nat
  generation : Nat
  signal : Nat
  phase : PagePhase β

/-- The load of an older page; `basis` is a ghost, the projection that it was asked for. -/
structure OlderTask where
  sessionId : String
  runtime : Nat
  before : String
  basis : Nat

inductive Task (β : Type)
  | page (task : PageTask β)
  | older (task : OlderTask)

structure World (β : Type) where
  bySession : String → Option (Projection β)
  touchOrder : List String
  focusedConversationId : Option String
  runtimeBySession : String → Option Nat
  runtimes : Nat → SessionRuntime
  nextRuntime : Nat
  streams : Nat → StreamRuntime
  nextStream : Nat
  aborted : Nat → Bool
  nextSignal : Nat
  tasks : Nat → Option (Task β)
  nextTask : Nat
  -- The pages that replaced a projection so far.
  bases : Nat

def lruLimit : Nat := 6

def streamOpenFailuresBeforeRepage : Nat := 2

def maxDeadStreamRecoveries : Nat := 3

def unmadeRuntime : SessionRuntime where
  sessionId := ""
  epoch := ""
  controller := none
  pageInFlight := false
  pageAbortController := none
  pendingPageKind := none
  limit := none
  generation := 0
  disposed := true
  openFailures := 0
  streamRecoveries := 0

def unmadeStream : StreamRuntime where
  sessionId := ""
  runtime := 0
  source := none
  timer := false
  stopped := true

def World.init {β : Type} : World β where
  bySession := fun _ => none
  touchOrder := []
  focusedConversationId := none
  runtimeBySession := fun _ => none
  runtimes := fun _ => unmadeRuntime
  nextRuntime := 0
  streams := fun _ => unmadeStream
  nextStream := 0
  aborted := fun _ => false
  nextSignal := 0
  tasks := fun _ => none
  nextTask := 0
  bases := 0

def touch (order : List String) (sessionId : String) : List String := sessionId :: order.filter (· ≠ sessionId)

namespace World

variable {β : Type}

def setRuntime (w : World β) (r : Nat) (f : SessionRuntime → SessionRuntime) : World β :=
  { w with runtimes := Function.update w.runtimes r (f (w.runtimes r)) }

def setStream (w : World β) (k : Nat) (f : StreamRuntime → StreamRuntime) : World β :=
  { w with streams := Function.update w.streams k (f (w.streams k)) }

def setTask (w : World β) (i : Nat) (task : Option (Task β)) : World β := { w with tasks := Function.update w.tasks i task }

def setProjection (w : World β) (sessionId : String) (proj : Option (Projection β)) : World β :=
  { w with bySession := Function.update w.bySession sessionId proj }

def startTask (w : World β) (task : Task β) : World β := { w.setTask w.nextTask (some task) with nextTask := w.nextTask + 1 }

/-! ## The projections -/

def applyInitial (w : World β) (sessionId : String) (page : ConversationPage β) : World β :=
  let current := (w.bySession sessionId).getD (emptyProjection page.identity)
  { w.setProjection sessionId (some (current.applyInitialPage page w.bases)) with
    touchOrder := touch w.touchOrder sessionId
    bases := w.bases + 1 }

def applyOlder (w : World β) (sessionId : String) (page : ConversationPage β) : World β :=
  let current := (w.bySession sessionId).getD (emptyProjection page.identity)
  { w.setProjection sessionId (some (current.applyOlderPage page)) with touchOrder := touch w.touchOrder sessionId }

def ingestEvent [DecidableEq β] (w : World β) (sessionId : String) (envelope : ConversationEventEnvelope β) : World β :=
  match (w.bySession sessionId).bind fun current => current.applyEvent envelope w.bases with
  | some next => { w.setProjection sessionId (some next) with bases := w.bases + 1 }
  | none => w

def setStreamPhase (w : World β) (sessionId : String) (phase : StreamPhase) : World β :=
  match w.bySession sessionId with
  | some current => w.setProjection sessionId (some { current with stream := phase })
  | none => w

def failStream (w : World β) (sessionId : String) : World β := w.setStreamPhase sessionId .projectionFailed

def evict (w : World β) (sessionId : String) : World β :=
  { w.setProjection sessionId none with touchOrder := w.touchOrder.filter (· ≠ sessionId) }

def clearRecovery (w : World β) (sessionId : String) : World β :=
  match w.bySession sessionId with
  | some cleared => w.setProjection sessionId (some cleared.clearRecovery)
  | none => w

def runtimeCanStream (w : World β) (sessionId : String) (r : Nat) : Bool :=
  w.focusedConversationId = some sessionId && w.runtimeBySession sessionId = some r && !(w.runtimes r).disposed

def runtimeIsStale (w : World β) (task : PageTask β) : Bool :=
  w.aborted task.signal || (w.runtimes task.runtime).disposed || (w.runtimes task.runtime).generation ≠ task.generation ||
    !w.runtimeCanStream task.sessionId task.runtime

def disposedOrUnfocused (w : World β) (task : PageTask β) : Bool :=
  w.aborted task.signal || !w.runtimeCanStream task.sessionId task.runtime

/-! ## Streams -/

def stopStream (w : World β) (k : Nat) : World β :=
  w.setStream k fun stream => { stream with source := none, timer := false, stopped := true }

def stopController (w : World β) (r : Nat) : World β :=
  match (w.runtimes r).controller with
  | some k => w.stopStream k
  | none => w

def stopRuntimeStream (w : World β) (r : Nat) : World β :=
  (w.stopController r).setRuntime r fun runtime => { runtime with controller := none }

def abortPage (w : World β) (r : Nat) : World β :=
  match (w.runtimes r).pageAbortController with
  | some signal => { w with aborted := Function.update w.aborted signal true }
  | none => w

def openStreamInstance (w : World β) (k : Nat) : World β :=
  w.setStream k fun stream => if stream.stopped then stream else { stream with source := some false }

def startStream (w : World β) (sessionId : String) (r : Nat) : World β :=
  if !w.runtimeCanStream sessionId r || (w.runtimes r).pageInFlight then w
  else
    let w := w.stopController r
    let k := w.nextStream
    ({ w.setStream k (fun _ => ⟨sessionId, r, some false, false, false⟩) with nextStream := k + 1 }).setRuntime r
      fun runtime => { runtime with controller := some k }

def attempt (w : World β) (task : PageTask β) : PageTask β :=
  { task with phase := if w.disposedOrUnfocused task then .returned none else .fetching }

def startPage (w : World β) (kind : PageKind) (sessionId : String) (r : Nat) (limit : Option Nat) : World β :=
  let signal := w.nextSignal
  let w := { w.setRuntime r fun runtime =>
    { runtime with pendingPageKind := some kind, pageAbortController := some signal, pageInFlight := true } with
    nextSignal := signal + 1 }
  w.startTask (.page (w.attempt ⟨kind, sessionId, r, limit, (w.runtimes r).generation, signal, .fetching⟩))

def hydrateAndStream (w : World β) (sessionId : String) (r : Nat) (limit : Option Nat) : World β :=
  (w.setStreamPhase sessionId .connecting).startPage .hydrate sessionId r limit

def repageAndResume (w : World β) (sessionId : String) (r : Nat) (limit : Option Nat) : World β :=
  if (w.runtimes r).pageInFlight then w
  else (w.stopRuntimeStream r).startPage .repage sessionId r limit

/-! ## Focus -/

def selectFocusedConversation (w : World β) (sessionId : Option String) : World β :=
  if w.focusedConversationId = sessionId then w
  else
    let focused := { w with focusedConversationId := sessionId }
    match w.focusedConversationId.bind w.runtimeBySession with
    | some previousRuntime => (focused.stopRuntimeStream previousRuntime).abortPage previousRuntime
    | none => focused

def resumeFocused (w : World β) (sessionId : String) : World β :=
  match w.runtimeBySession sessionId, w.bySession sessionId with
  | some r, some projection =>
    let runtime := w.runtimes r
    if projection.stream = .projectionFailed ∨ runtime.controller ≠ none ∨ runtime.pageInFlight then w
    else
      match runtime.pendingPageKind with
      | some .hydrate => w.hydrateAndStream sessionId r runtime.limit
      | some .repage => w.repageAndResume sessionId r runtime.limit
      | none => w.startStream sessionId r
  | _, _ => w

def focusConversation (w : World β) (sessionId : Option String) : World β :=
  let w := w.selectFocusedConversation sessionId
  match sessionId with
  | none => w
  | some sessionId => w.resumeFocused sessionId

def disconnectConversation (w : World β) (sessionId : String) : World β :=
  match w.runtimeBySession sessionId with
  | none => w
  | some r =>
    let w := ((w.setRuntime r fun runtime => { runtime with disposed := true }).stopRuntimeStream r).abortPage r
    { w with
      runtimeBySession := Function.update w.runtimeBySession sessionId none
      focusedConversationId := if w.focusedConversationId = some sessionId then none else w.focusedConversationId }

def enforceLru (w : World β) (focused : String) : World β :=
  let order := w.touchOrder
  let keep := (focused :: order.filter (· ≠ focused)).take lruLimit
  order.foldl (fun w id => if id ∈ keep then w else (w.disconnectConversation id).evict id) w

def disposeExisting (w : World β) (sessionId : String) : World β :=
  match w.runtimeBySession sessionId with
  | some existing =>
    ((w.stopController existing).abortPage existing).setRuntime existing fun runtime => { runtime with disposed := true }
  | none => w

def makeRuntime (w : World β) (sessionId epoch : String) (limit : Option Nat) : SessionRuntime where
  sessionId := sessionId
  epoch := epoch
  controller := none
  pageInFlight := false
  pageAbortController := none
  pendingPageKind := some .hydrate
  limit := limit
  generation := ((w.runtimeBySession sessionId).map fun existing => (w.runtimes existing).generation).getD 0 + 1
  disposed := false
  openFailures := 0
  streamRecoveries := 0

def register (w : World β) (sessionId epoch : String) (limit : Option Nat) : World β :=
  { w.setRuntime w.nextRuntime (fun _ => w.makeRuntime sessionId epoch limit) with
    nextRuntime := w.nextRuntime + 1
    runtimeBySession := Function.update w.runtimeBySession sessionId (some w.nextRuntime)
    touchOrder := touch w.touchOrder sessionId }

def connectConversation (w : World β) (sessionId epoch : String) (limit : Option Nat) : World β :=
  let w := (w.selectFocusedConversation (some sessionId)).disposeExisting sessionId
  let r := w.nextRuntime
  ((w.register sessionId epoch limit).enforceLru sessionId).hydrateAndStream sessionId r limit

def touchConversation (w : World β) (sessionId : String) : World β :=
  ({ w with touchOrder := touch w.touchOrder sessionId }.enforceLru sessionId).focusConversation (some sessionId)

def loadOlderConversation (w : World β) (sessionId : String) : World β :=
  match w.runtimeBySession sessionId, w.bySession sessionId with
  | some r, some proj =>
    match proj.hasOlder, proj.olderCursor with
    | true, some before => w.startTask (.older ⟨sessionId, r, before, proj.basis⟩)
    | _, _ => w
  | _, _ => w

def reset (w : World β) : World β :=
  let registered := fun r => w.runtimeBySession (w.runtimes r).sessionId = some r
  { w with
    runtimes := fun r => if registered r then { w.runtimes r with disposed := true, controller := none } else w.runtimes r
    streams := fun k =>
      if registered (w.streams k).runtime ∧ (w.runtimes (w.streams k).runtime).controller = some k then
        { w.streams k with source := none, timer := false, stopped := true }
      else w.streams k
    aborted := fun signal => w.aborted signal || (List.range w.nextRuntime).any fun r =>
      decide (registered r) && (w.runtimes r).pageAbortController = some signal
    runtimeBySession := fun _ => none
    focusedConversationId := none
    bySession := fun _ => none
    touchOrder := [] }

end World

end AgentsRemember.Chats
