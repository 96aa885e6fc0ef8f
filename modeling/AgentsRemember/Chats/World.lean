import AgentsRemember.Chats.Store

/-!
# Page answers, stream events and calls, in any order

A call of the store runs to its end at once, a task between two of its awaits. A
source that was closed reports nothing any more.
-/

namespace AgentsRemember.Chats

open Lib

inductive Action (β : Type)
  | connect (sessionId epoch : String) (limit : Option Nat)
  | focus (sessionId : Option String)
  | touch (sessionId : String)
  | disconnect (sessionId : String)
  | loadOlder (sessionId : String)
  | reset
  -- The fetch of page task `i` is answered; `late` when the boot window is over.
  | answered (i : Nat) (page : PageResult β) (late : Bool)
  -- The delay of page task `i` ended or was aborted.
  | delayed (i : Nat)
  -- What awaited the page, or the loop, goes on.
  | resumed (i : Nat)
  | olderAnswered (i : Nat) (page : PageResult β)
  | opened (k : Nat)
  | message (k : Nat) (envelope : ConversationEventEnvelope β)
  -- An `error`, or the deadline of an instance that did not open.
  | errored (k : Nat)
  -- The backoff of a dead instance is over.
  | reopened (k : Nat)
  -- The watchdog found the open stream without life.
  | cycled (k : Nat)

def isTransientBootFailure : Option Nat → Bool
  | none => true
  | some httpStatus => httpStatus = 0 || 500 ≤ httpStatus

namespace World

section
variable {β : Type}

/-! ## Page tasks -/

def setPhase (w : World β) (i : Nat) (task : PageTask β) (phase : PagePhase β) : World β :=
  w.setTask i (some (.page { task with phase := phase }))

def fetched (w : World β) (task : PageTask β) (page : PageResult β) (late : Bool) : PagePhase β :=
  if w.runtimeIsStale task then .returned none
  else
    match page with
    | .ok page => .returned (some (.ok page))
    | .failed httpStatus =>
      if isTransientBootFailure httpStatus && !late then .delaying else .returned (some (.failed httpStatus))

def endPage (w : World β) (i : Nat) (task : PageTask β) : World β :=
  (w.setTask i none).setRuntime task.runtime fun runtime =>
    if runtime.pageAbortController = some task.signal then
      { runtime with pageAbortController := none, pageInFlight := false }
    else runtime

def clearPending (w : World β) (r : Nat) : World β := w.setRuntime r fun runtime => { runtime with pendingPageKind := none }

def streamIfFocused (w : World β) (sessionId : String) (r : Nat) : World β :=
  if w.runtimeCanStream sessionId r then w.startStream sessionId r else w

def hydrated (w : World β) (i : Nat) (task : PageTask β) (page : Option (PageResult β)) : World β :=
  let w := w.endPage i task
  match page with
  | none =>
    if w.runtimeCanStream task.sessionId task.runtime then w.hydrateAndStream task.sessionId task.runtime task.limit else w
  | some (.ok page) =>
    ((w.clearPending task.runtime).applyInitial task.sessionId page).streamIfFocused task.sessionId task.runtime
  | some (.failed _) => (w.clearPending task.runtime).failStream task.sessionId

def applyRecoveredPage (w : World β) (sessionId : String) (page : ConversationPage β) : World β :=
  (w.applyInitial sessionId page).clearRecovery sessionId

def repaged (w : World β) (i : Nat) (task : PageTask β) (page : Option (PageResult β)) : World β :=
  match page with
  | none => w.setPhase i task (.looped false true)
  | some (.ok page) => (w.applyRecoveredPage task.sessionId page).setPhase i task (.looped true false)
  | some (.failed _) =>
    if (w.runtimes task.runtime).streamRecoveries < maxDeadStreamRecoveries then
      let w := w.setRuntime task.runtime fun runtime => { runtime with streamRecoveries := runtime.streamRecoveries + 1 }
      w.setTask i (some (.page (w.attempt task)))
    else (w.failStream task.sessionId).setPhase i task (.looped false false)

def repageDone (w : World β) (i : Nat) (task : PageTask β) (recovered cancelled : Bool) : World β :=
  let w := w.endPage i task
  if cancelled && w.runtimeCanStream task.sessionId task.runtime then
    w.repageAndResume task.sessionId task.runtime task.limit
  else
    let w := if cancelled then w else w.clearPending task.runtime
    if recovered then w.streamIfFocused task.sessionId task.runtime else w

def resumePage (w : World β) (i : Nat) (task : PageTask β) : Option (World β) :=
  match task.phase, task.kind with
  | .returned page, .hydrate => some (w.hydrated i task page)
  | .returned page, .repage => some (w.repaged i task page)
  | .looped recovered cancelled, _ => some (w.repageDone i task recovered cancelled)
  | _, _ => none

def olderTaken (w : World β) (i : Nat) (task : OlderTask) (page : PageResult β) : World β :=
  let w := w.setTask i none
  match page with
  | .ok page => if (w.runtimes task.runtime).disposed then w else w.applyOlder task.sessionId page
  | .failed _ => w

/-! ## Stream handlers -/

def onOpen (w : World β) (sessionId : String) (r : Nat) : World β :=
  if !w.runtimeCanStream sessionId r then w
  else
    (w.setRuntime r fun runtime => { runtime with openFailures := 0, streamRecoveries := 0 }).setStreamPhase sessionId .live

def onDisconnect (w : World β) (sessionId : String) (r : Nat) : World β :=
  if w.runtimeCanStream sessionId r then w.setStreamPhase sessionId .reconnecting else w

def onOpenFailure (w : World β) (sessionId : String) (r : Nat) : World β :=
  if !w.runtimeCanStream sessionId r then w
  else
    let failed := w.setRuntime r fun runtime => { runtime with openFailures := runtime.openFailures + 1 }
    if (failed.runtimes r).openFailures < streamOpenFailuresBeforeRepage then failed
    else
      let w := failed.setRuntime r fun runtime => { runtime with openFailures := 0 }
      if maxDeadStreamRecoveries ≤ (w.runtimes r).streamRecoveries then (w.stopRuntimeStream r).failStream sessionId
      else
        let w := w.setRuntime r fun runtime => { runtime with streamRecoveries := runtime.streamRecoveries + 1 }
        w.repageAndResume sessionId r (w.runtimes r).limit

def onEnvelope [DecidableEq β] (w : World β) (sessionId : String) (r : Nat) (envelope : ConversationEventEnvelope β) :
    World β :=
  if !w.runtimeCanStream sessionId r then w
  else
    let w := w.ingestEvent sessionId envelope
    if ((w.bySession sessionId).bind (·.recovery)).isSome then w.repageAndResume sessionId r (w.runtimes r).limit else w

def deadInstance (w : World β) (k : Nat) (openedThisInstance : Bool) : World β :=
  let sessionId := (w.streams k).sessionId
  let r := (w.streams k).runtime
  let w := (w.setStream k fun stream => { stream with source := none }).onDisconnect sessionId r
  let w := if openedThisInstance then w else w.onOpenFailure sessionId r
  if (w.streams k).stopped then w else w.setStream k fun stream => { stream with timer := true }

def step [DecidableEq β] (w : World β) : Action β → Option (World β)
  | .connect sessionId epoch limit => some (w.connectConversation sessionId epoch limit)
  | .focus sessionId => some (w.focusConversation sessionId)
  | .touch sessionId => some (w.touchConversation sessionId)
  | .disconnect sessionId => some (w.disconnectConversation sessionId)
  | .loadOlder sessionId => some (w.loadOlderConversation sessionId)
  | .reset => some w.reset
  | .answered i page late =>
    match w.tasks i with
    | some (.page task) =>
      match task.phase with
      | .fetching => some (w.setPhase i task (w.fetched task page late))
      | _ => none
    | _ => none
  | .delayed i =>
    match w.tasks i with
    | some (.page task) =>
      match task.phase with
      | .delaying =>
        let runtime := w.runtimes task.runtime
        if w.aborted task.signal || runtime.disposed || runtime.generation ≠ task.generation then
          some (w.setPhase i task (.returned none))
        else some (w.setTask i (some (.page (w.attempt task))))
      | _ => none
    | _ => none
  | .resumed i =>
    match w.tasks i with
    | some (.page task) => w.resumePage i task
    | _ => none
  | .olderAnswered i page =>
    match w.tasks i with
    | some (.older task) => some (w.olderTaken i task page)
    | _ => none
  | .opened k =>
    match (w.streams k).source with
    | some _ =>
      some ((w.setStream k fun stream => { stream with source := some true }).onOpen (w.streams k).sessionId (w.streams k).runtime)
    | none => none
  | .message k envelope =>
    match (w.streams k).source with
    | some _ => some (w.onEnvelope (w.streams k).sessionId (w.streams k).runtime envelope)
    | none => none
  | .errored k =>
    match (w.streams k).source with
    | some openedThisInstance => some (w.deadInstance k openedThisInstance)
    | none => none
  | .reopened k =>
    if (w.streams k).timer then
      some ((w.setStream k fun stream => { stream with timer := false }).openStreamInstance k)
    else none
  | .cycled k =>
    if (w.streams k).source = some true then
      some ((w.setStream k fun stream => { stream with timer := false }).openStreamInstance k)
    else none

end

end World

def conversationSystem (β : Type) [DecidableEq β] : System (World β) (Action β) := ⟨World.init, World.step⟩

end AgentsRemember.Chats
