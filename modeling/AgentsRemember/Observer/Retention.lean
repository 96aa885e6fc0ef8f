import AgentsRemember.Observer.Reducer

/-!
# Retention of the event logs

`observer/event_retention.py`: which logs are dormant, where a fresh connection
starts to read, and how the workspace river is compacted. The logs are read as
JSON objects, not as events: a line that is no object is passed over.
-/

namespace AgentsRemember.Observer

open Lib Lib.JsonText Lib.Lines Logs

abbrev Payload := List (String × Value)

/-- A complete line that holds an object, from `start` to `after`. -/
structure Entry where
  start : Nat
  after : Nat
  payload : Payload

def entryOf (line : Bytes × Nat) : Option Entry :=
  (((Utf8.decode line.1).bind loads).bind asObject).map fun payload => ⟨line.2 - (line.1.length + 1), line.2, payload⟩

def iterEventPayloads (bytes : Bytes) : List Entry := (lineOffsets 0 (split isNewlineByte bytes)).1.filterMap entryOf

def stampTime (ts : String) : Option Int :=
  (fromisoformat (String.ofList (ts.toList.flatMap fun c => if c = 'Z' then "+00:00".toList else [c]))).map Stamp.utc

def payloadTime (payload : Payload) : Option Int := ((field payload "ts").bind asText).bind stampTime

def payloadKind (payload : Payload) (kind : String) : Bool := (field payload "kind").bind asText = some kind

/-! ## Dormancy -/

structure RetentionFacts where
  lastActivity : Option Int
  fleeting : Bool
  promoted : Bool

def noFacts : RetentionFacts := ⟨none, false, false⟩

def startedFleeting (payload : Payload) : Bool :=
  (((field payload "data").bind asObject).bind fun data => field data "fleeting").any truth

def RetentionFacts.read (f : RetentionFacts) (payload : Payload) : RetentionFacts :=
  if payloadKind payload heartbeatKind then f
  else
    { lastActivity := (payloadTime payload).or f.lastActivity
      fleeting := if payloadKind payload "lifecycle.started" then startedFleeting payload else f.fleeting
      promoted := f.promoted || payloadKind payload "lifecycle.promoted" }

def retentionFacts (payloads : List Payload) : RetentionFacts := payloads.foldl RetentionFacts.read noFacts

def FLEETING_INACTIVE_TTL_SECONDS : Int := seconds 3600

def ENCLOSURE_INACTIVE_GRACE_SECONDS : Int := seconds 3600

def lifecycleIsDormant (payloads : List Payload) (now : Int) : Bool :=
  let facts := retentionFacts payloads
  let ttl := if facts.fleeting && !facts.promoted then FLEETING_INACTIVE_TTL_SECONDS else ENCLOSURE_INACTIVE_GRACE_SECONDS
  facts.lastActivity.any fun last => ttl < now - last

def isDormantFleeting (events : List Event) (ttl now : Int) : Bool :=
  match events with
  | [] => false
  | started :: _ =>
    started.kind = "lifecycle.started" && (field started.data "fleeting").any truth &&
      !(events.any fun e => e.kind = "lifecycle.promoted") &&
      (events.getLast?.bind fun e => ageSeconds e.ts now).any fun age => ttl < age

def firstRetainedOffset (bytes : Bytes) (cutoff : Int) : Nat :=
  let entries := iterEventPayloads bytes
  match entries.find? fun e => (payloadTime e.payload).all fun ts => cutoff ≤ ts with
  | some e => e.start
  | none => ((entries.getLast?).map (·.after)).getD 0

def retainedStart (bytes : Bytes) (cutoff : Int) : Nat × Nat :=
  let entries := iterEventPayloads bytes
  let dropped := (entries.takeWhile fun e => (payloadTime e.payload).any fun ts => ts < cutoff).length
  (((entries[dropped]?).map (·.start)).getD bytes.length, dropped)

/-! ## Who removes the directory of a lifecycle

A fresh dashboard connection and its tail, the projection tick and the start of
a session all remove dormant logs. Each call walks the directories in some order
and may be interrupted, so it removes of the entries it got to. The leaves of a
series that is not retired are to be spared (`worktree_provider_admission.py`).
-/

open Lib Logs

/-! ## Series -/

def isArchived (cleanup : String) : Bool := cleanup = "completed" || cleanup = "abandoned"

def MASTER_ARCHIVE_GRACE_SECONDS : Int := seconds (7 * 24 * 60 * 60)

section
variable (mtime : String → Option Int) (now : Int)

def seriesIsRetired (group : List EnclosureNode) : Bool :=
  if group.any fun e => !isArchived e.cleanup then false
  else
    match (group.filterMap fun e => mtime e.enclosure).max? with
    | none => true
    | some finalized => decide (MASTER_ARCHIVE_GRACE_SECONDS < now - finalized)

def inSeries (e : EnclosureNode) : Bool := e.lifecycleId ≠ "" && e.taskName ≠ ""

def leavesOf (enclosures : List EnclosureNode) (e : EnclosureNode) : List EnclosureNode :=
  enclosures.filter fun f => inSeries f && f.repoName = e.repoName && f.taskName = e.taskName

def seriesRetainedLifecycleIds (enclosures : List EnclosureNode) : List String :=
  (enclosures.filter fun e => inSeries e && !seriesIsRetired mtime now (leavesOf enclosures e)).map (·.lifecycleId)

end

/-! ## The callers -/

def layout : Layout (Option String) := ⟨some, none⟩

def absent : Directory := ⟨none, none⟩

structure World where
  dirs : String → Option Directory
  enclosures : List EnclosureNode
  mtime : String → Option Int
  /-- `ProjectionInputState._enclosures`, `none` before its first refresh. -/
  snapshot : Option (List EnclosureNode)

def World.retained (w : World) (now : Int) : List String := seriesRetainedLifecycleIds w.mtime now w.enclosures

def World.isDormant (w : World) (now : Int) (id : String) : Bool :=
  ((w.dirs id).bind (·.log)).any fun bytes => lifecycleIsDormant ((iterEventPayloads bytes).map (·.payload)) now

/-- `_is_dormant_fleeting`; a read that raises ends the sweep. -/
def World.isDormantFleeting (w : World) (ttl now : Int) (id : String) : Bool :=
  (EventStore.read layout (fun k => (k.bind w.dirs).getD absent) (some id)).any fun events => Observer.isDormantFleeting events ttl now

def World.remove (w : World) (p : String → Bool) (entries : List String) : World :=
  { w with dirs := fun id => if id ∈ entries ∧ p id = true then none else w.dirs id }

def World.prune (w : World) (protectedIds entries : List String) (now : Int) : World :=
  w.remove (fun id => !protectedIds.contains id && w.isDormant now id) entries

inductive Action
  /-- A log or a sidecar is written, by anyone. -/
  | write (id : String) (dir : Directory)
  /-- The contracts change. -/
  | contracts (enclosures : List EnclosureNode) (mtime : String → Option Int)
  | connect (entries : List String) (now : Int)
  | tailTick (entries : List String) (now : Int)
  /-- `refreshesTasks` is whether the tick's domains hold the tasks, `reads` whether they make it read the logs. -/
  | projectionTick (refreshesTasks reads : Bool) (entries : List String) (now : Int)
  | sessionStart (keep : Option String) (ttl : Int) (entries : List String) (now : Int)

def World.refreshTasks (w : World) (refreshesTasks : Bool) : World :=
  if refreshesTasks || w.snapshot.isNone then { w with snapshot := some w.enclosures } else w

def World.step (w : World) : Action → World
  | .write id dir => { w with dirs := Function.update w.dirs id (some dir) }
  | .contracts enclosures mtime => { w with enclosures, mtime }
  | .connect entries now => w.prune [] entries now
  | .tailTick entries now => w.prune [] entries now
  | .projectionTick refreshesTasks reads entries now =>
    let v := w.refreshTasks refreshesTasks
    if reads || refreshesTasks || w.snapshot.isNone then
      v.prune (seriesRetainedLifecycleIds v.mtime now (v.snapshot.getD [])) entries now
    else v
  | .sessionStart keep ttl entries now =>
    w.remove (fun id => decide (keep ≠ some id) && w.isDormantFleeting ttl now id) entries

def Action.moment : Action → Option Int
  | .write .. | .contracts .. => none
  | .connect _ now | .tailTick _ now | .projectionTick _ _ _ now | .sessionStart _ _ _ now => some now

end AgentsRemember.Observer
