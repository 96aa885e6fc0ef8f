import AgentsRemember.Lib.BoundedQueue
import AgentsRemember.Lib.System

/-!
# The mutation stream of an active conversation

One sequence counter stamps every envelope, those that report a gap too. Each
subscriber has a bounded queue; a full one is closed at the next envelope. The
public mutations an envelope carries are a parameter. A reader is a queue with
what its event stream has handed out of it.
-/

namespace AgentsRemember.Stream

open Lib

def retentionLimit : Nat := 1000

def subscriberQueueLimit : Nat := 256

structure EventCursor where
  generation : String
  sequence : Nat
deriving DecidableEq

inductive GapReason
  | retentionOverflow | generationChanged | projectorRestart | orderingFault

inductive Mutation (β : Type)
  | content (value : β)
  | gap (requestedAfter : EventCursor) (reason : GapReason)

inductive Delivery
  | live | resumeReplay

structure Envelope (β : Type) where
  cursor : EventCursor
  previousCursor : EventCursor
  sequence : Nat
  eventId : String
  emittedAt : String
  delivery : Delivery
  mutation : Mutation β

def Envelope.isGap {β : Type} (e : Envelope β) : Bool :=
  match e.mutation with
  | .gap .. => true
  | .content _ => false

inductive Item (β : Type)
  | envelope (e : Envelope β)
  | close

def Item.envelope? {β : Type} : Item β → Option (Envelope β)
  | envelope e => some e
  | close => none

/-- `subscribed` is membership in the stream's set of queues; `stopped`: the event stream has returned. -/
structure Reader (β : Type) where
  queue : BoundedQueue (Item β) subscriberQueueLimit
  subscribed : Bool
  replay : List (Envelope β)
  taken : List (Envelope β)
  stopped : Bool

structure MutationStream (β : Type) where
  generation : String
  sequence : Nat
  retention : List (Envelope β)
  retentionFloor : Nat
  readers : List (Reader β)

variable {β : Type}

namespace Reader

def put (r : Reader β) (item : Item β) : Reader β := { r with queue := r.queue.offer item }

def putEvicting (r : Reader β) (item : Item β) : Reader β := { r with queue := r.queue.offerEvicting item }

def discard (r : Reader β) : Reader β := { r with subscribed := false }

def next (r : Reader β) : Option (Reader β) :=
  if r.stopped then none
  else match r.queue.next? with
    | none => none
    | some (.close, rest) => some { r with queue := rest, subscribed := false, stopped := true }
    | some (.envelope e, rest) =>
      if e.isGap then some { r with queue := rest, taken := r.taken ++ [e], subscribed := false, stopped := true }
      else some { r with queue := rest, taken := r.taken ++ [e] }

end Reader

namespace MutationStream

def eventCursor (s : MutationStream β) (sequence : Nat) : EventCursor := ⟨s.generation, sequence⟩

def envelope (s : MutationStream β) (mutation : Mutation β) (emittedAt : String) : Envelope β where
  cursor := s.eventCursor (s.sequence + 1)
  previousCursor := s.eventCursor s.sequence
  sequence := s.sequence + 1
  eventId := s!"{s.generation}:{s.sequence + 1}"
  emittedAt := emittedAt
  delivery := .live
  mutation := mutation

def gapEnvelope (s : MutationStream β) (reason : GapReason) (emittedAt : String) : Envelope β :=
  s.envelope (.gap (s.eventCursor s.sequence) reason) emittedAt

def retain (s : MutationStream β) (e : Envelope β) : MutationStream β :=
  if (s.retention ++ [e]).length > retentionLimit then
    { s with
      retention := (s.retention ++ [e]).tail
      retentionFloor := ((s.retention ++ [e]).tail.head?.map fun e => e.sequence - 1).getD 0 }
  else { s with retention := s.retention ++ [e] }

def record (s : MutationStream β) (e : Envelope β) : MutationStream β :=
  MutationStream.retain { s with sequence := e.sequence } e

def fanOut (e : Envelope β) (gapAt : String) : MutationStream β → Option (Envelope β) → List (Reader β) →
    MutationStream β × List (Reader β)
  | s, _, [] => (s, [])
  | s, overflowGap, r :: rest =>
    if !r.subscribed then
      let out := fanOut e gapAt s overflowGap rest
      (out.1, r :: out.2)
    else if r.queue.full then
      match overflowGap with
      | some gap =>
        let out := fanOut e gapAt s (some gap) rest
        (out.1, (r.discard.putEvicting (.envelope gap)).putEvicting .close :: out.2)
      | none =>
        let gap := s.gapEnvelope .retentionOverflow gapAt
        let out := fanOut e gapAt (s.record gap) (some gap) rest
        (out.1, (r.discard.putEvicting (.envelope gap)).putEvicting .close :: out.2)
    else
      let out := fanOut e gapAt s overflowGap rest
      (out.1, r.put (.envelope e) :: out.2)

def publish (s : MutationStream β) (e : Envelope β) (gapAt : String) : MutationStream β :=
  let out := fanOut e gapAt (s.record e) none s.readers
  { out.1 with readers := out.2 }

def emit (s : MutationStream β) (value : β) (emittedAt gapAt : String) : MutationStream β :=
  s.publish (s.envelope (.content value) emittedAt) gapAt

def gap (s : MutationStream β) (reason : GapReason) (emittedAt : String) : MutationStream β :=
  let e := s.gapEnvelope reason emittedAt
  { s.record e with
    readers := s.readers.map fun r => if r.subscribed then ((r.put (.envelope e)).put .close).discard else r }

def closeSubscribers (s : MutationStream β) : MutationStream β :=
  { s with readers := s.readers.map fun r => if r.subscribed then (r.put .close).discard else r }

def retainedAfter (s : MutationStream β) (sequence : Nat) : List (Envelope β) :=
  s.retention.filter fun e => sequence < e.sequence

/-- `ActiveConversationService.subscribe`: a queue of its own, and the retained envelopes after a cursor. -/
def subscribe (s : MutationStream β) (after : Nat) : Option (MutationStream β) :=
  if after < s.retentionFloor then none
  else
    let replay := (s.retainedAfter after).map fun e => { e with delivery := .resumeReplay }
    some { s with readers := s.readers ++ [⟨.empty, true, replay, [], false⟩] }

def setReader (s : MutationStream β) (i : Nat) (r : Reader β) : MutationStream β :=
  { s with readers := s.readers.set i r }

def resetProjection (s : MutationStream β) : MutationStream β :=
  { s with sequence := 0, retention := [], retentionFloor := 0 }

def releaseProjection (s : MutationStream β) : MutationStream β := { s with retention := [], retentionFloor := 0 }

end MutationStream

/-! ## What publishing does to each reader -/

def Reader.receive (e gap : Envelope β) (r : Reader β) : Reader β :=
  if !r.subscribed then r
  else if r.queue.full then (r.discard.putEvicting (.envelope gap)).putEvicting .close
  else r.put (.envelope e)

namespace MutationStream

variable (e gap : Envelope β) (gapAt : String)

theorem fanOut_some : ∀ (s : MutationStream β) (rs : List (Reader β)),
    fanOut e gapAt s (some gap) rs = (s, rs.map (Reader.receive e gap))
  | s, [] => rfl
  | s, r :: rs => by
    rw [fanOut, fanOut_some s rs, List.map_cons, Reader.receive]
    by_cases hr : r.subscribed = true
    · by_cases hf : r.queue.full = true <;> simp [hr, hf]
    · simp [hr]

theorem fanOut_none : ∀ (s : MutationStream β) (rs : List (Reader β)),
    fanOut e gapAt s none rs =
      (if rs.any (fun r => r.subscribed && r.queue.full) then s.record (s.gapEnvelope .retentionOverflow gapAt) else s,
        rs.map (Reader.receive e (s.gapEnvelope .retentionOverflow gapAt)))
  | s, [] => rfl
  | s, r :: rs => by
    by_cases hr : r.subscribed = true
    · by_cases hf : r.queue.full = true
      · simp [fanOut, fanOut_some, Reader.receive, hr, hf]
      · simp [fanOut, fanOut_none s rs, Reader.receive, hr, hf]
    · simp [fanOut, fanOut_none s rs, Reader.receive, hr]

@[simp] theorem record_sequence (s : MutationStream β) : (s.record e).sequence = e.sequence := by
  unfold record retain
  dsimp only
  split <;> rfl

@[simp] theorem record_generation (s : MutationStream β) : (s.record e).generation = s.generation := by
  unfold record retain
  dsimp only
  split <;> rfl

end MutationStream

end AgentsRemember.Stream
