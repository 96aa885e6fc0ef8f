import AgentsRemember.Lib.JsonTextSound
import AgentsRemember.Gate.World

/-!
# Interactions of hosted sessions

`hosted_interactions.py`: an adapter's question becomes a gate, a decision on
the gate becomes the response to the adapter, and what is known of the delivery
rides in the gate's packet. The completions that the same observation puts on
inbox rows are left out, and so are the log lines.
-/

namespace AgentsRemember.Hosted

open Lib JsonText
open Gate (GateRecord GateStore GateState Packet createGate expireGate applyGate reopenGate)

def interactionDeliveryAttemptLimit : Int := 3

structure PendingInteraction where
  interactionId : String
  kind : String
  prompt : String
  choices : List String
  createdAt : String
  raw : List (String × Value)
  questions : List Value

/-- What is read of a `TerminalCatalogEntry`. -/
structure Entry where
  id : String
  lifecycleId : Option String

/-- A `HarnessControlError`; the subclasses that certify what was sent carry `may_have_sent`. -/
structure HarnessControlError where
  text : String
  mayHaveSent : Option Bool := none

def provenUnsent (exc : HarnessControlError) : Bool := exc.mayHaveSent = some false

/-! ## The packet -/

def packetValue (gate : GateRecord) (key : String) : Option Value :=
  (Dict.lookupIn key gate.packet).bind fun value => loads value.toList

def packetWith (packet : Packet) (key : String) (value : Value) : Packet :=
  Dict.setIn key (String.ofList (dumps compact value)) packet

variable {gate : GateRecord} {key : String} {value : Value}

theorem packetValue_with {packet : Packet}
    (h : gate.packet = packetWith packet key value) : packetValue gate key = some value := by
  rw [packetValue, h, packetWith, Dict.lookupIn_setIn, if_pos rfl, Option.bind_some, String.toList_ofList, loads_dumps]

theorem packetValue_with_ne {gate' : GateRecord} {key' : String} (hne : key ≠ key')
    (h : gate'.packet = packetWith gate.packet key value) : packetValue gate' key' = packetValue gate key' := by
  rw [packetValue, h, packetWith, Dict.lookupIn_setIn, if_neg hne, packetValue]

def adapterInteraction (entry : Entry) (interaction : PendingInteraction) : Value :=
  .obj
    [("sessionId", text entry.id), ("interactionId", text interaction.interactionId), ("kind", text interaction.kind),
      ("prompt", text interaction.prompt), ("choices", .arr (interaction.choices.map text)),
      ("createdAt", text interaction.createdAt), ("raw", .obj interaction.raw), ("questions", .arr interaction.questions)]

def interactionIdentity (gate : GateRecord) : Option (String × String) :=
  ((packetValue gate "adapterInteraction").bind asObject).bind fun raw =>
    match (field raw "sessionId").bind asText, (field raw "interactionId").bind asText with
    | some sessionId, some interactionId => some (sessionId, interactionId)
    | _, _ => none

def structuredQuestions (gate : GateRecord) : List Value :=
  match ((packetValue gate "adapterInteraction").bind asObject).bind fun raw => field raw "questions" with
  | some (.arr questions) => questions
  | _ => []

/-! ## What the packet says of a delivery -/

def optionalText : Option Value → Option (Option String)
  | none | some (.scalar .null) => some none
  | some (.scalar (.str s)) => some (some s)
  | some _ => none

def decidedViaText : Gate.DecidedVia → String
  | .chat => "chat"
  | .dashboard => "dashboard"
  | .cli => "cli"
  | .orchestration => "orchestration"

/-- The record without its fields that are none. -/
def failureRecord (gate : GateRecord) (reason delivery : String) (attempts : Int) (observedAt : String) : List (String × Value) :=
  [("delivery", text delivery), ("attempts", integer attempts), ("reason", text reason), ("observedAt", text observedAt),
    ("decision", text gate.state.text)] ++
    (gate.decidedAt.map fun s => ("decidedAt", text s)).toList ++ (gate.decidedBy.map fun s => ("decidedBy", text s)).toList ++
    (gate.decidedVia.map fun via => ("decidedVia", text (decidedViaText via))).toList ++
    (gate.decidingRole.map fun s => ("decidingRole", text s)).toList ++
    (gate.decisionNote.map fun s => ("decisionNote", text s)).toList

def deliveryFailure (gate : GateRecord) : Option (List (String × Value)) :=
  ((packetValue gate "adapterDecisionFailure").bind asObject).filter fun record =>
    optionalText (field record "decidedAt") = some gate.decidedAt

def deliveryAttempts (gate : GateRecord) : Int :=
  (((deliveryFailure gate).bind fun record => field record "attempts").bind asInteger).getD 0

def withDeliveryFailure (gate : GateRecord) (reason delivery : String) (attempts : Int) (observedAt : String) : Packet :=
  packetWith gate.packet "adapterDecisionFailure" (.obj (failureRecord gate reason delivery attempts observedAt))

def answersMap (note : String) : Except HarnessControlError Unit :=
  match loads note.toList with
  | none => .error ⟨"a structured question gate requires the decision note to be a JSON object " ++
      "mapping each question's exact text to its answer", none⟩
  | some (.obj fields) =>
    if fields.all fun e => ((field fields e.1).bind asText).isSome then .ok ()
    else .error ⟨"a structured question gate requires the decision note to map question text to string answers", none⟩
  | some _ => .error ⟨"a structured question gate requires the decision note to map question text to string answers", none⟩

def stateResponses : List (GateState × String) :=
  [(.approved, "approved"), (.rejected, "rejected"), (.revisionRequested, "request revision"), (.cancelled, "cancelled")]

def gateResponse (gate : GateRecord) : Except HarnessControlError String :=
  if truthy gate.decisionNote then
    let note := gate.decisionNote.getD ""
    if structuredQuestions gate ≠ [] then (answersMap note).map fun _ => note else .ok note
  else .ok ((stateResponses.lookup gate.state).getD "")

/-! ## The gate of an interaction -/

def mergeCurrent (latest current : Dict String GateRecord) : Dict String GateRecord :=
  current.entries.foldl (fun d e => d.set e.1 e.2) latest

def allCurrent (gates : GateStore) : Dict String GateRecord :=
  (gates.lifecycleIds.map some ++ [none]).foldl (fun latest l => mergeCurrent latest (gates.current l)) Dict.empty

def interactionGate (gates : GateStore) (sessionId : String) (interactionId : Option String) : Option GateRecord :=
  match interactionId with
  | none => (allCurrent gates).values.find? fun gate =>
      gate.state = .open && decide ((interactionIdentity gate).map Prod.fst = some sessionId)
  | some interactionId => (allCurrent gates).values.find? fun gate => interactionIdentity gate = some (sessionId, interactionId)

/-! ## The synchronizer -/

def reopenUndelivered (gate : GateRecord) (exc : HarnessControlError) (delivery : String) (attempts : Int)
    (observedAt now : String) : GateRecord :=
  reopenGate { gate with packet := withDeliveryFailure gate exc.text delivery attempts observedAt } now

def recordDeliveryFailure (gate : GateRecord) (exc : HarnessControlError) (observedAt now : String) : GateRecord :=
  let attempts := deliveryAttempts gate + 1
  if provenUnsent exc = false then reopenUndelivered gate exc "unknown" attempts observedAt now
  else if interactionDeliveryAttemptLimit ≤ attempts then reopenUndelivered gate exc "not-sent" attempts observedAt now
  else
    { gate with
      ts := now
      packet := withDeliveryFailure gate exc.text "not-sent" attempts observedAt }

/-- What `_sync_interaction` does with the gates that it has read: nothing, one append, or a response to the adapter. -/
inductive Sync
  | quiet
  | write (record : GateRecord)
  | respond (gate : GateRecord) (interactionId response : String)

def questionGate (entry : Entry) (interaction : PendingInteraction) (gateId now : String) : GateRecord :=
  createGate .agentQuestion gateId now { lifecycleId := entry.lifecycleId }
    { packet := some (packetWith [] "adapterInteraction" (adapterInteraction entry interaction))
      requiredDecision := some (if interaction.choices ≠ [] then interaction.choices else ["approve", "reject"]) }

def decidedStates : List GateState := [.approved, .rejected, .revisionRequested, .cancelled]

def syncInteraction (gates : GateStore) (entry : Entry) (interaction : Option PendingInteraction) (gateId observedAt now : String) :
    Sync :=
  let matching := interactionGate gates entry.id (interaction.map (·.interactionId))
  match interaction, matching with
  | none, none => .quiet
  | none, some gate => if gate.state = .open then .write (expireGate gate now) else .quiet
  | some interaction, none => .write (questionGate entry interaction gateId now)
  | some interaction, some gate =>
    if gate.state ∈ decidedStates then
      match gateResponse gate with
      | .error exc => .write (reopenUndelivered gate exc "not-sent" 0 observedAt now)
      | .ok response => .respond gate interaction.interactionId response
    else .quiet

def respondAnswered (gate : GateRecord) (answer : Except HarnessControlError Unit) (observedAt now : String) : GateRecord :=
  match answer with
  | .ok _ => applyGate gate now none
  | .error exc => recordDeliveryFailure gate exc observedAt now

/-! ## Sweeps and decisions

A sweep computes what it does from gate logs that it read earlier, each at a
time of its own; while it waits for the adapter everything else goes on, and it
may die there. `written` and `log` are ghosts: every snapshot that was ever
appended, and what became of the decisions.
-/

open Lib
open Gate (GateRecord GateStore GateVerdict GateEvidenceRef GatePolicy LogPath recordGateDecision)

inductive SweepEvent
  | decided (gate : GateRecord)
  -- Sweep `i` sent the response of the snapshot.
  | sent (i : Nat) (gate : GateRecord)
  | took (i : Nat) (gate : GateRecord)
  -- The failure certifies that nothing was sent.
  | unsent (i : Nat) (gate : GateRecord)
  -- What sweep `i` appended after the answer.
  | settled (i : Nat) (record : GateRecord)
  -- The interaction that a sweep saw, and those that the session's open gates ask about after it.
  | swept (sessionId : String) (pending : Option String) (opens : List String)

structure Responding where
  sessionId : String
  gate : GateRecord
  interactionId : String
  response : String

structure World where
  gates : Gate.World
  sweeps : List (Option Responding)
  written : List GateRecord
  log : List SweepEvent

inductive Action
  | sweep (seen : LogPath → Nat) (entry : Entry) (interaction : Option PendingInteraction) (gateId observedAt now : String)
  | answered (i : Nat) (answer : Except HarnessControlError Unit) (observedAt now : String)
  -- The process of the sweep dies while it waits.
  | crash (i : Nat)
  -- `record_lifecycle_gate_decision` ends in such a decision, about the gate that it chose.
  | decide (seen : LogPath → Nat) (policy : GatePolicy) (gateId : String) (lifecycleId : Option String)
      (verdict : GateVerdict) (evidenceRefs : List GateEvidenceRef) (now : String)
  -- The second step of a cancellation.
  | delete (gateId : String) (lifecycleId : Option String)
  | compact (lifecycleId : Option String) (now : Int)

def init : World := ⟨Gate.World.init, [], [], []⟩

def openInteractions (gates : GateStore) (sessionId : String) : List String :=
  (allCurrent gates).values.filterMap fun gate =>
    if gate.state = .open then
      (interactionIdentity gate).bind fun identity => if identity.1 = sessionId then some identity.2 else none
    else none

namespace World

def append (w : World) (record : GateRecord) : World :=
  { w with
    gates := w.gates.advance (w.gates.store.append record) []
    written := w.written ++ [record] }

def note (w : World) (event : SweepEvent) : World := { w with log := w.log ++ [event] }

def swept (w : World) (entry : Entry) (interaction : Option PendingInteraction) : World :=
  w.note (.swept entry.id (interaction.map (·.interactionId)) (openInteractions w.gates.store entry.id))

def sweep (w : World) (gates : GateStore) (entry : Entry) (interaction : Option PendingInteraction)
    (gateId observedAt now : String) : World :=
  match syncInteraction gates entry interaction gateId observedAt now with
  | .quiet => { w with sweeps := w.sweeps ++ [none] }.swept entry interaction
  | .write record => ({ w with sweeps := w.sweeps ++ [none] }.append record).swept entry interaction
  | .respond gate interactionId response =>
    ({ w with sweeps := w.sweeps ++ [some (Responding.mk entry.id gate interactionId response)] }.note
      (.sent w.sweeps.length gate)).swept entry interaction

def noteAnswer (w : World) (i : Nat) (gate : GateRecord) (answer : Except HarnessControlError Unit) : World :=
  match answer with
  | .ok _ => w.note (.took i gate)
  | .error exc => if provenUnsent exc then w.note (.unsent i gate) else w

/-- An id that no gate has had: ULIDs never repeat. -/
def fresh (w : World) (gateId : String) : Bool := w.written.all fun record => record.id ≠ gateId

def step (parse : String → Option Stamp) (w : World) : Action → Option World
  | .sweep seen entry interaction gateId observedAt now =>
    if w.fresh gateId then some (w.sweep (w.gates.view seen) entry interaction gateId observedAt now) else none
  | .answered i answer observedAt now =>
    match w.sweeps[i]? with
    | some (some task) =>
      let record := respondAnswered task.gate answer observedAt now
      some ((({ w with sweeps := w.sweeps.set i none }.append record).noteAnswer i task.gate answer).note (.settled i record))
    | _ => none
  | .crash i =>
    match w.sweeps[i]? with
    | some (some _) => some { w with sweeps := w.sweeps.set i none }
    | _ => none
  | .decide seen policy gateId lifecycleId verdict evidenceRefs now =>
    match recordGateDecision (w.gates.view seen) policy gateId lifecycleId verdict evidenceRefs now with
    | .ok updated => some ((w.append updated).note (.decided updated))
    | .error _ => none
  | .delete gateId lifecycleId => some { w with gates := w.gates.advance (w.gates.store.delete gateId lifecycleId).2 [] }
  | .compact lifecycleId now => some { w with gates := w.gates.advance (w.gates.store.compact parse lifecycleId now).2 [] }

end World

def sweepSystem (parse : String → Option Stamp) : System World Action := ⟨init, World.step parse⟩

end AgentsRemember.Hosted
