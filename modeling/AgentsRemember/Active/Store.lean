import AgentsRemember.Lib.Dict
import AgentsRemember.Lib.Text
import AgentsRemember.Lib.System

/-!
# Items of the active conversation

An item is a header (id, revision, ordinal, authority) and a list of content
blocks. Revision and ordinal are the store's; whatever a mapper puts there is
overwritten. `β` is the opaque data of tool blocks, compared by the harness's
own equality.
-/

namespace AgentsRemember.Active

open Lib

inductive ConversationLane
  | operator | harness | agentBus | unknownInput | interaction | control | system
  deriving DecidableEq

inductive ConversationSource
  | cockpitComposer | terminalControlled | durableInbox | harnessLive | harnessReplay | interactionResponse
  | controlAuthority | nativeHistory
  deriving DecidableEq

inductive ConversationRole
  | user | assistant | system | tool
  deriving DecidableEq

inductive ProvenanceStrength
  | exact | correlated | nativeOnly | unknown
  deriving DecidableEq

inductive ProvenanceProducer
  | operator | agentBus | controlledTerminal | harness | system
  deriving DecidableEq

structure ProvenanceEvidence where
  strength : ProvenanceStrength
  origin : String
  producer : Option ProvenanceProducer := none
  observedAt : Option String := none
  evidenceRef : Option String := none
  reason : Option String := none
  deriving DecidableEq

inductive AccessibleLabelProvenance
  | suppliedDescription | filenameMimeFallback
  deriving DecidableEq

inductive ReferenceType
  | fileRef | resourceRef
  deriving DecidableEq

structure ChoiceOption where
  optionId : String
  label : String
  description : Option String := none
  deriving DecidableEq

inductive BlockBody (β : Type)
  | markdown (markdown : String)
  | text (text : String)
  | thinking (markdown : String)
  | code (text : String) (language : Option String)
  | toolInput (summary : String) (data : Option β)
  | toolOutput (text : Option String) (data : Option β)
  | diff (path oldText newText unified : Option String)
  | imageRef (assetId alt : String) (altProvenance : AccessibleLabelProvenance) (mimeType : String)
  | reference (type : ReferenceType) (name : String) (uri mimeType : Option String)
  | choices (interactionId : String) (options : List ChoiceOption)
  | unknownVendor (vendorType safeSummary evidenceRef : String)
  deriving BEq, DecidableEq

structure ConversationContentBlock (β : Type) where
  blockId : String
  body : BlockBody β
  deriving BEq, DecidableEq

structure ConversationCorrelation where
  requestId : Option String := none
  vendorCorrelationId : Option String := none
  interactionId : Option String := none
  toolCallId : Option String := none
  deriving DecidableEq

inductive ConversationAgentStatus
  | registered | running | completed | interrupted | failed | unknown
  deriving DecidableEq

structure ConversationAgentRef where
  agentId : String
  agentPath : Option String := none
  nickname : Option String := none
  role : Option String := none
  joinKey : Option String := none
  parentAgentId : Option String := none
  status : ConversationAgentStatus := .unknown
  deriving DecidableEq

inductive ItemKind
  | message | thinking | plan | toolCall | toolResult | interaction | turnResult | notice | error | telemetry
  | unknownVendor
  deriving DecidableEq

inductive ItemPhase
  | pending | streaming | waiting | completed | failed | interrupted | unknown
  deriving DecidableEq

structure ConversationItem (β : Type) where
  itemId : String
  revision : Nat
  globalOrdinal : Nat
  turnId : Option String := none
  parentItemId : Option String := none
  lane : ConversationLane
  source : ConversationSource
  provenance : ProvenanceEvidence
  role : ConversationRole
  kind : ItemKind
  phase : ItemPhase
  blocks : List (ConversationContentBlock β)
  correlation : Option ConversationCorrelation := none
  agent : Option ConversationAgentRef := none
  createdAt : Option String := none
  updatedAt : Option String := none
  evidenceRef : Option String := none
  deriving BEq, DecidableEq

structure MappedBlockDelta where
  itemId : String
  blockId : String
  delta : String
  deriving DecidableEq

/-! ## Blocks -/

section
variable {β : Type}

def blockContentText (block : ConversationContentBlock β) : String :=
  match block.body with
  | .markdown text | .thinking text | .text text => text
  | .toolOutput text _ => text.getD ""
  | _ => ""

def authoritativeBlockIds (candidate : ConversationItem β) : List String :=
  (candidate.blocks.filter fun block => blockContentText block != "").map (·.blockId)

def appendText (block : ConversationContentBlock β) (delta : String) : ConversationContentBlock β :=
  match block.body with
  | .markdown text => { block with body := .markdown (text ++ delta) }
  | .text text => { block with body := .text (text ++ delta) }
  | .thinking text => { block with body := .thinking (text ++ delta) }
  | .toolOutput text data => { block with body := .toolOutput (some (text.getD "" ++ delta)) data }
  | _ => block

@[simp] theorem appendText_blockId (block : ConversationContentBlock β) (delta : String) :
    (appendText block delta).blockId = block.blockId := by
  unfold appendText
  split <;> rfl

def unionBlocks (existing candidate : List (ConversationContentBlock β)) : List (ConversationContentBlock β) :=
  ((existing ++ candidate).foldl (fun merged block => merged.set block.blockId block)
    (Dict.empty : Dict String (ConversationContentBlock β))).values

def ConversationItem.hasBlock (item : ConversationItem β) (blockId : String) : Bool :=
  item.blocks.any fun block => block.blockId == blockId

def ConversationItem.defaultBlock (item : ConversationItem β) : String :=
  if item.kind = .toolCall then "output" else "markdown"

def MappedBlockDelta.target (mapped : MappedBlockDelta) (item : ConversationItem β) : String :=
  if mapped.blockId = "" then item.defaultBlock else mapped.blockId

def ConversationItem.mintBlockWithText (item : ConversationItem β) (blockId text : String) : ConversationItem β :=
  let body := match item.kind with
    | .toolCall => .toolOutput (some text) none
    | .thinking => .thinking text
    | _ => .markdown text
  { item with blocks := item.blocks ++ [⟨blockId, body⟩], revision := item.revision + 1 }

def ConversationItem.withDelta (item : ConversationItem β) (blockId delta : String) : ConversationItem β :=
  { item with
    blocks := item.blocks.map fun block => if block.blockId ≠ blockId then block else appendText block delta
    revision := item.revision + 1 }

/-! ## A candidate against the item the store has -/

def ConversationAgentStatus.terminal (status : ConversationAgentStatus) : Bool :=
  status = .completed || status = .failed || status = .interrupted

def rosterId (itemId : String) : Bool :=
  "codex-agent-".toList.isPrefixOf itemId.toList || "claude-agent-".toList.isPrefixOf itemId.toList

def reconcileRosterUpsert (existing candidate : ConversationItem β) : ConversationItem β :=
  match existing.agent, candidate.agent with
  | some old, some new =>
    if (existing.kind = .notice ∧ candidate.kind = .notice) ∧ (existing.role = .system ∧ candidate.role = .system) ∧
        rosterId existing.itemId ∧ rosterId candidate.itemId ∧ old.status.terminal ∧ ¬ new.status.terminal ∧
        candidate.source = .nativeHistory then
      { candidate with
        agent := some { new with status := old.status, agentPath := pyOr new.agentPath old.agentPath }
        phase := existing.phase }
    else candidate
  | _, _ => candidate

def ItemPhase.terminal (phase : ItemPhase) : Bool :=
  phase = .completed || phase = .failed || phase = .interrupted

def unionToolCall (existing candidate : ConversationItem β) : ConversationItem β :=
  if existing.kind = .toolCall ∧ candidate.kind = .toolCall then
    { candidate with
      blocks := unionBlocks existing.blocks candidate.blocks
      phase := if candidate.phase = .streaming ∧ existing.phase.terminal then existing.phase else candidate.phase }
  else candidate

/-- A roster notice keeps its final message over later upserts that carry none. -/
def retainFinalMessage (existing candidate : ConversationItem β) : ConversationItem β :=
  if (existing.kind = .notice ∧ candidate.kind = .notice) ∧ ¬ candidate.hasBlock "final-message" then
    { candidate with
      blocks := candidate.blocks ++ existing.blocks.filter fun block => block.blockId == "final-message" }
  else candidate

def mergeCandidate (existing candidate : ConversationItem β) : ConversationItem β :=
  retainFinalMessage existing (unionToolCall existing (reconcileRosterUpsert existing candidate))

def preservedInputAuthority (existing candidate : ConversationItem β) : ConversationItem β :=
  { candidate with
    provenance := existing.provenance
    lane := if existing.role = .user then existing.lane else candidate.lane
    source := if existing.role = .user then existing.source else candidate.source }

def ConversationItem.normalized (item : ConversationItem β) : ConversationItem β :=
  { item with
    revision := 0, globalOrdinal := 0, createdAt := none, updatedAt := none, provenance := ⟨.unknown, "", none, none, none, none⟩ }

def sameButNormalized [BEq β] (existing candidate : ConversationItem β) : Bool :=
  (preservedInputAuthority existing candidate).normalized == existing.normalized

end

/-! ## The projection store of an active conversation

Mapper outputs go in, mutations come out. A delta for an item that is not here
yet waits, in arrival order, and is flushed when the item arrives. A lookup the
store makes by `dict[key]` can raise; `none` is that exception.
-/

def maxPendingDeltaItems : Nat := 64

def maxPendingDeltasPerItem : Nat := 64

inductive SubmissionSource
  | cockpit | terminal | durable
  deriving DecidableEq

def SubmissionSource.authority : SubmissionSource → ConversationLane × ConversationSource × ProvenanceProducer
  | .cockpit => (.operator, .cockpitComposer, .operator)
  | .terminal => (.operator, .terminalControlled, .controlledTerminal)
  | .durable => (.agentBus, .durableInbox, .agentBus)

inductive StoreMutation (β : Type)
  | appendItem (item : ConversationItem β)
  | upsertItem (item : ConversationItem β)
  | appendBlockDelta (itemId blockId : String) (expectedRevision nextRevision : Nat) (delta : String)
  deriving DecidableEq

structure Timeline (β : Type) where
  items : Dict String (ConversationItem β)
  order : List String
  deriving DecidableEq

structure ProjectionStore (β : Type) extends Timeline β where
  pendingDeltas : Dict String (List MappedBlockDelta)
  provenancePending : Dict String String
  provenanceDone : List String
  deriving DecidableEq

variable {β : Type}

def Timeline.empty : Timeline β := ⟨Dict.empty, []⟩

/-- The stored items in order, or `none` where one of them is missing. -/
def Timeline.ordered (t : Timeline β) : Option (List (ConversationItem β)) := t.order.mapM t.items.get?

namespace ProjectionStore

def empty : ProjectionStore β := ⟨Timeline.empty, Dict.empty, Dict.empty, []⟩

def setItem (s : ProjectionStore β) (item : ConversationItem β) : ProjectionStore β :=
  { s with items := s.items.set item.itemId item }

def trackProvenance (s : ProjectionStore β) (item : ConversationItem β) : ProjectionStore β :=
  match item.correlation.bind (·.requestId) with
  | some requestId =>
    if item.role = .user ∧ requestId ≠ "" ∧ item.provenance.strength ≠ .exact then
      { s with provenancePending := s.provenancePending.set item.itemId requestId }
    else s
  | none => s

def bufferDelta (s : ProjectionStore β) (mapped : MappedBlockDelta) : ProjectionStore β :=
  match s.pendingDeltas.get? mapped.itemId with
  | some pending =>
    if pending.length < maxPendingDeltasPerItem then
      { s with pendingDeltas := s.pendingDeltas.set mapped.itemId (pending ++ [mapped]) }
    else s
  | none =>
    let kept := match s.pendingDeltas.keys with
      | oldest :: _ => if maxPendingDeltaItems ≤ s.pendingDeltas.keys.length then s.pendingDeltas.erase oldest else s.pendingDeltas
      | [] => s.pendingDeltas
    { s with pendingDeltas := kept.set mapped.itemId [mapped] }

def extend (s : ProjectionStore β) (item : ConversationItem β) (blockId delta : String) :
    ProjectionStore β × List (StoreMutation β) :=
  if item.hasBlock blockId then
    (s.setItem (item.withDelta blockId delta),
      [.appendBlockDelta item.itemId blockId item.revision (item.revision + 1) delta])
  else (s.setItem (item.mintBlockWithText blockId delta), [.upsertItem (item.mintBlockWithText blockId delta)])

def flushLoop (itemId : String) (authoritative : List String) :
    List MappedBlockDelta → ProjectionStore β → Option (ProjectionStore β × List (StoreMutation β))
  | [], s => some (s, [])
  | delta :: rest, s =>
    (s.items.get? itemId).bind fun current =>
      if delta.target current ∈ authoritative then flushLoop itemId authoritative rest s
      else
        let extended := s.extend current (delta.target current) delta.delta
        (flushLoop itemId authoritative rest extended.1).map fun flushed => (flushed.1, extended.2 ++ flushed.2)

def flushPendingDeltas (s : ProjectionStore β) (itemId : String) (authoritative : List String) :
    Option (ProjectionStore β × List (StoreMutation β)) :=
  match s.pendingDeltas.get? itemId with
  | none => some (s, [])
  | some pending => flushLoop itemId authoritative pending { s with pendingDeltas := s.pendingDeltas.erase itemId }

def arrived (s : ProjectionStore β) (candidate : ConversationItem β) : ConversationItem β :=
  { candidate with revision := 1, globalOrdinal := s.order.length + 1 }

def upserted (existing candidate : ConversationItem β) : ConversationItem β :=
  preservedInputAuthority existing
    { candidate with
      revision := existing.revision + 1
      globalOrdinal := existing.globalOrdinal
      createdAt := pyOr existing.createdAt candidate.createdAt }

def applyItem [BEq β] (s : ProjectionStore β) (candidate : ConversationItem β) :
    Option (ProjectionStore β × List (StoreMutation β)) :=
  let authoritative := authoritativeBlockIds candidate
  match s.items.get? candidate.itemId with
  | none =>
    let item := s.arrived candidate
    let entered := ({ s.setItem item with order := s.order ++ [item.itemId] }).trackProvenance item
    (entered.flushPendingDeltas item.itemId authoritative).map fun flushed => (flushed.1, .appendItem item :: flushed.2)
  | some existing =>
    let merged := mergeCandidate existing candidate
    if sameButNormalized existing merged then s.flushPendingDeltas existing.itemId authoritative
    else
      let item := upserted existing merged
      (((s.setItem item).trackProvenance item).flushPendingDeltas item.itemId authoritative).map fun flushed =>
        (flushed.1, .upsertItem item :: flushed.2)

def applyDelta (s : ProjectionStore β) (mapped : MappedBlockDelta) : ProjectionStore β × List (StoreMutation β) :=
  match s.items.get? mapped.itemId with
  | none => (s.bufferDelta mapped, [])
  | some item => s.extend item (mapped.target item) mapped.delta

def attributed (item : ConversationItem β) (source : SubmissionSource) : ConversationItem β :=
  { item with
    lane := source.authority.1
    source := source.authority.2.1
    revision := item.revision + 1
    provenance := { item.provenance with strength := .exact, producer := some source.authority.2.2, reason := none } }

def applyProvenance (s : ProjectionStore β) (requestId : String) (source : Option SubmissionSource) :
    Option (ProjectionStore β × List (StoreMutation β)) :=
  let noted := { s with provenanceDone := s.provenanceDone.insert requestId }
  match source, s.provenancePending.entries.find? fun pending => pending.2 = requestId with
  | some source, some (itemId, _) =>
    (s.items.get? itemId).map fun item =>
      ({ noted with items := s.items.set itemId (attributed item source) }, [.upsertItem (attributed item source)])
  | _, _ => some (noted, [])

end ProjectionStore

inductive Call (β : Type)
  | applyItem (candidate : ConversationItem β)
  | applyDelta (mapped : MappedBlockDelta)
  | applyProvenance (requestId : String) (source : Option SubmissionSource)

def ProjectionStore.call [BEq β] (s : ProjectionStore β) : Call β → Option (ProjectionStore β × List (StoreMutation β))
  | .applyItem candidate => s.applyItem candidate
  | .applyDelta mapped => some (s.applyDelta mapped)
  | .applyProvenance requestId source => s.applyProvenance requestId source

/-- A store and everything it has emitted. -/
structure World (β : Type) where
  store : ProjectionStore β
  emitted : List (StoreMutation β)

def activeSystem (β : Type) [BEq β] : System (World β) (Call β) where
  init := ⟨.empty, []⟩
  step w c := (w.store.call c).map fun result => ⟨result.1, w.emitted ++ result.2⟩

end AgentsRemember.Active
