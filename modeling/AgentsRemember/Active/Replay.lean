import AgentsRemember.Active.Store
import Mathlib.Data.List.Range

/-!
# The browser's projection of an active conversation

The reducer that rebuilds the items from the emitted mutations. An older or
equal revision changes nothing; a delta applies at its expected revision only,
and everything else asks for a recovery.
-/

namespace AgentsRemember.Active

open Lib

structure ActiveConversationProjection (β : Type) where
  orderedItemIds : List String
  itemsById : Dict String (ConversationItem β)

inductive RecoverySignal
  | sameRevisionDifferentPayload
  | deltaUnknownItem
  | deltaRevisionSkew
  | deltaUnknownBlock

inductive Outcome (β : Type)
  | applied (proj : ActiveConversationProjection β)
  | ignored
  | recovery (signal : RecoverySignal)

section
variable {β : Type}

def emptyProjection : ActiveConversationProjection β := ⟨[], Dict.empty⟩

def ActiveConversationProjection.ordinalOf (itemsById : Dict String (ConversationItem β)) (id : String) : Nat :=
  ((itemsById.get? id).map (·.globalOrdinal)).getD 0

def insertionPoint (itemsById : Dict String (ConversationItem β)) (next : List String) (ordinal : Nat) (lo hi : Nat) : Nat :=
  if lo < hi then
    let mid := (lo + hi) / 2
    if ActiveConversationProjection.ordinalOf itemsById (next.getD mid "") < ordinal then
      insertionPoint itemsById next ordinal (mid + 1) hi
    else insertionPoint itemsById next ordinal lo mid
  else lo
  termination_by hi - lo

def insertOrdered (orderedItemIds : List String) (itemsById : Dict String (ConversationItem β))
    (item : ConversationItem β) : List String :=
  match (orderedItemIds.getLast?).bind itemsById.get? with
  | none => orderedItemIds ++ [item.itemId]
  | some last =>
    if last.globalOrdinal ≤ item.globalOrdinal then orderedItemIds ++ [item.itemId]
    else
      let lo := insertionPoint itemsById orderedItemIds item.globalOrdinal 0 orderedItemIds.length
      orderedItemIds.take lo ++ item.itemId :: orderedItemIds.drop lo

structure ItemSignature (β : Type) where
  phase : ItemPhase
  kind : ItemKind
  role : ConversationRole
  lane : ConversationLane
  source : ConversationSource
  provenance : ProvenanceEvidence
  blocks : List (ConversationContentBlock β)
  correlation : Option ConversationCorrelation
  updatedAt : Option String
  deriving DecidableEq

def itemSignature (item : ConversationItem β) : ItemSignature β :=
  ⟨item.phase, item.kind, item.role, item.lane, item.source, item.provenance, item.blocks, item.correlation, item.updatedAt⟩

def appendToBlock (block : ConversationContentBlock β) (delta : String) : ConversationContentBlock β :=
  match block.body with
  | .markdown text => { block with body := .markdown (text ++ delta) }
  | .thinking text => { block with body := .thinking (text ++ delta) }
  | .text text => { block with body := .text (text ++ delta) }
  | .code text language => { block with body := .code (text ++ delta) language }
  | .toolOutput text data => { block with body := .toolOutput (some (text.getD "" ++ delta)) data }
  | _ => block

namespace ActiveConversationProjection

def applyAppendOrUpsert [DecidableEq β] (proj : ActiveConversationProjection β) (item : ConversationItem β) : Outcome β :=
  match proj.itemsById.get? item.itemId with
  | some existing =>
    if item.revision < existing.revision then .ignored
    else if item.revision = existing.revision then
      if itemSignature existing ≠ itemSignature item then .recovery .sameRevisionDifferentPayload else .ignored
    else .applied { proj with itemsById := proj.itemsById.set item.itemId item }
  | none =>
    let itemsById := proj.itemsById.set item.itemId item
    .applied ⟨insertOrdered proj.orderedItemIds itemsById item, itemsById⟩

def applyBlockDelta (proj : ActiveConversationProjection β) (itemId blockId : String) (expectedRevision nextRevision : Nat)
    (delta : String) : Outcome β :=
  match proj.itemsById.get? itemId with
  | none => .recovery .deltaUnknownItem
  | some target =>
    if nextRevision ≤ target.revision then .ignored
    else if target.revision ≠ expectedRevision then .recovery .deltaRevisionSkew
    else if target.hasBlock blockId then
      .applied { proj with
        itemsById := proj.itemsById.set itemId
          { target with
            blocks := target.blocks.map fun block => if block.blockId ≠ blockId then block else appendToBlock block delta
            revision := nextRevision } }
    else .recovery .deltaUnknownBlock

def applyMutation [DecidableEq β] (proj : ActiveConversationProjection β) : StoreMutation β → Outcome β
  | .appendItem item | .upsertItem item => proj.applyAppendOrUpsert item
  | .appendBlockDelta itemId blockId expectedRevision nextRevision delta =>
    proj.applyBlockDelta itemId blockId expectedRevision nextRevision delta

def replay [DecidableEq β] : List (StoreMutation β) → ActiveConversationProjection β → Option (ActiveConversationProjection β)
  | [], proj => some proj
  | mutation :: rest, proj =>
    match proj.applyMutation mutation with
    | .applied next => replay rest next
    | .ignored | .recovery _ => none

def orderedItems (proj : ActiveConversationProjection β) : Option (List (ConversationItem β)) :=
  proj.orderedItemIds.mapM proj.itemsById.get?

end ActiveConversationProjection

end

/-! ## What an emitted mutation says about the items

`Emit` relates the items before and after one mutation: a first version at the
next ordinal, a later version in place, or text appended to a block. The
browser's reducer follows every such step, except that it extends code blocks
and the store does not; under `strict` that case is excluded.
-/

variable {β : Type}

def ConversationContentBlock.isCode (block : ConversationContentBlock β) : Bool :=
  match block.body with
  | .code .. => true
  | _ => false

def ConversationItem.ExtendsCode (item : ConversationItem β) (blockId delta : String) : Prop :=
  delta ≠ "" ∧ ∃ block ∈ item.blocks, block.blockId = blockId ∧ block.isCode = true

instance (item : ConversationItem β) (blockId delta : String) : Decidable (item.ExtendsCode blockId delta) :=
  inferInstanceAs (Decidable (_ ∧ _))

inductive Emit (strict : Prop) : Timeline β → StoreMutation β → Timeline β → Prop
  | append {t : Timeline β} {item : ConversationItem β} (hnew : t.items.get? item.itemId = none) (hrev : item.revision = 1)
      (hord : item.globalOrdinal = t.order.length + 1) :
      Emit strict t (.appendItem item) ⟨t.items.set item.itemId item, t.order ++ [item.itemId]⟩
  | upsert {t : Timeline β} {old item : ConversationItem β} (hold : t.items.get? item.itemId = some old)
      (hrev : item.revision = old.revision + 1) (hord : item.globalOrdinal = old.globalOrdinal) :
      Emit strict t (.upsertItem item) ⟨t.items.set item.itemId item, t.order⟩
  | delta {t : Timeline β} {old : ConversationItem β} {blockId text : String} (hold : t.items.get? old.itemId = some old)
      (hblock : old.hasBlock blockId = true) (hcode : strict → ¬ old.ExtendsCode blockId text) :
      Emit strict t (.appendBlockDelta old.itemId blockId old.revision (old.revision + 1) text)
        ⟨t.items.set old.itemId (old.withDelta blockId text), t.order⟩

inductive Emits (strict : Prop) : Timeline β → List (StoreMutation β) → Timeline β → Prop
  | nil (t : Timeline β) : Emits strict t [] t
  | cons {t u v : Timeline β} {m : StoreMutation β} {ms : List (StoreMutation β)} (hm : Emit strict t m u)
      (hms : Emits strict u ms v) : Emits strict t (m :: ms) v

variable {strict : Prop} {t u v : Timeline β} {m : StoreMutation β} {ms ms' : List (StoreMutation β)}

theorem Emits.one (h : Emit strict t m u) : Emits strict t [m] u := .cons h (.nil u)

theorem Emits.append (h : Emits strict t ms u) (h' : Emits strict u ms' v) : Emits strict t (ms ++ ms') v := by
  induction h with
  | nil => exact h'
  | cons hm _ ih => exact .cons hm (ih h')

/-! ## Order and ordinals -/

/-- The order lists the stored items, each under its own id, with the ordinals 1..n. -/
structure Timeline.Sound (t : Timeline β) : Prop where
  keyed : t.items.keys = t.order
  filed : ∀ id item, t.items.get? id = some item → item.itemId = id
  ordinals : t.items.values.map (·.globalOrdinal) = List.range' 1 t.order.length

theorem Timeline.Sound.ordered (h : t.Sound) : t.ordered = some t.items.values := by
  rw [Timeline.ordered, ← h.keyed, Dict.mapM_get?_keys]

theorem sound_empty : (Timeline.empty : Timeline β).Sound where
  keyed := rfl
  filed := by
    intro id item hget
    simp [Timeline.empty] at hget
  ordinals := rfl

variable {id : String} {item : ConversationItem β}

theorem Timeline.Sound.filed_set (h : t.Sound) (item : ConversationItem β) {found : ConversationItem β}
    (hget : (t.items.set item.itemId item).get? id = some found) : found.itemId = id := by
  rw [Dict.get?_set] at hget
  by_cases hid : item.itemId = id
  · rw [if_pos hid, Option.some.injEq] at hget
    rw [← hget, hid]
  · rw [if_neg hid] at hget
    exact h.filed id found hget

theorem Timeline.Sound.replaced (h : t.Sound) {old : ConversationItem β} (item : ConversationItem β)
    (hold : t.items.get? item.itemId = some old) (hord : item.globalOrdinal = old.globalOrdinal) :
    Timeline.Sound ⟨t.items.set item.itemId item, t.order⟩ where
  keyed := by
    rw [← h.keyed]
    exact Dict.keys_set_of_some hold
  filed := by
    intro id found hget
    exact h.filed_set item hget
  ordinals := by
    rw [← h.ordinals, Dict.values, Dict.values, List.map_map, List.map_map]
    exact Dict.map_setIn_of_some (by simpa using hord) hold

theorem Timeline.Sound.extended (h : t.Sound) (item : ConversationItem β) (hnew : t.items.get? item.itemId = none)
    (hord : item.globalOrdinal = t.order.length + 1) :
    Timeline.Sound ⟨t.items.set item.itemId item, t.order ++ [item.itemId]⟩ where
  keyed := by rw [Dict.keys_set_of_none hnew, h.keyed]
  filed := by
    intro id found hget
    exact h.filed_set item hget
  ordinals := by
    have hords := h.ordinals
    rw [Dict.values] at hords ⊢
    rw [Dict.set_entries_of_none hnew, List.map_append, List.map_append, hords, List.length_append, List.length_singleton,
      List.range'_concat]
    simp [hord, Nat.add_comm]

theorem Emit.sound (hm : Emit strict t m u) (h : t.Sound) : u.Sound := by
  cases hm with
  | append hnew hrev hord => exact h.extended _ hnew hord
  | upsert hold hrev hord => exact h.replaced _ hold hord
  | @delta old blockId text hold hblock hcode => exact h.replaced (old.withDelta blockId text) hold rfl

theorem Emits.sound (hms : Emits strict t ms u) (h : t.Sound) : u.Sound := by
  induction hms with
  | nil => exact h
  | cons hm _ ih => exact ih (hm.sound h)

theorem Emit.keeps_ordinal (hm : Emit strict t m u) (hget : t.items.get? id = some item) :
    ∃ item', u.items.get? id = some item' ∧ item'.globalOrdinal = item.globalOrdinal := by
  cases hm with
  | @append new hnew hrev hord =>
    have hne : new.itemId ≠ id := by
      intro he
      rw [he, hget] at hnew
      cases hnew
    exact ⟨item, by rw [Dict.get?_set_ne _ _ hne, hget], rfl⟩
  | @upsert old new hold hrev hord =>
    by_cases he : new.itemId = id
    · subst he
      rw [hold, Option.some.injEq] at hget
      exact ⟨new, Dict.get?_set_self .., hget ▸ hord⟩
    · exact ⟨item, by rw [Dict.get?_set_ne _ _ he, hget], rfl⟩
  | @delta old blockId text hold hblock hcode =>
    by_cases he : old.itemId = id
    · subst he
      rw [hold, Option.some.injEq] at hget
      exact ⟨_, Dict.get?_set_self .., hget ▸ rfl⟩
    · exact ⟨item, by rw [Dict.get?_set_ne _ _ he, hget], rfl⟩

theorem Emits.keeps_ordinal (hms : Emits strict t ms u) (hget : t.items.get? id = some item) :
    ∃ item', u.items.get? id = some item' ∧ item'.globalOrdinal = item.globalOrdinal := by
  induction hms generalizing item with
  | nil => exact ⟨item, hget, rfl⟩
  | cons hm _ ih =>
    obtain ⟨next, hnext, hord⟩ := hm.keeps_ordinal hget
    obtain ⟨item', hitem', hord'⟩ := ih hnext
    exact ⟨item', hitem', hord'.trans hord⟩

/-! ## Revisions -/

def StoreMutation.itemId : StoreMutation β → String
  | .appendItem item | .upsertItem item => item.itemId
  | .appendBlockDelta itemId .. => itemId

/-- The revision of its item once the mutation is applied. -/
def StoreMutation.revision : StoreMutation β → Nat
  | .appendItem item | .upsertItem item => item.revision
  | .appendBlockDelta _ _ _ nextRevision _ => nextRevision

/-- The revisions an item took, mutation by mutation. -/
def revisionsOf (id : String) (ms : List (StoreMutation β)) : List Nat :=
  (ms.filter fun m => m.itemId = id).map StoreMutation.revision

def Timeline.revision (t : Timeline β) (id : String) : Nat := ((t.items.get? id).map (·.revision)).getD 0

theorem revision_set (t : Timeline β) (item : ConversationItem β) (order : List String) (id : String) :
    (Timeline.mk (t.items.set item.itemId item) order).revision id =
      if item.itemId = id then item.revision else t.revision id := by
  by_cases h : item.itemId = id <;> simp [Timeline.revision, Dict.get?_set, h]

theorem Emit.revision_eq (hm : Emit strict t m u) (id : String) :
    u.revision id = if m.itemId = id then m.revision else t.revision id := by
  cases hm with
  | append => exact revision_set t ..
  | upsert => exact revision_set t ..
  | @delta old blockId text => exact revision_set t (old.withDelta blockId text) ..

theorem Emit.raises (hm : Emit strict t m u) : m.revision = t.revision m.itemId + 1 := by
  cases hm with
  | append hnew hrev hord => simp [StoreMutation.revision, StoreMutation.itemId, Timeline.revision, hnew, hrev]
  | upsert hold hrev hord => simp [StoreMutation.revision, StoreMutation.itemId, Timeline.revision, hold, hrev]
  | delta hold hblock hcode => simp [StoreMutation.revision, StoreMutation.itemId, Timeline.revision, hold]

theorem Emits.revisions (hms : Emits strict t ms u) (id : String) :
    revisionsOf id ms = List.range' (t.revision id + 1) (revisionsOf id ms).length ∧
      u.revision id = t.revision id + (revisionsOf id ms).length := by
  induction hms with
  | nil => exact ⟨rfl, rfl⟩
  | @cons t u v m ms hm _ ih =>
    obtain ⟨hrange, hlast⟩ := ih
    have hrev := hm.revision_eq id
    by_cases hid : m.itemId = id
    · have hraise := hm.raises
      rw [if_pos hid] at hrev
      rw [hid] at hraise
      have hcons : revisionsOf id (m :: ms) = m.revision :: revisionsOf id ms := by simp [revisionsOf, hid]
      rw [hrev, hraise] at hrange hlast
      rw [hcons, List.length_cons, List.range'_succ, ← hrange, hraise]
      exact ⟨rfl, by omega⟩
    rw [if_neg hid] at hrev
    have hcons : revisionsOf id (m :: ms) = revisionsOf id ms := by simp [revisionsOf, hid]
    rw [hcons, ← hrev]
    exact ⟨hrange, hlast⟩

/-! ## The browser follows -/

def Timeline.view (t : Timeline β) : ActiveConversationProjection β := ⟨t.order, t.items⟩

theorem appendToBlock_eq {block : ConversationContentBlock β} {text : String} (h : block.isCode = false ∨ text = "") :
    appendToBlock block text = appendText block text := by
  obtain ⟨blockId, body⟩ := block
  cases body with
  | code code language =>
    rcases h with h | h
    · cases h
    · simp [appendToBlock, appendText, h]
  | _ => rfl

theorem insertOrdered_last (h : t.Sound) (hnew : t.items.get? item.itemId = none)
    (hord : item.globalOrdinal = t.order.length + 1) :
    insertOrdered t.order (t.items.set item.itemId item) item = t.order ++ [item.itemId] := by
  unfold insertOrdered
  split
  · rfl
  rename_i last hlast
  obtain ⟨id, hid, hget⟩ := Option.bind_eq_some_iff.mp hlast
  have hne : item.itemId ≠ id := by
    intro he
    have hmem : id ∈ t.items.keys := h.keyed ▸ List.mem_of_getLast? hid
    exact Dict.get?_eq_none.mp hnew (he ▸ hmem)
  rw [Dict.get?_set_ne _ _ hne] at hget
  have hmem : last.globalOrdinal ∈ List.range' 1 t.order.length := by
    rw [← h.ordinals]
    exact List.mem_map_of_mem (Dict.mem_values.mpr ⟨id, hget⟩)
  have hle := (List.mem_range'_1.mp hmem).2
  rw [if_pos (by omega)]

theorem Emit.applied [DecidableEq β] (hm : Emit True t m u) (h : t.Sound) : t.view.applyMutation m = .applied u.view := by
  cases hm with
  | append hnew hrev hord =>
    simp only [ActiveConversationProjection.applyMutation, ActiveConversationProjection.applyAppendOrUpsert, Timeline.view, hnew,
      insertOrdered_last h hnew hord]
  | upsert hold hrev hord =>
    simp only [ActiveConversationProjection.applyMutation, ActiveConversationProjection.applyAppendOrUpsert, Timeline.view, hold,
      hrev]
    rw [if_neg (by omega), if_neg (by omega)]
  | @delta old blockId text hold hblock hcode =>
    have hsame : (old.blocks.map fun block => if block.blockId ≠ blockId then block else appendToBlock block text) =
        old.blocks.map fun block => if block.blockId ≠ blockId then block else appendText block text := by
      apply List.map_congr_left
      intro block hblock
      by_cases hid : block.blockId = blockId
      · have hspared : block.isCode = false ∨ text = "" := by
          by_contra hnot
          rw [not_or] at hnot
          exact hcode trivial ⟨hnot.2, block, hblock, hid, by simpa using hnot.1⟩
        simp only [hid, ne_eq, not_true_eq_false, if_false, appendToBlock_eq hspared]
      · simp only [ne_eq, hid, not_false_eq_true, if_true]
    simp only [ActiveConversationProjection.applyMutation, ActiveConversationProjection.applyBlockDelta, Timeline.view, hold, hblock,
      hsame, ConversationItem.withDelta]
    rw [if_neg (by omega), if_neg (by simp), if_pos trivial]

theorem Emits.replayed [DecidableEq β] (hms : Emits True t ms u) (h : t.Sound) :
    ActiveConversationProjection.replay ms t.view = some u.view := by
  induction hms with
  | nil => rfl
  | cons hm _ ih =>
    rw [ActiveConversationProjection.replay, hm.applied h]
    exact ih (hm.sound h)

end AgentsRemember.Active
