import Mathlib.Data.Int.Notation
import AgentsRemember.Lib.Dict

/-!
# Page cursors

A cursor is a signed payload bound to the caller, the session, the bridge epoch
and the native conversation. It is kept as the payload and its signature; how
the two are written as one text is left out. `sign` is the keyed digest.
-/

namespace AgentsRemember.Conversation

def cursorSchemaVersion : Nat := 1

inductive CursorPurpose
  | activePage | activeEvent
  deriving DecidableEq

structure ActiveConversationRef where
  harnessId : String
  vendorConversationId : String
  projectScope : String
  identityDigest : String
  arSessionId : String
  bridgeEpoch : String

structure AuthorizationBinding where
  principalId : String
  tenantId : String

structure CursorPayload where
  v : Nat
  purpose : CursorPurpose
  principal : String
  tenant : String
  session : String
  epoch : String
  harness : String
  vendor : String
  scope : String
  generation : String
  position : Int
  deriving DecidableEq

structure Cursor (σ : Type) where
  brand : CursorPurpose
  payload : CursorPayload
  signature : σ

inductive ConversationCursorError
  | invalid (detail : String)
  | authorization (detail : String)
  | epochMismatch (detail reason : String)

def bindingPayload (purpose : CursorPurpose) (authorization : AuthorizationBinding) (identity : ActiveConversationRef)
    (generation : String) (position : Int) : CursorPayload where
  v := cursorSchemaVersion
  purpose := purpose
  principal := authorization.principalId
  tenant := authorization.tenantId
  session := identity.arSessionId
  epoch := identity.bridgeEpoch
  harness := identity.harnessId
  vendor := identity.vendorConversationId
  scope := identity.projectScope
  generation := generation
  position := position

section
variable {σ : Type} [DecidableEq σ] (sign : CursorPayload → σ)

def decode (cursor : Cursor σ) (expectedPurpose : CursorPurpose) : Except ConversationCursorError CursorPayload :=
  if cursor.brand ≠ expectedPurpose then .error (.invalid "cursor purpose does not match this route")
  else if sign cursor.payload ≠ cursor.signature then .error (.invalid "cursor failed integrity verification")
  else if cursor.payload.v ≠ cursorSchemaVersion then .error (.invalid "cursor schema version is unsupported")
  else if cursor.payload.purpose ≠ expectedPurpose then .error (.invalid "cursor purpose does not match this route")
  else .ok cursor.payload

def requireBinding (payload : CursorPayload) (authorization : AuthorizationBinding) (identity : ActiveConversationRef) :
    Except ConversationCursorError Unit :=
  if payload.principal ≠ authorization.principalId ∨ payload.tenant ≠ authorization.tenantId then
    .error (.authorization "cursor does not belong to this caller")
  else if payload.session ≠ identity.arSessionId then
    .error (.authorization "cursor does not belong to this AR session")
  else if payload.epoch ≠ identity.bridgeEpoch then
    .error (.epochMismatch "cursor was minted under a different bridge epoch" "epoch-mismatch")
  else if payload.harness ≠ identity.harnessId ∨ payload.vendor ≠ identity.vendorConversationId ∨
      payload.scope ≠ identity.projectScope then
    .error (.invalid "cursor names a different native conversation")
  else .ok ()

def mintPageCursor (authorization : AuthorizationBinding) (identity : ActiveConversationRef) (ordinal : Nat) : Cursor σ :=
  let payload := bindingPayload .activePage authorization identity "native" ordinal
  ⟨.activePage, payload, sign payload⟩

def decodePageCursor (token : Cursor σ) (authorization : AuthorizationBinding) (identity : ActiveConversationRef) :
    Except ConversationCursorError Nat :=
  match decode sign token .activePage with
  | .error e => .error e
  | .ok payload =>
    match requireBinding payload authorization identity with
    | .error e => .error e
    | .ok _ => if payload.position < 0 then .error (.invalid "page cursor position is invalid") else .ok payload.position.toNat

theorem decode_mintPageCursor (authorization : AuthorizationBinding) (identity : ActiveConversationRef) (ordinal : Nat) :
    decodePageCursor sign (mintPageCursor sign authorization identity ordinal) authorization identity = .ok ordinal := by
  simp [decodePageCursor, decode, mintPageCursor, requireBinding, bindingPayload]

end

/-! ## The projection store of one session

Items in the order of their first arrival. An item's ordinal is its position in
that order, from one; a later version of the item keeps it. `page` cuts one
window out of the order.
-/

open Lib

structure ConversationItem (β : Type) where
  itemId : String
  revision : Nat
  globalOrdinal : Nat
  content : β

structure ProjectionStore (β : Type) where
  items : Dict String (ConversationItem β)
  order : List String
  nodup : order.Nodup
  stored : ∀ id ∈ order, (items.get? id).isSome
  listed : ∀ id item, items.get? id = some item →
    item.itemId = id ∧ order[item.globalOrdinal - 1]? = some id ∧ 1 ≤ item.globalOrdinal

structure PageSlice (β : Type) where
  items : List (ConversationItem β)
  olderOrdinal : Option Nat
  hasOlder : Bool
  totalItems : Option Nat

namespace ProjectionStore

variable {β : Type}

def empty : ProjectionStore β where
  items := Dict.empty
  order := []
  nodup := List.nodup_nil
  stored := fun _ h => nomatch h
  listed := fun _ _ h => nomatch h

def appendItem (s : ProjectionStore β) (id : String) (content : β) (hnew : s.items.get? id = none) : ProjectionStore β where
  items := s.items.set id ⟨id, 1, s.order.length + 1, content⟩
  order := s.order ++ [id]
  nodup := by
    have hid : id ∉ s.order := fun hm => by simpa [hnew] using s.stored id hm
    simpa [List.nodup_append] using ⟨s.nodup, fun a ha => ne_of_mem_of_not_mem ha hid⟩
  stored := by
    intro id' hm
    rw [Dict.get?_set]
    split
    · rfl
    rename_i hne
    rcases List.mem_append.mp hm with hm | hm
    · exact s.stored id' hm
    · exact absurd (List.mem_singleton.mp hm).symm hne
  listed := by
    intro id' item h
    rw [Dict.get?_set] at h
    split at h
    · rename_i he
      cases h
      simp [he]
    · obtain ⟨h1, h2, h3⟩ := s.listed id' item h
      exact ⟨h1, List.getElem?_append_left (List.getElem?_eq_some_iff.mp h2).1 ▸ h2, h3⟩

def replaceItem (s : ProjectionStore β) (id : String) (item : ConversationItem β) (content : β)
    (hold : s.items.get? id = some item) : ProjectionStore β where
  items := s.items.set id { item with revision := item.revision + 1, content := content }
  order := s.order
  nodup := s.nodup
  stored := by
    intro id' hm
    rw [Dict.get?_set]
    split
    · rfl
    · exact s.stored id' hm
  listed := by
    intro id' item' h
    rw [Dict.get?_set] at h
    split at h
    · rename_i he
      cases h
      exact he ▸ s.listed id item hold
    · exact s.listed id' item' h

/-- Append or upsert. `reconcile` is the store's merge of a candidate into the item it has; `none` is a replay. -/
def applyItem (reconcile : β → β → Option β) (s : ProjectionStore β) (id : String) (content : β) : ProjectionStore β :=
  match h : s.items.get? id with
  | none => s.appendItem id content h
  | some existing =>
    match reconcile existing.content content with
    | none => s
    | some merged => s.replaceItem id existing merged h

def page (s : ProjectionStore β) (beforeOrdinal : Option Nat) (limit : Nat) (totalKnown : Bool) : PageSlice β :=
  let stop := match beforeOrdinal with
    | some before => before - 1
    | none => s.order.length
  let start := stop - limit
  { items := ((s.order.take stop).drop start).filterMap s.items.get?
    olderOrdinal := if start > 0 then some start else none
    hasOlder := start > 0
    totalItems := if totalKnown then some s.order.length else none }

theorem applyItem_grows (reconcile : β → β → Option β) (s : ProjectionStore β) (id : String) (content : β) :
    s.order <+: (s.applyItem reconcile id content).order := by
  unfold applyItem
  split
  · exact List.prefix_append _ _
  split
  · exact List.prefix_rfl
  · exact List.prefix_rfl

theorem items_of_order (s : ProjectionStore β) : ∀ {ids : List String}, (∀ id ∈ ids, id ∈ s.order) →
    (ids.filterMap s.items.get?).map ConversationItem.itemId = ids
  | [], _ => rfl
  | id :: ids, h => by
    obtain ⟨item, hitem⟩ := Option.isSome_iff_exists.mp (s.stored id (h id (by simp)))
    rw [List.filterMap_cons_some hitem, List.map_cons, (s.listed id item hitem).1,
      s.items_of_order fun id' h' => h id' (List.mem_cons_of_mem _ h')]

theorem page_ids (s : ProjectionStore β) (before : Option Nat) (limit : Nat) (totalKnown : Bool) :
    (s.page before limit totalKnown).items.map ConversationItem.itemId =
      (s.order.take ((before.map fun b => b - 1).getD s.order.length)).drop
        ((before.map fun b => b - 1).getD s.order.length - limit) := by
  have hsub : ∀ stop start : Nat, ∀ id ∈ (s.order.take stop).drop start, id ∈ s.order := fun _ _ _ h =>
    List.mem_of_mem_take (List.mem_of_mem_drop h)
  cases before with
  | none => exact s.items_of_order (hsub _ _)
  | some b => exact s.items_of_order (hsub _ _)

end ProjectionStore

end AgentsRemember.Conversation
