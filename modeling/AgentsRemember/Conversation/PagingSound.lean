import AgentsRemember.Conversation.Store

/-!
# Walking back through a conversation

A walk takes the newest page and then the page of each returned cursor, while
the conversation grows at its live end. The cursor carries the number of items
before the page, and the next page reads it as the ordinal it must stay below:
one item is left out at every page boundary.
-/

namespace AgentsRemember.Conversation

open Lib

def maxPageLimit : Int := 500

def boundedLimit (limit : Int) : Nat := (max 1 (min maxPageLimit limit)).toNat

structure ConversationPage (σ β : Type) where
  identity : ActiveConversationRef
  items : List (ConversationItem β)
  olderCursor : Option (Cursor σ)
  hasOlder : Bool
  totalItems : Option Nat

section
variable {σ β : Type} [DecidableEq σ] (sign : CursorPayload → σ) (authorization : AuthorizationBinding)
  (identity : ActiveConversationRef)

def assemblePage (result : PageSlice β) : ConversationPage σ β where
  identity := identity
  items := result.items
  olderCursor := result.olderOrdinal.map fun ordinal => mintPageCursor sign authorization identity ordinal
  hasOlder := result.hasOlder
  totalItems := result.totalItems

def servicePage (s : ProjectionStore β) (before : Option (Cursor σ)) (limit : Int) (totalKnown : Bool) :
    Except ConversationCursorError (ConversationPage σ β) :=
  match before with
  | none => .ok (assemblePage sign authorization identity (s.page none (boundedLimit limit) totalKnown))
  | some token =>
    match decodePageCursor sign token authorization identity with
    | .error e => .error e
    | .ok ordinal => .ok (assemblePage sign authorization identity (s.page (some ordinal) (boundedLimit limit) totalKnown))

/-- The store at each request; `arrivals k` are the items applied between request `k` and the next. -/
def storeAt (reconcile : β → β → Option β) (s : ProjectionStore β) (arrivals : Nat → List (String × β)) :
    Nat → ProjectionStore β
  | 0 => s
  | k + 1 => (arrivals k).foldl (fun t a => t.applyItem reconcile a.1 a.2) (storeAt reconcile s arrivals k)

/-- The ids a walk yields from request `k` on, oldest first; `none` when the fuel ends first or a cursor is refused. -/
def walk (stores : Nat → ProjectionStore β) (limit : Int) (known : Nat → Bool) :
    Nat → Nat → Option (Cursor σ) → Option (List String)
  | 0, _, _ => none
  | fuel + 1, k, before =>
    match servicePage sign authorization identity (stores k) before limit (known k) with
    | .error _ => none
    | .ok page =>
      match page.olderCursor with
      | none => some (page.items.map ConversationItem.itemId)
      | some cursor =>
        (walk stores limit known fuel (k + 1) (some cursor)).map fun older =>
          older ++ page.items.map ConversationItem.itemId

/-- The whole walk. The ordinals of its cursors fall, so there are at most as many requests as items, and one more. -/
def walkBack (stores : Nat → ProjectionStore β) (limit : Int) (known : Nat → Bool) : Option (List String) :=
  walk sign authorization identity stores limit known ((stores 0).order.length + 2) 0 none

theorem storeAt_grows (reconcile : β → β → Option β) (s : ProjectionStore β) (arrivals : Nat → List (String × β)) :
    ∀ k, s.order <+: (storeAt reconcile s arrivals k).order
  | 0 => List.prefix_rfl
  | k + 1 => by
    have hfold : ∀ (l : List (String × β)) (t : ProjectionStore β),
        t.order <+: (l.foldl (fun t a => t.applyItem reconcile a.1 a.2) t).order := by
      intro l
      induction l with
      | nil => exact fun t => List.prefix_rfl
      | cons a l ih => exact fun t => (t.applyItem_grows reconcile a.1 a.2).trans (ih _)
    exact (storeAt_grows reconcile s arrivals k).trans (hfold (arrivals k) _)

theorem walk_succ (stores : Nat → ProjectionStore β) (limit : Int) (known : Nat → Bool) (fuel k : Nat)
    (before : Option Nat) :
    walk sign authorization identity stores limit known (fuel + 1) k
        (before.map fun b => mintPageCursor sign authorization identity b) =
      match ((stores k).page before (boundedLimit limit) (known k)).olderOrdinal with
      | none => some (((stores k).page before (boundedLimit limit) (known k)).items.map ConversationItem.itemId)
      | some b =>
        (walk sign authorization identity stores limit known fuel (k + 1)
          (some (mintPageCursor sign authorization identity b))).map fun older =>
            older ++ ((stores k).page before (boundedLimit limit) (known k)).items.map ConversationItem.itemId := by
  have hpage : servicePage sign authorization identity (stores k)
      (before.map fun b => mintPageCursor sign authorization identity b) limit (known k) =
        .ok (assemblePage sign authorization identity ((stores k).page before (boundedLimit limit) (known k))) := by
    cases before with
    | none => rfl
    | some b => simp [servicePage, decode_mintPageCursor]
  rw [walk, hpage]
  simp only [assemblePage]
  cases ((stores k).page before (boundedLimit limit) (known k)).olderOrdinal <;> rfl

theorem olderOrdinal_some (s : ProjectionStore β) (b limit : Nat) (known : Bool) :
    (s.page (some b) limit known).olderOrdinal = if b - 1 - limit > 0 then some (b - 1 - limit) else none := rfl

theorem olderOrdinal_none (s : ProjectionStore β) (limit : Nat) (known : Bool) :
    (s.page none limit known).olderOrdinal = if s.order.length - limit > 0 then some (s.order.length - limit) else none :=
  rfl

theorem walk_before {stores : Nat → ProjectionStore β} {order : List String}
    (hgrow : ∀ k, order <+: (stores k).order) (limit : Int) (known : Nat → Bool) :
    ∀ (fuel k b : Nat), b < fuel → b ≤ order.length →
    ∃ ids, walk sign authorization identity stores limit known fuel k
        (some (mintPageCursor sign authorization identity b)) = some ids ∧ ∀ id ∈ ids, id ∈ order.take (b - 1) := by
  intro fuel
  induction fuel with
  | zero => intro k b hb; omega
  | succ fuel ih =>
    intro k b hb hn
    have hids : ∀ id ∈ ((stores k).page (some b) (boundedLimit limit) (known k)).items.map ConversationItem.itemId,
        id ∈ order.take (b - 1) := by
      intro id hid
      rw [ProjectionStore.page_ids] at hid
      have htake := List.mem_of_mem_drop hid
      obtain ⟨t, ht⟩ := hgrow k
      rw [← ht, Option.map_some, Option.getD_some, List.take_append_of_le_length (by omega)] at htake
      exact htake
    have hw := walk_succ sign authorization identity stores limit known fuel k (some b)
    rw [olderOrdinal_some] at hw
    by_cases hstart : b - 1 - boundedLimit limit > 0
    · obtain ⟨older, ho, hin⟩ := ih (k + 1) (b - 1 - boundedLimit limit) (by omega) (by omega)
      rw [if_pos hstart] at hw
      simp only [ho, Option.map_some] at hw
      refine ⟨_, hw, fun id hid => ?_⟩
      rcases List.mem_append.mp hid with hid | hid
      · exact List.take_subset_take_left _ (by omega) (hin id hid)
      · exact hids id hid
    · rw [if_neg hstart] at hw
      exact ⟨_, hw, hids⟩

/-- **Paging.** A walk from the newest page always ends. It yields every item of the newest page's time exactly once
if and only if they all fit on one page. -/
theorem walk_complete_iff (reconcile : β → β → Option β) (s : ProjectionStore β) (arrivals : Nat → List (String × β))
    (limit : Int) (known : Nat → Bool) :
    ∃ ids, walkBack sign authorization identity (storeAt reconcile s arrivals) limit known = some ids ∧
      ((∀ id ∈ s.order, ids.count id = 1) ↔ s.order.length ≤ boundedLimit limit) := by
  have hw := walk_succ sign authorization identity (storeAt reconcile s arrivals) limit known (s.order.length + 1) 0 none
  have hfirst : ((s.page none (boundedLimit limit) (known 0)).items.map ConversationItem.itemId) =
      s.order.drop (s.order.length - boundedLimit limit) := by
    rw [ProjectionStore.page_ids]
    simp
  simp only [storeAt, olderOrdinal_none, hfirst, Option.map_none] at hw
  by_cases hfit : s.order.length ≤ boundedLimit limit
  · have hz : s.order.length - boundedLimit limit = 0 := by omega
    rw [hz, if_neg (by omega)] at hw
    refine ⟨s.order, hw, fun _ => hfit, fun _ id hid => ?_⟩
    exact List.count_eq_one_of_mem s.nodup hid
  have hstart : s.order.length - boundedLimit limit > 0 := by omega
  obtain ⟨older, ho, hin⟩ := walk_before sign authorization identity (storeAt_grows reconcile s arrivals) limit known
    (s.order.length + 1) 1 (s.order.length - boundedLimit limit) (by omega) (by omega)
  rw [if_pos hstart] at hw
  simp only [ho, Option.map_some] at hw
  refine ⟨_, hw, fun hall => ?_, fun h => absurd h hfit⟩
  -- The item just before the newest page is on no page.
  have hlt : s.order.length - boundedLimit limit - 1 < s.order.length := by omega
  have hmem : s.order[s.order.length - boundedLimit limit - 1] ∈ s.order := List.getElem_mem hlt
  have hone := hall _ hmem
  have hyield := List.count_pos_iff.mp (Nat.lt_of_lt_of_eq Nat.one_pos hone.symm)
  exfalso
  rcases List.mem_append.mp hyield with hm | hm
  · obtain ⟨i, hi, he⟩ := List.mem_take_iff_getElem.mp (hin _ hm)
    have := (List.Nodup.getElem_inj_iff s.nodup).mp he
    omega
  obtain ⟨i, hi, he⟩ := List.mem_drop_iff_getElem.mp hm
  have := (List.Nodup.getElem_inj_iff s.nodup).mp he
  omega

end

def threeItems : ProjectionStore Unit :=
  ["item-1", "item-2", "item-3"].foldl (fun s id => s.applyItem (fun _ _ => none) id ()) ProjectionStore.empty

def operatorBinding : AuthorizationBinding := ⟨"operator", "local"⟩

def codexConversation : ActiveConversationRef := ⟨"codex", "thread-1", "/workspace", "digest", "ar-1", "epoch-1"⟩

theorem walk_skips_oldest :
    walkBack id operatorBinding codexConversation (storeAt (fun _ _ => none) threeItems fun _ => []) 2 (fun _ => true) =
        some ["item-2", "item-3"] ∧
      ¬ ∀ (s : ProjectionStore Unit) (arrivals : Nat → List (String × Unit)) (limit : Int), 1 ≤ limit →
          ∃ ids, walkBack id operatorBinding codexConversation (storeAt (fun _ _ => none) s arrivals) limit (fun _ => true) =
            some ids ∧ ∀ id ∈ s.order, ids.count id = 1 := by
  have hwalk : walkBack id operatorBinding codexConversation (storeAt (fun _ _ => none) threeItems fun _ => []) 2
      (fun _ => true) = some ["item-2", "item-3"] := by decide
  refine ⟨hwalk, fun hall => ?_⟩
  obtain ⟨ids, hids, hone⟩ := hall threeItems (fun _ => []) 2 (by decide)
  rw [hwalk] at hids
  cases hids
  exact absurd (hone "item-1" (by decide)) (by decide)

end AgentsRemember.Conversation
