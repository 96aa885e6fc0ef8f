import AgentsRemember.Chats.World

/-!
# What pages and events make of the held items

A history tells which item has which ordinal, and how many items an older cursor
stands for. A projection that holds a stretch of it, from where its older cursor
stands, goes on to hold one through honest pages and events.
-/

namespace AgentsRemember.Chats

open Lib
open Active (ConversationItem StoreMutation)

structure History where
  idAt : Nat → String
  distinct : Function.Injective idAt
  stands : String → Nat

/-- The items before an older cursor; without one there are none. -/
def History.before (H : History) : Option String → Nat
  | none => 0
  | some cursor => H.stands cursor

section
variable {β : Type}

def History.Block (H : History) (items : List (ConversationItem β)) (first next : Nat) : Prop :=
  first ≤ next ∧ (byOrdinal items).map (fun item => (item.itemId, item.globalOrdinal)) =
    (List.range' first (next - first)).map fun n => (H.idAt n, n)

/-- The ordinals that it holds, in its order. -/
def Projection.ordinals (p : Projection β) : List (Option Nat) :=
  p.held.orderedItemIds.map fun id => (p.held.itemsById.get? id).map (·.globalOrdinal)

/-- The ordinals that it holds are contiguous, and its older cursor stands for the items before the first. -/
def Whole (H : History) (p : Projection β) : Prop :=
  p.ordinals = (List.range' (H.before p.olderCursor) p.ordinals.length).map some

structure Stretch (H : History) (held : Active.ActiveConversationProjection β) (first n : Nat) : Prop where
  ids : held.orderedItemIds = (List.range' first n).map H.idAt
  known : ∀ id item, held.itemsById.get? id = some item →
    ∃ m, first ≤ m ∧ m < first + n ∧ id = H.idAt m ∧ item.itemId = id ∧ item.globalOrdinal = m
  all : ∀ m, first ≤ m → m < first + n → (held.itemsById.get? (H.idAt m)).isSome = true

variable {H : History} {held : Active.ActiveConversationProjection β} {first n : Nat}

variable {m next start basis : Nat} {item : ConversationItem β} {p : Projection β} {items : List (ConversationItem β)}
  {id : String} {held' : Active.ActiveConversationProjection β}

theorem Stretch.known_at (h : Stretch H held first n) (hm : held.itemsById.get? (H.idAt m) = some item) :
    first ≤ m ∧ m < first + n ∧ item.itemId = H.idAt m ∧ item.globalOrdinal = m := by
  obtain ⟨m', h₁, h₂, hid, hitem, hord⟩ := h.known _ _ hm
  have heq : m = m' := H.distinct hid
  exact ⟨heq ▸ h₁, heq ▸ h₂, hitem, hord.trans heq.symm⟩

theorem Stretch.length (h : Stretch H held first n) : held.orderedItemIds.length = n := by
  rw [h.ids, List.length_map, List.length_range']

theorem Stretch.whole (h : Stretch H p.held (H.before p.olderCursor) n) : Whole H p := by
  unfold Whole Projection.ordinals
  rw [List.length_map, h.length, h.ids, List.map_map]
  refine List.map_congr_left fun m hm => ?_
  obtain ⟨h₁, h₂⟩ := List.mem_range'_1.mp hm
  obtain ⟨item, hitem⟩ := Option.isSome_iff_exists.mp (h.all m h₁ h₂)
  rw [Function.comp_apply, hitem, Option.map_some, (h.known_at hitem).2.2.2]

/-! ## Pages -/

theorem History.Block.ids (h : H.Block items first next) :
    (byOrdinal items).map (·.itemId) = (List.range' first (next - first)).map H.idAt := by
  have hids := congrArg (List.map Prod.fst) h.2
  simpa only [List.map_map, Function.comp_def] using hids

theorem History.Block.mem (h : H.Block items first next) (hitem : item ∈ byOrdinal items) :
    ∃ m, first ≤ m ∧ m < next ∧ item.itemId = H.idAt m ∧ item.globalOrdinal = m := by
  have hmem : (item.itemId, item.globalOrdinal) ∈ (List.range' first (next - first)).map fun n => (H.idAt n, n) :=
    h.2 ▸ List.mem_map_of_mem hitem
  obtain ⟨m, hm, heq⟩ := List.mem_map.mp hmem
  obtain ⟨h₁, h₂⟩ := List.mem_range'_1.mp hm
  obtain ⟨hid, hord⟩ := Prod.mk.inj heq
  have hle := h.1
  exact ⟨m, h₁, by omega, hid.symm, hord.symm⟩

theorem foldl_set_known (l : List (ConversationItem β)) (d : Dict String (ConversationItem β))
    (h : (l.foldl (fun d item => d.set item.itemId item) d).get? id = some item) :
    d.get? id = some item ∨ (item ∈ l ∧ item.itemId = id) := by
  induction l generalizing d with
  | nil => exact .inl h
  | cons x l ih =>
    rcases ih (d.set x.itemId x) h with hset | ⟨hmem, hid⟩
    · rw [Dict.get?_set] at hset
      split at hset
      · cases hset
        exact .inr ⟨List.mem_cons_self, ‹_›⟩
      · exact .inl hset
    · exact .inr ⟨List.mem_cons_of_mem _ hmem, hid⟩

theorem foldl_set_isSome (l : List (ConversationItem β)) (d : Dict String (ConversationItem β))
    (h : (d.get? id).isSome = true ∨ id ∈ l.map (·.itemId)) :
    ((l.foldl (fun d item => d.set item.itemId item) d).get? id).isSome = true := by
  induction l generalizing d with
  | nil => exact h.resolve_right List.not_mem_nil
  | cons x l ih =>
    refine ih (d.set x.itemId x) ?_
    rw [Dict.get?_set]
    split
    · exact .inl rfl
    rename_i hne
    refine h.imp_right fun hmem => ?_
    rw [List.map_cons, List.mem_cons] at hmem
    exact hmem.resolve_left (Ne.symm hne)

theorem stretch_replaced (h : H.Block items first next) : Stretch H (replaced items) first (next - first) := by
  have hle := h.1
  refine ⟨h.ids, fun id item hid => ?_, fun m h₁ h₂ => ?_⟩
  · rcases foldl_set_known _ _ hid with hempty | ⟨hmem, rfl⟩
    · cases hempty
    · obtain ⟨m, h₁, h₂, hm, hord⟩ := h.mem hmem
      exact ⟨m, h₁, by omega, hm, rfl, hord⟩
  refine foldl_set_isSome _ _ (.inr ?_)
  rw [h.ids]
  exact List.mem_map_of_mem (List.mem_range'_1.mpr ⟨h₁, h₂⟩)

/-! ## Older pages -/

theorem takeOlder_known (l : List (ConversationItem β)) (taken : Dict String (ConversationItem β) × List String)
    (h : (l.foldl Projection.takeOlder taken).1.get? id = some item) :
    taken.1.get? id = some item ∨ (item ∈ l ∧ item.itemId = id) := by
  induction l generalizing taken with
  | nil => exact .inl h
  | cons x l ih =>
    have hset : ∀ d : Dict String (ConversationItem β), (d.set x.itemId x).get? id = some item →
        d.get? id = some item ∨ (item ∈ x :: l ∧ item.itemId = id) := by
      intro d hd
      rw [Dict.get?_set] at hd
      split at hd
      · cases hd
        exact .inr ⟨List.mem_cons_self, ‹_›⟩
      · exact .inl hd
    rcases ih _ h with htaken | ⟨hmem, hid⟩
    · unfold Projection.takeOlder at htaken
      split at htaken
      · exact hset _ htaken
      dsimp only at htaken
      split at htaken
      · exact hset _ htaken
      · exact .inl htaken
    · exact .inr ⟨List.mem_cons_of_mem _ hmem, hid⟩

theorem takeOlder_isSome (l : List (ConversationItem β)) (taken : Dict String (ConversationItem β) × List String)
    (h : (taken.1.get? id).isSome = true ∨ id ∈ l.map (·.itemId)) :
    ((l.foldl Projection.takeOlder taken).1.get? id).isSome = true := by
  induction l generalizing taken with
  | nil => exact h.resolve_right List.not_mem_nil
  | cons x l ih =>
    refine ih (Projection.takeOlder taken x) ?_
    by_cases hid : x.itemId = id
    · refine .inl ?_
      unfold Projection.takeOlder
      split
      · rw [Dict.get?_set, if_pos hid]
        rfl
      rename_i existing hex
      dsimp only
      split
      · rw [Dict.get?_set, if_pos hid]
        rfl
      · rw [← hid, hex]
        rfl
    · have hrest : (taken.1.get? id).isSome = true ∨ id ∈ l.map (·.itemId) := by
        refine h.imp_right fun hmem => ?_
        rw [List.map_cons, List.mem_cons] at hmem
        exact hmem.resolve_left (Ne.symm hid)
      refine hrest.imp_left fun hsome => ?_
      unfold Projection.takeOlder
      split
      · rw [Dict.get?_set, if_neg hid]
        exact hsome
      dsimp only
      split
      · rw [Dict.get?_set, if_neg hid]
        exact hsome
      · exact hsome

theorem takeOlder_prepended (l : List (ConversationItem β)) (taken : Dict String (ConversationItem β) × List String)
    (hn : (l.map (·.itemId)).Nodup) : (l.foldl Projection.takeOlder taken).2 =
      taken.2 ++ (l.map (·.itemId)).filter fun id => (taken.1.get? id).isNone := by
  induction l generalizing taken with
  | nil => exact (List.append_nil _).symm
  | cons x l ih =>
    rw [List.map_cons, List.nodup_cons] at hn
    have hother : ∀ d : Dict String (ConversationItem β), ∀ id ∈ l.map (·.itemId), (d.set x.itemId x).get? id = d.get? id := by
      intro d id hid
      rw [Dict.get?_set, if_neg]
      rintro rfl
      exact hn.1 hid
    rw [List.foldl_cons, ih _ hn.2, List.map_cons]
    unfold Projection.takeOlder
    split
    · rename_i hnone
      rw [List.filter_cons_of_pos (by rw [hnone]; rfl), List.append_assoc, List.singleton_append]
      congr 2
      exact List.filter_congr fun id hid => by rw [hother _ id hid]
    rename_i existing hex
    rw [List.filter_cons_of_neg (by rw [hex]; exact Bool.false_ne_true)]
    dsimp only
    congr 1
    refine List.filter_congr fun id hid => ?_
    split
    · rw [hother _ id hid]
    · rfl

theorem filter_range'_lt {mid : Nat} (h₁ : first ≤ mid) (h₂ : mid ≤ next) :
    (List.range' first (next - first)).filter (fun m => decide (m < mid)) = List.range' first (mid - first) := by
  have hsplit : List.range' first (next - first) = List.range' first (mid - first) ++ List.range' mid (next - mid) := by
    have happ := List.range'_append_1 (s := first) (m := mid - first) (n := next - mid)
    rw [show first + (mid - first) = mid by omega, show mid - first + (next - mid) = next - first by omega] at happ
    exact happ.symm
  rw [hsplit, List.filter_append, List.filter_eq_self.mpr, List.filter_eq_nil_iff.mpr, List.append_nil]
  · intro m hm
    obtain ⟨hm, -⟩ := List.mem_range'_1.mp hm
    simpa using hm
  intro m hm
  obtain ⟨-, hm⟩ := List.mem_range'_1.mp hm
  exact decide_eq_true (by omega)

theorem stretch_older (h : Stretch H held first n) (hblock : H.Block items start next) (hstart : start ≤ first)
    (hfirst : first ≤ next) (hnext : next ≤ first + n) :
    Stretch H ⟨((byOrdinal items).foldl Projection.takeOlder (held.itemsById, [])).2 ++ held.orderedItemIds,
      ((byOrdinal items).foldl Projection.takeOlder (held.itemsById, [])).1⟩ start (first - start + n) := by
  have hnodup : ((byOrdinal items).map (·.itemId)).Nodup := by
    rw [hblock.ids]
    exact (List.nodup_range' 1).map H.distinct
  have hprep := takeOlder_prepended (byOrdinal items) (held.itemsById, []) hnodup
  have hunknown : (List.range' start (next - start)).filter (fun m => (held.itemsById.get? (H.idAt m)).isNone) =
      List.range' start (first - start) := by
    rw [← filter_range'_lt hstart hfirst]
    refine List.filter_congr fun m hm => ?_
    obtain ⟨hm₁, hm₂⟩ := List.mem_range'_1.mp hm
    by_cases hm : m < first
    · rw [decide_eq_true hm, Option.isNone_iff_eq_none]
      cases hget : held.itemsById.get? (H.idAt m) with
      | none => rfl
      | some item => exact absurd (h.known_at hget).1 (by omega)
    have hsome := h.all m (by omega) (by omega)
    rw [decide_eq_false hm, ← Option.not_isSome, hsome]
    rfl
  refine ⟨?_, fun id item hid => ?_, fun m h₁ h₂ => ?_⟩
  · rw [hprep, hblock.ids, List.nil_append, List.filter_map]
    change (((List.range' start (next - start)).filter fun m => (held.itemsById.get? (H.idAt m)).isNone).map H.idAt) ++
      held.orderedItemIds = _
    rw [hunknown, h.ids, ← List.map_append]
    congr 1
    have happ := List.range'_append_1 (s := start) (m := first - start) (n := n)
    rw [show start + (first - start) = first by omega] at happ
    exact happ
  · rcases takeOlder_known _ _ hid with hold | ⟨hmem, rfl⟩
    · obtain ⟨m, h₁, h₂, hm⟩ := h.known id item hold
      exact ⟨m, by omega, by omega, hm⟩
    · obtain ⟨m, h₁, h₂, hm, hord⟩ := hblock.mem hmem
      exact ⟨m, h₁, by omega, hm, rfl, hord⟩
  refine takeOlder_isSome _ _ ?_
  by_cases hm : first ≤ m
  · exact .inl (h.all m hm (by omega))
  · rw [hblock.ids]
    exact .inr (List.mem_map_of_mem (List.mem_range'_1.mpr ⟨h₁, by omega⟩))

/-! ## Events -/

def History.Next (H : History) (first n : Nat) (item : ConversationItem β) : Prop :=
  item.itemId = H.idAt item.globalOrdinal ∧ first ≤ item.globalOrdinal ∧ item.globalOrdinal ≤ first + n

theorem Stretch.set (h : Stretch H held first n) (hid : item.itemId = H.idAt item.globalOrdinal) (hn : n ≤ m)
    (hfirst : first ≤ item.globalOrdinal) (hlt : item.globalOrdinal < first + m)
    (hm : ∀ k, first + n ≤ k → k < first + m → k = item.globalOrdinal) {ids : List String}
    (hids : ids = (List.range' first m).map H.idAt) : Stretch H ⟨ids, held.itemsById.set item.itemId item⟩ first m := by
  refine ⟨hids, fun id x hx => ?_, fun k h₁ h₂ => ?_⟩
  · rw [Dict.get?_set] at hx
    split at hx
    · rename_i heq
      cases hx
      exact ⟨item.globalOrdinal, hfirst, hlt, heq.symm.trans hid, heq, rfl⟩
    · obtain ⟨k, h₁, h₂, hk⟩ := h.known id x hx
      exact ⟨k, h₁, by omega, hk⟩
  rw [Dict.get?_set]
  split
  · rfl
  rename_i hne
  refine h.all k h₁ ?_
  by_contra hle
  exact hne (by rw [hid, hm k (Nat.le_of_not_lt hle) h₂])

theorem insertOrdered_next (h : Stretch H held first n) (hid : item.itemId = H.idAt item.globalOrdinal)
    (hord : item.globalOrdinal = first + n) :
    Active.insertOrdered held.orderedItemIds (held.itemsById.set item.itemId item) item =
      (List.range' first (n + 1)).map H.idAt := by
  have hids : held.orderedItemIds ++ [item.itemId] = (List.range' first (n + 1)).map H.idAt := by
    rw [h.ids, List.range'_1_concat, List.map_append, hid, hord]
    rfl
  unfold Active.insertOrdered
  split
  · exact hids
  rename_i last hlast
  obtain ⟨id, hget, hitem⟩ := Option.bind_eq_some_iff.mp hlast
  have hle : last.globalOrdinal ≤ item.globalOrdinal := by
    rw [Dict.get?_set] at hitem
    split at hitem
    · cases hitem
      exact le_rfl
    · obtain ⟨m, -, hm, -, -, hlo⟩ := h.known id last hitem
      omega
  rw [if_pos hle]
  exact hids

theorem stretch_appendOrUpsert [DecidableEq β] (h : Stretch H held first n) (hitem : H.Next first n item)
    (happ : held.applyAppendOrUpsert item = .applied held') : ∃ m, n ≤ m ∧ Stretch H held' first m := by
  obtain ⟨hid, hfirst, hnext⟩ := hitem
  unfold Active.ActiveConversationProjection.applyAppendOrUpsert at happ
  split at happ
  · rename_i existing hex
    split at happ
    · cases happ
    split at happ
    · split at happ <;> cases happ
    cases happ
    have hlt := (h.known_at (hid ▸ hex)).2.1
    exact ⟨n, le_rfl, h.set hid le_rfl hfirst hlt (fun k h₁ h₂ => by omega) h.ids⟩
  rename_i hnone
  cases happ
  have hord : item.globalOrdinal = first + n := by
    by_contra hne
    have hsome := h.all item.globalOrdinal hfirst (by omega)
    rw [← hid, hnone] at hsome
    cases hsome
  exact ⟨n + 1, Nat.le_succ n, h.set hid (Nat.le_succ n) hfirst (by omega) (fun k h₁ h₂ => by omega)
    (insertOrdered_next h hid hord)⟩

theorem stretch_blockDelta (h : Stretch H held first n) {itemId blockId delta : String}
    {expectedRevision nextRevision : Nat}
    (happ : held.applyBlockDelta itemId blockId expectedRevision nextRevision delta = .applied held') :
    Stretch H held' first n := by
  unfold Active.ActiveConversationProjection.applyBlockDelta at happ
  split at happ
  · cases happ
  rename_i target htarget
  split at happ
  · cases happ
  split at happ
  · cases happ
  split at happ
  · cases happ
    obtain ⟨m, h₁, h₂, hm, hid, hord⟩ := h.known itemId target htarget
    refine ⟨h.ids, fun id x hx => ?_, fun k hk₁ hk₂ => ?_⟩
    · rw [Dict.get?_set] at hx
      split at hx
      · rename_i heq
        cases hx
        exact ⟨m, h₁, h₂, heq ▸ hm, heq ▸ hid, hord⟩
      · exact h.known id x hx
    rw [Dict.get?_set]
    split
    · rfl
    · exact h.all k hk₁ hk₂
  · cases happ

def History.Honest (H : History) (first n : Nat) : StoreMutation β → Prop
  | .appendItem item | .upsertItem item => H.Next first n item
  | .appendBlockDelta _ _ _ _ _ => True

theorem stretch_applyMutation [DecidableEq β] (h : Stretch H held first n) {mutation : StoreMutation β}
    (hm : H.Honest first n mutation) (happ : held.applyMutation mutation = .applied held') :
    ∃ m, n ≤ m ∧ Stretch H held' first m := by
  cases mutation with
  | appendItem item => exact stretch_appendOrUpsert h hm happ
  | upsertItem item => exact stretch_appendOrUpsert h hm happ
  | appendBlockDelta itemId blockId expectedRevision nextRevision delta => exact ⟨n, le_rfl, stretch_blockDelta h happ⟩

variable {H : Nat → History}

def HonestEvent (H : Nat → History) (p : Projection β) (basis : Nat) : ConversationMutation β → Prop
  | .items mutation => (H p.basis).Honest ((H p.basis).before p.olderCursor) p.held.orderedItemIds.length mutation
  | .replacePage items _ => ∃ next, (H basis).Block items ((H basis).before p.olderCursor) next
  | .status _ | .gap => True

/-- The projection holds a stretch from where its older cursor stands. -/
def Holds (H : Nat → History) (p : Projection β) : Prop :=
  Stretch (H p.basis) p.held ((H p.basis).before p.olderCursor) p.held.orderedItemIds.length

theorem Stretch.holds (h : Stretch (H p.basis) p.held ((H p.basis).before p.olderCursor) n) : Holds H p := by
  have hlen := h.length
  subst hlen
  exact h

theorem holds_mutation [DecidableEq β] {next : Projection β} (h : Holds H p) {mutation : ConversationMutation β}
    (hm : HonestEvent H p basis mutation) (happ : p.applyMutation mutation basis = some next) :
    Holds H next ∧ next.olderCursor = p.olderCursor ∧
      ((next.basis = p.basis ∧ p.held.orderedItemIds.length ≤ next.held.orderedItemIds.length) ∨ next.basis = basis) := by
  unfold Projection.applyMutation at happ
  cases mutation with
  | items mutation =>
    dsimp only at happ
    split at happ
    · rename_i held' heq
      cases happ
      obtain ⟨m, hle, hstretch⟩ := stretch_applyMutation h hm heq
      exact ⟨hstretch.holds, rfl, .inl ⟨rfl, hstretch.length.symm ▸ hle⟩⟩
    · cases happ
    · cases happ
      exact ⟨h, rfl, .inl ⟨rfl, le_rfl⟩⟩
  | status incoming =>
    dsimp only at happ
    unfold Projection.applyStatus at happ
    split at happ
    · split at happ
      · cases happ
      · split at happ <;> cases happ <;> exact ⟨h, rfl, .inl ⟨rfl, le_rfl⟩⟩
    · cases happ
      exact ⟨h, rfl, .inl ⟨rfl, le_rfl⟩⟩
  | replacePage items eventCursor =>
    cases happ
    obtain ⟨m, hblock⟩ := hm
    exact ⟨(stretch_replaced hblock).holds, rfl, .inr rfl⟩
  | gap => cases happ

theorem holds_event [DecidableEq β] {next : Projection β} (h : Holds H p) {envelope : ConversationEventEnvelope β}
    (hm : p.hasUnappliedCursorGap envelope = false → HonestEvent H p basis envelope.mutation)
    (happ : p.applyEvent envelope basis = some next) : Holds H next ∧ next.olderCursor = p.olderCursor ∧
      ((next.basis = p.basis ∧ p.held.orderedItemIds.length ≤ next.held.orderedItemIds.length) ∨ next.basis = basis) := by
  unfold Projection.applyEvent at happ
  split at happ
  · cases happ
  split at happ
  · cases happ
  split at happ
  · cases happ
    exact ⟨h, rfl, .inl ⟨rfl, le_rfl⟩⟩
  split at happ
  · cases happ
    exact ⟨h, rfl, .inl ⟨rfl, le_rfl⟩⟩
  rename_i hgap
  obtain ⟨q, hq, rfl⟩ := Option.map_eq_some_iff.mp happ
  have hall := holds_mutation h (hm (Bool.not_eq_true _ ▸ hgap)) hq
  split <;> exact hall

def ConversationPage.firstOrdinal (page : ConversationPage β) : Option Nat :=
  (byOrdinal page.items).head?.map (·.globalOrdinal)

def Projection.firstOrdinal (p : Projection β) : Option Nat :=
  (p.held.orderedItemIds.head?.bind p.held.itemsById.get?).map (·.globalOrdinal)

def startsBefore (page : ConversationPage β) (p : Projection β) : Bool :=
  match page.firstOrdinal, p.firstOrdinal with
  | some a, some b => a ≤ b
  | _, _ => false

theorem startsBefore_le {page : ConversationPage β} {G : History} (hblock : G.Block page.items start next)
    (h : Stretch G p.held first n) (hb : startsBefore page p = true) : start ≤ first := by
  unfold startsBefore at hb
  split at hb
  · rename_i a b ha hb'
    have hstart : start ≤ a := by
      obtain ⟨item, hitem, rfl⟩ := Option.map_eq_some_iff.mp ha
      obtain ⟨m, hm, -, -, hord⟩ := hblock.mem (List.mem_of_head? hitem)
      exact hord.symm ▸ hm
    have hfirst : b = first := by
      obtain ⟨item, hitem, rfl⟩ := Option.map_eq_some_iff.mp hb'
      obtain ⟨id, hid, hget⟩ := Option.bind_eq_some_iff.mp hitem
      rw [h.ids] at hid
      cases n with
      | zero => cases hid
      | succ n =>
        rw [List.range'_succ, List.map_cons, List.head?_cons, Option.some.injEq] at hid
        exact (h.known_at (hid ▸ hget)).2.2.2
    have hle : a ≤ b := of_decide_eq_true hb
    omega
  · cases hb

end

/-! ## Held items through a run

Only pages and events change what a projection holds, and where its older cursor
stands; everything else that a call does leaves both alone.
-/

variable {β : Type} {w v : World β} {s : String} {r i k : Nat}

/-! ## What leaves the held items alone -/

/-- Each projection of `v` is one of `w`, but for its phase and recovery, and each load of an older page is one of `w`. -/
structure Kept (w v : World β) : Prop where
  bases : v.bases = w.bases
  projections : ∀ s p', v.bySession s = some p' → ∃ p, w.bySession s = some p ∧ p'.held = p.held ∧
    p'.olderCursor = p.olderCursor ∧ p'.basis = p.basis
  older : ∀ i t, v.tasks i = some (.older t) → w.tasks i = some (.older t)

theorem Kept.refl (w : World β) : Kept w w := ⟨rfl, fun _ p h => ⟨p, h, rfl, rfl, rfl⟩, fun _ _ h => h⟩

theorem Kept.trans {u : World β} (h : Kept u w) (h' : Kept w v) : Kept u v := by
  refine ⟨h'.bases.trans h.bases, fun s p'' hp'' => ?_, fun i t ht => h.older i t (h'.older i t ht)⟩
  obtain ⟨p', hp', h₁', h₂', h₃'⟩ := h'.projections s p'' hp''
  obtain ⟨p, hp, h₁, h₂, h₃⟩ := h.projections s p' hp'
  exact ⟨p, hp, h₁'.trans h₁, h₂'.trans h₂, h₃'.trans h₃⟩

theorem kept_of_eq (hbases : v.bases = w.bases) (hprojs : v.bySession = w.bySession) (htasks : v.tasks = w.tasks) : Kept w v :=
  ⟨hbases, fun _ p' hp' => ⟨p', hprojs ▸ hp', rfl, rfl, rfl⟩, fun _ _ ht => htasks ▸ ht⟩

theorem kept_setProjection {p p' : Projection β} (hp : w.bySession s = some p) (hheld : p'.held = p.held)
    (holder : p'.olderCursor = p.olderCursor) (hbasis : p'.basis = p.basis) : Kept w (w.setProjection s (some p')) := by
  refine ⟨rfl, fun s' q hq => ?_, fun _ _ h => h⟩
  simp only [World.setProjection, Function.update_apply] at hq
  split at hq
  · rename_i heq
    cases hq
    exact ⟨p, heq ▸ hp, hheld, holder, hbasis⟩
  · exact ⟨q, hq, rfl, rfl, rfl⟩

theorem kept_setStreamPhase (w : World β) (s : String) (phase : StreamPhase) : Kept w (w.setStreamPhase s phase) := by
  unfold World.setStreamPhase
  split
  · rename_i p hp
    exact kept_setProjection hp rfl rfl rfl
  · exact .refl w

theorem kept_clearRecovery (w : World β) (s : String) : Kept w (w.clearRecovery s) := by
  unfold World.clearRecovery
  split
  · rename_i p hp
    exact kept_setProjection hp rfl rfl rfl
  · exact .refl w

theorem kept_evict (w : World β) (s : String) : Kept w (w.evict s) := by
  refine ⟨rfl, fun s' p hp => ?_, fun _ _ h => h⟩
  simp only [World.evict, World.setProjection, Function.update_apply] at hp
  split at hp
  · cases hp
  · exact ⟨p, hp, rfl, rfl, rfl⟩

theorem kept_setTask (w : World β) (i : Nat) {u : Option (Task β)} (hu : ∀ t, u ≠ some (.older t)) : Kept w (w.setTask i u) := by
  refine ⟨rfl, fun _ p h => ⟨p, h, rfl, rfl, rfl⟩, fun j t ht => ?_⟩
  simp only [World.setTask, Function.update_apply] at ht
  split at ht
  · exact absurd ht (hu t)
  · exact ht

theorem kept_stopRuntimeStream (w : World β) (r : Nat) : Kept w (w.stopRuntimeStream r) := by
  unfold World.stopRuntimeStream World.stopController
  split <;> exact kept_of_eq rfl rfl rfl

theorem kept_abortPage (w : World β) (r : Nat) : Kept w (w.abortPage r) := by
  unfold World.abortPage
  split <;> exact kept_of_eq rfl rfl rfl

theorem kept_startStream (w : World β) (s : String) (r : Nat) : Kept w (w.startStream s r) := by
  unfold World.startStream World.stopController
  split
  · exact .refl w
  · dsimp only
    split <;> exact kept_of_eq rfl rfl rfl

theorem kept_startPage (w : World β) (kind : PageKind) (s : String) (r : Nat) (limit : Option Nat) :
    Kept w (w.startPage kind s r limit) := by
  refine ⟨rfl, fun _ p h => ⟨p, h, rfl, rfl, rfl⟩, fun j t ht => ?_⟩
  unfold World.startPage World.startTask World.setTask at ht
  simp only [Function.update_apply] at ht
  split at ht
  · cases ht
  · exact ht

theorem kept_hydrateAndStream (w : World β) (s : String) (r : Nat) (limit : Option Nat) : Kept w (w.hydrateAndStream s r limit) :=
  (kept_setStreamPhase w s .connecting).trans (kept_startPage ..)

theorem kept_repageAndResume (w : World β) (s : String) (r : Nat) (limit : Option Nat) : Kept w (w.repageAndResume s r limit) := by
  unfold World.repageAndResume
  split
  · exact .refl w
  · exact (kept_stopRuntimeStream w r).trans (kept_startPage ..)

theorem kept_selectFocusedConversation (w : World β) (focus : Option String) : Kept w (w.selectFocusedConversation focus) := by
  unfold World.selectFocusedConversation
  split
  · exact .refl w
  dsimp only
  split
  · refine Kept.trans ?_ (kept_abortPage _ _)
    refine Kept.trans ?_ (kept_stopRuntimeStream _ _)
    exact kept_of_eq rfl rfl rfl
  · exact kept_of_eq rfl rfl rfl

theorem kept_resumeFocused (w : World β) (s : String) : Kept w (w.resumeFocused s) := by
  unfold World.resumeFocused
  split
  · dsimp only
    split
    · exact .refl w
    split
    · exact kept_hydrateAndStream ..
    · exact kept_repageAndResume ..
    · exact kept_startStream ..
  · exact .refl w

theorem kept_focusConversation (w : World β) (focus : Option String) : Kept w (w.focusConversation focus) := by
  have hsel := kept_selectFocusedConversation w focus
  unfold World.focusConversation
  cases focus with
  | none => exact hsel
  | some s => exact hsel.trans (kept_resumeFocused _ s)

theorem kept_disconnectConversation (w : World β) (s : String) : Kept w (w.disconnectConversation s) := by
  unfold World.disconnectConversation
  split
  · exact .refl w
  dsimp only
  rename_i r _
  have hstop : Kept w (((w.setRuntime r fun runtime => { runtime with disposed := true }).stopRuntimeStream r).abortPage r) := by
    refine Kept.trans ?_ (kept_abortPage _ _)
    refine Kept.trans ?_ (kept_stopRuntimeStream _ _)
    exact kept_of_eq rfl rfl rfl
  exact hstop.trans (kept_of_eq rfl rfl rfl)

theorem kept_enforceLru (w : World β) (s : String) : Kept w (w.enforceLru s) := by
  unfold World.enforceLru
  dsimp only
  generalize (s :: w.touchOrder.filter (· ≠ s)).take lruLimit = keep
  have hfold : ∀ (order : List String) (u : World β), Kept w u →
      Kept w (order.foldl (fun w id => if id ∈ keep then w else (w.disconnectConversation id).evict id) u) := by
    intro order
    induction order with
    | nil => exact fun u hu => hu
    | cons id order ih =>
      intro u hu
      refine ih _ (hu.trans ?_)
      dsimp only
      split
      · exact .refl u
      · exact (kept_disconnectConversation u id).trans (kept_evict _ id)
  exact hfold _ w (.refl w)

theorem kept_connectConversation (w : World β) (s epoch : String) (limit : Option Nat) :
    Kept w (w.connectConversation s epoch limit) := by
  unfold World.connectConversation
  dsimp only
  have hdispose : ∀ u : World β, Kept u (u.disposeExisting s) := by
    intro u
    unfold World.disposeExisting World.abortPage World.stopController
    split
    · split <;> split <;> exact kept_of_eq rfl rfl rfl
    · exact .refl u
  refine Kept.trans ?_ (kept_hydrateAndStream ..)
  refine Kept.trans ?_ (kept_enforceLru _ s)
  exact ((kept_selectFocusedConversation w _).trans (hdispose _)).trans (kept_of_eq rfl rfl rfl)

theorem kept_touchConversation (w : World β) (s : String) : Kept w (w.touchConversation s) := by
  refine Kept.trans ?_ (kept_focusConversation _ _)
  refine Kept.trans ?_ (kept_enforceLru _ s)
  exact kept_of_eq rfl rfl rfl

theorem kept_reset (w : World β) : Kept w w.reset := ⟨rfl, fun _ _ h => (nomatch h), fun _ _ h => h⟩

theorem kept_endPage (w : World β) (i : Nat) (t : PageTask β) : Kept w (w.endPage i t) :=
  (kept_setTask w i fun _ h => (by cases h)).trans (kept_of_eq rfl rfl rfl)

theorem kept_streamIfFocused (w : World β) (s : String) (r : Nat) : Kept w (w.streamIfFocused s r) := by
  unfold World.streamIfFocused
  split
  · exact kept_startStream ..
  · exact .refl w

theorem kept_repageDone (w : World β) (i : Nat) (t : PageTask β) (recovered cancelled : Bool) :
    Kept w (w.repageDone i t recovered cancelled) := by
  unfold World.repageDone
  dsimp only
  refine (kept_endPage w i t).trans ?_
  split
  · exact kept_repageAndResume ..
  have hpend : Kept (w.endPage i t) (if cancelled = true then w.endPage i t else (w.endPage i t).clearPending t.runtime) := by
    split
    · exact .refl _
    · exact kept_of_eq rfl rfl rfl
  split
  · exact hpend.trans (kept_streamIfFocused ..)
  · exact hpend

theorem kept_onOpen (w : World β) (s : String) (r : Nat) : Kept w (w.onOpen s r) := by
  unfold World.onOpen
  split
  · exact .refl w
  · refine Kept.trans ?_ (kept_setStreamPhase ..)
    exact kept_of_eq rfl rfl rfl

theorem kept_onDisconnect (w : World β) (s : String) (r : Nat) : Kept w (w.onDisconnect s r) := by
  unfold World.onDisconnect
  split
  · exact kept_setStreamPhase ..
  · exact .refl w

theorem kept_onOpenFailure (w : World β) (s : String) (r : Nat) : Kept w (w.onOpenFailure s r) := by
  unfold World.onOpenFailure
  split
  · exact .refl w
  dsimp only
  split
  · exact kept_of_eq rfl rfl rfl
  split
  · refine Kept.trans ?_ (kept_setStreamPhase ..)
    refine Kept.trans ?_ (kept_stopRuntimeStream ..)
    exact kept_of_eq rfl rfl rfl
  · refine Kept.trans ?_ (kept_repageAndResume ..)
    exact kept_of_eq rfl rfl rfl

theorem kept_deadInstance (w : World β) (k : Nat) (openedThisInstance : Bool) : Kept w (w.deadInstance k openedThisInstance) := by
  unfold World.deadInstance
  dsimp only
  have hclosed : Kept w ((w.setStream k fun stream => { stream with source := none }).onDisconnect (w.streams k).sessionId
      (w.streams k).runtime) := by
    refine Kept.trans ?_ (kept_onDisconnect ..)
    exact kept_of_eq rfl rfl rfl
  generalize (w.setStream k fun stream => { stream with source := none }).onDisconnect (w.streams k).sessionId
    (w.streams k).runtime = u at hclosed
  have hhandled : Kept w (if openedThisInstance = true then u else u.onOpenFailure (w.streams k).sessionId (w.streams k).runtime) := by
    split
    · exact hclosed
    · exact hclosed.trans (kept_onOpenFailure ..)
  generalize (if openedThisInstance = true then u else u.onOpenFailure (w.streams k).sessionId (w.streams k).runtime) = v
    at hhandled
  split
  · exact hhandled
  · exact hhandled.trans (kept_of_eq rfl rfl rfl)

end AgentsRemember.Chats
