import AgentsRemember.Active.Replay

/-!
# The emitted mutations replay to the store

Every call emits what it does to the items, so the log of a run leads from the
empty timeline to the store's. Buffered deltas are only ever for items that
are not here yet.
-/

namespace AgentsRemember.Active

open Lib

section
variable {β : Type} {strict : Prop}

@[simp] theorem reconcileRosterUpsert_itemId (existing candidate : ConversationItem β) :
    (reconcileRosterUpsert existing candidate).itemId = candidate.itemId := by
  unfold reconcileRosterUpsert
  split
  · split <;> rfl
  · rfl

@[simp] theorem unionToolCall_itemId (existing candidate : ConversationItem β) :
    (unionToolCall existing candidate).itemId = candidate.itemId := by
  unfold unionToolCall
  split <;> rfl

@[simp] theorem retainFinalMessage_itemId (existing candidate : ConversationItem β) :
    (retainFinalMessage existing candidate).itemId = candidate.itemId := by
  unfold retainFinalMessage
  split <;> rfl

@[simp] theorem mergeCandidate_itemId (existing candidate : ConversationItem β) :
    (mergeCandidate existing candidate).itemId = candidate.itemId := by simp [mergeCandidate]

/-! ## Buffers -/

structure ProjectionStore.Buffers (s : ProjectionStore β) : Prop where
  unseen : ∀ id pending, s.pendingDeltas.get? id = some pending → s.items.get? id = none
  tracked : ∀ id requestId, s.provenancePending.get? id = some requestId → ∃ item, s.items.get? id = some item

theorem trackProvenance_timeline (s : ProjectionStore β) (item : ConversationItem β) :
    (s.trackProvenance item).toTimeline = s.toTimeline := by
  unfold ProjectionStore.trackProvenance
  split
  · split <;> rfl
  · rfl

theorem trackProvenance_pendingDeltas (s : ProjectionStore β) (item : ConversationItem β) :
    (s.trackProvenance item).pendingDeltas = s.pendingDeltas := by
  unfold ProjectionStore.trackProvenance
  split
  · split <;> rfl
  · rfl

variable {s s' : ProjectionStore β} {item candidate current : ConversationItem β} {id blockId delta : String}
  {ms : List (StoreMutation β)} {authoritative : List String} {w : World β}

theorem trackProvenance_pending {requestId : String}
    (h : (s.trackProvenance item).provenancePending.get? id = some requestId) :
    id = item.itemId ∨ s.provenancePending.get? id = some requestId := by
  unfold ProjectionStore.trackProvenance at h
  split at h
  · split at h
    · by_cases hid : item.itemId = id
      · exact .inl hid.symm
      · exact .inr (by rwa [Dict.get?_set_ne _ _ hid] at h)
    · exact .inr h
  · exact .inr h

theorem bufferDelta_timeline (s : ProjectionStore β) (mapped : MappedBlockDelta) :
    (s.bufferDelta mapped).toTimeline = s.toTimeline := by
  unfold ProjectionStore.bufferDelta
  split
  · split <;> rfl
  · rfl

theorem unseen_bufferDelta (h : s.Buffers) {mapped : MappedBlockDelta} (hnew : s.items.get? mapped.itemId = none) :
    (s.bufferDelta mapped).Buffers := by
  have hset : ∀ (kept : Dict String (List MappedBlockDelta)) (value : List MappedBlockDelta),
      (∀ id pending, kept.get? id = some pending → s.items.get? id = none) →
      ∀ id pending, (kept.set mapped.itemId value).get? id = some pending → s.items.get? id = none := by
    intro kept value hkept id pending hget
    by_cases hid : mapped.itemId = id
    · rw [← hid, hnew]
    · rw [Dict.get?_set_ne _ _ hid] at hget
      exact hkept id pending hget
  unfold ProjectionStore.bufferDelta
  split
  · split
    · exact ⟨hset _ _ h.unseen, h.tracked⟩
    · exact h
  refine ⟨hset _ _ ?_, h.tracked⟩
  intro id pending hget
  split at hget
  · split at hget
    · rw [Dict.get?_erase] at hget
      split at hget
      · cases hget
      · exact h.unseen id pending hget
    · exact h.unseen id pending hget
  · exact h.unseen id pending hget

theorem missing_of_order {t u : Timeline β} (ht : t.Sound) (hu : u.Sound) (h : u.order = t.order)
    (hget : t.items.get? id = none) : u.items.get? id = none := by
  rw [Dict.get?_eq_none, ht.keyed] at hget
  rwa [Dict.get?_eq_none, hu.keyed, h]

/-! ## Deltas into an item -/

structure Extended (strict : Prop) (s : ProjectionStore β) (ms : List (StoreMutation β)) (s' : ProjectionStore β) : Prop where
  emits : Emits strict s.toTimeline ms s'.toTimeline
  order : s'.order = s.order
  pendingDeltas : s'.pendingDeltas = s.pendingDeltas
  provenancePending : s'.provenancePending = s.provenancePending

theorem Extended.refl (s : ProjectionStore β) : Extended strict s [] s := ⟨.nil _, rfl, rfl, rfl⟩

theorem Extended.trans {s'' : ProjectionStore β} {ms' : List (StoreMutation β)} (h : Extended strict s ms s')
    (h' : Extended strict s' ms' s'') : Extended strict s (ms ++ ms') s'' where
  emits := h.emits.append h'.emits
  order := h'.order.trans h.order
  pendingDeltas := h'.pendingDeltas.trans h.pendingDeltas
  provenancePending := h'.provenancePending.trans h.provenancePending

theorem Extended.buffers (h : Extended strict s ms s') (hs : s.toTimeline.Sound) (hb : s.Buffers) : s'.Buffers where
  unseen := by
    intro id pending hget
    rw [h.pendingDeltas] at hget
    exact missing_of_order hs (h.emits.sound hs) h.order (hb.unseen id pending hget)
  tracked := by
    intro id requestId hget
    rw [h.provenancePending] at hget
    obtain ⟨item, hitem⟩ := hb.tracked id requestId hget
    obtain ⟨item', hitem', -⟩ := h.emits.keeps_ordinal hitem
    exact ⟨item', hitem'⟩

theorem extend_spec (hget : s.items.get? item.itemId = some item) (hcode : strict → ¬ item.ExtendsCode blockId delta) :
    Extended strict s (s.extend item blockId delta).2 (s.extend item blockId delta).1 := by
  unfold ProjectionStore.extend
  by_cases hblock : item.hasBlock blockId = true
  · rw [if_pos hblock]
    exact ⟨.one (.delta hget hblock hcode), rfl, rfl, rfl⟩
  · rw [if_neg hblock]
    exact ⟨.one (.upsert (by exact hget) rfl rfl), rfl, rfl, rfl⟩

structure GrownFrom (candidate current : ConversationItem β) : Prop where
  kind : current.kind = candidate.kind
  code : ∀ block ∈ current.blocks, block.isCode = true →
    ∃ block' ∈ candidate.blocks, block'.blockId = block.blockId ∧ block'.isCode = true

theorem GrownFrom.target (h : GrownFrom candidate current) (delta : MappedBlockDelta) :
    delta.target current = delta.target candidate := by
  simp [MappedBlockDelta.target, ConversationItem.defaultBlock, h.kind]

theorem GrownFrom.spares (h : GrownFrom candidate current) (hspared : ¬ candidate.ExtendsCode blockId delta) :
    ¬ current.ExtendsCode blockId delta := by
  intro ⟨hdelta, block, hmem, hid, hcode⟩
  obtain ⟨block', hmem', hid', hcode'⟩ := h.code block hmem hcode
  exact hspared ⟨hdelta, block', hmem', hid'.trans hid, hcode'⟩

theorem isCode_appendText (block : ConversationContentBlock β) (delta : String) :
    (appendText block delta).isCode = block.isCode := by
  obtain ⟨blockId, body⟩ := block
  cases body <;> rfl

theorem GrownFrom.withDelta (h : GrownFrom candidate current) (blockId delta : String) :
    GrownFrom candidate (current.withDelta blockId delta) where
  kind := h.kind
  code := by
    intro block hmem hcode
    obtain ⟨old, hold, rfl⟩ := List.mem_map.mp hmem
    by_cases hid : old.blockId = blockId
    · simp only [hid, ne_eq, not_true_eq_false, if_false, isCode_appendText, appendText_blockId] at hcode ⊢
      simpa [hid] using h.code old hold hcode
    · simp only [ne_eq, hid, not_false_eq_true, if_true] at hcode ⊢
      exact h.code old hold hcode

theorem GrownFrom.mint (h : GrownFrom candidate current) (blockId text : String) :
    GrownFrom candidate (current.mintBlockWithText blockId text) where
  kind := h.kind
  code := by
    intro block hmem hcode
    rcases List.mem_append.mp hmem with hmem | hmem
    · exact h.code block hmem hcode
    -- a minted block is never a code block
    rw [List.mem_singleton.mp hmem] at hcode
    cases hkind : current.kind <;> simp [hkind, ConversationContentBlock.isCode] at hcode

theorem extend_current (h : GrownFrom candidate item) (blockId delta : String) :
    ∃ next, (s.extend item blockId delta).1.items.get? item.itemId = some next ∧ next.itemId = item.itemId ∧
      GrownFrom candidate next := by
  unfold ProjectionStore.extend
  by_cases hblock : item.hasBlock blockId = true
  · rw [if_pos hblock]
    exact ⟨_, Dict.get?_set_self .., rfl, h.withDelta blockId delta⟩
  · rw [if_neg hblock]
    exact ⟨_, Dict.get?_set_self .., rfl, h.mint blockId delta⟩

theorem flushLoop_spec : ∀ (deltas : List MappedBlockDelta)
    (s : ProjectionStore β) {current : ConversationItem β}, s.items.get? current.itemId = some current →
    GrownFrom candidate current →
    (strict → ∀ delta ∈ deltas, delta.target candidate ∉ authoritative →
      ¬ candidate.ExtendsCode (delta.target candidate) delta.delta) →
    ∃ s' ms, ProjectionStore.flushLoop current.itemId authoritative deltas s = some (s', ms) ∧ Extended strict s ms s' := by
  intro deltas
  induction deltas with
  | nil =>
    intro s current _ _ _
    exact ⟨s, [], rfl, .refl s⟩
  | cons delta rest ih =>
    intro s current hget hgrown hspared
    have hrest : strict → ∀ delta ∈ rest, delta.target candidate ∉ authoritative →
        ¬ candidate.ExtendsCode (delta.target candidate) delta.delta := fun hstrict d hd =>
      hspared hstrict d (List.mem_cons_of_mem _ hd)
    rw [ProjectionStore.flushLoop, hget, Option.bind_some]
    by_cases hauth : delta.target current ∈ authoritative
    · rw [if_pos hauth]
      exact ih s hget hgrown hrest
    rw [if_neg hauth]
    have hcode : strict → ¬ current.ExtendsCode (delta.target current) delta.delta := by
      intro hstrict
      have htarget := hgrown.target delta
      rw [htarget] at hauth ⊢
      exact hgrown.spares (hspared hstrict delta (by simp) hauth)
    obtain ⟨next, hnext, hid, hgrown'⟩ := extend_current (s := s) hgrown (delta.target current) delta.delta
    obtain ⟨s', ms, hloop, hext⟩ := ih _ (hid ▸ hnext) hgrown' hrest
    rw [hid] at hloop
    exact ⟨s', _, Option.map_eq_some_iff.mpr ⟨_, hloop, rfl⟩, (extend_spec hget hcode).trans hext⟩

/-! ## The calls -/

/-- No delta with text reaches a code block of an item, on its own or from the buffer. -/
def SparesCode (w : World β) : Call β → Prop
  | .applyItem candidate => ∀ delta ∈ (w.store.pendingDeltas.get? candidate.itemId).getD [],
      delta.target candidate ∉ authoritativeBlockIds candidate → ¬ candidate.ExtendsCode (delta.target candidate) delta.delta
  | .applyDelta mapped => ∀ item ∈ w.store.items.get? mapped.itemId, ¬ item.ExtendsCode (mapped.target item) mapped.delta
  | .applyProvenance .. => True

instance : ∀ (w : World β) (c : Call β), Decidable (SparesCode w c)
  | w, .applyItem candidate => inferInstanceAs (Decidable (∀ delta ∈ (w.store.pendingDeltas.get? candidate.itemId).getD [],
      delta.target candidate ∉ authoritativeBlockIds candidate → ¬ candidate.ExtendsCode (delta.target candidate) delta.delta))
  | w, .applyDelta mapped => inferInstanceAs (Decidable (∀ item ∈ w.store.items.get? mapped.itemId,
      ¬ item.ExtendsCode (mapped.target item) mapped.delta))
  | _, .applyProvenance .. => inferInstanceAs (Decidable True)

theorem flush_none (h : s.pendingDeltas.get? id = none) : s.flushPendingDeltas id authoritative = some (s, []) := by
  rw [ProjectionStore.flushPendingDeltas, h]

theorem flush_spec (hget : s.items.get? item.itemId = some item) (hgrown : GrownFrom candidate item)
    (hspared : strict → ∀ delta ∈ (s.pendingDeltas.get? item.itemId).getD [], delta.target candidate ∉ authoritative →
      ¬ candidate.ExtendsCode (delta.target candidate) delta.delta) :
    ∃ base s' ms, s.flushPendingDeltas item.itemId authoritative = some (s', ms) ∧ Extended strict base ms s' ∧
      base.toTimeline = s.toTimeline ∧ base.provenancePending = s.provenancePending ∧
      ∀ id pending, base.pendingDeltas.get? id = some pending → id ≠ item.itemId ∧ s.pendingDeltas.get? id = some pending := by
  unfold ProjectionStore.flushPendingDeltas
  cases hpending : s.pendingDeltas.get? item.itemId with
  | none =>
    refine ⟨s, s, [], rfl, .refl s, rfl, rfl, fun id pending hget => ⟨?_, hget⟩⟩
    intro hid
    rw [hid, hpending] at hget
    cases hget
  | some deltas =>
    rw [hpending] at hspared
    obtain ⟨s', ms, hloop, hext⟩ := flushLoop_spec deltas
      { s with pendingDeltas := s.pendingDeltas.erase item.itemId } hget hgrown hspared
    refine ⟨_, s', ms, hloop, hext, rfl, rfl, fun id pending hget => ?_⟩
    rw [Dict.get?_erase] at hget
    by_cases hid : id = item.itemId
    · rw [if_pos hid] at hget
      cases hget
    · rw [if_neg hid] at hget
      exact ⟨hid, hget⟩

theorem buffers_stored (h : s.Buffers) (item : ConversationItem β) (hitems : s'.items = s.items.set item.itemId item)
    (hpending : ∀ id pending, s'.pendingDeltas.get? id = some pending → id ≠ item.itemId ∧ s.pendingDeltas.get? id = some pending)
    (hprov : ∀ id requestId, s'.provenancePending.get? id = some requestId →
      id = item.itemId ∨ s.provenancePending.get? id = some requestId) : s'.Buffers where
  unseen := by
    intro id pending hget
    obtain ⟨hne, hold⟩ := hpending id pending hget
    rw [hitems, Dict.get?_set_ne _ _ (Ne.symm hne)]
    exact h.unseen id pending hold
  tracked := by
    intro id requestId hget
    rw [hitems, Dict.get?_set]
    by_cases hid : item.itemId = id
    · exact ⟨item, if_pos hid⟩
    · rw [if_neg hid]
      exact h.tracked id requestId ((hprov id requestId hget).resolve_left (Ne.symm hid))

structure Accounts (strict : Prop) (w : World β) : Prop where
  emits : Emits strict Timeline.empty w.emitted w.store.toTimeline
  buffers : w.store.Buffers

theorem Accounts.sound (h : Accounts strict w) : w.store.toTimeline.Sound := h.emits.sound sound_empty

/-- Replaying what was emitted, from the empty conversation, gives the store's items, with the ordinals 1..n. -/
def Replays [DecidableEq β] (w : World β) : Prop :=
  ∃ proj items, ActiveConversationProjection.replay w.emitted emptyProjection = some proj ∧
    proj.orderedItems = some items ∧ w.store.ordered = some items ∧
    items.map (·.globalOrdinal) = List.range' 1 items.length

theorem Accounts.replays [DecidableEq β] (h : Accounts True w) : Replays w := by
  have hs := h.sound
  refine ⟨w.store.view, w.store.items.values, h.emits.replayed sound_empty, hs.ordered, hs.ordered, ?_⟩
  have hlen : w.store.items.values.length = w.store.order.length := by
    rw [← hs.keyed, Dict.keys, Dict.values, List.length_map, List.length_map]
  rw [hlen]
  exact hs.ordinals

section
variable [BEq β] {s : ProjectionStore β}

def Serves (strict : Prop) (s : ProjectionStore β) (c : Call β) : Prop :=
  ∃ s' ms, s.call c = some (s', ms) ∧ Emits strict s.toTimeline ms s'.toTimeline ∧ s'.Buffers

variable {candidate existing : ConversationItem β} {c : Call β} {w w' : World β} {ok : World β → Call β → Prop}

theorem applyItem_new (hs : s.toTimeline.Sound) (hb : s.Buffers) (hnew : s.items.get? candidate.itemId = none)
    (hspared : strict → ∀ delta ∈ (s.pendingDeltas.get? candidate.itemId).getD [],
      delta.target candidate ∉ authoritativeBlockIds candidate → ¬ candidate.ExtendsCode (delta.target candidate) delta.delta) :
    Serves strict s (.applyItem candidate) := by
  let item := s.arrived candidate
  let entered := ({ s.setItem item with order := s.order ++ [item.itemId] }).trackProvenance item
  have htimeline : entered.toTimeline = ⟨s.items.set item.itemId item, s.order ++ [item.itemId]⟩ := trackProvenance_timeline _ _
  have hemit : Emit strict s.toTimeline (.appendItem item) entered.toTimeline := by
    rw [htimeline]
    exact .append hnew rfl rfl
  have hpendingDeltas : entered.pendingDeltas = s.pendingDeltas := trackProvenance_pendingDeltas _ _
  have hget : entered.items.get? item.itemId = some item := by
    rw [show entered.items = s.items.set item.itemId item from congrArg Timeline.items htimeline]
    exact Dict.get?_set_self ..
  have hgrown : GrownFrom candidate item := ⟨rfl, fun block hmem hcode => ⟨block, hmem, rfl, hcode⟩⟩
  rw [← hpendingDeltas] at hspared
  obtain ⟨base, s', ms, hflush, hext, hbase, hprov, hpending⟩ := flush_spec hget hgrown hspared
  have hbuffers : base.Buffers := by
    apply buffers_stored hb item
    · rw [hbase, htimeline]
    · intro id pending hget
      rw [← hpendingDeltas]
      exact hpending id pending hget
    intro id requestId hget
    have htracked := trackProvenance_pending (hprov ▸ hget)
    exact htracked
  refine ⟨s', .appendItem item :: ms, ?_, ?_, ?_⟩
  · simp only [ProjectionStore.call, ProjectionStore.applyItem, hnew]
    exact Option.map_eq_some_iff.mpr ⟨_, hflush, rfl⟩
  · exact .cons hemit (hbase ▸ hext.emits)
  · exact hext.buffers (hbase ▸ hemit.sound hs) hbuffers

theorem applyItem_existing_eq (hs : s.toTimeline.Sound) (hb : s.Buffers)
    (hold : s.items.get? candidate.itemId = some existing) :
    s.applyItem candidate = some
      (if sameButNormalized existing (mergeCandidate existing candidate) then (s, [])
      else
        let item := ProjectionStore.upserted existing (mergeCandidate existing candidate)
        ((s.setItem item).trackProvenance item, [.upsertItem item])) := by
  have hid : existing.itemId = candidate.itemId := hs.filed _ _ hold
  have hnone : s.pendingDeltas.get? existing.itemId = none := by
    by_contra hsome
    obtain ⟨pending, hpending⟩ := Option.ne_none_iff_exists'.mp hsome
    have hmissing := hb.unseen _ _ hpending
    rw [hid, hold] at hmissing
    cases hmissing
  by_cases hsame : sameButNormalized existing (mergeCandidate existing candidate) = true
  · simp only [ProjectionStore.applyItem, hold, hsame, if_true, flush_none hnone]
  let item := ProjectionStore.upserted existing (mergeCandidate existing candidate)
  have hitem : item.itemId = candidate.itemId := mergeCandidate_itemId existing candidate
  have hflush : ((s.setItem item).trackProvenance item).flushPendingDeltas item.itemId (authoritativeBlockIds candidate) =
      some ((s.setItem item).trackProvenance item, []) := by
    apply flush_none
    rw [trackProvenance_pendingDeltas]
    exact hitem ▸ hid ▸ hnone
  rw [if_neg hsame]
  simp only [ProjectionStore.applyItem, hold, hsame]
  exact Option.map_eq_some_iff.mpr ⟨_, hflush, rfl⟩

/-- An upsert of a stored item leaves the store, or sets the upserted item and nothing waits for it. -/
theorem applyItem_updates (hs : s.toTimeline.Sound) (hb : s.Buffers) (hold : s.items.get? candidate.itemId = some existing)
    (happly : s.applyItem candidate = some (s', ms)) :
    sameButNormalized existing (mergeCandidate existing candidate) = true ∧ s' = s ∨
    s'.pendingDeltas = s.pendingDeltas ∧
      s'.items = s.items.set candidate.itemId (ProjectionStore.upserted existing (mergeCandidate existing candidate)) := by
  rw [applyItem_existing_eq hs hb hold] at happly
  by_cases hsame : sameButNormalized existing (mergeCandidate existing candidate) = true
  · rw [if_pos hsame] at happly
    exact .inl ⟨hsame, (Prod.mk.inj (Option.some.inj happly)).1.symm⟩
  rw [if_neg hsame] at happly
  obtain ⟨rfl, -⟩ := Prod.mk.inj (Option.some.inj happly)
  refine .inr ⟨trackProvenance_pendingDeltas _ _, ?_⟩
  rw [← mergeCandidate_itemId existing candidate]
  exact congrArg Timeline.items (trackProvenance_timeline _ _)

theorem applyItem_existing (hs : s.toTimeline.Sound) (hb : s.Buffers)
    (hold : s.items.get? candidate.itemId = some existing) : Serves strict s (.applyItem candidate) := by
  have hcall := applyItem_existing_eq hs hb hold
  by_cases hsame : sameButNormalized existing (mergeCandidate existing candidate) = true
  · rw [if_pos hsame] at hcall
    exact ⟨s, [], hcall, .nil _, hb⟩
  rw [if_neg hsame] at hcall
  let item := ProjectionStore.upserted existing (mergeCandidate existing candidate)
  have hitem : item.itemId = candidate.itemId := mergeCandidate_itemId existing candidate
  have htimeline : ((s.setItem item).trackProvenance item).toTimeline = ⟨s.items.set item.itemId item, s.order⟩ :=
    trackProvenance_timeline _ _
  refine ⟨(s.setItem item).trackProvenance item, [.upsertItem item], hcall, ?_, ?_⟩
  · rw [htimeline]
    exact .one (.upsert (hitem ▸ hold) rfl rfl)
  apply buffers_stored hb item
  · exact congrArg Timeline.items htimeline
  · intro id pending hget
    rw [trackProvenance_pendingDeltas] at hget
    refine ⟨?_, hget⟩
    intro heq
    have hmissing := hb.unseen id pending hget
    rw [heq, hitem, hold] at hmissing
    cases hmissing
  intro id requestId hget
  have htracked := trackProvenance_pending hget
  exact htracked

theorem applyDelta_serves (hs : s.toTimeline.Sound) (hb : s.Buffers) {mapped : MappedBlockDelta}
    (hspared : strict → ∀ item ∈ s.items.get? mapped.itemId, ¬ item.ExtendsCode (mapped.target item) mapped.delta) :
    Serves strict s (.applyDelta mapped) := by
  cases hget : s.items.get? mapped.itemId with
  | none =>
    have hcall : s.applyDelta mapped = (s.bufferDelta mapped, []) := by rw [ProjectionStore.applyDelta, hget]
    refine ⟨s.bufferDelta mapped, [], congrArg some hcall, ?_, unseen_bufferDelta hb hget⟩
    rw [bufferDelta_timeline]
    exact .nil _
  | some item =>
    have hid : item.itemId = mapped.itemId := hs.filed _ _ hget
    have hext := extend_spec (hid.symm ▸ hget) fun hstrict => hspared hstrict item hget
    have hcall : s.applyDelta mapped = s.extend item (mapped.target item) mapped.delta := by
      rw [ProjectionStore.applyDelta, hget]
    exact ⟨_, _, congrArg some hcall, hext.emits, hext.buffers hs hb⟩

theorem applyProvenance_serves (hs : s.toTimeline.Sound) (hb : s.Buffers) (requestId : String)
    (source : Option SubmissionSource) : Serves strict s (.applyProvenance requestId source) := by
  show ∃ s' ms, s.applyProvenance requestId source = some (s', ms) ∧ Emits strict s.toTimeline ms s'.toTimeline ∧ s'.Buffers
  unfold ProjectionStore.applyProvenance
  split
  · rename_i source itemId request hfound
    have hmem := List.mem_of_find?_eq_some hfound
    obtain ⟨item, hget⟩ := hb.tracked itemId request (Dict.get?_eq_some.mpr hmem)
    have hid : item.itemId = itemId := hs.filed _ _ hget
    subst hid
    have hemit : Emit strict s.toTimeline (.upsertItem (ProjectionStore.attributed item source))
        ⟨s.items.set item.itemId (ProjectionStore.attributed item source), s.order⟩ := .upsert hget rfl rfl
    refine ⟨_, _, Option.map_eq_some_iff.mpr ⟨item, hget, rfl⟩, .one hemit, ?_⟩
    constructor
    · intro id pending hpending
      exact missing_of_order hs (hemit.sound hs) rfl (hb.unseen id pending hpending)
    intro id requestId hpending
    obtain ⟨old, hold⟩ := hb.tracked id requestId hpending
    obtain ⟨item', hitem', -⟩ := hemit.keeps_ordinal hold
    exact ⟨item', hitem'⟩
  · exact ⟨_, [], rfl, .nil _, hb.unseen, hb.tracked⟩

theorem call_serves (hs : s.toTimeline.Sound) (hb : s.Buffers) {log : List (StoreMutation β)}
    (hok : strict → SparesCode ⟨s, log⟩ c) : Serves strict s c := by
  cases c with
  | applyItem candidate =>
    cases hget : s.items.get? candidate.itemId with
    | none => exact applyItem_new hs hb hget hok
    | some existing => exact applyItem_existing hs hb hget
  | applyDelta mapped => exact applyDelta_serves hs hb hok
  | applyProvenance requestId source => exact applyProvenance_serves hs hb requestId source

theorem serves_free (hs : s.toTimeline.Sound) (hb : s.Buffers) : Serves False s c :=
  call_serves hs hb (show False → SparesCode ⟨s, []⟩ c from False.elim)

/-! ## Runs -/

theorem accounts_init : Accounts strict (activeSystem β).init where
  emits := .nil _
  buffers := by
    constructor
    · intro id pending hget
      exact absurd hget (by simp [activeSystem, ProjectionStore.empty])
    · intro id requestId hget
      exact absurd hget (by simp [activeSystem, ProjectionStore.empty])

theorem step_emits (h : Accounts strict w) (hok : strict → SparesCode w c) (hs : (activeSystem β).step w c = some w') :
    Accounts strict w' ∧ ∃ ms, Emits strict w.store.toTimeline ms w'.store.toTimeline := by
  obtain ⟨s', ms, hcall, hemits, hbuffers⟩ := call_serves h.sound h.buffers hok
  simp only [activeSystem, hcall, Option.map_some, Option.some.injEq] at hs
  subst hs
  exact ⟨⟨h.emits.append hemits, hbuffers⟩, ms, hemits⟩

theorem accounts_reachable (hok : ∀ w c, ok w c → strict → SparesCode w c) (h : Reachable (activeSystem β) ok w) :
    Accounts strict w :=
  h.invariant (I := Accounts strict) accounts_init fun w c _ hi hc hs => (step_emits hi (hok w c hc) hs).1

theorem steps_emits (hok : ∀ w c, ok w c → strict → SparesCode w c) (hi : Accounts strict w)
    (h : Steps (activeSystem β) ok w w') : ∃ ms, Emits strict w.store.toTimeline ms w'.store.toTimeline := by
  refine (h.stays (I := Accounts strict) (P := fun u => ∃ ms, Emits strict w.store.toTimeline ms u.store.toTimeline) ?_ ?_ hi
    ⟨[], .nil _⟩).2
  · intro u c v hu hc hs
    exact (step_emits hu (hok u c hc) hs).1
  intro u c v hu hp hc hs
  obtain ⟨ms, hms⟩ := hp
  obtain ⟨-, ms', hms'⟩ := step_emits hu (hok u c hc) hs
  exact ⟨ms ++ ms', hms.append hms'⟩

/-- **Replay to the store.** As long as no delta reaches a code block, the emitted mutations give the store's items, each
mutation raises its item's revision by one, and ordinals stay. -/
theorem emitted_replays [DecidableEq β] {w : World β} (h : Reachable (activeSystem β) SparesCode w) :
    Replays w ∧ (∀ id, revisionsOf id w.emitted = List.range' 1 (revisionsOf id w.emitted).length) ∧
      (∀ id item, w.store.items.get? id = some item → item.revision = (revisionsOf id w.emitted).length) ∧
      ∀ w', Steps (activeSystem β) SparesCode w w' → ∀ id item, w.store.items.get? id = some item →
        ∃ item', w'.store.items.get? id = some item' ∧ item'.globalOrdinal = item.globalOrdinal := by
  have hok : ∀ (w : World β) c, SparesCode w c → True → SparesCode w c := fun _ _ hc _ => hc
  have hi := accounts_reachable hok h
  have hrev := hi.emits.revisions
  have hzero : ∀ id, (Timeline.empty : Timeline β).revision id = 0 := fun _ => rfl
  refine ⟨hi.replays, ?_, ?_, ?_⟩
  · intro id
    have hid := (hrev id).1
    rwa [hzero, Nat.zero_add] at hid
  · intro id item hget
    have hid := (hrev id).2
    rw [hzero, Nat.zero_add, Timeline.revision, hget] at hid
    exact hid
  intro w' hsteps id item hget
  obtain ⟨ms, hms⟩ := steps_emits hok hi hsteps
  exact hms.keeps_ordinal hget

end

end

/-! ## A conversation with every kind of mutation, and one with a code block -/

def harnessItem (itemId : String) (kind : ItemKind) (phase : ItemPhase) (blocks : List (ConversationContentBlock Nat)) :
    ConversationItem Nat where
  itemId := itemId
  revision := 1
  globalOrdinal := 1
  lane := .harness
  source := .harnessLive
  provenance := ⟨.nativeOnly, "codex", some .harness, none, none, none⟩
  role := .assistant
  kind := kind
  phase := phase
  blocks := blocks

def userItem : ConversationItem Nat where
  itemId := "prompt-1"
  revision := 1
  globalOrdinal := 1
  lane := .unknownInput
  source := .nativeHistory
  provenance := ⟨.unknown, "codex", none, none, none, none⟩
  role := .user
  kind := .message
  phase := .completed
  blocks := [⟨"markdown", .markdown "run the tests"⟩]
  correlation := some ⟨some "request-1", none, none, none⟩

def toolConversation : List (Call Nat) :=
  [.applyItem userItem, .applyDelta ⟨"tool-1", "", "..."⟩, .applyItem (harnessItem "tool-1" .toolCall .streaming []),
    .applyDelta ⟨"tool-1", "output", "ok"⟩, .applyProvenance "request-1" (some .cockpit),
    .applyItem (harnessItem "tool-1" .toolCall .completed [⟨"diff", .diff none none none none⟩])]

theorem toolConversation_replays :
    ∃ w, checkedRun (activeSystem Nat) SparesCode (activeSystem Nat).init toolConversation = some w ∧
      w.emitted.length = 6 ∧ Replays w := by
  obtain ⟨w, hw⟩ : ∃ w, checkedRun (activeSystem Nat) SparesCode (activeSystem Nat).init toolConversation = some w :=
    Option.isSome_iff_exists.mp (by decide +kernel)
  refine ⟨w, hw, ?_, (emitted_replays (steps_of_checkedRun hw)).1⟩
  have hlen : (checkedRun (activeSystem Nat) SparesCode (activeSystem Nat).init toolConversation).map (·.emitted.length) = some 6 := by
    decide +kernel
  rw [hw] at hlen
  exact Option.some.inj hlen

def codeConversation : List (Call Nat) :=
  [.applyItem (harnessItem "answer-1" .message .streaming [⟨"code", .code "def f():" (some "python")⟩]),
    .applyDelta ⟨"answer-1", "code", " pass"⟩]

/-- The store leaves the code block as it is and the browser extends it. -/
theorem code_delta_not_replayed : ¬ ∀ w, Reachable (activeSystem Nat) always w → Replays w := by
  intro hall
  obtain ⟨w, hw⟩ : ∃ w, runFrom (activeSystem Nat) (activeSystem Nat).init codeConversation = some w :=
    Option.isSome_iff_exists.mp (by decide +kernel)
  have hdiffer : (runFrom (activeSystem Nat) (activeSystem Nat).init codeConversation).all (fun w =>
      (ActiveConversationProjection.replay w.emitted emptyProjection).bind (·.orderedItems) ≠ w.store.ordered) = true := by
    decide +kernel
  rw [hw, Option.all_some, decide_eq_true_eq] at hdiffer
  obtain ⟨proj, items, hproj, hitems, hstore, -⟩ := hall w (reachable_of_runFrom hw)
  apply hdiffer
  rw [hproj, Option.bind_some, hitems, hstore]

end AgentsRemember.Active
